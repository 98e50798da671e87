import TmuxWorktree.Lib.Ends
import TmuxWorktree.Sync.Turns
import TmuxWorktree.Sync.Host
/-!
# Exact — an event of the host keeps the copy exact

A copy of one state becomes a copy of the next.  Each change of the rows comes with the change of their count and bytes.
-/
namespace TmuxWorktree
namespace Sync

variable {t t' : Tables} {a a' : Authority} {h h' : HostState}

/-! ## Count and bytes -/

theorem array_bytes (rs : List Record) : ((Record.array rs).bytes : Int) = canonicalArrayBytes rs.length (Record.bytesOf rs) := by
  unfold Record.array canonicalArrayBytes Record.bytesOf
  rw [Json.bytes, Json.bytesItems_eq, List.map_map, List.length_map]
  have hsum : (rs.map (Json.bytes ∘ Record.canonical)).sum = (rs.map Record.bytes).sum := rfl
  rw [hsum]
  omega

theorem fromArray_array (count bytes : Int) :
    canonicalJsonBytesFromArray (canonicalArrayBytes count bytes) count = bytes := by
  unfold canonicalJsonBytesFromArray canonicalArrayBytes
  omega

theorem recordsOf_length (t : Tables) : t.recordsOf.length = 2 * t.scopes.length + t.sessions.length := by
  unfold Tables.recordsOf
  rw [List.length_append, List.length_map, List.length_flatMap]
  simp only [List.length_cons, List.length_nil, List.map_const', List.sum_replicate, Nat.nsmul_eq_mul]
  omega

theorem recordsOf_bytes (t : Tables) : Record.bytesOf t.recordsOf =
    (t.scopes.map StoredScope.canonicalBytes).sum + (t.sessions.map StoredSession.canonicalBytes).sum := by
  unfold Record.bytesOf Tables.recordsOf
  rw [List.map_append, List.sum_append, List.map_map]
  congr 1
  induction t.scopes with
  | nil => rfl
  | cons s rest ih =>
    rw [List.flatMap_cons, List.map_append, List.sum_append, ih, List.map_cons, List.sum_cons]
    simp [StoredScope.canonicalBytes]

/-- The records of `t'` are more than those of `t`, by this count and these bytes. -/
structure Grows (t t' : Tables) (records bytes : Int) : Prop where
  records : (t'.recordsOf.length : Int) = t.recordsOf.length + records
  bytes : (Record.bytesOf t'.recordsOf : Int) = Record.bytesOf t.recordsOf + bytes

theorem grows_of {records bytes : Int}
    (hrecords : (2 * t'.scopes.length + t'.sessions.length : Int) = 2 * t.scopes.length + t.sessions.length + records)
    (hbytes : ((t'.scopes.map StoredScope.canonicalBytes).sum + (t'.sessions.map StoredSession.canonicalBytes).sum : Int) =
      (t.scopes.map StoredScope.canonicalBytes).sum + (t.sessions.map StoredSession.canonicalBytes).sum + bytes) :
    Grows t t' records bytes where
  records := by
    rw [recordsOf_length, recordsOf_length]
    push_cast
    exact hrecords
  bytes := by
    rw [recordsOf_bytes, recordsOf_bytes]
    omega

section Weights

variable {κ ν : Type} [DecidableEq κ] {key : ν → κ} {v u : ν} {l : List ν}

theorem length_put_new (hv : Keyed.find key (key v) l = none) : (Keyed.put key v l).length = l.length + 1 := by
  unfold Keyed.put
  rw [hv]
  simp

theorem length_put_old (hv : Keyed.find key (key v) l = some u) : (Keyed.put key v l).length = l.length := by
  unfold Keyed.put
  rw [hv]
  simp [Keyed.update]

theorem length_erase {k : κ} (hn : (l.map key).Nodup) (hv : Keyed.find key k l = some v) :
    (Keyed.erase key k l).length + 1 = l.length := by
  have := Keyed.sum_erase (w := fun _ => 1) hn hv
  simpa using this

theorem sum_split (p : ν → Bool) (w : ν → Nat) (l : List ν) :
    ((l.filter fun x => !p x).map w).sum + ((l.filter p).map w).sum = (l.map w).sum := by
  induction l with
  | nil => rfl
  | cons x l ih =>
    cases hx : p x <;> simp [hx] <;> omega

end Weights

/-! ## What the source computes for a change -/

def Tables.Distinct (t : Tables) : Prop :=
  (t.scopes.map fun s => s.item.scopeId).Nodup ∧ (t.sessions.map StoredSession.key).Nodup

def Effects (P : Effect → Prop) (r : Option Effect) : Prop := ∀ f, r = some f → P f

theorem effects_none {P : Effect → Prop} : Effects P none := by simp [Effects]

theorem effects_some {P : Effect → Prop} {f : Effect} (h : P f) : Effects P (some f) := by
  rintro f' ⟨⟩
  exact h

theorem scope_key {id : String} {s : StoredScope} (hs : t.scope id = some s) : s.item.scopeId = id := by
  unfold Tables.scope at hs
  have := Keyed.key_of_find hs
  exact this

theorem scope_found {id : String} {s : StoredScope} (hs : t.scope id = some s) :
    Keyed.find (fun s : StoredScope => s.item.scopeId) s.item.scopeId t.scopes = some s := by
  rw [scope_key hs]
  exact hs

variable (revision : Option Nat) (resulting : Nat)

theorem increment_sets {m : Nat} : Ends (increment m) (fun r => r = m + 1) (fun _ => True) := by
  unfold increment
  exact Ends.ite (fun _ => Ends.ok rfl) fun _ => Ends.error trivial

theorem scopeUpsert_exact (item : ScopeItem) (hd : t.Distinct) :
    Ends (t.scopeUpsert revision resulting item) (Effects fun f => f.scopesRevision = some resulting ∧
      f.rows = t.putScope ⟨item, (t.scope item.scopeId).elim 0 StoredScope.sessionsRevision⟩ ∧
      Grows t f.rows f.records f.bytes) (fun _ => True) := by
  unfold Tables.scopeUpsert
  split
  · exact Ends.pure effects_none
  refine Ends.bind increment_sets fun _ _ => Ends.ite (fun _ => Ends.pure effects_none) fun _ => ?_
  split
  · rename_i hp
    have hlen := length_put_new (v := (⟨item, 0⟩ : StoredScope)) hp
    have hsum := Keyed.sum_put_new (w := StoredScope.canonicalBytes) (v := (⟨item, 0⟩ : StoredScope)) hp
    rw [hp]
    refine Ends.pure (effects_some ⟨rfl, rfl, grows_of ?_ ?_⟩) <;> simp only [Tables.putScope] <;> omega
  · rename_i prior hp
    have hlen := length_put_old (v := (⟨item, prior.sessionsRevision⟩ : StoredScope)) hp
    have hsum := Keyed.sum_put_old (w := StoredScope.canonicalBytes) (v := (⟨item, prior.sessionsRevision⟩ : StoredScope))
      hd.1 hp
    rw [hp]
    refine Ends.pure (effects_some ⟨rfl, rfl, grows_of ?_ ?_⟩) <;> simp only [Tables.putScope] <;> omega

theorem scopeDelete_exact (scopeId : String) (hd : t.Distinct) :
    Ends (t.scopeDelete revision resulting scopeId) (Effects fun f => f.scopesRevision = some resulting ∧
      f.rows = (t.deleteSessionsForScope scopeId).deleteScope scopeId ∧ Grows t f.rows f.records f.bytes)
      (fun _ => True) := by
  have hsplit : ∀ w : StoredSession → Nat,
      (((t.sessions.filter fun s => s.item.scopeId ≠ scopeId).map w).sum + ((t.sessionsOf scopeId).map w).sum) =
        (t.sessions.map w).sum := by
    intro w
    simpa [Tables.sessionsOf] using sum_split (fun s : StoredSession => decide (s.item.scopeId = scopeId)) w t.sessions
  have hcount := hsplit fun _ => 1
  simp only [List.map_const', List.sum_replicate, Nat.nsmul_eq_mul, Nat.mul_one] at hcount
  have hbytes := hsplit StoredSession.canonicalBytes
  unfold Tables.scopeDelete
  split
  · exact Ends.pure effects_none
  refine Ends.bind increment_sets fun _ _ => Ends.ite (fun _ => Ends.pure effects_none) fun _ => ?_
  split
  · exact Ends.pure effects_none
  · rename_i prior hp
    have hlen := length_erase hd.1 hp
    have hsum := Keyed.sum_erase (w := StoredScope.canonicalBytes) hd.1 hp
    refine Ends.pure (effects_some ⟨rfl, rfl, grows_of ?_ ?_⟩) <;>
      simp only [Tables.deleteScope, Tables.deleteSessionsForScope, Tables.sessionStats] <;> omega

theorem sessionUpsert_exact (item : SessionItem) (hd : t.Distinct) :
    Ends (t.sessionUpsert revision resulting item) (Effects fun f => ∃ owning, t.scope item.scopeId = some owning ∧
      f.scopesRevision = revision ∧ f.rows = (t.putSession ⟨item⟩).putScope ⟨owning.item, resulting⟩ ∧
      Grows t f.rows f.records f.bytes) (fun _ => True) := by
  unfold Tables.sessionUpsert
  split
  · exact Ends.pure effects_none
  rename_i owning ho
  refine Ends.bind increment_sets fun _ _ => Ends.ite (fun _ => Ends.pure effects_none) fun _ => ?_
  have ho' := scope_found ho
  have hlen := length_put_old (v := (⟨owning.item, resulting⟩ : StoredScope)) ho'
  have hsum := Keyed.sum_put_old (w := StoredScope.canonicalBytes) (v := (⟨owning.item, resulting⟩ : StoredScope)) hd.1 ho'
  dsimp only
  split
  · rename_i hp
    have hp' : Keyed.find StoredSession.key (StoredSession.key ⟨item⟩) t.sessions = none := hp
    have hlen' := length_put_new (v := (⟨item⟩ : StoredSession)) hp'
    have hsum' := Keyed.sum_put_new (w := StoredSession.canonicalBytes) (v := (⟨item⟩ : StoredSession)) hp'
    refine Ends.pure (effects_some ⟨owning, ho, rfl, rfl, grows_of ?_ ?_⟩) <;>
      simp only [Tables.putScope, Tables.putSession] <;> omega
  · rename_i prior hp
    have hp' : Keyed.find StoredSession.key (StoredSession.key ⟨item⟩) t.sessions = some prior := hp
    have hlen' := length_put_old (v := (⟨item⟩ : StoredSession)) hp'
    have hsum' := Keyed.sum_put_old (w := StoredSession.canonicalBytes) (v := (⟨item⟩ : StoredSession)) hd.2 hp'
    refine Ends.pure (effects_some ⟨owning, ho, rfl, rfl, grows_of ?_ ?_⟩) <;>
      simp only [Tables.putScope, Tables.putSession] <;> omega

theorem sessionDelete_exact (scopeId sessionId : String) (hd : t.Distinct) :
    Ends (t.sessionDelete revision resulting scopeId sessionId) (Effects fun f => ∃ owning, t.scope scopeId = some owning ∧
      f.scopesRevision = revision ∧ f.rows = (t.deleteSession scopeId sessionId).putScope ⟨owning.item, resulting⟩ ∧
      Grows t f.rows f.records f.bytes) (fun _ => True) := by
  unfold Tables.sessionDelete
  split
  · exact Ends.pure effects_none
  rename_i owning ho
  refine Ends.bind increment_sets fun _ _ => Ends.ite (fun _ => Ends.pure effects_none) fun _ => ?_
  have ho' := scope_found ho
  have hlen := length_put_old (v := (⟨owning.item, resulting⟩ : StoredScope)) ho'
  have hsum := Keyed.sum_put_old (w := StoredScope.canonicalBytes) (v := (⟨owning.item, resulting⟩ : StoredScope)) hd.1 ho'
  split
  · exact Ends.pure effects_none
  · rename_i prior hp
    have hlen' := length_erase hd.2 hp
    have hsum' := Keyed.sum_erase (w := StoredSession.canonicalBytes) hd.2 hp
    refine Ends.pure (effects_some ⟨owning, ho, rfl, rfl, grows_of ?_ ?_⟩) <;>
      simp only [Tables.putScope, Tables.deleteSession] <;> omega

/-! ## What the rows read -/

theorem scope_putScope (s : StoredScope) : (t.putScope s).scope = Function.update t.scope s.item.scopeId (some s) := by
  funext id
  by_cases hid : id = s.item.scopeId
  · subst hid
    rw [Function.update_self]
    exact Keyed.find_put_self
  · rw [Function.update_of_ne hid]
    exact Keyed.find_put_ne hid

theorem scope_deleteScope (scopeId : String) : (t.deleteScope scopeId).scope = Function.update t.scope scopeId none := by
  funext id
  by_cases hid : id = scopeId
  · subst hid
    rw [Function.update_self]
    exact Keyed.find_erase_self
  · rw [Function.update_of_ne hid]
    exact Keyed.find_erase_ne hid

def Tables.sessionAt (t : Tables) (k : String × String) : Option SessionItem :=
  (Keyed.find StoredSession.key k t.sessions).map StoredSession.item

theorem sessionAt_putSession (x : StoredSession) :
    (t.putSession x).sessionAt = Function.update t.sessionAt x.key (some x.item) := by
  funext k
  unfold Tables.sessionAt Tables.putSession
  by_cases hk : k = x.key
  · subst hk
    rw [Function.update_self, Keyed.find_put_self, Option.map_some]
  · rw [Function.update_of_ne hk, Keyed.find_put_ne hk]

theorem sessionAt_deleteSession (scopeId sessionId : String) :
    (t.deleteSession scopeId sessionId).sessionAt = Function.update t.sessionAt (scopeId, sessionId) none := by
  funext k
  unfold Tables.sessionAt Tables.deleteSession
  by_cases hk : k = (scopeId, sessionId)
  · subst hk
    rw [Function.update_self, Keyed.find_erase_self, Option.map_none]
  · rw [Function.update_of_ne hk, Keyed.find_erase_ne hk]

theorem sessionAt_deleteSessionsForScope (scopeId : String) :
    (t.deleteSessionsForScope scopeId).sessionAt = fun k => if k.1 = scopeId then none else t.sessionAt k := by
  funext k
  unfold Tables.sessionAt Tables.deleteSessionsForScope Keyed.find
  rw [List.find?_filter]
  split
  · rename_i hk
    rw [List.find?_eq_none.mpr fun x _ hx => ?_, Option.map_none]
    simp only [Bool.and_eq_true, decide_eq_true_eq] at hx
    have hscope : x.item.scopeId = k.1 := congrArg Prod.fst hx.2
    exact hx.1 (hscope.trans hk)
  · rename_i hk
    congr 2
    funext x
    by_cases hx : x.key = k
    · have hscope : x.item.scopeId = k.1 := congrArg Prod.fst hx
      simp [hx, hscope, hk]
    · simp [hx]

/-! ## The next state -/

/-- The rows are a copy of the state. -/
structure Copies (t : Tables) (h : HostState) : Prop where
  distinct : t.Distinct
  scopes : t.scope = h.scopes
  sessions : t.sessionAt = h.sessions

theorem copies_scopeUpsert {item : ScopeItem} {resulting : Nat} (hc : Copies t h)
    (hf : h.Follows h' resulting (.scopeUpsert item)) :
    Copies (t.putScope ⟨item, (t.scope item.scopeId).elim 0 StoredScope.sessionsRevision⟩) h' := by
  obtain ⟨-, -, hsessions, hscopes⟩ := hf
  refine ⟨⟨Keyed.keys_put hc.distinct.1, hc.distinct.2⟩, ?_, ?_⟩
  · rw [scope_putScope, hscopes, hc.scopes]
  · rw [hsessions]
    exact hc.sessions

theorem copies_scopeDelete {scopeId : String} {resulting : Nat} (hc : Copies t h)
    (hf : h.Follows h' resulting (.scopeDelete scopeId)) :
    Copies ((t.deleteSessionsForScope scopeId).deleteScope scopeId) h' := by
  obtain ⟨-, -, hsessions, hscopes⟩ := hf
  refine ⟨⟨Keyed.keys_erase hc.distinct.1, hc.distinct.2.sublist (List.filter_sublist.map _)⟩, ?_, ?_⟩
  · rw [scope_deleteScope, hscopes]
    exact congrArg (fun f => Function.update f scopeId none) hc.scopes
  · rw [hsessions, ← hc.sessions]
    exact sessionAt_deleteSessionsForScope scopeId

theorem copies_sessionUpsert {item : SessionItem} {owning : StoredScope} {resulting : Nat} (hc : Copies t h)
    (ho : t.scope item.scopeId = some owning) (hf : h.Follows h' resulting (.sessionUpsert item)) :
    Copies ((t.putSession ⟨item⟩).putScope ⟨owning.item, resulting⟩) h' := by
  obtain ⟨s, hs, -, -, hsessions, hscopes⟩ := hf
  have hsame : s = owning := by
    rw [← hc.scopes, ho] at hs
    exact (Option.some.inj hs).symm
  subst hsame
  refine ⟨⟨Keyed.keys_put hc.distinct.1, Keyed.keys_put hc.distinct.2⟩, ?_, ?_⟩
  · have hkey : s.item.scopeId = item.scopeId := scope_key ho
    rw [scope_putScope, hscopes, ← hkey, ← hc.scopes]
    rfl
  · rw [hsessions, ← hc.sessions]
    exact sessionAt_putSession ⟨item⟩

theorem copies_sessionDelete {scopeId sessionId : String} {owning : StoredScope} {resulting : Nat} (hc : Copies t h)
    (ho : t.scope scopeId = some owning) (hf : h.Follows h' resulting (.sessionDelete scopeId sessionId)) :
    Copies ((t.deleteSession scopeId sessionId).putScope ⟨owning.item, resulting⟩) h' := by
  obtain ⟨s, hs, -, -, hsessions, hscopes⟩ := hf
  have hsame : s = owning := by
    rw [← hc.scopes, ho] at hs
    exact (Option.some.inj hs).symm
  subst hsame
  refine ⟨⟨Keyed.keys_put hc.distinct.1, Keyed.keys_erase hc.distinct.2⟩, ?_, ?_⟩
  · have hkey : s.item.scopeId = scopeId := scope_key ho
    rw [scope_putScope, hscopes, ← hkey, ← hc.scopes]
    rfl
  · rw [hsessions, ← hc.sessions]
    exact sessionAt_deleteSession scopeId sessionId

/-- The rows and the numbers of the authority are a copy of the state. -/
structure Counted (a : Authority) (t : Tables) (h : HostState) : Prop where
  copies : Copies t h
  scopesRevision : a.scopesRevision = some h.scopesRevision
  count : a.cacheRecordCount = t.recordsOf.length
  bytes : a.cacheCanonicalBytes = canonicalArrayBytes t.recordsOf.length (Record.bytesOf t.recordsOf)

/-- **An event that is applied makes the copy a copy of the next state.** -/
theorem Counted.advance {e : Event} (hc : Counted a t h) (hf : h.Follows h' e.resultingRevision e.change)
    (hadv : Advances a t e a' t') : Counted a' t' h' := by
  obtain ⟨f, hf', rfl, rfl⟩ := hadv.effect
  have hcopy : Copies f.rows h' ∧ f.scopesRevision = some h'.scopesRevision ∧ Grows t f.rows f.records f.bytes := by
    have hd := hc.copies.distinct
    unfold Tables.applyChange at hf'
    cases hchange : e.change with
    | scopeUpsert item =>
      rw [hchange] at hf hf'
      obtain ⟨hrev, hrows, hgrow⟩ := (scopeUpsert_exact _ _ _ hd).value hf' f rfl
      refine ⟨?_, ?_, hgrow⟩
      · rw [hrows]
        exact copies_scopeUpsert hc.copies hf
      · rw [hrev, hf.2.1]
    | scopeDelete scopeId =>
      rw [hchange] at hf hf'
      obtain ⟨hrev, hrows, hgrow⟩ := (scopeDelete_exact _ _ _ hd).value hf' f rfl
      refine ⟨?_, ?_, hgrow⟩
      · rw [hrows]
        exact copies_scopeDelete hc.copies hf
      · rw [hrev, hf.2.1]
    | sessionUpsert item =>
      rw [hchange] at hf hf'
      obtain ⟨owning, ho, hrev, hrows, hgrow⟩ := (sessionUpsert_exact _ _ _ hd).value hf' f rfl
      refine ⟨?_, ?_, hgrow⟩
      · rw [hrows]
        exact copies_sessionUpsert hc.copies ho hf
      · obtain ⟨_, _, _, hkeep, _⟩ := hf
        rw [hrev, hc.scopesRevision, hkeep]
    | sessionDelete scopeId sessionId =>
      rw [hchange] at hf hf'
      obtain ⟨owning, ho, hrev, hrows, hgrow⟩ := (sessionDelete_exact _ _ _ _ hd).value hf' f rfl
      refine ⟨?_, ?_, hgrow⟩
      · rw [hrows]
        exact copies_sessionDelete hc.copies ho hf
      · obtain ⟨_, _, _, hkeep, _⟩ := hf
        rw [hrev, hc.scopesRevision, hkeep]
  obtain ⟨hcopies, hrev, hgrow⟩ := hcopy
  have hcount : a.cacheRecordCount + f.records = f.rows.recordsOf.length := by rw [hc.count, hgrow.records]
  refine ⟨hcopies, hrev, hcount, ?_⟩
  rw [hcount, hc.count, hc.bytes, fromArray_array, hgrow.bytes]

theorem Counted.mirrors (hc : Counted a t h) : Mirrors a t h where
  scopeKeys := hc.copies.distinct.1
  sessionKeys := hc.copies.distinct.2
  scopes := fun id => congrFun hc.copies.scopes id
  sessions := fun scopeId sessionId => congrFun hc.copies.sessions (scopeId, sessionId)
  scopesRevision := hc.scopesRevision
  count := hc.count
  bytes := by rw [hc.bytes, array_bytes]

end Sync
end TmuxWorktree
