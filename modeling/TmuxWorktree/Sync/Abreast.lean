import TmuxWorktree.Sync.Shadow
/-!
# Abreast — the validation and the application of a buffered event

One event of the buffer is validated on the shadows and applied to the rows.  Both throw, both refuse or both take it with
the same count and bytes, unless it is of a session that is lost.
-/
namespace TmuxWorktree
namespace Sync

variable {t rows : Tables} {snapshotId : String} {v v' : Shadows} {gone : List String} {resulting : Nat}

/-! ## One change -/

def Change.deleted : Change → List String
  | .scopeDelete scopeId => [scopeId]
  | _ => []

def Change.scopeId : Change → String
  | .scopeUpsert item => item.scopeId
  | .scopeDelete scopeId => scopeId
  | .sessionUpsert item => item.scopeId
  | .sessionDelete scopeId _ => scopeId

/-- The session of a change as the staging has it, when an earlier event has deleted its scope. -/
def Change.lost (t : Tables) (snapshotId : String) (gone : List String) : Change → Option StoredSession
  | .sessionUpsert item => if item.scopeId ∈ gone then t.stagedSession snapshotId item.scopeId item.sessionId else none
  | .sessionDelete scopeId sessionId => if scopeId ∈ gone then t.stagedSession snapshotId scopeId sessionId else none
  | _ => none

/-- What the effect of a change makes of the rows, its change makes of the shadows. -/
structure Shifted (t : Tables) (snapshotId : String) (gone : List String) (v v' : Shadows) (f : Effect) : Prop where
  mirrored : Mirrored t snapshotId gone v' f.rows
  lastSeq : v'.lastSeq = v.lastSeq
  scopesRevision : f.scopesRevision = some v'.scopesRevision
  count : v'.recordCount = v.recordCount + f.records
  bytes : v'.jsonBytes = v.jsonBytes + f.bytes

def ChangeAlike (t : Tables) (snapshotId : String) (gone : List String) (v : Shadows) (rows : Tables) (resulting : Nat)
    (c : Change) : Prop :=
  Alike (Shifted t snapshotId (c.deleted ++ gone) v) (v.change t snapshotId resulting c)
    (rows.applyChange (some v.scopesRevision) resulting c)

theorem shadow_new (h : Mirrored t snapshotId gone v rows) {item : ScopeItem} (hs : rows.scope item.scopeId = none) :
    rows.shadow ⟨item, 0⟩ = ⟨⟨item, 0⟩, 0, 0⟩ := by
  unfold Tables.shadow
  rw [stats_weigh, weigh_unhoused _ _ h.housed hs, weigh_unhoused _ _ h.housed hs]
  rfl

theorem scopeUpsert_alike (h : Mirrored t snapshotId gone v rows) (item : ScopeItem) :
    ChangeAlike t snapshotId gone v rows resulting (.scopeUpsert item) := by
  refine Alike.seq fun expected _ => Alike.ite (fun _ => .refuses _) fun _ => ?_
  have hload := h.scope item.scopeId
  cases hs : rows.scope item.scopeId with
  | none =>
    rw [hs] at hload
    rw [hload]
    refine .takes ⟨h.putScope ?_ rfl, rfl, rfl, rfl, rfl⟩
    rw [shadow_new h hs]
  | some prior =>
    rw [hs] at hload
    rw [hload]
    refine .takes ⟨h.putScope ?_ rfl, rfl, rfl, (Int.add_zero _).symm, rfl⟩
    simp only [Tables.shadow, scope_key hs]

theorem scopeDelete_alike (h : Mirrored t snapshotId gone v rows) (scopeId : String) :
    ChangeAlike t snapshotId gone v rows resulting (.scopeDelete scopeId) := by
  refine Alike.seq fun expected _ => Alike.ite (fun _ => .refuses _) fun _ => ?_
  have hload := h.scope scopeId
  cases hs : rows.scope scopeId with
  | none =>
    rw [hs] at hload
    rw [hload]
    exact .refuses _
  | some prior =>
    rw [hs] at hload
    rw [hload]
    refine .takes ⟨h.deleteScope rfl rfl, rfl, rfl, ?_, ?_⟩
    · simp only [Tables.shadow, scope_key hs]
      omega
    · simp only [Tables.shadow, scope_key hs]
      omega

section Sessions

variable {owning : StoredScope} {scopeId sessionId : String}

theorem stats_putSession_ne (hd : rows.Distinct) (x : StoredSession) {id : String} (hne : id ≠ x.item.scopeId) :
    (rows.putSession x).sessionStats id = rows.sessionStats id := by
  have hother : ∀ w, (rows.putSession x).weigh w id = rows.weigh w id := by
    intro w
    cases hx : rows.session x.item.scopeId x.item.sessionId with
    | none => rw [weigh_put_new w id hx, if_neg hne.symm, Nat.add_zero]
    | some prior =>
      have := weigh_put_old w id hd hx
      rwa [scope_of_session hx, if_neg hne.symm, if_neg hne.symm] at this
  rw [stats_weigh, stats_weigh, hother, hother]

theorem stats_deleteSession_ne (hd : rows.Distinct) {id : String} (hne : id ≠ scopeId) :
    (rows.deleteSession scopeId sessionId).sessionStats id = rows.sessionStats id := by
  have hother : ∀ w, (rows.deleteSession scopeId sessionId).weigh w id = rows.weigh w id := by
    intro w
    cases hx : rows.session scopeId sessionId with
    | none =>
      have hsame : rows.deleteSession scopeId sessionId = rows := by
        unfold Tables.deleteSession Keyed.erase
        rw [List.filter_eq_self.mpr fun x hxm => ?_]
        simpa using List.find?_eq_none.mp hx x hxm
      rw [hsame]
    | some prior =>
      have := weigh_delete w id hd hx
      rwa [scope_of_session hx, if_neg hne.symm] at this
  rw [stats_weigh, stats_weigh, hother, hother]

theorem putSession_mirrored (h : Mirrored t snapshotId gone v rows) {item : SessionItem}
    (hs : rows.scope item.scopeId = some owning) (hnot : ¬ Lost t snapshotId gone item.scopeId item.sessionId)
    (hscopes : v'.scopes = Function.update v.scopes item.scopeId
      (some (some ((rows.putSession ⟨item⟩).shadow ⟨owning.item, resulting⟩))))
    (hsessions : v'.sessions = Function.update v.sessions (item.scopeId, item.sessionId) (some (some ⟨item⟩))) :
    Mirrored t snapshotId gone v' ((rows.putSession ⟨item⟩).putScope ⟨owning.item, resulting⟩) := by
  refine h.session_put (s := ⟨owning.item, resulting⟩) hnot (scope_key hs :) ⟨h.distinct.1, Keyed.keys_put h.distinct.2⟩ (fun x hx => ?_) rfl
    (fun id hne => stats_putSession_ne h.distinct ⟨item⟩ hne) (fun id sid => session_putSession ⟨item⟩ id sid) hscopes hsessions
  rcases Keyed.mem_put hx with rfl | hx
  · exact Option.isSome_iff_exists.mpr ⟨owning, hs⟩
  · exact h.housed x hx

theorem sessionUpsert_alike (h : Mirrored t snapshotId gone v rows) (item : SessionItem)
    (hnot : ¬ Lost t snapshotId gone item.scopeId item.sessionId) :
    ChangeAlike t snapshotId gone v rows resulting (.sessionUpsert item) := by
  unfold ChangeAlike
  rw [Shadows.change, Tables.applyChange, Tables.sessionUpsert]
  have hload := h.scope item.scopeId
  have hprior := h.session item.scopeId item.sessionId hnot
  cases hs : rows.scope item.scopeId with
  | none =>
    rw [hs] at hload
    rw [hload]
    exact .refuses _
  | some owning =>
    rw [hs] at hload
    rw [hload]
    refine Alike.seq fun expected _ => Alike.ite (fun _ => .refuses _) fun _ => ?_
    have hid := scope_key hs
    cases hx : rows.session item.scopeId item.sessionId with
    | none =>
      rw [hx] at hprior
      dsimp only
      rw [hprior]
      have hcount := weigh_put_new (x := ⟨item⟩) (fun _ => 1) item.scopeId hx
      have hbytes := weigh_put_new (x := ⟨item⟩) StoredSession.canonicalBytes item.scopeId hx
      refine .takes ⟨putSession_mirrored h hs hnot ?_ rfl, rfl, rfl, rfl, ?_⟩
      · simp only [Tables.shadow, stats_weigh, hid, hcount, hbytes, if_true, Option.isNone_none, Option.elim_none]
        push_cast
        simp
      · simp only [Tables.shadow, Option.elim_none]
        omega
    | some prior =>
      rw [hx] at hprior
      dsimp only
      rw [hprior]
      have hprior' := scope_of_session hx
      have hcount := weigh_put_old (x := ⟨item⟩) (fun _ => 1) item.scopeId h.distinct hx
      have hbytes := weigh_put_old (x := ⟨item⟩) StoredSession.canonicalBytes item.scopeId h.distinct hx
      simp only [hprior', if_true] at hcount hbytes
      refine .takes ⟨putSession_mirrored h hs hnot ?_ rfl, rfl, rfl, rfl, ?_⟩
      · simp only [Tables.shadow, stats_weigh, hid, Option.isNone_some, Bool.false_eq_true, if_false, Option.elim_some]
        congr 3
        refine SnapshotScopeShadow.mk.injEq .. |>.mpr ⟨rfl, ?_, ?_⟩
        · omega
        · omega
      · simp only [Tables.shadow, Option.elim_some]
        omega

theorem deleteSession_mirrored (h : Mirrored t snapshotId gone v rows)
    (hs : rows.scope scopeId = some owning) (hnot : ¬ Lost t snapshotId gone scopeId sessionId)
    (hscopes : v'.scopes = Function.update v.scopes scopeId
      (some (some ((rows.deleteSession scopeId sessionId).shadow ⟨owning.item, resulting⟩))))
    (hsessions : v'.sessions = Function.update v.sessions (scopeId, sessionId) (some none)) :
    Mirrored t snapshotId gone v' ((rows.deleteSession scopeId sessionId).putScope ⟨owning.item, resulting⟩) := by
  refine h.session_put (s := ⟨owning.item, resulting⟩) hnot (scope_key hs :) ⟨h.distinct.1, Keyed.keys_erase h.distinct.2⟩
    (fun x hx => h.housed x (List.mem_of_mem_filter hx)) rfl (fun id hne => stats_deleteSession_ne h.distinct hne)
    (fun id sid => session_deleteSession scopeId sessionId id sid) hscopes hsessions

theorem sessionDelete_alike (h : Mirrored t snapshotId gone v rows)
    (hnot : ¬ Lost t snapshotId gone scopeId sessionId) :
    ChangeAlike t snapshotId gone v rows resulting (.sessionDelete scopeId sessionId) := by
  unfold ChangeAlike
  rw [Shadows.change, Tables.applyChange, Tables.sessionDelete]
  have hload := h.scope scopeId
  have hprior := h.session scopeId sessionId hnot
  cases hs : rows.scope scopeId with
  | none =>
    rw [hs] at hload
    rw [hload]
    exact .refuses _
  | some owning =>
    rw [hs] at hload
    rw [hload]
    refine Alike.seq fun expected _ => Alike.ite (fun _ => .refuses _) fun _ => ?_
    have hid := scope_key hs
    cases hx : rows.session scopeId sessionId with
    | none =>
      rw [hx] at hprior
      rw [hprior]
      exact .refuses _
    | some prior =>
      rw [hx] at hprior
      rw [hprior]
      have hcount := weigh_delete (fun _ => 1) scopeId h.distinct hx
      have hbytes := weigh_delete StoredSession.canonicalBytes scopeId h.distinct hx
      simp only [scope_of_session hx, if_true] at hcount hbytes
      refine .takes ⟨deleteSession_mirrored h hs hnot ?_ rfl, rfl, rfl, ?_, ?_⟩
      · simp only [Tables.shadow, stats_weigh, hid]
        congr 3
        refine SnapshotScopeShadow.mk.injEq .. |>.mpr ⟨rfl, ?_, ?_⟩
        · omega
        · omega
      · dsimp only
        omega
      · simp only [Tables.shadow]
        omega

end Sessions

/-! ## A change of a lost session -/

/-- What the validation makes of a change of a lost session, in records and bytes: it still reads the session. -/
def Change.replaces (prior : StoredSession) : Change → Int × Int
  | .sessionUpsert item => (0, ((⟨item⟩ : StoredSession).canonicalBytes : Int) - prior.canonicalBytes)
  | _ => (-1, -prior.canonicalBytes)

def StoredScope.moved (owning : StoredScope) (revision : Nat) : Int :=
  ((⟨owning.item, revision⟩ : StoredScope).canonicalBytes : Int) - owning.canonicalBytes

section Lost

variable {c : Change} {prior : StoredSession}

theorem not_lost (h : c.lost t snapshotId gone = none) : match c with
    | .sessionUpsert item => ¬ Lost t snapshotId gone item.scopeId item.sessionId
    | .sessionDelete scopeId sessionId => ¬ Lost t snapshotId gone scopeId sessionId
    | _ => True := by
  cases c with
  | scopeUpsert item => trivial
  | scopeDelete scopeId => trivial
  | sessionUpsert item =>
    rintro ⟨hgone, hstaged⟩
    rw [Change.lost, if_pos hgone] at h
    rw [h] at hstaged
    cases hstaged
  | sessionDelete scopeId sessionId =>
    rintro ⟨hgone, hstaged⟩
    rw [Change.lost, if_pos hgone] at h
    rw [h] at hstaged
    cases hstaged

/-- **A change of a session that is not lost ends alike.** -/
theorem change_alike (h : Mirrored t snapshotId gone v rows) (hl : c.lost t snapshotId gone = none) :
    ChangeAlike t snapshotId gone v rows resulting c := by
  have hnot := not_lost hl
  cases c with
  | scopeUpsert item => exact scopeUpsert_alike h item
  | scopeDelete scopeId => exact scopeDelete_alike h scopeId
  | sessionUpsert item => exact sessionUpsert_alike h item hnot
  | sessionDelete scopeId sessionId => exact sessionDelete_alike h hnot

theorem lost_refused (h : Mirrored t snapshotId gone v rows) (hl : c.lost t snapshotId gone = some prior)
    (hnot : ∀ owning, rows.scope c.scopeId = some owning → increment owning.sessionsRevision ≠ .ok resulting) :
    ChangeAlike t snapshotId gone v rows resulting c := by
  have hload := h.scope c.scopeId
  cases c with
  | scopeUpsert item => cases hl
  | scopeDelete scopeId => cases hl
  | sessionUpsert item =>
    unfold ChangeAlike
    rw [Shadows.change, Tables.applyChange, Tables.sessionUpsert]
    dsimp only [Change.scopeId] at hload hnot
    rw [hload]
    cases hs : rows.scope item.scopeId with
    | none => exact .refuses _
    | some owning =>
      refine Alike.seq fun expected hexpected => Alike.ite (fun _ => .refuses _) fun hsame => ?_
      exact absurd (hexpected.trans (congrArg _ (not_not.mp hsame).symm)) (hnot owning hs)
  | sessionDelete scopeId sessionId =>
    unfold ChangeAlike
    rw [Shadows.change, Tables.applyChange, Tables.sessionDelete]
    dsimp only [Change.scopeId] at hload hnot
    rw [hload]
    cases hs : rows.scope scopeId with
    | none => exact .refuses _
    | some owning =>
      refine Alike.seq fun expected hexpected => Alike.ite (fun _ => .refuses _) fun hsame => ?_
      exact absurd (hexpected.trans (congrArg _ (not_not.mp hsame).symm)) (hnot owning hs)

/-- **Of a lost session the validation replaces what it reads**, and the application adds it, or refuses to delete it. -/
theorem lost_change (h : Mirrored t snapshotId gone v rows) (hl : c.lost t snapshotId gone = some prior)
    {owning : StoredScope} (ho : rows.scope c.scopeId = some owning)
    (hr : increment owning.sessionsRevision = .ok resulting) (revision : Option Nat) :
    ∃ v', v.change t snapshotId resulting c = .ok (.ok v') ∧ v'.recordCount = v.recordCount + (c.replaces prior).1 ∧
      v'.jsonBytes = v.jsonBytes + (c.replaces prior).2 + owning.moved resulting ∧
      (rows.applyChange revision resulting c = .ok none ∨ ∃ f, rows.applyChange revision resulting c = .ok (some f) ∧
        (c.replaces prior).1 = 0 ∧ f.records = 1 ∧
        f.bytes = (c.replaces prior).2 + prior.canonicalBytes + owning.moved resulting) := by
  have hload := h.scope c.scopeId
  rw [ho] at hload
  cases c with
  | scopeUpsert item => cases hl
  | scopeDelete scopeId => cases hl
  | sessionUpsert item =>
    obtain ⟨hgone, hstaged⟩ := Option.ite_none_right_eq_some.mp hl
    obtain ⟨hunread, hnone⟩ := h.lost item.scopeId item.sessionId ⟨hgone, by rw [hstaged]; rfl⟩
    have hprior : v.loadSession t snapshotId item.scopeId item.sessionId = some prior := by
      unfold Shadows.loadSession
      rw [hunread]
      exact hstaged
    dsimp only [Change.scopeId] at hload ho
    rw [Shadows.change, Tables.applyChange, Tables.sessionUpsert, hload, ho]
    simp only [Option.map_some, Tables.shadow, hr, hprior, hnone, bind, Except.bind, ne_eq, not_true_eq_false, if_false]
    refine ⟨_, rfl, ?_, ?_, .inr ⟨_, rfl, rfl, rfl, ?_⟩⟩
    · rfl
    · simp only [Change.replaces, StoredScope.moved, Option.elim_some]
    · simp only [Change.replaces, StoredScope.moved, Int.sub_add_cancel]
  | sessionDelete scopeId sessionId =>
    obtain ⟨hgone, hstaged⟩ := Option.ite_none_right_eq_some.mp hl
    obtain ⟨hunread, hnone⟩ := h.lost scopeId sessionId ⟨hgone, by rw [hstaged]; rfl⟩
    have hprior : v.loadSession t snapshotId scopeId sessionId = some prior := by
      unfold Shadows.loadSession
      rw [hunread]
      exact hstaged
    dsimp only [Change.scopeId] at hload ho
    rw [Shadows.change, Tables.applyChange, Tables.sessionDelete, hload, ho]
    simp only [Option.map_some, Tables.shadow, hr, hprior, hnone, bind, Except.bind, ne_eq, not_true_eq_false, if_false]
    refine ⟨_, rfl, rfl, ?_, .inl rfl⟩
    simp only [Change.replaces, StoredScope.moved]
    omega

end Lost

end Sync
end TmuxWorktree
