import TmuxWorktree.Lib.Alike
import TmuxWorktree.Sync.Staged
/-!
# Shadow — the shadows of a staging and the rows of its commit

The validation of the buffered events reads the staging through maps of what the events have changed, and the commit
applies the events to rows.  The two stay together, but for the sessions that the staging has in a scope that an event
deleted: of these the rows know nothing more, and the validation still reads them.
-/
namespace TmuxWorktree
namespace Sync

variable {t rows rows' : Tables} {snapshotId : String} {v v' : Shadows} {gone : List String}

/-! ## The sessions of a scope -/

def Tables.weigh (t : Tables) (w : StoredSession → Nat) (scopeId : String) : Nat := ((t.sessionsOf scopeId).map w).sum

theorem stats_weigh (scopeId : String) :
    t.sessionStats scopeId = (t.weigh (fun _ => 1) scopeId, t.weigh StoredSession.canonicalBytes scopeId) := by
  simp [Tables.sessionStats, Tables.weigh]

section Weigh

variable (w : StoredSession → Nat) (scopeId : String) {x prior : StoredSession}

theorem weigh_eq : t.weigh w scopeId = (t.sessions.map fun x => if x.item.scopeId = scopeId then w x else 0).sum := by
  unfold Tables.weigh Tables.sessionsOf
  induction t.sessions with
  | nil => rfl
  | cons y rest ih =>
    by_cases hy : y.item.scopeId = scopeId
    · simp only [List.filter_cons, hy, decide_true, if_true, List.map_cons, List.sum_cons, ih]
    · simp only [List.filter_cons, hy, decide_false, Bool.false_eq_true, if_false, List.map_cons, List.sum_cons, ih,
        Nat.zero_add]

theorem weigh_put_new (h : t.session x.item.scopeId x.item.sessionId = none) :
    (t.putSession x).weigh w scopeId = t.weigh w scopeId + if x.item.scopeId = scopeId then w x else 0 := by
  rw [weigh_eq, weigh_eq]
  exact Keyed.sum_put_new h

theorem weigh_put_old (hd : t.Distinct) (h : t.session x.item.scopeId x.item.sessionId = some prior) :
    ((t.putSession x).weigh w scopeId + if prior.item.scopeId = scopeId then w prior else 0) =
      t.weigh w scopeId + if x.item.scopeId = scopeId then w x else 0 := by
  rw [weigh_eq, weigh_eq]
  exact Keyed.sum_put_old hd.2 h

theorem weigh_delete {sessionId id : String} (hd : t.Distinct) (h : t.session id sessionId = some prior) :
    ((t.deleteSession id sessionId).weigh w scopeId + if prior.item.scopeId = scopeId then w prior else 0) =
      t.weigh w scopeId := by
  rw [weigh_eq, weigh_eq]
  exact Keyed.sum_erase hd.2 h

theorem weigh_deleteForScope {id : String} (h : scopeId ≠ id) :
    (t.deleteSessionsForScope id).weigh w scopeId = t.weigh w scopeId := by
  unfold Tables.weigh Tables.sessionsOf Tables.deleteSessionsForScope
  rw [List.filter_filter]
  congr 2
  refine List.filter_congr fun x _ => ?_
  by_cases hx : x.item.scopeId = scopeId <;> simp [hx, h]

theorem weigh_unhoused (hhoused : ∀ x ∈ t.sessions, (t.scope x.item.scopeId).isSome) (h : t.scope scopeId = none) :
    t.weigh w scopeId = 0 := by
  unfold Tables.weigh Tables.sessionsOf
  rw [List.filter_eq_nil_iff.mpr fun x hx hid => ?_]
  · rfl
  · have := hhoused x hx
    rw [of_decide_eq_true hid, h] at this
    cases this

theorem scope_of_session {sessionId id : String} (h : t.session id sessionId = some x) : x.item.scopeId = id :=
  congrArg Prod.fst (Keyed.key_of_find h : x.key = (id, sessionId))

end Weigh

theorem session_eq (scopeId sessionId : String) :
    t.session scopeId sessionId = (t.sessionAt (scopeId, sessionId)).map StoredSession.mk := by
  unfold Tables.session Tables.sessionAt
  rw [Option.map_map]
  exact Option.map_id'.symm

theorem session_putSession (x : StoredSession) (scopeId sessionId : String) : (t.putSession x).session scopeId sessionId =
    if (scopeId, sessionId) = x.key then some x else t.session scopeId sessionId := by
  rw [session_eq, session_eq, sessionAt_putSession, Function.update_apply]
  split <;> rfl

theorem session_deleteSession (id sid scopeId sessionId : String) : (t.deleteSession id sid).session scopeId sessionId =
    if (scopeId, sessionId) = (id, sid) then none else t.session scopeId sessionId := by
  rw [session_eq, session_eq, sessionAt_deleteSession, Function.update_apply]
  split <;> rfl

theorem session_deleteForScope (id scopeId sessionId : String) :
    (t.deleteSessionsForScope id).session scopeId sessionId = if scopeId = id then none else t.session scopeId sessionId := by
  rw [session_eq, session_eq, sessionAt_deleteSessionsForScope]
  dsimp only
  split <;> rfl

/-! ## The shadows and the rows -/

/-- The staging has the session, and an event has deleted its scope. -/
def Lost (t : Tables) (snapshotId : String) (gone : List String) (scopeId sessionId : String) : Prop :=
  scopeId ∈ gone ∧ (t.stagedSession snapshotId scopeId sessionId).isSome

def Tables.shadow (rows : Tables) (s : StoredScope) : SnapshotScopeShadow :=
  ⟨s, (rows.sessionStats s.item.scopeId).1, (rows.sessionStats s.item.scopeId).2⟩

/-- **The shadows read what the rows hold**, but for the sessions that are lost. -/
structure Mirrored (t : Tables) (snapshotId : String) (gone : List String) (v : Shadows) (rows : Tables) : Prop where
  distinct : rows.Distinct
  housed : ∀ x ∈ rows.sessions, (rows.scope x.item.scopeId).isSome
  scope : ∀ scopeId, v.loadScope t snapshotId scopeId = (rows.scope scopeId).map rows.shadow
  session : ∀ scopeId sessionId, ¬ Lost t snapshotId gone scopeId sessionId →
    v.loadSession t snapshotId scopeId sessionId = rows.session scopeId sessionId
  lost : ∀ scopeId sessionId, Lost t snapshotId gone scopeId sessionId →
    v.sessions (scopeId, sessionId) = none ∧ rows.session scopeId sessionId = none

section Loads

variable {scopeId sessionId : String}

theorem loadScope_update {id : String} {known : Option SnapshotScopeShadow}
    (h : v'.scopes = Function.update v.scopes id (some known)) :
    v'.loadScope t snapshotId scopeId = if scopeId = id then known else v.loadScope t snapshotId scopeId := by
  unfold Shadows.loadScope
  rw [h, Function.update_apply]
  by_cases hid : scopeId = id
  · rw [if_pos hid, if_pos hid]
  · rw [if_neg hid, if_neg hid]

theorem loadSession_update {k : String × String} {known : Option StoredSession}
    (h : v'.sessions = Function.update v.sessions k (some known)) : v'.loadSession t snapshotId scopeId sessionId =
      if (scopeId, sessionId) = k then known else v.loadSession t snapshotId scopeId sessionId := by
  unfold Shadows.loadSession
  rw [h, Function.update_apply]
  by_cases hk : (scopeId, sessionId) = k
  · rw [if_pos hk, if_pos hk]
  · rw [if_neg hk, if_neg hk]

theorem loadSession_same (h : v'.sessions = v.sessions) :
    v'.loadSession t snapshotId scopeId sessionId = v.loadSession t snapshotId scopeId sessionId := by
  unfold Shadows.loadSession
  rw [h]

end Loads

/-! ## What a change leaves -/

namespace Mirrored

theorem scope_put (h : Mirrored t snapshotId gone v rows) {s : StoredScope} (hscope : rows'.scope = rows.scope)
    (hstats : ∀ scopeId, scopeId ≠ s.item.scopeId → rows'.sessionStats scopeId = rows.sessionStats scopeId)
    (hscopes : v'.scopes = Function.update v.scopes s.item.scopeId (some (some (rows'.shadow s)))) (scopeId : String) :
    v'.loadScope t snapshotId scopeId = ((rows'.putScope s).scope scopeId).map (rows'.putScope s).shadow := by
  rw [loadScope_update hscopes, scope_putScope, Function.update_apply]
  split
  · rfl
  · rename_i hne
    rw [h.scope, hscope]
    refine Option.map_congr fun s' hs' => ?_
    unfold Tables.shadow
    rw [scope_key hs', ← hstats scopeId hne]
    rfl

theorem putScope (h : Mirrored t snapshotId gone v rows) {s : StoredScope}
    (hscopes : v'.scopes = Function.update v.scopes s.item.scopeId (some (some (rows.shadow s))))
    (hsessions : v'.sessions = v.sessions) : Mirrored t snapshotId gone v' (rows.putScope s) where
  distinct := ⟨Keyed.keys_put h.distinct.1, h.distinct.2⟩
  housed := fun x hx => isSome_putScope (h.housed x hx)
  scope := h.scope_put rfl (fun _ _ => rfl) hscopes
  session := by
    intro scopeId sessionId hnot
    rw [loadSession_same hsessions]
    exact h.session scopeId sessionId hnot
  lost := by
    intro scopeId sessionId hlost
    rw [hsessions]
    exact h.lost scopeId sessionId hlost

theorem session_put (h : Mirrored t snapshotId gone v rows) {s : StoredScope} {scopeId sessionId : String}
    {known : Option StoredSession} (hnot : ¬ Lost t snapshotId gone scopeId sessionId) (hs : s.item.scopeId = scopeId)
    (hdistinct : rows'.Distinct) (hhoused : ∀ x ∈ rows'.sessions, (rows.scope x.item.scopeId).isSome)
    (hscope : rows'.scope = rows.scope)
    (hstats : ∀ id, id ≠ scopeId → rows'.sessionStats id = rows.sessionStats id)
    (hsession : ∀ id sid, rows'.session id sid = if (id, sid) = (scopeId, sessionId) then known else rows.session id sid)
    (hscopes : v'.scopes = Function.update v.scopes scopeId (some (some (rows'.shadow s))))
    (hsessions : v'.sessions = Function.update v.sessions (scopeId, sessionId) (some known)) :
    Mirrored t snapshotId gone v' (rows'.putScope s) where
  distinct := ⟨Keyed.keys_put hdistinct.1, hdistinct.2⟩
  housed := by
    intro x hx
    refine isSome_putScope ?_
    rw [hscope]
    exact hhoused x hx
  scope := by
    subst hs
    exact h.scope_put hscope hstats hscopes
  session := by
    intro id sid hnot'
    show _ = rows'.session id sid
    rw [loadSession_update hsessions, hsession]
    split
    · rfl
    · exact h.session id sid hnot'
  lost := by
    intro id sid hlost
    have hne : (id, sid) ≠ (scopeId, sessionId) := by
      rintro ⟨⟩
      exact hnot hlost
    obtain ⟨hunread, hnone⟩ := h.lost id sid hlost
    refine ⟨?_, ?_⟩
    · rw [hsessions, Function.update_of_ne hne]
      exact hunread
    · show rows'.session id sid = none
      rw [hsession, if_neg hne]
      exact hnone

theorem deleteScope (h : Mirrored t snapshotId gone v rows) {scopeId : String}
    (hscopes : v'.scopes = Function.update v.scopes scopeId (some none))
    (hsessions : v'.sessions = fun key => if key.1 = scopeId then none else v.sessions key) :
    Mirrored t snapshotId (scopeId :: gone) v' ((rows.deleteSessionsForScope scopeId).deleteScope scopeId) where
  distinct := ⟨Keyed.keys_erase h.distinct.1, h.distinct.2.sublist (List.filter_sublist.map _)⟩
  housed := by
    intro x hx
    obtain ⟨hmem, hne⟩ := List.mem_filter.mp hx
    rw [scope_deleteScope, Function.update_of_ne (of_decide_eq_true hne)]
    exact h.housed x hmem
  scope := by
    intro id
    rw [loadScope_update hscopes, scope_deleteScope, Function.update_apply]
    split
    · rfl
    · rename_i hne
      rw [h.scope]
      show (rows.scope id).map _ = (rows.scope id).map _
      refine Option.map_congr fun s hs => ?_
      unfold Tables.shadow
      rw [stats_weigh, stats_weigh, scope_key hs]
      have hother : ∀ w, ((rows.deleteSessionsForScope scopeId).deleteScope scopeId).weigh w id = rows.weigh w id :=
        fun w => weigh_deleteForScope w id hne
      rw [hother, hother]
  session := by
    intro id sid hnot
    show _ = (rows.deleteSessionsForScope scopeId).session id sid
    rw [session_deleteForScope]
    split
    · rename_i hid
      -- the staging has no such session either
      have hnone : t.stagedSession snapshotId id sid = none :=
        Option.not_isSome_iff_eq_none.mp fun hstaged => hnot ⟨hid ▸ List.mem_cons_self, hstaged⟩
      simp only [Shadows.loadSession, hsessions, hid, if_true]
      rw [← hid]
      exact hnone
    · rename_i hid
      have hsame : v'.loadSession t snapshotId id sid = v.loadSession t snapshotId id sid := by
        simp only [Shadows.loadSession, hsessions, hid, if_false]
      rw [hsame]
      exact h.session id sid fun hlost => hnot ⟨List.mem_cons_of_mem _ hlost.1, hlost.2⟩
  lost := by
    intro id sid hlost
    show _ ∧ (rows.deleteSessionsForScope scopeId).session id sid = none
    rw [session_deleteForScope, hsessions]
    dsimp only
    split
    · exact ⟨rfl, rfl⟩
    · rename_i hid
      exact h.lost id sid ⟨(List.mem_cons.mp hlost.1).resolve_left hid, hlost.2⟩

end Mirrored

end Sync
end TmuxWorktree
