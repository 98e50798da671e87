import TmuxWorktree.Sync.Sequence
/-!
# Staged — what the staging reads is what the commit writes

The staging answers for a scope, a session and the sessions of a scope from its records.  No two records stand in one
place, so that the rows that the commit writes answer alike.
-/
namespace TmuxWorktree
namespace Sync

variable {t t' : Tables} {rs : List Record}

/-! ## The commit of a complete staging -/

/-- The writing stands where the order does. -/
structure Awaits (p : Tables × Option ScopeItem) (o : SnapshotOrder) : Prop where
  waiting : o.recordKind = some .scope ↔ p.2.isSome
  named : ∀ item, p.2 = some item → o.scopeId = some item.scopeId
  owner : ∀ scopeId, o.scopeId = some scopeId → o.recordKind ≠ some .scope → (p.1.scope scopeId).isSome
  housed : ∀ x ∈ p.1.sessions, (p.1.scope x.item.scopeId).isSome

theorem isSome_putScope {s : StoredScope} {scopeId : String} (h : (t.scope scopeId).isSome) :
    ((t.putScope s).scope scopeId).isSome := by
  rw [scope_putScope, Function.update_apply]
  split
  · rfl
  · exact h

/-- **A record that the order takes is written.** -/
theorem Awaits.record {p : Tables × Option ScopeItem} {o o' : SnapshotOrder} {r : Record} (hw : Awaits p o)
    (ho : o.advance r = some o') : ∃ p', commitRecord p r = .ok p' ∧ Awaits p' o' := by
  obtain ⟨t, waiting⟩ := p
  cases r with
  | scope item =>
    simp only [SnapshotOrder.advance, Option.ite_none_left_eq_some, Option.some.injEq] at ho
    obtain ⟨hgo, rfl⟩ := ho
    cases waiting with
    | some earlier =>
      have hid := hw.named earlier rfl
      have hkind := hw.waiting.mpr rfl
      simp [hid, hkind] at hgo
    | none =>
      refine ⟨(t, some item), rfl, by simp, ?_, by simp, hw.housed⟩
      rintro item' ⟨⟩
      rfl
  | sessionsScope scopeId revision =>
    simp [SnapshotOrder.advance] at ho
    obtain ⟨⟨hid, hkind⟩, rfl⟩ := ho
    obtain ⟨item, hitem⟩ := Option.isSome_iff_exists.mp (hw.waiting.mp hkind)
    have hitem : waiting = some item := hitem
    subst hitem
    have hsame : item.scopeId = scopeId := Option.some.inj ((hw.named item rfl).symm.trans hid)
    refine ⟨(t.putScope ⟨item, revision⟩, none), by simp [commitRecord, hsame], by simp, by simp, fun id h _ => ?_,
      fun x hx => isSome_putScope (hw.housed x hx)⟩
    have hid' : id = item.scopeId := by
      rw [hsame]
      exact Option.some.inj (h.symm.trans hid)
    rw [hid', scope_putScope, Function.update_self]
    rfl
  | session item =>
    simp [SnapshotOrder.advance] at ho
    obtain ⟨⟨⟨hid, hkind⟩, -⟩, rfl⟩ := ho
    have hnot : o.recordKind ≠ some .scope := by
      intro hscope
      simp [hscope] at hkind
    have hnone : waiting = none := Option.not_isSome_iff_eq_none.mp fun h => hnot (hw.waiting.mpr h)
    subst hnone
    have howner : (t.scope item.scopeId).isSome := hw.owner _ hid hnot
    refine ⟨(t.putSession ⟨item⟩, none), rfl, by simp, by simp, fun id h _ => hw.owner id h hnot, fun x hx => ?_⟩
    rcases Keyed.mem_put hx with rfl | hx
    · exact howner
    · exact hw.housed x hx

theorem Awaits.fold {p : Tables × Option ScopeItem} {o o' : SnapshotOrder} (hw : Awaits p o)
    (ho : o.through rs = some o') : ∃ p', rs.foldlM commitRecord p = .ok p' ∧ Awaits p' o' := by
  induction rs generalizing p o with
  | nil =>
    obtain rfl := Option.some.inj ho
    exact ⟨p, rfl, hw⟩
  | cons r rest ih =>
    obtain ⟨o₁, ho₁, hrest⟩ := Option.bind_eq_some_iff.mp ho
    obtain ⟨p₁, hp₁, hw₁⟩ := hw.record ho₁
    obtain ⟨p', hp', hw'⟩ := ih hw₁ hrest
    refine ⟨p', ?_, hw'⟩
    rw [List.foldlM_cons, hp₁]
    exact hp'

theorem commitRecords_ok {o : SnapshotOrder} (ho : SnapshotOrder.start.through rs = some o)
    (hclosed : o.recordKind ≠ some .scope) : ∃ rows, commitRecords t rs = .ok rows ∧ Written (rows, none) rs ∧
      ∀ x ∈ rows.sessions, (rows.scope x.item.scopeId).isSome := by
  have hstart : Awaits ({ t with scopes := [], sessions := [] }, none) SnapshotOrder.start :=
    ⟨by simp [SnapshotOrder.start], by simp, by simp [SnapshotOrder.start], by simp⟩
  obtain ⟨⟨rows, waiting⟩, hfold, hw⟩ := hstart.fold ho
  have hnone : waiting = none := Option.not_isSome_iff_eq_none.mp fun h => hclosed (hw.waiting.mpr h)
  subst hnone
  have hwritten : Written (rows, none) rs := (written_nil t).fold hfold
  refine ⟨rows, ?_, hwritten, hw.housed⟩
  unfold commitRecords
  rw [hfold]
  rfl

/-! ## Reading -/

section Reading

variable {α β : Type} {f : α → Option β} {l : List α} {b : β}

theorem findSome?_eq {x : α} (hx : x ∈ l) (hb : f x = some b) (hone : ∀ y ∈ l, ∀ b', f y = some b' → b' = b) :
    l.findSome? f = some b := by
  cases h : l.findSome? f with
  | none =>
    rw [List.findSome?_eq_none_iff.mp h x hx] at hb
    cases hb
  | some b' =>
    obtain ⟨y, hy, hfy⟩ := List.exists_of_findSome?_eq_some h
    rw [hone y hy b' hfy]

end Reading

structure Tables.Reads (t : Tables) (snapshotId : String) (rows : Tables) : Prop where
  distinct : rows.Distinct
  housed : ∀ x ∈ rows.sessions, (rows.scope x.item.scopeId).isSome
  scope : ∀ scopeId, t.stagedScope snapshotId scopeId = rows.scope scopeId
  stats : ∀ scopeId, t.stagedSessionStats snapshotId scopeId = rows.sessionStats scopeId
  session : ∀ scopeId sessionId, t.stagedSession snapshotId scopeId sessionId = rows.session scopeId sessionId

theorem eq_of_place (hplaced : (rs.map Record.place).Nodup) {r r' : Record} (hr : r ∈ rs) (hr' : r' ∈ rs)
    (h : r.place = r'.place) : r = r' := List.inj_on_of_nodup_map hplaced hr hr' h

section Written

variable {snapshotId : String} {rows : Tables} (hids : ∀ r ∈ t.records, r.snapshotId = snapshotId)
  (hplaced : ((t.records.map StoredRecord.record).map Record.place).Nodup)
  (hw : Written (rows, none) (t.records.map StoredRecord.record))

include hids in
theorem staged_all : t.records.filter (fun r => r.snapshotId = snapshotId) = t.records :=
  List.filter_eq_self.mpr fun r hr => decide_eq_true (hids r hr)

include hids hplaced hw in
theorem stagedScope_eq (scopeId : String) : t.stagedScope snapshotId scopeId = rows.scope scopeId := by
  unfold Tables.stagedScope
  rw [staged_all hids]
  dsimp only
  cases hs : rows.scope scopeId with
  | some s =>
    have hid := scope_key hs
    obtain ⟨hitem, hrevision⟩ := hw.scopes s (Keyed.mem_of_find hs)
    rw [hid] at hrevision
    rw [findSome?_eq (b := s.item) hitem ?_ ?_, findSome?_eq (b := s.sessionsRevision) hrevision ?_ ?_]
    · exact if_pos rfl
    · intro r hr revision hr'
      cases r with
      | sessionsScope id revision' =>
        obtain ⟨hid', hsome⟩ := Option.ite_none_right_eq_some.mp hr'
        obtain rfl := Option.some.inj hsome
        rw [hid'] at hr
        exact (Record.sessionsScope.inj (eq_of_place hplaced hr hrevision rfl)).2
      | scope item => cases hr'
      | session item => cases hr'
    · exact if_pos hid
    · intro r hr item hr'
      cases r with
      | scope item' =>
        obtain ⟨hid', hsome⟩ := Option.ite_none_right_eq_some.mp hr'
        obtain rfl := Option.some.inj hsome
        have := eq_of_place hplaced hr hitem (by simp [Record.place, Record.scopeId, Record.kind, Record.sessionId, hid, hid'])
        exact Record.scope.inj this
      | sessionsScope id revision => cases hr'
      | session item => cases hr'
  | none =>
    -- a scope without its sessions_scope is not a row
    have hmissing : ∀ revision, Record.sessionsScope scopeId revision ∉ t.records.map StoredRecord.record := by
      intro revision hr
      have := hw.hasScope scopeId revision hr
      rw [hs] at this
      cases this
    split
    · rename_i hsecond
      obtain ⟨r, hr, hr'⟩ := List.exists_of_findSome?_eq_some hsecond
      cases r with
      | sessionsScope id revision =>
        obtain ⟨hid, -⟩ := Option.ite_none_right_eq_some.mp hr'
        exact absurd (hid ▸ hr) (hmissing revision)
      | scope item => cases hr'
      | session item => cases hr'
    · rfl

include hids hplaced hw in
theorem stagedSession_eq (scopeId sessionId : String) :
    t.stagedSession snapshotId scopeId sessionId = rows.session scopeId sessionId := by
  unfold Tables.stagedSession
  rw [staged_all hids]
  cases hx : rows.session scopeId sessionId with
  | some x =>
    have hkey : x.key = (scopeId, sessionId) := Keyed.key_of_find hx
    obtain ⟨hid, hsid⟩ : x.item.scopeId = scopeId ∧ x.item.sessionId = sessionId := by simpa [StoredSession.key] using hkey
    obtain ⟨r₀, hr₀, hrec⟩ := List.mem_map.mp (hw.sessions x (Keyed.mem_of_find hx))
    refine findSome?_eq hr₀ (by simp [hrec, hid, hsid]) fun r hr y hy => ?_
    split at hy
    · rename_i item hitem
      obtain ⟨⟨hid', hsid'⟩, hsome⟩ := Option.ite_none_right_eq_some.mp hy
      obtain rfl := Option.some.inj hsome
      have hsame := eq_of_place hplaced (List.mem_map_of_mem hr) (List.mem_map_of_mem hr₀) (by
        rw [hitem, hrec]
        simp [Record.place, Record.scopeId, Record.kind, Record.sessionId, hid, hid', hsid, hsid'])
      rw [hitem, hrec] at hsame
      rw [Record.session.inj hsame]
    · cases hy
  | none =>
    refine List.findSome?_eq_none_iff.mpr fun r hr => ?_
    split
    · rename_i item hitem
      refine if_neg fun hids' => ?_
      have hsome := hw.hasSession item (hitem ▸ List.mem_map_of_mem hr)
      unfold Tables.sessionAt at hsome
      rw [hids'.1, hids'.2] at hsome
      unfold Tables.session at hx
      rw [hx] at hsome
      cases hsome
    · rfl

def Record.ofScope (scopeId : String) (r : Record) : Bool := r.kind = .session && r.scopeId = scopeId

theorem ofScope_session {item : SessionItem} {scopeId : String} :
    Record.ofScope scopeId (.session item) = true ↔ item.scopeId = scopeId := by
  unfold Record.ofScope
  rw [Bool.and_eq_true, decide_eq_true_iff, decide_eq_true_iff]
  exact ⟨And.right, fun h => ⟨rfl, h⟩⟩

include hplaced hw in
theorem sessions_perm (scopeId : String) : ((t.records.map StoredRecord.record).filter (Record.ofScope scopeId)).Perm
    ((rows.sessionsOf scopeId).map fun x => Record.session x.item) := by
  have hnodup : (t.records.map StoredRecord.record).Nodup := List.Nodup.of_map _ hplaced
  have hrows : (rows.sessionsOf scopeId).Nodup := (List.Nodup.of_map _ hw.distinct.2).filter _
  refine (List.perm_ext_iff_of_nodup (hnodup.filter _) (hrows.map fun x y hxy => ?_)).mpr fun r => ?_
  · cases x
    cases y
    exact congrArg StoredSession.mk (Record.session.inj hxy)
  rw [List.mem_filter]
  constructor
  · rintro ⟨hr, hof⟩
    cases r with
    | session item =>
      have hid := ofScope_session.mp hof
      obtain ⟨item', hitem'⟩ := Option.isSome_iff_exists.mp (hw.hasSession item hr)
      obtain ⟨x, hx, rfl⟩ := Option.map_eq_some_iff.mp hitem'
      have hkey : x.key = (item.scopeId, item.sessionId) := Keyed.key_of_find hx
      obtain ⟨hxs, hxi⟩ : x.item.scopeId = item.scopeId ∧ x.item.sessionId = item.sessionId := by
        simpa [StoredSession.key] using hkey
      have hsame := eq_of_place hplaced (hw.sessions x (Keyed.mem_of_find hx)) hr (by
        simp [Record.place, Record.scopeId, Record.kind, Record.sessionId, hxs, hxi])
      exact List.mem_map.mpr
        ⟨x, List.mem_filter.mpr ⟨Keyed.mem_of_find hx, decide_eq_true (hxs.trans hid)⟩, hsame⟩
    | scope item => simp [Record.ofScope, Record.kind] at hof
    | sessionsScope id revision => simp [Record.ofScope, Record.kind] at hof
  · intro hr
    obtain ⟨x, hx, rfl⟩ := List.mem_map.mp hr
    obtain ⟨hmem, hid⟩ := List.mem_filter.mp hx
    exact ⟨hw.sessions x hmem, ofScope_session.mpr (of_decide_eq_true hid)⟩

theorem filterMap_sessions (records : List StoredRecord) (scopeId : String) :
    records.filterMap (fun r =>
      match r.record with
      | .session item => if item.scopeId = scopeId then some r.record else none
      | _ => none) = (records.map StoredRecord.record).filter (Record.ofScope scopeId) := by
  rw [← List.filterMap_eq_filter, List.filterMap_map]
  refine List.filterMap_congr fun r _ => ?_
  cases hr : r.record <;> simp [Record.ofScope, Record.kind, Record.scopeId, Option.guard, hr]

include hids hplaced hw in
theorem stagedSessionStats_eq (scopeId : String) : t.stagedSessionStats snapshotId scopeId = rows.sessionStats scopeId := by
  have hrows := filterMap_sessions t.records scopeId
  have hperm := sessions_perm hplaced hw scopeId
  unfold Tables.stagedSessionStats Tables.sessionStats
  rw [staged_all hids]
  refine Prod.ext ?_ ?_
  · exact (congrArg List.length hrows).trans (hperm.length_eq.trans (List.length_map _))
  · refine (congrArg (fun l => (List.map Record.bytes l).sum) hrows).trans ((hperm.map Record.bytes).sum_nat.trans ?_)
    rw [List.map_map]
    rfl

end Written

/-- **The commit of a complete staging writes the rows that the staging reads.** -/
theorem Sequenced.reads {st : StoredSnapshot} (hq : Sequenced t st) (hcomplete : st.complete = true) :
    ∃ rows, commitRecords t ((t.staged st.snapshotId).map StoredRecord.record) = .ok rows ∧ t.Reads st.snapshotId rows := by
  obtain ⟨rows, hrows, hw, hhoused⟩ := commitRecords_ok (t := t) hq.order (hq.closed hcomplete)
  have hplaced := places_nodup hq.order
  refine ⟨rows, ?_, hw.distinct, hhoused, stagedScope_eq hq.ids hplaced hw, stagedSessionStats_eq hq.ids hplaced hw,
    stagedSession_eq hq.ids hplaced hw⟩
  rw [staged_eq hq.ids hq.indices]
  exact hrows

end Sync
end TmuxWorktree
