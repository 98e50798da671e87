import TmuxWorktree.Sync.Cut
import TmuxWorktree.Sync.Obligations
/-!
# Sequence — the records of a staging come in one order

Each chunk goes on where the staging stands, so the records of it are in the order of `SnapshotOrder`, from the first to
the last.  No two of them stand in one place, and a complete staging can be committed.
-/
namespace TmuxWorktree
namespace Sync

variable {C : Core} {s s' : Store} {n : Namespace} {a a' : Authority} {t t' : Tables} {op : Op} {rs : List Record}

/-! ## Where a record stands -/

def Record.kind : Record → RecordKind
  | .scope _ => .scope
  | .sessionsScope _ _ => .sessionsScope
  | .session _ => .session

def Record.sessionId : Record → Option String
  | .session item => some item.sessionId
  | _ => none

def Record.order (r : Record) : SnapshotOrder := ⟨some r.scopeId, some r.kind, r.sessionId⟩

def SnapshotOrder.start : SnapshotOrder := ⟨none, none, none⟩

def RecordKind.rank : RecordKind → Nat
  | .scope => 0
  | .sessionsScope => 1
  | .session => 2

def utf8 (text : String) : List UInt8 := text.toUTF8.data.toList

def Record.Before (r r' : Record) : Prop :=
  utf8 r.scopeId < utf8 r'.scopeId ∨ r.scopeId = r'.scopeId ∧
    (r.kind.rank < r'.kind.rank ∨ ∃ x y, r.sessionId = some x ∧ r'.sessionId = some y ∧ utf8 x < utf8 y)

def Record.place (r : Record) : String × RecordKind × Option String := (r.scopeId, r.kind, r.sessionId)

theorem after_of_gt {x y : String} (h : compareUtf8 y x = .gt) : utf8 x < utf8 y := by
  unfold compareUtf8 compareOfLessAndEq at h
  split at h
  · cases h
  · rename_i hlt
    split at h
    · cases h
    · rename_i hne
      exact Std.lt_of_le_of_ne hlt fun heq => hne heq.symm

theorem Record.rank_of_sessionId {r : Record} {x : String} (h : r.sessionId = some x) : r.kind.rank = 2 := by
  cases r with
  | session item => rfl
  | scope item => cases h
  | sessionsScope id revision => cases h

theorem Record.rank_le (r : Record) : r.kind.rank ≤ 2 := by cases r <;> simp [Record.kind, RecordKind.rank]

theorem Record.Before.trans {r₁ r₂ r₃ : Record} (h : r₁.Before r₂) (h' : r₂.Before r₃) : r₁.Before r₃ := by
  rcases h with hlt | ⟨hsame, hin⟩
  · rcases h' with hlt' | ⟨hsame', -⟩
    · exact .inl (List.lt_trans hlt hlt')
    · exact .inl (hsame' ▸ hlt)
  · rcases h' with hlt' | ⟨hsame', hin'⟩
    · exact .inl (hsame ▸ hlt')
    · refine .inr ⟨hsame.trans hsame', ?_⟩
      have hle := r₃.rank_le
      rcases hin with hin | ⟨x, y, hx, hy, hxy⟩
      · rcases hin' with hin' | ⟨y', z, hy', hz', -⟩
        · exact .inl (hin.trans hin')
        · have := Record.rank_of_sessionId hy'
          have := Record.rank_of_sessionId hz'
          exact .inl (by omega)
      · rcases hin' with hin' | ⟨y', z, hy', hz, hyz⟩
        · have := Record.rank_of_sessionId hy
          omega
        · obtain rfl := Option.some.inj (hy.symm.trans hy')
          exact .inr ⟨x, z, hx, hz, List.lt_trans hxy hyz⟩

theorem Record.Before.place_ne {r r' : Record} (h : r.Before r') : r.place ≠ r'.place := by
  intro hsame
  obtain ⟨hscope, hkind, hsession⟩ : r.scopeId = r'.scopeId ∧ r.kind = r'.kind ∧ r.sessionId = r'.sessionId := by
    simpa [Record.place] using hsame
  rcases h with hlt | ⟨-, hin | ⟨x, y, hx, hy, hxy⟩⟩
  · rw [hscope] at hlt
    exact List.lt_irrefl _ hlt
  · rw [hkind] at hin
    exact Nat.lt_irrefl _ hin
  · rw [hsession, hy] at hx
    rw [Option.some.inj hx] at hxy
    exact List.lt_irrefl _ hxy

/-! ## Records in order -/

theorem advance_start {r : Record} {o : SnapshotOrder} (h : SnapshotOrder.start.advance r = some o) : o = r.order := by
  cases r with
  | scope item => exact (Option.some.inj h).symm
  | sessionsScope id revision => simp [SnapshotOrder.advance, SnapshotOrder.start] at h
  | session item => simp [SnapshotOrder.advance, SnapshotOrder.start] at h

theorem advance_order {r r' : Record} {o : SnapshotOrder} (h : r.order.advance r' = some o) : o = r'.order ∧ r.Before r' := by
  cases r' with
  | scope item =>
    simp [SnapshotOrder.advance, Record.order] at h
    exact ⟨h.2.symm, .inl (after_of_gt h.1.2)⟩
  | sessionsScope id revision =>
    simp [SnapshotOrder.advance, Record.order] at h
    obtain ⟨⟨hid, hkind⟩, rfl⟩ := h
    refine ⟨by rw [hid]; rfl, .inr ⟨hid, .inl ?_⟩⟩
    rw [hkind]
    exact Nat.zero_lt_one
  | session item =>
    simp [SnapshotOrder.advance, Record.order] at h
    obtain ⟨⟨⟨hid, hkind⟩, hsession⟩, rfl⟩ := h
    refine ⟨by rw [hid]; rfl, .inr ⟨hid, ?_⟩⟩
    cases r with
    | scope item' => simp [Record.kind] at hkind
    | sessionsScope id revision => exact .inl (Nat.lt_succ_self 1)
    | session item' => exact .inr ⟨item'.sessionId, item.sessionId, rfl, rfl, after_of_gt (by simpa [Record.sessionId] using hsession)⟩

theorem through_order {r : Record} {o : SnapshotOrder} (h : r.order.through rs = some o) :
    List.IsChain Record.Before (r :: rs) := by
  induction rs generalizing r with
  | nil => exact List.IsChain.singleton r
  | cons r' rest ih =>
    obtain ⟨o', ho', hrest⟩ := Option.bind_eq_some_iff.mp h
    obtain ⟨rfl, hbefore⟩ := advance_order ho'
    exact List.isChain_cons_cons.mpr ⟨hbefore, ih hrest⟩

/-- **No two records of a staging stand in one place.** -/
theorem places_nodup {o : SnapshotOrder} (h : SnapshotOrder.start.through rs = some o) : (rs.map Record.place).Nodup := by
  have hchain : List.IsChain Record.Before rs := by
    cases rs with
    | nil => exact List.IsChain.nil
    | cons r rest =>
      obtain ⟨o', ho', hrest⟩ := Option.bind_eq_some_iff.mp h
      obtain rfl := advance_start ho'
      exact through_order hrest
  have : IsTrans Record Record.Before := ⟨fun _ _ _ => Record.Before.trans⟩
  have hpair : rs.Pairwise Record.Before := List.isChain_iff_pairwise.mp hchain
  exact List.pairwise_map.mpr (hpair.imp Record.Before.place_ne)

theorem through_append {o o' o'' : SnapshotOrder} {rs' : List Record} (h : o.through rs = some o')
    (h' : o'.through rs' = some o'') : o.through (rs ++ rs') = some o'' := by
  induction rs generalizing o with
  | nil =>
    obtain rfl := Option.some.inj h
    exact h'
  | cons r rest ih =>
    obtain ⟨o₁, ho₁, hrest⟩ := Option.bind_eq_some_iff.mp h
    exact Option.bind_eq_some_iff.mpr ⟨o₁, ho₁, ih hrest⟩

/-! ## The staging of a run -/

/-- The records of a staging are in order, and all there. -/
structure Sequenced (t : Tables) (st : StoredSnapshot) : Prop where
  ids : ∀ r ∈ t.records, r.snapshotId = st.snapshotId
  indices : t.records.map StoredRecord.recordIndex = List.range t.records.length
  received : st.receivedRecords = t.records.length
  order : SnapshotOrder.start.through (t.records.map StoredRecord.record) =
    some ⟨st.lastScopeId, st.lastRecordKind, st.lastSessionId⟩
  closed : st.complete = true → st.lastRecordKind ≠ some .scope

structure Tables.InOrder (t : Tables) : Prop where
  idle : t.snapshot = none → t.records = []
  staging : ∀ st, t.snapshot = some st → Sequenced t st

/-- What a chunk that is taken goes on from, and how its records go on. -/
structure Continues (c : ChunkFields) (existing : Option StoredSnapshot) (base : StoredSnapshot) (order : SnapshotOrder) :
    Prop where
  goesOn : existing = none ∧ base = c.base ∨ existing = some base ∧ base.snapshotId = c.snapshotId
  through : SnapshotOrder.through ⟨base.lastScopeId, base.lastRecordKind, base.lastSessionId⟩ c.records = some order
  closed : c.isLast = true → order.recordKind ≠ some .scope

theorem staged_continues {c : ChunkFields} {existing : Option StoredSnapshot} {updated : StoredSnapshot}
    (hs : c.staged existing = .ok updated) : ∃ base order, updated = base.after c order ∧ Continues c existing base order := by
  have hends : Ends (c.staged existing) (fun u => ∃ base order, u = base.after c order ∧ Continues c existing base order)
      (fun _ => True) := by
    unfold ChunkFields.staged
    refine Ends.ite (fun _ => Ends.error trivial) fun _ => ?_
    refine Ends.bind (P := fun base => existing = none ∧ base = c.base ∨
      existing = some base ∧ base.snapshotId = c.snapshotId) ?_ fun base hbase => ?_
    · cases existing with
      | none => exact Ends.ite (fun _ => Ends.error trivial) fun _ => Ends.ok (.inl ⟨rfl, rfl⟩)
      | some st =>
        refine Ends.ite (fun _ => Ends.error trivial) fun hsame => Ends.ok (.inr ⟨rfl, ?_⟩)
        simp only [Bool.or_eq_true, not_or, Bool.not_eq_true', Bool.not_eq_false, StoredSnapshot.matchesFixedBinding,
          Bool.and_eq_true, decide_eq_true_eq] at hsame
        exact hsame.1.1.1.1.1.1.1.1.1.1.1.2
    · split
      · exact Ends.error trivial
      · rename_i order horder
        refine Ends.ite (fun _ => Ends.error trivial) fun hopen => ?_
        refine Ends.ite (fun _ => Ends.error trivial) fun _ => Ends.pure ⟨base, order, rfl, hbase, horder, fun hlast hkind => ?_⟩
        simp [hlast, hkind] at hopen
  exact hends.value hs

/-- **A chunk that is taken keeps the staging in order.** -/
theorem Tables.InOrder.chunk {c : ChunkFields} {updated : StoredSnapshot} (hs : t.InOrder)
    (htaken : c.staged t.snapshot = .ok updated) :
    Tables.InOrder { t with snapshot := some updated
                            records := t.records ++ c.rows (t.snapshot.elim 0 StoredSnapshot.receivedRecords) } := by
  refine ⟨by simp, fun st hst => ?_⟩
  obtain rfl := Option.some.inj hst
  obtain ⟨base, order, rfl, hcont⟩ := staged_continues htaken
  -- what was staged before the chunk
  have hbefore : Sequenced t { base with complete := false } ∧ base.snapshotId = c.snapshotId ∧
      t.snapshot.elim 0 StoredSnapshot.receivedRecords = t.records.length := by
    rcases hcont.goesOn with ⟨hnone, rfl⟩ | ⟨hsome, hid⟩
    · have hempty := hs.idle hnone
      refine ⟨⟨?_, ?_, ?_, ?_, by simp⟩, rfl, ?_⟩
      · rw [hempty]
        simp
      · rw [hempty]
        rfl
      · rw [hempty]
        rfl
      · rw [hempty]
        rfl
      · rw [hnone, hempty]
        rfl
    · have hq := hs.staging base hsome
      refine ⟨⟨hq.ids, hq.indices, hq.received, hq.order, by simp⟩, hid, ?_⟩
      rw [hsome]
      exact hq.received
  obtain ⟨hq, hid, hstart⟩ := hbefore
  rw [hstart]
  refine ⟨fun r hr => ?_, ?_, ?_, ?_, fun hlast => hcont.closed hlast⟩
  · rcases List.mem_append.mp hr with hr | hr
    · exact hq.ids r hr
    · obtain ⟨i, hi, rfl⟩ := List.mem_mapIdx.mp hr
      exact hid.symm
  · show (t.records ++ c.rows t.records.length).map StoredRecord.recordIndex = _
    rw [List.map_append, hq.indices, rows_index, List.length_append]
  · show base.receivedRecords + c.records.length = (t.records ++ c.rows t.records.length).length
    have hreceived : base.receivedRecords = t.records.length := hq.received
    rw [hreceived, List.length_append]
    simp [ChunkFields.rows]
  · show SnapshotOrder.start.through ((t.records ++ c.rows t.records.length).map StoredRecord.record) = some order
    rw [List.map_append, rows_record]
    exact through_append hq.order hcont.through

theorem Tables.InOrder.same (hs : t.InOrder) (hsnapshot : t'.snapshot = t.snapshot) (hrecords : t'.records = t.records) :
    t'.InOrder := by
  refine ⟨fun hnone => hrecords.trans (hs.idle (hsnapshot.symm.trans hnone)), fun st hst => ?_⟩
  have hq := hs.staging st (hsnapshot.symm.trans hst)
  refine ⟨?_, ?_, ?_, ?_, hq.closed⟩
  · rw [hrecords]
    exact hq.ids
  · rw [hrecords]
    exact hq.indices
  · rw [hrecords]
    exact hq.received
  · rw [hrecords]
    exact hq.order

theorem inOrder_none (hnone : t.snapshot = none) (hrecords : t.records = []) : t.InOrder := by
  refine ⟨fun _ => hrecords, fun st hst => ?_⟩
  rw [hnone] at hst
  cases hst

theorem Moved.inOrder (hs : (s.tables n).InOrder) (hmoved : Moved C s n a (s.tables n) op a' t') : t'.InOrder := by
  cases hmoved with
  | kept held pending phase required staging events => exact hs.same staging.1 staging.2
  | released o held idle pending names required cleared => exact inOrder_none cleared.1 cleared.2.1
  | dropped cache idle pending gone phase required => exact inOrder_none rfl rfl
  | matched cache idle pending unstaged phase required reached => exact inOrder_none rfl rfl
  | staged place idle phase taken => exact hs.chunk taken
  | applied place idle phase advances => exact hs.same advances.keeps.1 advances.keeps.2.1
  | committed idle staging sound written advanced names => exact inOrder_none rfl rfl
  | completed pending planned => exact hs

def Store.InOrder (s : Store) : Prop := ∀ n a, s.authority n = some a → (s.tables n).InOrder

theorem Turn.inOrder (hs : s.InOrder) (ht : Turn C s op s') : s'.InOrder := by
  intro n b hb
  cases ht with
  | stays => exact hs n b hb
  | moved before place journal moved =>
    rename_i m a a' t'
    by_cases hm : n = m
    · subst hm
      rw [place.rows]
      exact moved.inOrder (hs n a before)
    · rw [(place.elsewhere n hm).1] at hb
      rw [(place.elsewhere n hm).2]
      exact hs n b hb
  | founded journal founded =>
    rename_i plan h a'
    by_cases hm : n = h.namespace
    · subst hm
      rw [founded.rows]
      exact inOrder_none rfl rfl
    · by_cases hi : n.connectIdentity = h.namespace.connectIdentity
      · rw [(founded.others n hm hi).1] at hb
        cases hb
      · rw [(founded.elsewhere n hi).1] at hb
        rw [(founded.elsewhere n hi).2]
        exact hs n b hb
  | cleared profileId =>
    rw [authority_cleared] at hb
    rw [tables_cleared]
    split at hb
    · cases hb
    · rename_i hm
      rw [if_neg hm]
      exact hs n b hb

/-- **Every staging of a run is in order.** -/
theorem run_inOrder (C : Core) (ops : List Op) : (run C ops).InOrder := by
  have hboth : (run C ops).Sound ∧ (run C ops).InOrder := by
    have hempty : Store.empty.InOrder := fun n a ha => by cases ha
    refine run_induction (I := fun s => s.Sound ∧ s.InOrder) ⟨Store.sound_empty, hempty⟩
      (fun s op hs => ⟨after_sound hs.1 op, ?_⟩) ops
    unfold after
    split
    · rename_i h
      exact Turn.inOrder hs.2 ((step_turns hs.1 op).value h)
    · exact hs.2
  exact hboth.2

end Sync
end TmuxWorktree
