import TmuxWorktree.Sync.Exact
/-!
# Cut — a staged snapshot of the host is its cut, and its commit is the state

The staging holds the first parts of one cut.  The commit writes the records of all of them, and what it writes is a copy of
the state that the cut lists.
-/
namespace TmuxWorktree
namespace Sync

variable {t t' : Tables} {a : Authority} {h : HostState} {H : Host}

/-! ## Listing a state -/

theorem Copies.scope_mem (hc : Copies t h) {s : StoredScope} : s ∈ t.scopes ↔ h.scopes s.item.scopeId = some s := by
  rw [← hc.scopes]
  exact ⟨fun hs => Keyed.find_of_mem hc.distinct.1 hs, fun hs => Keyed.mem_of_find hs⟩

theorem Copies.session_mem (hc : Copies t h) {x : StoredSession} :
    x ∈ t.sessions ↔ h.sessions (x.item.scopeId, x.item.sessionId) = some x.item := by
  rw [← hc.sessions]
  constructor
  · intro hx
    have := Keyed.find_of_mem hc.distinct.2 hx
    unfold Tables.sessionAt
    exact (congrArg _ this).trans rfl
  · intro hx
    obtain ⟨y, hy, hitem⟩ := Option.map_eq_some_iff.mp hx
    have hsame : y = x := by
      cases y
      cases x
      exact congrArg StoredSession.mk hitem
    exact hsame ▸ Keyed.mem_of_find hy

theorem recordsOf_nodup (hd : t.Distinct) : t.recordsOf.Nodup := by
  unfold Tables.recordsOf
  refine List.Nodup.append (List.nodup_flatMap.mpr ⟨fun s _ => by simp, ?_⟩) ?_ ?_
  · have hpair := List.pairwise_map.mp hd.1
    refine hpair.imp fun {s s'} hne r hr hr' => ?_
    simp only [List.mem_cons, List.not_mem_nil, or_false] at hr hr'
    rcases hr with rfl | rfl <;> rcases hr' with hr' | hr' <;> exact hne (congrArg Record.scopeId hr')
  · have hnodup : t.sessions.Nodup := List.Nodup.of_map _ hd.2
    refine hnodup.map fun x y hxy => ?_
    cases x
    cases y
    cases hxy
    rfl
  · intro r hr hr'
    obtain ⟨s, -, hs⟩ := List.mem_flatMap.mp hr
    obtain ⟨x, -, rfl⟩ := List.mem_map.mp hr'
    simp at hs

theorem Copies.lists (hc : Copies t h) : h.Lists t.recordsOf where
  nodup := recordsOf_nodup hc.distinct
  scope := by
    intro item
    simp only [Tables.recordsOf, List.mem_append, List.mem_flatMap, List.mem_map, List.mem_cons, List.not_mem_nil, or_false,
      Record.scope.injEq, reduceCtorEq, and_false, exists_false]
    constructor
    · rintro ⟨s, hs, rfl⟩
      exact ⟨s.sessionsRevision, hc.scope_mem.mp hs⟩
    · rintro ⟨revision, hs⟩
      exact ⟨⟨item, revision⟩, hc.scope_mem.mpr hs, rfl⟩
  sessionsScope := by
    intro id revision
    simp only [Tables.recordsOf, List.mem_append, List.mem_flatMap, List.mem_map, List.mem_cons, List.not_mem_nil, or_false,
      Record.sessionsScope.injEq, reduceCtorEq, and_false, exists_false, false_or]
    constructor
    · rintro ⟨s, hs, rfl, rfl⟩
      exact ⟨s.item, hc.scope_mem.mp hs⟩
    · rintro ⟨item, hs⟩
      have hid : item.scopeId = id := h.scope_key _ _ hs
      exact ⟨⟨item, revision⟩, hc.scope_mem.mpr (by rw [hid]; exact hs), hid.symm, rfl⟩
  session := by
    intro item
    simp only [Tables.recordsOf, List.mem_append, List.mem_flatMap, List.mem_map, List.mem_cons, List.not_mem_nil, or_false,
      Record.session.injEq, reduceCtorEq, and_false, exists_false, false_or]
    constructor
    · rintro ⟨x, hx, rfl⟩
      exact hc.session_mem.mp hx
    · intro hx
      exact ⟨⟨item⟩, hc.session_mem.mpr hx, rfl⟩

theorem HostState.Lists.perm {rs rs' : List Record} (hl : h.Lists rs) (hl' : h.Lists rs') : rs.Perm rs' := by
  refine (List.perm_ext_iff_of_nodup hl.nodup hl'.nodup).mpr fun r => ?_
  cases r with
  | scope item => rw [hl.scope, hl'.scope]
  | sessionsScope id revision => rw [hl.sessionsScope, hl'.sessionsScope]
  | session item => rw [hl.session, hl'.session]

/-! ## Writing the records -/

/-- What the records so far have written. -/
structure Written (p : Tables × Option ScopeItem) (rs : List Record) : Prop where
  distinct : p.1.Distinct
  scopes : ∀ s ∈ p.1.scopes, .scope s.item ∈ rs ∧ .sessionsScope s.item.scopeId s.sessionsRevision ∈ rs
  hasScope : ∀ id revision, .sessionsScope id revision ∈ rs → (p.1.scope id).isSome
  sessions : ∀ x ∈ p.1.sessions, .session x.item ∈ rs
  hasSession : ∀ item, .session item ∈ rs → (p.1.sessionAt (item.scopeId, item.sessionId)).isSome
  waiting : ∀ item, p.2 = some item → .scope item ∈ rs

theorem written_nil (t : Tables) : Written ({ t with scopes := [], sessions := [] }, none) [] where
  distinct := ⟨List.nodup_nil, List.nodup_nil⟩
  scopes := by simp
  hasScope := by simp
  sessions := by simp
  hasSession := by simp
  waiting := by simp

theorem Written.record {p p' : Tables × Option ScopeItem} {rs : List Record} {r : Record} (hw : Written p rs)
    (hr : commitRecord p r = .ok p') : Written p' (rs ++ [r]) := by
  have hold : ∀ {x}, x ∈ rs → x ∈ rs ++ [r] := fun hx => List.mem_append_left _ hx
  have hnew : r ∈ rs ++ [r] := List.mem_append_right _ (List.mem_singleton_self r)
  obtain ⟨t, waiting⟩ := p
  cases r with
  | scope item =>
    cases waiting with
    | some _ => cases hr
    | none =>
      cases hr
      refine ⟨hw.distinct, fun s hs => (hw.scopes s hs).imp hold hold, fun id revision hm => ?_,
        fun x hx => hold (hw.sessions x hx), fun y hy => ?_, fun y hy => ?_⟩
      · exact hw.hasScope id revision (by simpa using hm)
      · exact hw.hasSession y (by simpa using hy)
      · rw [← Option.some.inj hy]
        exact hnew
  | sessionsScope scopeId revision =>
    cases waiting with
    | none => cases hr
    | some item =>
      simp only [commitRecord] at hr
      split at hr
      · rename_i hid
        cases hr
        refine ⟨⟨Keyed.keys_put hw.distinct.1, hw.distinct.2⟩, fun s hs => ?_, fun id rev hm => ?_,
          fun x hx => hold (hw.sessions x hx), fun y hy => ?_, by simp⟩
        · rcases Keyed.mem_put hs with rfl | hs
          · refine ⟨hold (hw.waiting item rfl), ?_⟩
            rw [hid]
            exact hnew
          · exact (hw.scopes s hs).imp hold hold
        · rw [scope_putScope]
          by_cases hsame : id = item.scopeId
          · rw [hsame, Function.update_self]
            rfl
          · rw [Function.update_of_ne hsame]
            rcases List.mem_append.mp hm with hm | hm
            · exact hw.hasScope id rev hm
            · cases List.mem_singleton.mp hm
              exact absurd hid.symm hsame
        · exact hw.hasSession y (by simpa using hy)
      · cases hr
  | session item =>
    have hp' : p' = (t.putSession ⟨item⟩, waiting) := by
      cases waiting <;> cases hr <;> rfl
    subst hp'
    refine ⟨⟨hw.distinct.1, Keyed.keys_put hw.distinct.2⟩, fun s hs => (hw.scopes s hs).imp hold hold,
      fun id rev hm => hw.hasScope id rev (by simpa using hm), fun x hx => ?_, fun y hy => ?_,
      fun y hy => hold (hw.waiting y hy)⟩
    · rcases Keyed.mem_put hx with rfl | hx
      · exact hnew
      · exact hold (hw.sessions x hx)
    · rw [sessionAt_putSession]
      by_cases hsame : (y.scopeId, y.sessionId) = (⟨item⟩ : StoredSession).key
      · rw [hsame, Function.update_self]
        rfl
      · rw [Function.update_of_ne hsame]
        rcases List.mem_append.mp hy with hy | hy
        · exact hw.hasSession y hy
        · cases List.mem_singleton.mp hy
          exact absurd rfl hsame

theorem Written.fold {p p' : Tables × Option ScopeItem} {rs rs' : List Record} (hw : Written p rs)
    (hr : rs'.foldlM commitRecord p = .ok p') : Written p' (rs ++ rs') := by
  induction rs' generalizing p rs with
  | nil =>
    cases hr
    rwa [List.append_nil]
  | cons r rest ih =>
    rw [List.foldlM_cons] at hr
    cases hp : commitRecord p r with
    | error f =>
      rw [hp] at hr
      cases hr
    | ok p₁ =>
      rw [hp] at hr
      have := ih (hw.record hp) hr
      rwa [List.append_assoc, List.singleton_append] at this

/-- **The records of a cut write a copy of its state.** -/
theorem commitRecords_copies {rs : List Record} (hl : h.Lists rs) (hr : commitRecords t rs = .ok t') : Copies t' h := by
  unfold commitRecords at hr
  cases hp : rs.foldlM commitRecord ({ t with scopes := [], sessions := [] }, none) with
  | error f =>
    rw [hp] at hr
    cases hr
  | ok p =>
    obtain ⟨t₁, waiting⟩ := p
    rw [hp] at hr
    have hw : Written (t₁, waiting) rs := (written_nil t).fold hp
    have ht : t₁ = t' := by
      cases waiting with
      | none => exact Except.ok.inj hr
      | some item => cases hr
    subst ht
    refine ⟨hw.distinct, ?_, ?_⟩
    · funext id
      cases hs : t₁.scope id with
      | some s =>
        have hid := scope_key hs
        obtain ⟨hscope, hrev⟩ := hw.scopes s (Keyed.mem_of_find hs)
        obtain ⟨item, hitem⟩ := (hl.sessionsScope _ _).mp hrev
        obtain ⟨revision, hrevision⟩ := (hl.scope _).mp hscope
        rw [hid] at hitem hrevision
        have hsame := Option.some.inj (hitem.symm.trans hrevision)
        rw [hitem, (StoredScope.mk.inj hsame).1]
      | none =>
        cases hh : h.scopes id with
        | none => rfl
        | some s =>
          have hmem : Record.sessionsScope id s.sessionsRevision ∈ rs := (hl.sessionsScope _ _).mpr ⟨s.item, hh⟩
          have := hw.hasScope _ _ hmem
          rw [hs] at this
          cases this
    · funext k
      cases hx : t₁.sessionAt k with
      | some item =>
        obtain ⟨x, hfind, rfl⟩ := Option.map_eq_some_iff.mp hx
        have hkey : x.key = k := Keyed.key_of_find hfind
        have := (hl.session _).mp (hw.sessions x (Keyed.mem_of_find hfind))
        rw [← hkey]
        exact this.symm
      | none =>
        cases hh : h.sessions k with
        | none => rfl
        | some item =>
          have hkey := h.session_key _ _ hh
          have hmem : Record.session item ∈ rs := (hl.session _).mpr (by rw [hkey]; exact hh)
          have := hw.hasSession _ hmem
          rw [hkey, hx] at this
          cases this

/-! ## The staging -/

/-- The staging is the first parts of one cut of the host. -/
structure Follows (H : Host) (t : Tables) (st : StoredSnapshot) (cut : Cut H.history) : Prop where
  named : H.cut st.snapshotRequestId st.snapshotId = some cut
  through : st.throughEventSeq = cut.through
  scopesRevision : st.scopesRevision = (H.history.states cut.through).scopesRevision
  next : st.nextChunkIndex ≤ cut.parts.length
  complete : st.complete = true → st.nextChunkIndex = cut.parts.length
  records : t.records.map StoredRecord.record = (cut.parts.take st.nextChunkIndex).flatten
  indices : t.records.map StoredRecord.recordIndex = List.range t.records.length
  ids : ∀ r ∈ t.records, r.snapshotId = st.snapshotId
  received : st.receivedRecords = t.records.length

structure Staging (H : Host) (t : Tables) : Prop where
  idle : t.snapshot = none → t.records = []
  cut : ∀ st, t.snapshot = some st → ∃ cut, Follows H t st cut

theorem staged_ok {c : ChunkFields} {existing : Option StoredSnapshot} {updated : StoredSnapshot}
    (hs : c.staged existing = .ok updated) : ∃ base order, updated = base.after c order ∧
      (existing = none ∧ base = c.base ∧ c.chunkIndex = 0 ∨
        existing = some base ∧ base.matchesFixedBinding c = true ∧ c.chunkIndex = base.nextChunkIndex) := by
  have hends : Ends (c.staged existing) (fun u => ∃ base order, u = base.after c order ∧
      (existing = none ∧ base = c.base ∧ c.chunkIndex = 0 ∨
        existing = some base ∧ base.matchesFixedBinding c = true ∧ c.chunkIndex = base.nextChunkIndex)) (fun _ => True) := by
    unfold ChunkFields.staged
    refine Ends.ite (fun _ => Ends.error trivial) fun _ => ?_
    refine Ends.bind (P := fun base => existing = none ∧ base = c.base ∧ c.chunkIndex = 0 ∨
      existing = some base ∧ base.matchesFixedBinding c = true ∧ c.chunkIndex = base.nextChunkIndex) ?_ fun base hbase => ?_
    · cases existing with
      | none => exact Ends.ite (fun _ => Ends.error trivial) fun h0 => Ends.ok (.inl ⟨rfl, rfl, not_not.mp h0⟩)
      | some st =>
        refine Ends.ite (fun _ => Ends.error trivial) fun hsame => Ends.ok (.inr ⟨rfl, ?_⟩)
        simp only [Bool.or_eq_true, not_or, decide_eq_true_eq, not_not, Bool.not_eq_true', Bool.not_eq_false] at hsame
        exact ⟨hsame.1.1.1.1, hsame.1.1.2⟩
    · split
      · exact Ends.error trivial
      · rename_i order _
        refine Ends.ite (fun _ => Ends.error trivial) fun _ => ?_
        exact Ends.ite (fun _ => Ends.error trivial) fun _ => Ends.pure ⟨base, order, rfl, hbase⟩
  exact hends.value hs

theorem rows_record (c : ChunkFields) (start : Nat) : (c.rows start).map StoredRecord.record = c.records := by
  refine List.ext_getElem (by simp [ChunkFields.rows]) fun i _ _ => ?_
  simp [ChunkFields.rows]

theorem rows_index (c : ChunkFields) (start : Nat) :
    List.range start ++ (c.rows start).map StoredRecord.recordIndex = List.range (start + (c.rows start).length) := by
  rw [List.range_add]
  congr 1
  refine List.ext_getElem (by simp) fun i _ _ => ?_
  simp [ChunkFields.rows]

theorem take_flatten {α : Type} {parts : List (List α)} {k : Nat} {part : List α} (hk : parts[k]? = some part) :
    (parts.take (k + 1)).flatten = (parts.take k).flatten ++ part := by
  rw [List.take_add_one, hk]
  simp

/-- **A part of the host's snapshot keeps the staging a staging of it.** -/
theorem Staging.chunk {c : ChunkFields} {updated : StoredSnapshot} {cut : Cut H.history} (hs : Staging H t) (hc : H.Chunk c cut)
    (htaken : c.staged t.snapshot = .ok updated) :
    Staging H { t with snapshot := some updated
                       records := t.records ++ c.rows (t.snapshot.elim 0 StoredSnapshot.receivedRecords) } := by
  refine ⟨by simp, fun st hst => ?_⟩
  obtain rfl := Option.some.inj hst
  obtain ⟨base, order, rfl, hbase⟩ := staged_ok htaken
  have hlt : c.chunkIndex < cut.parts.length := (List.getElem?_eq_some_iff.mp hc.part).1
  have hcomplete : (base.after c order).complete = true → (base.after c order).nextChunkIndex = cut.parts.length :=
    hc.isLast.mp
  -- what was staged before the chunk
  have hbefore : Follows H t { base with complete := false } cut ∧ c.chunkIndex = base.nextChunkIndex ∧
      t.snapshot.elim 0 StoredSnapshot.receivedRecords = t.records.length := by
    rcases hbase with ⟨hnone, rfl, h0⟩ | ⟨hsome, hmatch, hindex⟩
    · have hempty := hs.idle hnone
      refine ⟨⟨hc.named, hc.through, hc.scopesRevision, Nat.zero_le _, by simp, ?_, ?_, ?_, ?_⟩, h0, ?_⟩
      · rw [hempty]
        rfl
      · rw [hempty]
        rfl
      · rw [hempty]
        simp
      · rw [hempty]
        rfl
      · rw [hnone, hempty]
        rfl
    · obtain ⟨cut', hf⟩ := hs.cut base hsome
      simp only [StoredSnapshot.matchesFixedBinding, Bool.and_eq_true, decide_eq_true_eq] at hmatch
      have hsame : cut' = cut := by
        have hnamed := hf.named
        rw [hmatch.1.1.1.1.1.1.1.1, hmatch.1.1.1.1.1.1.1.2, hc.named] at hnamed
        exact (Option.some.inj hnamed).symm
      subst hsame
      refine ⟨⟨hf.named, hf.through, hf.scopesRevision, hf.next, by simp, hf.records, hf.indices, hf.ids, hf.received⟩,
        hindex, ?_⟩
      rw [hsome]
      exact hf.received
  obtain ⟨hf, hindex, hstart⟩ := hbefore
  have hids : base.snapshotId = c.snapshotId := by
    rcases hbase with ⟨-, rfl, -⟩ | ⟨-, hmatch, -⟩
    · rfl
    · simp only [StoredSnapshot.matchesFixedBinding, Bool.and_eq_true, decide_eq_true_eq] at hmatch
      exact hmatch.1.1.1.1.1.1.1.2
  rw [hstart]
  refine ⟨cut, hf.named, hf.through, hf.scopesRevision, hlt, hcomplete, ?_, ?_, ?_, ?_⟩
  · show (t.records ++ c.rows t.records.length).map StoredRecord.record = (cut.parts.take (c.chunkIndex + 1)).flatten
    rw [List.map_append, rows_record, take_flatten hc.part, hindex]
    exact congrArg (· ++ c.records) hf.records
  · show (t.records ++ c.rows t.records.length).map StoredRecord.recordIndex = _
    rw [List.map_append, hf.indices, rows_index, List.length_append]
  · intro r hr
    rcases List.mem_append.mp hr with hr | hr
    · exact hf.ids r hr
    · obtain ⟨i, hi, rfl⟩ := List.mem_mapIdx.mp hr
      exact hids.symm
  · show base.receivedRecords + c.records.length = (t.records ++ c.rows t.records.length).length
    have hreceived : base.receivedRecords = t.records.length := hf.received
    rw [hreceived, List.length_append]
    simp [ChunkFields.rows]

/-! ## The commit -/

theorem staged_eq {snapshotId : String} (hids : ∀ r ∈ t.records, r.snapshotId = snapshotId)
    (hindices : t.records.map StoredRecord.recordIndex = List.range t.records.length) : t.staged snapshotId = t.records := by
  have hall : t.records.filter (fun r => r.snapshotId = snapshotId) = t.records :=
    List.filter_eq_self.mpr fun r hr => decide_eq_true (hids r hr)
  unfold Tables.staged
  rw [hall]
  refine List.Pairwise.insertionSort_eq ?_
  have hsorted : (t.records.map StoredRecord.recordIndex).Pairwise (· ≤ ·) := by
    rw [hindices]
    exact List.pairwise_le_range
  exact List.pairwise_map.mp hsorted

theorem Follows.staged {st : StoredSnapshot} {cut : Cut H.history} (hf : Follows H t st cut) :
    t.staged st.snapshotId = t.records := staged_eq hf.ids hf.indices

theorem commitFailure_none {C : Core} {st : StoredSnapshot} {snapshotId : String} {buffered : List Event}
    (hnone : commitFailure C t a st snapshotId buffered = .ok none) : st.complete = true ∧
      st.totalRecords = (t.staged st.snapshotId).length ∧
      st.totalCanonicalBytes = (Record.array ((t.staged st.snapshotId).map StoredRecord.record)).bytes := by
  have hends : Ends (commitFailure C t a st snapshotId buffered) (fun r => r = none → st.complete = true ∧
      st.totalRecords = (t.staged st.snapshotId).length ∧
      st.totalCanonicalBytes = (Record.array ((t.staged st.snapshotId).map StoredRecord.record)).bytes) (fun _ => True) := by
    unfold commitFailure
    refine Ends.ite (fun _ => Ends.pure (by simp)) fun _ => Ends.ite (fun _ => Ends.pure (by simp)) fun hcomplete => ?_
    refine Ends.bind (P := fun actual => actual.recordCount = (t.staged st.snapshotId).length ∧
      actual.totalCanonicalBytes = (Record.array ((t.staged st.snapshotId).map StoredRecord.record)).bytes) ?_
      fun actual hactual => ?_
    · unfold inspectStagedCut
      refine Ends.seq (fun _ _ => Ends.pure ⟨rfl, rfl⟩) fun _ _ => trivial
    refine Ends.ite (fun _ => Ends.pure (by simp)) fun htotals => Ends.ite (fun _ => Ends.pure (by simp)) fun _ => ?_
    simp only [Bool.or_eq_true, decide_eq_true_eq, not_or, not_not] at htotals
    have hgood : st.complete = true ∧ st.totalRecords = (t.staged st.snapshotId).length ∧
        st.totalCanonicalBytes = (Record.array ((t.staged st.snapshotId).map StoredRecord.record)).bytes := by
      refine ⟨by simpa using hcomplete, ?_, ?_⟩
      · rw [← htotals.1, hactual.1]
      · rw [← htotals.2, hactual.2]
    refine Ends.seq (fun _ _ => ?_) fun _ _ => trivial
    exact Ends.ite (fun _ => Ends.pure (by simp)) fun _ => Ends.pure fun _ => hgood
  exact hends.value hnone rfl

/-- **The commit of the host's snapshot is a copy of the state that the snapshot lists.** -/
theorem Staging.commit {C : Core} {st : StoredSnapshot} {snapshotId : String} {buffered : List Event} {rows : Tables}
    (hs : Staging H t) (hst : t.snapshot = some st)
    (hnone : commitFailure C t a st snapshotId buffered = .ok none)
    (hrows : commitRecords t ((t.staged st.snapshotId).map StoredRecord.record) = .ok rows) :
    st.throughEventSeq ≤ H.history.last ∧ Counted (a.committed st) rows (H.history.states st.throughEventSeq) := by
  obtain ⟨cut, hf⟩ := hs.cut st hst
  obtain ⟨hcomplete, hcount, hbytes⟩ := commitFailure_none hnone
  have hstaged : (t.staged st.snapshotId).map StoredRecord.record = cut.parts.flatten := by
    rw [hf.staged, hf.records, hf.complete hcomplete, List.take_length]
  rw [hstaged] at hrows hbytes
  have hcopies := commitRecords_copies cut.lists hrows
  have hperm := cut.lists.perm hcopies.lists
  have hlen : st.totalRecords = rows.recordsOf.length := by
    rw [hcount, ← hperm.length_eq, ← hstaged, List.length_map]
  have hsum : Record.bytesOf cut.parts.flatten = Record.bytesOf rows.recordsOf := (hperm.map Record.bytes).sum_eq
  rw [hf.through]
  refine ⟨cut.within, hcopies, ?_, ?_, ?_⟩
  · exact congrArg some hf.scopesRevision
  · exact congrArg Nat.cast hlen
  · show ((st.totalCanonicalBytes : Nat) : Int) = _
    rw [hbytes, array_bytes, hsum, hperm.length_eq]

end Sync
end TmuxWorktree
