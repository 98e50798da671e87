import TmuxWorktree.Lib.Packing
import TmuxWorktree.Spool.Reading
import TmuxWorktree.Sync.Exact
/-!
# Written — what `writeCut` writes is the cut, packed

The loop counts as it goes: the records and the bytes so far are those of one canonical array, and the chunks are the parts
of a packing.
-/
namespace TmuxWorktree
namespace Spool

open Sync (Record Core)

/-! ## Arrays -/

def arrayBytes (records : List Record) : Nat := (Record.array records).bytes

theorem arrayBytes_nil : arrayBytes [] = 2 := rfl

theorem arrayBytes_eq (records : List Record) : arrayBytes records = Record.bytesOf records + (records.length - 1) + 2 := by
  unfold arrayBytes Record.array Record.bytesOf
  rw [Json.bytes, Json.bytesItems_eq, List.map_map, List.length_map]
  rfl

theorem arrayBytes_append (records : List Record) (r : Record) :
    arrayBytes (records ++ [r]) = arrayBytes records + r.bytes + if records.isEmpty then 0 else 1 := by
  rw [arrayBytes_eq, arrayBytes_eq]
  unfold Record.bytesOf
  cases records with
  | nil =>
    simp
    omega
  | cons r' rest =>
    simp
    omega

theorem canonicalRecord_bytes (r : Record) : (canonicalRecord r).utf8ByteSize = r.bytes := by
  rw [canonicalRecord_eq, Json.text_bytes]
  rfl

/-- **A chunk file is the canonical array of its records.** -/
theorem chunkText_eq (records : List Record) : chunkText records = (Record.array records).text := by
  unfold chunkText Record.array
  rw [Json.text, Json.textItems_eq, List.map_map]
  congr 3
  exact List.map_congr_left fun r _ => canonicalRecord_eq r

theorem commas_append (parts : List String) (s : String) :
    Json.commas (parts ++ [s]) = Json.commas parts ++ (if parts.isEmpty then "" else ",") ++ s := by
  induction parts with
  | nil => simp [Json.commas]
  | cons a rest ih =>
    cases rest with
    | nil => simp [Json.commas]
    | cons b rest =>
      rw [List.cons_append, List.cons_append, Json.commas, ← List.cons_append, ih, Json.commas]
      simp [String.append_assoc]

/-! ## The loop -/

def fits (limits : Limits) (records : List Record) : Bool :=
  records.length ≤ limits.maxChunkRecords && arrayBytes records ≤ limits.maxChunkCanonicalBytes

/-- What the loop has after the records `rs`. -/
structure Writing.After (limits : Limits) (reservation : Reservation) (rs : List Record) (w : Writing) : Prop where
  totalRecords : w.totalRecords = rs.length
  totalCanonicalBytes : w.totalCanonicalBytes = arrayBytes rs
  packed : (w.chunks, w.currentRecords) = rs.foldl (Packing.step (fits limits)) ([], [])
  currentCanonicalBytes : w.currentCanonicalBytes = arrayBytes w.currentRecords
  digested : w.digested = "[" ++ Json.commas (rs.map canonicalRecord)
  small : ∀ r ∈ rs, arrayBytes [r] ≤ limits.maxChunkCanonicalBytes
  within : rs ≠ [] → rs.length ≤ limits.maxCutRecords ∧ arrayBytes rs ≤ limits.maxCutCanonicalBytes ∧
    rs.length ≤ reservation.reservedRecords ∧ arrayBytes rs ≤ reservation.reservedCanonicalBytes

variable {limits : Limits} {reservation : Reservation} {rs : List Record} {w w' : Writing} {r : Record}

theorem Writing.after_nil : Writing.After limits reservation [] {} where
  totalRecords := rfl
  totalCanonicalBytes := rfl
  packed := rfl
  currentCanonicalBytes := rfl
  digested := rfl
  small := by simp
  within := by simp

theorem Writing.After.next (h : Writing.After limits reservation rs w) (r : Record) :
    w.nextTotalCanonicalBytes r.bytes = arrayBytes (rs ++ [r]) := by
  unfold Writing.nextTotalCanonicalBytes
  rw [arrayBytes_append, h.totalCanonicalBytes, h.totalRecords]
  cases rs <;> simp

/-- **The test of the loop is that of the packing.** -/
theorem Writing.After.makeRoom (h : Writing.After limits reservation rs w) (r : Record) :
    (w.makeRoom limits r.bytes).chunks = (Packing.step (fits limits) (w.chunks, w.currentRecords) r).1 ∧
      (w.makeRoom limits r.bytes).currentRecords ++ [r] = (Packing.step (fits limits) (w.chunks, w.currentRecords) r).2 ∧
      (w.makeRoom limits r.bytes).currentCanonicalBytes = arrayBytes (w.makeRoom limits r.bytes).currentRecords := by
  unfold Writing.makeRoom Packing.step
  cases hempty : w.currentRecords.isEmpty with
  | true => simp [List.isEmpty_iff.mp hempty, h.currentCanonicalBytes]
  | false =>
    have htest : (limits.maxChunkRecords ≤ w.currentRecords.length ||
        limits.maxChunkCanonicalBytes < w.currentCanonicalBytes + (r.bytes + 1)) = !fits limits (w.currentRecords ++ [r]) := by
      unfold fits
      rw [arrayBytes_append, hempty, h.currentCanonicalBytes, List.length_append, List.length_singleton, Bool.eq_iff_iff]
      simp only [Bool.or_eq_true, decide_eq_true_eq, Bool.not_eq_true', Bool.and_eq_false_iff, decide_eq_false_iff_not,
        Bool.false_eq_true, if_false]
      omega
    simp only [Bool.not_false, Bool.true_and, Bool.false_or, Bool.false_eq_true, if_false, htest]
    cases hfits : fits limits (w.currentRecords ++ [r]) with
    | true => simp [h.currentCanonicalBytes]
    | false => simp [Writing.flush, arrayBytes_nil]

theorem Writing.makeRoom_totals (limits : Limits) (w : Writing) (bytes : Nat) :
    (w.makeRoom limits bytes).totalRecords = w.totalRecords ∧
      (w.makeRoom limits bytes).totalCanonicalBytes = w.totalCanonicalBytes ∧
      (w.makeRoom limits bytes).digested = w.digested := by
  have hcases : w.makeRoom limits bytes = w.flush ∨ w.makeRoom limits bytes = w := ite_eq_or_eq _ _ _
  rcases hcases with h | h <;> rw [h] <;> exact ⟨rfl, rfl, rfl⟩

/-- **One record.** -/
theorem Writing.After.write (h : Writing.After limits reservation rs w) (hw : w.write limits reservation r = .ok w') :
    Writing.After limits reservation (rs ++ [r]) w' := by
  unfold Writing.write at hw
  simp only [canonicalRecord_bytes, h.next] at hw
  split at hw
  · cases hw
  rename_i hreserved
  split at hw
  · cases hw
  rename_i hsmall
  split at hw
  · cases hw
  rename_i hcut
  simp only [Bool.or_eq_true, decide_eq_true_eq, not_or, Nat.not_lt, h.totalRecords] at hreserved hcut
  obtain ⟨hchunks, hcurrent, hbytes⟩ := h.makeRoom r
  obtain ⟨hrecords, hcanonical, hdigested⟩ := w.makeRoom_totals limits r.bytes
  obtain rfl := Except.ok.inj hw
  refine ⟨?_, ?_, ?_, ?_, ?_, ?_, ?_⟩
  · show (w.makeRoom limits r.bytes).totalRecords + 1 = (rs ++ [r]).length
    rw [hrecords, h.totalRecords, List.length_append, List.length_singleton]
  · have hnext : (w.makeRoom limits r.bytes).nextTotalCanonicalBytes r.bytes = w.nextTotalCanonicalBytes r.bytes := by
      unfold Writing.nextTotalCanonicalBytes
      rw [hrecords, hcanonical]
    show (w.makeRoom limits r.bytes).nextTotalCanonicalBytes (canonicalRecord r).utf8ByteSize = _
    rw [canonicalRecord_bytes, hnext, h.next]
  · rw [List.foldl_append, ← h.packed, List.foldl_cons, List.foldl_nil]
    exact Prod.ext hchunks hcurrent
  · show (w.makeRoom limits r.bytes).currentCanonicalBytes + (canonicalRecord r).utf8ByteSize + _ = _
    rw [canonicalRecord_bytes, hbytes]
    exact (arrayBytes_append _ r).symm
  · show (w.makeRoom limits r.bytes).digested ++ _ ++ canonicalRecord r = _
    rw [hdigested, hrecords, h.totalRecords, h.digested, List.map_append, List.map_singleton, commas_append]
    cases rs <;> simp [String.append_assoc]
  · intro r' hr'
    rcases List.mem_append.mp hr' with hr' | hr'
    · exact h.small r' hr'
    · obtain rfl := List.mem_singleton.mp hr'
      rw [arrayBytes_eq]
      simp only [Record.bytesOf, List.map_singleton, List.sum_singleton, List.length_singleton]
      omega
  · intro _
    rw [List.length_append, List.length_singleton]
    exact ⟨hcut.1, hcut.2, hreserved.1, hreserved.2⟩

theorem Writing.After.all {rest : List Record} (h : Writing.After limits reservation rs w)
    (hw : rest.foldlM (Writing.write limits reservation) w = .ok w') : Writing.After limits reservation (rs ++ rest) w' := by
  induction rest generalizing rs w with
  | nil =>
    obtain rfl := Except.ok.inj hw
    rwa [List.append_nil]
  | cons r rest ih =>
    rw [List.foldlM_cons] at hw
    cases hr : w.write limits reservation r with
    | error e =>
      rw [hr] at hw
      cases hw
    | ok w₁ =>
      rw [hr] at hw
      have := ih (h.write hr) hw
      rwa [List.append_assoc, List.singleton_append] at this

/-- **The last flush closes the packing.** -/
theorem Writing.After.close (h : Writing.After limits reservation rs w) :
    w.close = w.flush ∧ w.close.chunks = Packing.pack (fits limits) rs := by
  have hpacked := Packing.packed (fits limits) rs
  rw [← h.packed] at hpacked
  have hflush : w.close = w.flush := by
    unfold Writing.close
    refine if_pos ?_
    by_cases hrs : rs = []
    · have := h.packed
      rw [hrs, List.foldl_nil] at this
      simp [(Prod.mk.inj this).1]
    · simp [hpacked.opened hrs]
  refine ⟨hflush, ?_⟩
  rw [hflush]
  show w.chunks ++ [w.currentRecords] = _
  unfold Packing.pack
  rw [← h.packed]

/-! ## What is published -/

/-- A held cut is the cut of a reservation, written out. -/
structure Published (C : Core) (limits : Limits) (now : Nat) (reservation : Reservation) (cut : Cut) (held : ActiveCut) :
    Prop where
  contents : held.contents = Packing.pack (fits limits) cut.records
  chunks : ∃ newCursor, held.manifest.chunks = chunkIndexes C newCursor held.contents
  snapshotId : held.manifest.snapshotId = reservation.snapshotId
  binding : held.manifest.binding = reservation.binding
  created : held.manifest.snapshotCreatedAtMs = reservation.snapshotCreatedAtMs
  absolute : held.manifest.snapshotAbsoluteExpiresAtMs = reservation.snapshotAbsoluteExpiresAtMs
  through : held.manifest.throughEventSeq = cut.throughEventSeq
  scopesRevision : held.manifest.scopesRevision = cut.scopesRevision
  totalRecords : held.manifest.totalRecords = cut.records.length
  totalCanonicalBytes : held.manifest.totalCanonicalBytes = arrayBytes cut.records
  cutDigest : held.manifest.cutDigest = C.sha256 (Record.array cut.records).text
  lease : held.snapshotLeaseExpiresAtMs = min (now + limits.idleLeaseMs) reservation.snapshotAbsoluteExpiresAtMs
  small : ∀ r ∈ cut.records, arrayBytes [r] ≤ limits.maxChunkCanonicalBytes
  within : cut.records ≠ [] → cut.records.length ≤ limits.maxCutRecords ∧
    arrayBytes cut.records ≤ limits.maxCutCanonicalBytes
  ordered : validateRecordStream cut.records = true
  hostEpoch : cut.hostEpoch = reservation.binding.hostEpoch

theorem publish_published {C : Core} {newCursor : Nat → String} {now : Nat} {cut : Cut} {held : ActiveCut}
    (h : publish C newCursor limits now reservation cut = .ok held) :
    Published C limits now reservation cut held := by
  unfold publish at h
  split at h
  · cases h
  rename_i hepoch
  split at h
  · cases h
  rename_i hstream
  unfold writeCut at h
  cases hw : cut.records.foldlM (Writing.write limits reservation) {} with
  | error e =>
    rw [hw] at h
    cases h
  | ok w =>
    rw [hw] at h
    have hafter := Writing.after_nil.all hw
    rw [List.nil_append] at hafter
    obtain ⟨hflush, hchunks⟩ := hafter.close
    obtain rfl := Except.ok.inj h
    refine
      { contents := hchunks, chunks := ⟨newCursor, rfl⟩, snapshotId := rfl, binding := rfl, created := rfl, absolute := rfl
        through := rfl, scopesRevision := rfl, totalRecords := ?_, totalCanonicalBytes := ?_, cutDigest := ?_, lease := rfl
        small := hafter.small, within := fun hne => ⟨(hafter.within hne).1, (hafter.within hne).2.1⟩
        ordered := by simpa using hstream, hostEpoch := not_not.mp hepoch }
    · show w.close.totalRecords = _
      rw [hflush]
      exact hafter.totalRecords
    · show w.close.totalCanonicalBytes = _
      rw [hflush]
      exact hafter.totalCanonicalBytes
    · show C.sha256 (w.close.digested ++ "]") = _
      rw [hflush]
      show C.sha256 (w.digested ++ "]") = _
      rw [hafter.digested, ← chunkText_eq]
      rfl

end Spool
end TmuxWorktree
