import TmuxWorktree.Spool.Written
/-!
# Paging — whoever follows the cursors gets the cut (`stateSnapshotSpool.ts`)

A cut that is held stays the one that was written, but for its lease.  So the client that asks for one chunk after the
other, each with the cursor of the one before, gets the records in order, each once, whatever else is asked in between.
-/
namespace TmuxWorktree
namespace Spool

open Sync (Record Core)

/-- The lease after a chunk has been asked for. -/
def ActiveCut.renewed (limits : Limits) (now : Nat) (cut : ActiveCut) : ActiveCut :=
  { cut with
    snapshotLeaseExpiresAtMs :=
      max cut.snapshotLeaseExpiresAtMs (min (now + limits.idleLeaseMs) cut.manifest.snapshotAbsoluteExpiresAtMs) }

/-- The cut after requests of any kind. -/
def visited (C : Core) (limits : Limits) (visits : List (Nat × Get)) (held : Option ActiveCut) : Option ActiveCut :=
  visits.foldl (fun held visit => (serveExisting C limits visit.1 visit.2 held).1) held

/-- **A client follows the cursors from a chunk on.**  Before each of its turns come requests of any kind. -/
def follow (C : Core) (limits : Limits) (binding : Binding) :
    List (List (Nat × Get) × Nat) → Option String → Nat → Option ActiveCut → Except SpoolError (Option ActiveCut × List Served)
  | [], _, _, held => .ok (held, [])
  | (visits, now) :: turns, cursor, index, held =>
    match serveExisting C limits now ⟨binding, cursor, index⟩ (visited C limits visits held) with
    | (_, .error e) => .error e
    | (held, .ok served) => do
      let (held, rest) ← follow C limits binding turns served.nextCursor (index + 1) held
      return (held, served :: rest)

/-- The client takes each turn within the idle lease of the one before and before the cut is over, and the clock does not
go back between them. -/
def Punctual (limits : Limits) (absolute : Nat) : Nat → List (List (Nat × Get) × Nat) → Prop
  | _, [] => True
  | last, (visits, now) :: turns =>
    (∀ visit ∈ visits, visit.1 ≤ now) ∧ now < min (last + limits.idleLeaseMs) absolute ∧ Punctual limits absolute now turns

/-! ## A cut that is held -/

/-- The cut is the one that was written, but for its lease. -/
structure Held (written cut : ActiveCut) : Prop where
  manifest : cut.manifest = written.manifest
  contents : cut.contents = written.contents
  lease : written.snapshotLeaseExpiresAtMs ≤ cut.snapshotLeaseExpiresAtMs
  absolute : written.snapshotLeaseExpiresAtMs ≤ written.manifest.snapshotAbsoluteExpiresAtMs →
    cut.snapshotLeaseExpiresAtMs ≤ written.manifest.snapshotAbsoluteExpiresAtMs

variable {C : Core} {limits : Limits} {now now' : Nat} {reservation : Reservation} {written cut cut' : ActiveCut}

theorem Held.refl (written : ActiveCut) : Held written written := ⟨rfl, rfl, Nat.le_refl _, id⟩

theorem Held.renewed (h : Held written cut) (now : Nat) : Held written (cut.renewed limits now) where
  manifest := h.manifest
  contents := h.contents
  lease := Nat.le_trans h.lease (Nat.le_max_left _ _)
  absolute := fun hle => by
    show max _ _ ≤ _
    rw [h.manifest]
    exact Nat.max_le.mpr ⟨h.absolute hle, Nat.min_le_right _ _⟩

def ActiveCut.chunkServed (cut : ActiveCut) (chunk : ChunkIndex) (records : List Record) : Served :=
  let m := cut.manifest
  { hostEpoch := m.binding.hostEpoch, snapshotRequestId := m.binding.snapshotRequestId, snapshotId := m.snapshotId
    snapshotCreatedAtMs := m.snapshotCreatedAtMs, snapshotLeaseExpiresAtMs := cut.snapshotLeaseExpiresAtMs
    snapshotAbsoluteExpiresAtMs := m.snapshotAbsoluteExpiresAtMs, chunkIndex := chunk.index
    isLast := decide (chunk.index + 1 = m.chunks.length), nextCursor := chunk.nextCursor
    throughEventSeq := m.throughEventSeq, scopesRevision := m.scopesRevision, totalRecords := m.totalRecords
    totalCanonicalBytes := m.totalCanonicalBytes, cutDigest := m.cutDigest, records := records }

/-- **What a request gets**, and what it leaves. -/
theorem serve_ok {request : Get} {served : Served} (h : cut.serve C limits now request = .ok (cut', served)) :
    cut' = cut.renewed limits now ∧ cut.manifest.binding = request.binding ∧
      ∃ chunk records, cut.manifest.chunks[request.nextChunkIndex]? = some chunk ∧
        cut.contents[request.nextChunkIndex]? = some records ∧
        request.cursor = cut.manifest.expectedCursor request.nextChunkIndex ∧
        served = (cut.renewed limits now).chunkServed chunk records := by
  unfold ActiveCut.serve at h
  dsimp only at h
  split at h
  · cases h
  rename_i hbinding
  split at h
  · rename_i chunk records hchunk hrecords
    split at h
    · cases h
    rename_i hcursor
    split at h
    · cases h
    cases h
    exact ⟨rfl, not_not.mp hbinding, chunk, records, hchunk, hrecords, not_not.mp hcursor, rfl⟩
  · cases h

/-! ## Following the cursors -/

variable {source : Cut}

theorem Published.length (h : Published C limits now reservation source written) :
    written.manifest.chunks.length = written.contents.length := by
  obtain ⟨newCursor, hchunks⟩ := h.chunks
  rw [hchunks, chunkIndexes, List.length_mapIdx]

theorem Published.entry (h : Published C limits now reservation source written) {index : Nat} {records : List Record}
    (hrecords : written.contents[index]? = some records) :
    ∃ chunk, written.manifest.chunks[index]? = some chunk ∧ chunk.index = index ∧
      chunk.canonicalBytes = (chunkText records).utf8ByteSize ∧ chunk.digest = C.sha256 (chunkText records) ∧
      (chunk.nextCursor.isSome ↔ index + 1 < written.contents.length) := by
  obtain ⟨newCursor, hchunks⟩ := h.chunks
  rw [hchunks, chunkIndexes, List.getElem?_mapIdx, hrecords]
  refine ⟨_, rfl, rfl, rfl, rfl, ?_⟩
  dsimp only
  split <;> simp [*]

/-- **The chunk after the cursor is served.** -/
theorem Published.serve (h : Published C limits now reservation source written) (hheld : Held written cut) {index : Nat}
    {records : List Record} (hrecords : written.contents[index]? = some records) (now' : Nat) :
    ∃ chunk, written.manifest.chunks[index]? = some chunk ∧ chunk.index = index ∧
      cut.serve C limits now' ⟨reservation.binding, written.manifest.expectedCursor index, index⟩ =
        .ok (cut.renewed limits now', (cut.renewed limits now').chunkServed chunk records) := by
  obtain ⟨chunk, hchunk, hindex, hbytes, hdigest, -⟩ := h.entry hrecords
  refine ⟨chunk, hchunk, hindex, ?_⟩
  obtain ⟨manifest, lease, contents⟩ := cut
  obtain rfl : manifest = written.manifest := hheld.manifest
  obtain rfl : contents = written.contents := hheld.contents
  unfold ActiveCut.serve
  dsimp only
  rw [if_neg (not_not.mpr h.binding), hchunk, hrecords]
  dsimp only
  rw [if_neg (not_not.mpr rfl), if_neg (by simp [hbytes, hdigest])]
  rfl

theorem Published.intact (h : Published C limits now reservation source written) (hheld : Held written cut) (now' : Nat)
    (request : Get) : cut.serve C limits now' request ≠ .error .internal := by
  obtain ⟨manifest, lease, contents⟩ := cut
  obtain rfl : manifest = written.manifest := hheld.manifest
  obtain rfl : contents = written.contents := hheld.contents
  intro hinternal
  unfold ActiveCut.serve at hinternal
  dsimp only at hinternal
  split at hinternal
  · cases hinternal
  split at hinternal
  · rename_i chunk records hchunk hrecords
    obtain ⟨chunk', hchunk', -, hbytes, hdigest, -⟩ := h.entry hrecords
    obtain rfl := Option.some.inj (hchunk'.symm.trans hchunk)
    split at hinternal
    · cases hinternal
    rw [if_neg (by simp [hbytes, hdigest])] at hinternal
    cases hinternal
  · cases hinternal

/-- **A request of any kind leaves the cut**, while its lease runs. -/
theorem Published.visit (h : Published C limits now reservation source written) (hheld : Held written cut) {now' : Nat}
    (hlease : now' < cut.snapshotLeaseExpiresAtMs) (habsolute : now' < written.manifest.snapshotAbsoluteExpiresAtMs)
    (request : Get) : ∃ cut', (serveExisting C limits now' request (some cut)).1 = some cut' ∧ Held written cut' ∧
      cut.snapshotLeaseExpiresAtMs ≤ cut'.snapshotLeaseExpiresAtMs := by
  have hlive : ¬ (cut.snapshotLeaseExpiresAtMs ≤ now' || cut.manifest.snapshotAbsoluteExpiresAtMs ≤ now') = true := by
    rw [hheld.manifest, Bool.or_eq_true, decide_eq_true_iff, decide_eq_true_iff]
    omega
  rw [serveExisting, if_neg hlive]
  cases hs : cut.serve C limits now' request with
  | ok answer =>
    obtain ⟨cut', served⟩ := answer
    obtain ⟨rfl, -⟩ := serve_ok hs
    exact ⟨_, rfl, hheld.renewed now', Nat.le_max_left _ _⟩
  | error e =>
    cases e with
    | internal => exact absurd hs (h.intact hheld now' request)
    | busy | capabilityUnavailable | invalidArgument | snapshotExpired | hostEpochMismatch =>
      exact ⟨cut, rfl, hheld, Nat.le_refl _⟩

theorem Published.visits (h : Published C limits now reservation source written) {visits : List (Nat × Get)} {now' : Nat}
    (hheld : Held written cut) (hlease : now' < cut.snapshotLeaseExpiresAtMs)
    (habsolute : now' < written.manifest.snapshotAbsoluteExpiresAtMs) (hvisits : ∀ visit ∈ visits, visit.1 ≤ now') :
    ∃ cut', visited C limits visits (some cut) = some cut' ∧ Held written cut' ∧
      cut.snapshotLeaseExpiresAtMs ≤ cut'.snapshotLeaseExpiresAtMs := by
  induction visits generalizing cut with
  | nil => exact ⟨cut, rfl, hheld, Nat.le_refl _⟩
  | cons visit visits ih =>
    obtain ⟨hfirst, hrest⟩ := List.forall_mem_cons.mp hvisits
    obtain ⟨cut₁, hcut₁, hheld₁, hle₁⟩ := h.visit hheld (Nat.lt_of_le_of_lt hfirst hlease)
      (Nat.lt_of_le_of_lt hfirst habsolute) visit.2
    obtain ⟨cut', hcut', hheld', hle'⟩ := ih hheld₁ (Nat.lt_of_lt_of_le hlease hle₁) hrest
    refine ⟨cut', ?_, hheld', Nat.le_trans hle₁ hle'⟩
    rw [visited, List.foldl_cons, hcut₁]
    exact hcut'

/-- Each answer is the chunk at its place, and the lease only grows. -/
structure Follows (written : ActiveCut) (index lease : Nat) (served : List Served) : Prop where
  records : served.map Served.records = (written.contents.drop index).take served.length
  indices : served.map Served.chunkIndex = List.range' index served.length
  manifest : ∀ s ∈ served, ∃ cut chunk records, Held written cut ∧ written.manifest.chunks[s.chunkIndex]? = some chunk ∧
    written.contents[s.chunkIndex]? = some records ∧ s = cut.chunkServed chunk records
  leases : (lease :: served.map Served.snapshotLeaseExpiresAtMs).Pairwise (· ≤ ·)

theorem Published.follows (h : Published C limits now reservation source written)
    {turns : List (List (Nat × Get) × Nat)} {index last : Nat} (hheld : Held written cut)
    (hlease : min (last + limits.idleLeaseMs) written.manifest.snapshotAbsoluteExpiresAtMs ≤ cut.snapshotLeaseExpiresAtMs)
    (hpunctual : Punctual limits written.manifest.snapshotAbsoluteExpiresAtMs last turns)
    (hlength : index + turns.length ≤ written.contents.length) :
    ∃ held served, follow C limits reservation.binding turns (written.manifest.expectedCursor index) index (some cut) =
      .ok (held, served) ∧ served.length = turns.length ∧
      Follows written index cut.snapshotLeaseExpiresAtMs served := by
  induction turns generalizing cut index last with
  | nil => exact ⟨some cut, [], rfl, rfl, ⟨rfl, rfl, by simp, by simp⟩⟩
  | cons turn turns ih =>
    obtain ⟨visits, now'⟩ := turn
    obtain ⟨hvisits, hnow, hrestPunctual⟩ := hpunctual
    rw [List.length_cons] at hlength
    have hlt : index < written.contents.length := by omega
    have hrecords := List.getElem?_eq_getElem hlt
    generalize hr : written.contents[index] = records at hrecords
    have habsolute : now' < written.manifest.snapshotAbsoluteExpiresAtMs := Nat.lt_of_lt_of_le hnow (Nat.min_le_right _ _)
    obtain ⟨cut₁, hcut₁, hheld₁, hle₁⟩ := h.visits hheld (Nat.lt_of_lt_of_le hnow hlease) habsolute hvisits
    obtain ⟨chunk, hchunk, hindex, hserve⟩ := h.serve hheld₁ hrecords now'
    have hlive : ¬ (cut₁.snapshotLeaseExpiresAtMs ≤ now' || cut₁.manifest.snapshotAbsoluteExpiresAtMs ≤ now') = true := by
      rw [hheld₁.manifest, Bool.or_eq_true, decide_eq_true_iff, decide_eq_true_iff]
      omega
    have hserved : serveExisting C limits now' ⟨reservation.binding, written.manifest.expectedCursor index, index⟩ (some cut₁) =
        (some (cut₁.renewed limits now'), .ok ((cut₁.renewed limits now').chunkServed chunk records)) := by
      rw [serveExisting, if_neg hlive, hserve]
    have hnext : chunk.nextCursor = written.manifest.expectedCursor (index + 1) := by
      rw [Manifest.expectedCursor, hchunk]
      rfl
    have hrenewed : Held written (cut₁.renewed limits now') := hheld₁.renewed now'
    have hrenewedLease : min (now' + limits.idleLeaseMs) written.manifest.snapshotAbsoluteExpiresAtMs ≤
        (cut₁.renewed limits now').snapshotLeaseExpiresAtMs := by
      show _ ≤ max _ (min _ cut₁.manifest.snapshotAbsoluteExpiresAtMs)
      rw [hheld₁.manifest]
      exact Nat.le_max_right _ _
    have hroom : index + 1 + turns.length ≤ written.contents.length := by omega
    obtain ⟨held, rest, hfollow, hcount, hrest⟩ := ih hrenewed hrenewedLease hrestPunctual hroom
    refine ⟨held, (cut₁.renewed limits now').chunkServed chunk records :: rest, ?_,
      by rw [List.length_cons, hcount, List.length_cons], ?_⟩
    · rw [follow, hcut₁, hserved]
      show Except.bind (follow C limits reservation.binding turns chunk.nextCursor (index + 1) _) _ = _
      rw [hnext, hfollow]
      rfl
    · have hmore : cut.snapshotLeaseExpiresAtMs ≤ (cut₁.renewed limits now').snapshotLeaseExpiresAtMs :=
        Nat.le_trans hle₁ (Nat.le_max_left _ _)
      refine ⟨?_, ?_, ?_, ?_⟩
      · rw [List.map_cons, hrest.records, List.length_cons, List.drop_eq_getElem_cons hlt, List.take_succ_cons, hr]
        rfl
      · rw [List.map_cons, hrest.indices, List.length_cons, List.range'_succ]
        exact congrArg (· :: _) hindex
      · intro s hs
        rcases List.mem_cons.mp hs with rfl | hs
        · refine ⟨_, chunk, records, hrenewed, ?_, ?_, rfl⟩
          · exact (congrArg (written.manifest.chunks[·]?) hindex).trans hchunk
          · exact (congrArg (written.contents[·]?) hindex).trans hrecords
        · exact hrest.manifest s hs
      · refine List.pairwise_cons.mpr ⟨fun l hl => ?_, hrest.leases⟩
        rcases List.mem_cons.mp hl with rfl | hl
        · exact hmore
        · exact Nat.le_trans hmore ((List.pairwise_cons.mp hrest.leases).1 l hl)

/-- **A client in time gets every chunk of a cut that is published.** -/
theorem Published.followed (h : Published C limits now reservation source written) {turns : List (List (Nat × Get) × Nat)}
    (hpunctual : Punctual limits reservation.snapshotAbsoluteExpiresAtMs now turns)
    (hturns : turns.length = written.contents.length) :
    ∃ held served, follow C limits reservation.binding turns none 0 (some written) = .ok (held, served) ∧
      served.length = written.contents.length ∧ Follows written 0 written.snapshotLeaseExpiresAtMs served := by
  have hlease : min (now + limits.idleLeaseMs) written.manifest.snapshotAbsoluteExpiresAtMs ≤
      written.snapshotLeaseExpiresAtMs := by
    rw [h.lease, h.absolute]
  have hroom : 0 + turns.length ≤ written.contents.length := by omega
  obtain ⟨held, served, hfollow, hcount, hserved⟩ := h.follows (Held.refl written) hlease (h.absolute ▸ hpunctual) hroom
  exact ⟨held, served, hfollow, hcount.trans hturns, hserved⟩

/-! ## The whole cut -/

namespace Sample

/-- The digest of an empty cut. -/
def core : Core := ⟨fun _ => "T1PNoYwrqgwDVLtfmj7L5e0Sq02OEbqHPC8RFhICuUU"⟩

/-- A host without a scope. -/
def state : MaterializedState := ⟨⟨"e", 0, 0, fun _ => 0, []⟩, rfl⟩

def asked : Reservation := ⟨"s", "h", ⟨"u", "c", "e", "r"⟩, 1, 3, 100, 1000⟩

def held : ActiveCut where
  manifest :=
    { snapshotId := "s", hostId := "h", binding := ⟨"u", "c", "e", "r"⟩, snapshotCreatedAtMs := 1
      snapshotAbsoluteExpiresAtMs := 3, throughEventSeq := 0, scopesRevision := 0, totalRecords := 0
      totalCanonicalBytes := 2, cutDigest := core.sha256 "[]", metadataBytes := 17324
      chunks := [⟨0, "chunk-000000.json", 0, 2, core.sha256 "[]", none⟩] }
  snapshotLeaseExpiresAtMs := 3
  contents := [[]]

theorem published : publish core (fun _ => "cursor") Spool.limits 1 asked (projectMaterializedStateCut state.toMaterializedFields) =
    .ok held := by
  decide +kernel

end Sample

end Spool
end TmuxWorktree
