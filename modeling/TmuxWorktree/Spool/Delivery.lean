import TmuxWorktree.Spool.Fit
import TmuxWorktree.Spool.Order
import TmuxWorktree.Spool.Paging
import TmuxWorktree.Sync.Converge
import TmuxWorktree.Sync.Staged
import TmuxWorktree.Sync.Watermark
/-!
# Delivery — a cut that the host serves is a cut that the app commits

The chunks reach the app in their order, each as the answer to a request with the cursor of the one before.  The app
stages them all and commits the cut, as long as the host's clock has not gone so far back that a lease ends before its
snapshot began.
-/
namespace TmuxWorktree
namespace Spool

open Sync

/-- The served chunks on their way; the app goes on with the cursor of the chunk before. -/
def deliveries (n : Namespace) (requestId : Nat → String) : Option String → List Served → List Delivery
  | _, [] => []
  | cursor, served :: rest =>
    ⟨n, requestId served.chunkIndex, cursor, served⟩ :: deliveries n requestId served.nextCursor rest

/-- **The app takes the frames one after the other**, each of them as the next part of its staging. -/
def takeAll : Store → List Delivery → Option Store
  | s, [] => some s
  | s, d :: rest =>
    match d.effect.toStateSnapshotChunk with
    | none => none
    | some c =>
      match stageSnapshotChunk s c with
      | .ok (s, .snapshotStaged ..) => takeAll s rest
      | _ => none

/-- What a reservation is made of, when an app in `n` has asked for it. -/
structure Reservation.Asked (n : Namespace) (r : Reservation) : Prop where
  hostId : n.hostId.utf8ByteSize ≤ 128
  hostEpoch : r.binding.hostEpoch = n.hostEpoch ∧ n.hostEpoch.utf8ByteSize ≤ 128
  snapshotRequestId : requireRelayV2Id r.binding.snapshotRequestId = true
  snapshotId : requireRelayV2Id r.snapshotId = true
  created : r.snapshotCreatedAtMs ≤ r.snapshotAbsoluteExpiresAtMs
  absolute : r.snapshotAbsoluteExpiresAtMs ≤ maxJsonInteger

/-! ## Reading -/

theorem bytes_of_id {value : String} (h : requireRelayV2Id value = true) : value.utf8ByteSize ≤ 128 := by
  simp only [requireRelayV2Id, Bool.and_eq_true, decide_eq_true_eq] at h
  exact h.2

namespace Delivery

variable {d : Delivery}

/-- All that the models of the app ask of a chunk, but for its lease. -/
structure Plain (d : Delivery) : Prop extends d.Short where
  records : ∀ r ∈ d.served.records, r.ok = true
  ids : requireRelayV2Id d.served.snapshotRequestId = true ∧ requireRelayV2Id d.served.snapshotId = true
  within : d.served.snapshotLeaseExpiresAtMs ≤ d.served.snapshotAbsoluteExpiresAtMs
  first : d.served.chunkIndex = 0 ↔ d.requestedCursor = none
  requestedCursor : d.requestedCursor.all (fun t => t.utf8ByteSize ≤ maxCursorUtf8Bytes) = true
  last : d.served.isLast = true ↔ d.served.nextCursor = none
  count : d.served.records.length ≤ maxSnapshotChunkRecords
  bytes : arrayBytes d.served.records ≤ maxSnapshotChunkCanonicalBytes

/-- **The app reads such a chunk, if its lease does not end before the snapshot began.** -/
theorem Plain.readable_iff (h : d.Plain) :
    d.readable = true ↔ d.served.snapshotCreatedAtMs ≤ d.served.snapshotLeaseExpiresAtMs := by
  have hframe : 1 ≤ d.frame.bytes ∧ d.frame.bytes ≤ maxPublicFrameBytes := by
    have hle := h.toShort.frame_bytes
    have hbytes := h.bytes
    have hmax : maxPublicFrameBytes = 1048576 ∧ maxSnapshotChunkCanonicalBytes = 524288 := ⟨rfl, rfl⟩
    refine ⟨?_, by omega⟩
    unfold frame snapshotChunkFrame
    rw [Json.bytes]
    omega
  have hfirst : (d.served.chunkIndex = 0) = (d.requestedCursor.isNone = true) := by
    rw [h.first, Option.isNone_iff_eq_none]
  have hlast : d.served.isLast = d.served.nextCursor.isNone := by
    rw [Bool.eq_iff_iff, h.last, Option.isNone_iff_eq_none]
  have hrecords : d.served.records.all Record.ok = true := List.all_eq_true.mpr h.records
  have hnamed : d.chunk.named = true := by
    simp [ChunkFields.named, chunk, h.ids, h.cutDigest]
  unfold readable ChunkFields.valid
  rw [hrecords, hnamed]
  simp only [Bool.true_and, Bool.and_eq_true, decide_eq_true_eq]
  constructor
  · intro hall
    exact hall.1.1.1.1.1.1.1.1.1.1.1.1.1.1
  · intro hlease
    exact ⟨⟨⟨⟨⟨⟨⟨⟨⟨⟨⟨⟨⟨⟨hlease, h.within⟩, h.absolute⟩, h.chunkIndex⟩, hfirst⟩, h.requestedCursor⟩, hlast⟩, h.nextCursor⟩,
      h.through⟩, h.revision⟩, h.totalRecords⟩, h.totalCanonicalBytes⟩, h.count⟩, hframe.1⟩, hframe.2⟩

end Delivery

/-! ## Staging -/

theorem through_split {o o' : SnapshotOrder} {rs rs' : List Record} (h : o.through (rs ++ rs') = some o') :
    ∃ o₁, o.through rs = some o₁ ∧ o₁.through rs' = some o' := by
  induction rs generalizing o with
  | nil => exact ⟨o, rfl, h⟩
  | cons r rest ih =>
    obtain ⟨o₂, ho₂, hrest⟩ := Option.bind_eq_some_iff.mp h
    obtain ⟨o₁, ho₁, hlast⟩ := ih hrest
    exact ⟨o₁, Option.bind_eq_some_iff.mpr ⟨o₂, ho₂, ho₁⟩, hlast⟩

/-- The staging is of the cut, and has the records of its first `k` chunks. -/
structure Bound (written : ActiveCut) (k : Nat) (st : StoredSnapshot) : Prop where
  snapshotRequestId : st.snapshotRequestId = written.manifest.binding.snapshotRequestId
  snapshotId : st.snapshotId = written.manifest.snapshotId
  created : st.snapshotCreatedAtMs = written.manifest.snapshotCreatedAtMs
  absolute : st.snapshotAbsoluteExpiresAtMs = written.manifest.snapshotAbsoluteExpiresAtMs
  through : st.throughEventSeq = written.manifest.throughEventSeq
  scopesRevision : st.scopesRevision = written.manifest.scopesRevision
  totalRecords : st.totalRecords = written.manifest.totalRecords
  totalCanonicalBytes : st.totalCanonicalBytes = written.manifest.totalCanonicalBytes
  cutDigest : st.cutDigest = written.manifest.cutDigest
  bytes : st.receivedRecordCanonicalBytes = Record.bytesOf (written.contents.take k).flatten
  raw : st.receivedRawUtf8Bytes ≤ ((written.contents.take k).map fun part => arrayBytes part + 16384).sum

/-- The staging waits for the chunk at `k`, unless it is complete. -/
structure Awaiting (written : ActiveCut) (k : Nat) (st : StoredSnapshot) : Prop extends Bound written k st where
  nextChunkIndex : st.nextChunkIndex = k
  nextCursor : st.nextCursor = written.manifest.expectedCursor k
  complete : st.complete = true ↔ k = written.contents.length

/-- The store of an app that has taken the first `k` chunks. -/
structure Taken (n : Namespace) (a : Authority) (events : List Event) (written : ActiveCut) (k lease : Nat) (s : Store) :
    Prop where
  authority : s.authority n = some a
  events : (s.tables n).events = events
  inOrder : (s.tables n).InOrder
  records : (s.tables n).records.map StoredRecord.record = (written.contents.take k).flatten
  idle : k = 0 → s.snapshot n = none
  staging : 0 < k → ∃ st, s.snapshot n = some st ∧ Awaiting written k st ∧ st.snapshotLeaseExpiresAtMs ≤ lease

variable {C : Core} {now : Nat} {reservation : Reservation} {source : Cut} {written cut : ActiveCut} {n : Namespace}
  {a : Authority} {events : List Event} {k lease : Nat} {s : Store} {chunk : ChunkIndex} {records : List Record}
  {d : Delivery} {st : StoredSnapshot}

/-- The chunk at the place `k` of the cut, with a lease that is held. -/
structure At (n : Namespace) (written : ActiveCut) (k : Nat) (d : Delivery) (records : List Record) : Prop where
  place : written.contents[k]? = some records
  context : d.context = n
  requestedCursor : d.requestedCursor = written.manifest.expectedCursor k
  served : ∃ cut chunk, Held written cut ∧ written.manifest.chunks[k]? = some chunk ∧ chunk.index = k ∧
    d.served = cut.chunkServed chunk records

theorem At.isLast (h : Published C limits now reservation source written) (hd : At n written k d records) :
    d.served.isLast = true ↔ k + 1 = written.contents.length := by
  obtain ⟨cut, chunk, hheld, -, hindex, hserved⟩ := hd.served
  rw [hserved]
  simp only [ActiveCut.chunkServed, hheld.manifest, hindex, h.length, decide_eq_true_iff]

theorem At.nextCursor (hd : At n written k d records) : d.served.nextCursor = written.manifest.expectedCursor (k + 1) := by
  obtain ⟨cut, chunk, -, hchunk, -, hserved⟩ := hd.served
  rw [hserved, Manifest.expectedCursor, hchunk]
  rfl

theorem At.records_eq (hd : At n written k d records) : d.served.records = records := by
  obtain ⟨cut, chunk, -, -, -, hserved⟩ := hd.served
  rw [hserved]
  rfl

/-- **The chunk goes on from the staging.** -/
theorem Taken.continues (h : Published C limits now reservation source written) (ht : Taken n a events written k lease s)
    (hd : At n written k d records) (hlease : lease ≤ d.served.snapshotLeaseExpiresAtMs) :
    ∃ base, d.chunk.continues (s.snapshot n) = .ok base ∧ Bound written k base ∧
      base.receivedRecords = (written.contents.take k).flatten.length ∧
      SnapshotOrder.start.through (written.contents.take k).flatten =
        some ⟨base.lastScopeId, base.lastRecordKind, base.lastSessionId⟩ := by
  obtain ⟨cut, chunk, hheld, hchunk, hindex, hserved⟩ := hd.served
  have hlt : k < written.contents.length := (List.getElem?_eq_some_iff.mp hd.place).1
  have hm := hheld.manifest
  cases k with
  | zero =>
    refine ⟨d.chunk.base, ?_, ?_, rfl, rfl⟩
    · rw [ht.idle rfl, ChunkFields.continues, if_neg]
      rw [not_not, Delivery.chunk, hserved]
      exact hindex
    · unfold ChunkFields.base Delivery.chunk
      rw [hserved]
      simp only [ActiveCut.chunkServed, hm]
      exact ⟨rfl, rfl, rfl, rfl, rfl, rfl, rfl, rfl, rfl, rfl, by simp⟩
  | succ k =>
    obtain ⟨st, hst, hb, hle⟩ := ht.staging (Nat.succ_pos k)
    have hq := ht.inOrder.staging st hst
    have hincomplete : st.complete = false := by
      rw [Bool.eq_false_iff, ne_eq, hb.complete]
      omega
    refine ⟨st, ?_, hb.toBound, ?_, ?_⟩
    · rw [hst, ChunkFields.continues, if_neg]
      simp only [Bool.or_eq_true, Bool.not_eq_true', decide_eq_true_eq, not_or, Bool.not_eq_false, not_not, Nat.not_lt]
      refine ⟨⟨⟨⟨?_, Nat.le_trans hle hlease⟩, ?_⟩, ?_⟩, by simp [hincomplete]⟩
      · simp [StoredSnapshot.matchesFixedBinding, Delivery.chunk, hserved, ActiveCut.chunkServed, hm, hb.snapshotRequestId,
          hb.snapshotId, hb.created, hb.absolute, hb.through, hb.scopesRevision, hb.totalRecords, hb.totalCanonicalBytes,
          hb.cutDigest]
      · rw [hb.nextChunkIndex, Delivery.chunk, hserved]
        exact hindex
      · rw [hb.nextCursor]
        exact hd.requestedCursor
    · rw [hq.received, ← ht.records, List.length_map]
    · rw [← ht.records]
      exact hq.order

theorem Published.prefix (h : Published C limits now reservation source written) (k : Nat) :
    (written.contents.take k).flatten <+: source.records := by
  have hflatten : written.contents.flatten = source.records := by rw [h.contents, Packing.flatten_pack]
  rw [← hflatten]
  exact ⟨(written.contents.drop k).flatten, by rw [← List.flatten_append, List.take_append_drop]⟩

theorem Published.totals_within (h : Published C limits now reservation source written) :
    source.records.length ≤ maxSnapshotRecords ∧ arrayBytes source.records ≤ maxSnapshotCanonicalBytes := by
  by_cases hempty : source.records = []
  · rw [hempty, arrayBytes_nil]
    decide
  · exact h.within hempty

theorem Delivery.Plain.small (h : d.Plain) : d.chunk.tooLarge = false := by
  have harray := array_bytes d.chunk.records
  have hbytes : (Record.array d.chunk.records).bytes ≤ maxSnapshotChunkCanonicalBytes := h.bytes
  have hcount : d.chunk.records.length ≤ maxSnapshotChunkRecords := h.count
  have htotals : d.chunk.totalRecords ≤ maxSnapshotRecords := h.totalRecords
  have htotalBytes : d.chunk.totalCanonicalBytes ≤ maxSnapshotCanonicalBytes := h.totalCanonicalBytes
  simp only [ChunkFields.tooLarge, ← harray, Bool.or_eq_false_iff, decide_eq_false_iff_not]
  omega

/-- The staging with the next chunk has the records of the chunks so far. -/
theorem Bound.after (hb : Bound written k st) (hd : At n written k d records) (hplain : d.Plain) (o : SnapshotOrder) :
    Bound written (k + 1) (st.after d.chunk o) := by
  have hrecords := hd.records_eq
  refine ⟨hb.snapshotRequestId, hb.snapshotId, hb.created, hb.absolute, hb.through, hb.scopesRevision, hb.totalRecords,
    hb.totalCanonicalBytes, hb.cutDigest, ?_, ?_⟩
  · show st.receivedRecordCanonicalBytes + Record.bytesOf d.served.records = _
    rw [hb.bytes, hrecords, take_flatten hd.place, bytesOf_append]
  · have hframe := hplain.toShort.frame_bytes
    have hbefore := hb.raw
    rw [hrecords] at hframe
    show st.receivedRawUtf8Bytes + d.frame.bytes ≤ _
    rw [List.take_add_one, hd.place, Option.toList_some, List.map_append, List.sum_append, List.map_singleton,
      List.sum_singleton]
    omega

/-- A staging of some chunks is within the limits, as the whole cut is. -/
theorem Bound.fits (h : Published C limits now reservation source written) (hb : Bound written k st)
    (hreceived : st.receivedRecords = (written.contents.take k).flatten.length) : st.overfull = false := by
  obtain ⟨rest, hrest⟩ := h.prefix k
  have harray := array_bytes (written.contents.take k).flatten
  have hle : (Record.array (written.contents.take k).flatten).bytes ≤ arrayBytes source.records := by
    rw [← hrest]
    exact arrayBytes_le_append _ rest
  have hlength : (written.contents.take k).flatten.length ≤ source.records.length := by
    rw [← hrest, List.length_append]
    omega
  have hframes : ((written.contents.take k).map fun part => arrayBytes part + 16384).sum ≤ maxStagedRawUtf8Bytes := by
    refine Nat.le_trans ?_ h.frames_bytes
    conv_rhs => rw [← List.take_append_drop k written.contents]
    rw [List.map_append, List.sum_append]
    omega
  have hwithin := h.totals_within
  have hraw := hb.raw
  unfold StoredSnapshot.overfull
  simp only [hreceived, hb.bytes, hb.totalRecords, hb.totalCanonicalBytes, h.totalRecords, h.totalCanonicalBytes, ← harray,
    Bool.or_eq_false_iff, decide_eq_false_iff_not]
  omega

/-- **The staging takes the chunk.** -/
theorem Taken.staged (h : Published C limits now reservation source written) (ht : Taken n a events written k lease s)
    (hd : At n written k d records) (hplain : d.Plain) (hlease : lease ≤ d.served.snapshotLeaseExpiresAtMs) :
    ∃ updated, d.chunk.staged (s.snapshot n) = .ok updated ∧ Awaiting written (k + 1) updated ∧
      updated.snapshotLeaseExpiresAtMs = d.served.snapshotLeaseExpiresAtMs := by
  obtain ⟨base, hgoes, hb, hreceived, horder⟩ := ht.continues h hd hlease
  have hrecords : d.chunk.records = records := hd.records_eq
  have htake := take_flatten hd.place
  obtain ⟨o, hall, hclosed⟩ := validateRecordStream_through h.ordered
  obtain ⟨rest, hrest⟩ := h.prefix (k + 1)
  obtain ⟨o₁, hfirst, -⟩ := through_split (hrest ▸ hall)
  obtain ⟨o₀, hbefore, hthrough⟩ := through_split (htake ▸ hfirst)
  obtain rfl := Option.some.inj (horder.symm.trans hbefore)
  have hopen : ¬ (d.chunk.isLast && o₁.recordKind = some .scope) = true := by
    intro hboth
    simp only [Bool.and_eq_true, decide_eq_true_eq] at hboth
    have hwhole : written.contents.take (k + 1) = written.contents := by
      rw [(hd.isLast h).mp hboth.1, List.take_length]
    rw [hwhole, h.contents, Packing.flatten_pack, hall] at hfirst
    rw [Option.some.inj hfirst] at hclosed
    exact hclosed hboth.2
  have hafter := hb.after hd hplain o₁
  have hcount : (base.after d.chunk o₁).receivedRecords = (written.contents.take (k + 1)).flatten.length := by
    show base.receivedRecords + d.chunk.records.length = _
    rw [hreceived, hrecords, htake, List.length_append]
  refine ⟨base.after d.chunk o₁, ?_, ⟨hafter, ?_, hd.nextCursor, hd.isLast h⟩, rfl⟩
  · unfold ChunkFields.staged
    rw [if_neg (by simp [hplain.small]), hgoes]
    dsimp only [Bind.bind, Except.bind]
    rw [hrecords, hthrough]
    dsimp only
    rw [if_neg hopen, if_neg (by simp [hafter.fits h hcount])]
    rfl
  · obtain ⟨cut, chunk, -, -, hindex, hserved⟩ := hd.served
    show d.served.chunkIndex + 1 = k + 1
    rw [hserved]
    exact congrArg (· + 1) hindex

/-- **One chunk is taken**, if the app can read it. -/
theorem Taken.next (h : Published C limits now reservation source written) (ht : Taken n a events written k lease s)
    (hphase : a.phase = .resyncing) (hpending : a.pendingRelease = none) (hd : At n written k d records) (hplain : d.Plain)
    (hepoch : d.served.hostEpoch = n.hostEpoch) (hlease : lease ≤ d.served.snapshotLeaseExpiresAtMs) (rest : List Delivery) :
    if d.served.snapshotCreatedAtMs ≤ d.served.snapshotLeaseExpiresAtMs then
      ∃ s', takeAll s (d :: rest) = takeAll s' rest ∧
        Taken n a events written (k + 1) d.served.snapshotLeaseExpiresAtMs s'
    else takeAll s (d :: rest) = none := by
  have hcontext : d.served.hostEpoch = d.context.hostEpoch := by rw [hd.context, hepoch]
  have hreads := d.read_eq hcontext
  split
  · rename_i hcreated
    have hreadable := hplain.readable_iff.mpr hcreated
    have hvalid : d.chunk.valid = true := by
      simp only [Delivery.readable, Bool.and_eq_true] at hreadable
      exact hreadable.2
    have hread : d.effect.toStateSnapshotChunk = some ⟨d.chunk, hvalid⟩ := (hreads ⟨d.chunk, hvalid⟩).mpr ⟨hreadable, rfl⟩
    obtain ⟨updated, hstaged, hawaits, hsame⟩ := ht.staged h hd hplain hlease
    have hspace : d.chunk.namespace = n := hd.context
    have hstage : stageSnapshotChunk s ⟨d.chunk, hvalid⟩ =
        .ok ((s.putSnapshotRecords n (d.chunk.rows ((s.snapshot n).elim 0 StoredSnapshot.receivedRecords))).putSnapshot n
          updated, .snapshotStaged n d.chunk.snapshotId updated.nextChunkIndex updated.nextCursor updated.complete) := by
      unfold stageSnapshotChunk
      simp only [hspace, ht.authority, hpending, hphase, hstaged, ne_eq, not_true, if_false]
      rfl
    refine ⟨(s.putSnapshotRecords n (d.chunk.rows ((s.snapshot n).elim 0 StoredSnapshot.receivedRecords))).putSnapshot n
      updated, ?_, ?_⟩
    · rw [takeAll, hread]
      dsimp only
      rw [hstage]
    · have htables : ∀ rows : List StoredRecord, ((s.putSnapshotRecords n rows).putSnapshot n updated).tables n =
          { s.tables n with snapshot := some updated, records := (s.tables n).records ++ rows } := by
        intro rows
        unfold Store.putSnapshot Store.putSnapshotRecords
        rw [Store.tables_onTables_self, Store.tables_onTables_self]
      refine ⟨ht.authority, ?_, ?_, ?_, fun hzero => absurd hzero (Nat.succ_ne_zero k), fun _ => ⟨updated, ?_, hawaits, ?_⟩⟩
      · rw [htables]
        exact ht.events
      · rw [htables]
        exact ht.inOrder.chunk hstaged
      · rw [htables, List.map_append, rows_record, ht.records, take_flatten hd.place]
        obtain ⟨cut, chunk, -, -, -, hserved⟩ := hd.served
        show _ ++ d.served.records = _
        rw [hserved]
        rfl
      · unfold Store.snapshot
        rw [htables]
      · exact Nat.le_of_eq hsame
  · rename_i hcreated
    have hnone : d.effect.toStateSnapshotChunk = none := by
      rw [Option.eq_none_iff_forall_ne_some]
      intro c hc
      exact hcreated (hplain.readable_iff.mp ((hreads c).mp hc).1)
    rw [takeAll, hnone]

theorem Follows.uncons {served : Served} {rest : List Served} (h : Follows written k lease (served :: rest)) :
    written.contents[k]? = some served.records ∧ served.chunkIndex = k ∧ lease ≤ served.snapshotLeaseExpiresAtMs ∧
      (∃ cut chunk, Held written cut ∧ written.manifest.chunks[k]? = some chunk ∧ chunk.index = k ∧
        served = cut.chunkServed chunk served.records) ∧
      Follows written (k + 1) served.snapshotLeaseExpiresAtMs rest := by
  have hrecords := h.records
  rw [List.map_cons, List.length_cons] at hrecords
  have hindices := h.indices
  rw [List.map_cons, List.length_cons, List.range'_succ, List.cons.injEq] at hindices
  have hlt : k < written.contents.length := by
    by_contra hge
    rw [List.drop_eq_nil_of_le (Nat.not_lt.mp hge)] at hrecords
    cases hrecords
  rw [List.drop_eq_getElem_cons hlt, List.take_succ_cons, List.cons.injEq] at hrecords
  obtain ⟨cut, chunk, records, hheld, hchunk, hplace, hserved⟩ := h.manifest served List.mem_cons_self
  rw [hindices.1] at hchunk hplace
  have hsame : served.records = records := by rw [hserved]; rfl
  have hindex : chunk.index = k := by
    rw [← hindices.1, hserved]
    rfl
  have hleases := h.leases
  rw [List.map_cons] at hleases
  obtain ⟨hfirst, hrest⟩ := List.pairwise_cons.mp hleases
  refine ⟨?_, hindices.1, hfirst _ List.mem_cons_self, ⟨cut, chunk, hheld, hchunk, hindex, hsame ▸ hserved⟩,
    ⟨hrecords.2, hindices.2, fun s hs => h.manifest s (List.mem_cons_of_mem _ hs), hrest⟩⟩
  rw [hsame]
  exact hplace

/-- **All the chunks are taken**, if no lease ends before its snapshot began. -/
theorem Taken.all (h : Published C limits now reservation source written) (hphase : a.phase = .resyncing)
    (hpending : a.pendingRelease = none) {requestId : Nat → String} {served : List Served}
    (ht : Taken n a events written k lease s) (hf : Follows written k lease served)
    (hplain : ∀ d ∈ deliveries n requestId (written.manifest.expectedCursor k) served, d.Plain)
    (hepoch : ∀ d ∈ served, d.hostEpoch = n.hostEpoch) :
    if ∀ d ∈ served, d.snapshotCreatedAtMs ≤ d.snapshotLeaseExpiresAtMs then
      ∃ s' lease', takeAll s (deliveries n requestId (written.manifest.expectedCursor k) served) = some s' ∧
        Taken n a events written (k + served.length) lease' s'
    else takeAll s (deliveries n requestId (written.manifest.expectedCursor k) served) = none := by
  induction served generalizing k lease s with
  | nil =>
    rw [if_pos (by simp)]
    exact ⟨s, lease, rfl, ht⟩
  | cons served rest ih =>
    obtain ⟨hplace, hindex, hle, hserved, hrest⟩ := hf.uncons
    rw [deliveries] at hplain ⊢
    have hd : At n written k ⟨n, requestId served.chunkIndex, written.manifest.expectedCursor k, served⟩ served.records :=
      ⟨hplace, rfl, rfl, hserved⟩
    have hnext : served.nextCursor = written.manifest.expectedCursor (k + 1) := hd.nextCursor
    have hone := ht.next h hphase hpending hd (hplain _ List.mem_cons_self) (hepoch _ List.mem_cons_self) hle
      (deliveries n requestId served.nextCursor rest)
    rw [hnext] at hplain hone ⊢
    by_cases hcreated : served.snapshotCreatedAtMs ≤ served.snapshotLeaseExpiresAtMs
    · rw [if_pos hcreated] at hone
      obtain ⟨s', htake, ht'⟩ := hone
      have hall := ih ht' hrest (fun d hd => hplain d (List.mem_cons_of_mem _ hd)) fun d hd =>
        hepoch d (List.mem_cons_of_mem _ hd)
      rw [htake]
      simp only [List.forall_mem_cons, hcreated, true_and, List.length_cons]
      have hcount : k + (rest.length + 1) = k + 1 + rest.length := by omega
      rw [hcount]
      exact hall
    · rw [if_neg hcreated] at hone
      rw [if_neg fun hall => hcreated (hall _ List.mem_cons_self)]
      exact hone

/-! ## The commit -/

/-- **A staged snapshot is given up**, when its release can be put. -/
theorem giveUp_ok {a : Authority} {directive : Directive} {reason : ReleaseReason} {c : Nat} (hd : directive.namespace = a.namespace)
    (hpending : a.pendingRelease = none) (hcursor : a.cursorEventSeq = some c) (hle : a.requiredThroughEventSeq ≤ c)
    (hreason : reason = .completed) : ∃ s' o, giveUp s a directive reason .queryPendingCommands = .ok (s', o) ∧
      s'.tables a.namespace = (s.tables a.namespace).cleared := by
  have hmade : a.releaseObligation directive reason =
      .ok ⟨a.namespace, directive.snapshotRequestId, directive.snapshotId, a.cursorEventSeq, reason⟩ := by
    unfold Authority.releaseObligation
    rw [hpending, hd]
    simp [check, Bind.bind, Except.bind, Pure.pure, Except.pure]
  set o : Obligation := ⟨a.namespace, directive.snapshotRequestId, directive.snapshotId, a.cursorEventSeq, reason⟩
  obtain ⟨b, hb⟩ : ∃ b : Authority, b =
    { a with phase := .resyncing, pendingRelease := some o, afterReleasePhase := some .queryPendingCommands } := ⟨_, rfl⟩
  have hput : s.putAuthority b = .ok (s.withAuthority b) := by
    have hjournal : b.Journal := by
      rw [hb]
      exact .queried rfl rfl rfl rfl rfl hcursor hle (.inl hreason)
    unfold Store.putAuthority
    rw [hjournal.validated]
    rfl
  refine ⟨((s.withAuthority b).deleteSnapshot a.namespace).deleteBufferedEvents a.namespace, o, ?_, ?_⟩
  · unfold giveUp
    rw [hmade]
    simp only [Bind.bind, Except.bind]
    rw [← hb, hput]
    rfl
  · unfold Store.deleteBufferedEvents Store.deleteSnapshot
    rw [Store.tables_onTables_self, Store.tables_onTables_self, Store.tables_withAuthority]
    rfl

/-- What is staged of a whole cut is the cut. -/
theorem Taken.whole (h : Published C limits now reservation source written)
    (ht : Taken n a events written written.contents.length lease s) (hst : s.snapshot n = some st) :
    (s.tables n).staged st.snapshotId = (s.tables n).records ∧
      ((s.tables n).staged st.snapshotId).map StoredRecord.record = source.records := by
  have hq := ht.inOrder.staging st hst
  have hstaged : (s.tables n).staged st.snapshotId = (s.tables n).records := staged_eq hq.ids hq.indices
  refine ⟨hstaged, ?_⟩
  rw [hstaged, ht.records, List.take_length, h.contents, Packing.flatten_pack]

/-- A whole cut passes the checks of the commit. -/
theorem Taken.commitFailure_none (h : Published C limits now reservation source written)
    (ht : Taken n a events written written.contents.length lease s) (hst : s.snapshot n = some st)
    (hb : Awaiting written written.contents.length st) (hrequired : a.requiredThroughEventSeq ≤ st.throughEventSeq) :
    commitFailure C (s.tables n) a st reservation.snapshotId [] = .ok none := by
  obtain ⟨hstaged, hrecords⟩ := ht.whole h hst
  have hid : st.snapshotId = reservation.snapshotId := by rw [hb.snapshotId, h.snapshotId]
  have hlength : ((s.tables n).staged st.snapshotId).length = source.records.length := by
    rw [← hrecords, List.length_map]
  have hindices : ((s.tables n).staged st.snapshotId).map StoredRecord.recordIndex =
      List.range ((s.tables n).staged st.snapshotId).length := by
    rw [hstaged]
    exact (ht.inOrder.staging st hst).indices
  have hinspect : inspectStagedCut C (s.tables n) st =
      .ok ⟨source.records.length, (Record.array source.records).bytes, C.sha256 (Record.array source.records).text⟩ := by
    unfold inspectStagedCut
    dsimp only
    rw [hindices, hrecords, hlength]
    simp [check, Bind.bind, Except.bind, Pure.pure, Except.pure]
  have htotals : st.totalRecords = source.records.length ∧ st.totalCanonicalBytes = (Record.array source.records).bytes ∧
      st.cutDigest = C.sha256 (Record.array source.records).text := by
    rw [hb.totalRecords, hb.totalCanonicalBytes, hb.cutDigest, h.totalRecords, h.totalCanonicalBytes, h.cutDigest]
    exact ⟨rfl, rfl, rfl⟩
  unfold commitFailure
  rw [if_neg (not_not.mpr hid), if_neg (by simp [hb.complete.mpr rfl]), hinspect]
  simp only [Bind.bind, Except.bind]
  rw [if_neg (by simp [htotals]), if_neg (by simp [htotals])]
  have hvalidated : validateBufferedEvents (s.tables n) st [] = .ok ⟨st.throughEventSeq, none⟩ := rfl
  rw [hvalidated]
  dsimp only
  rw [if_neg]
  · rfl
  · simp only [Option.isSome_none, Bool.false_or, decide_eq_true_eq]
    omega

/-- **The whole cut is committed.** -/
theorem Taken.commit (h : Published C limits now reservation source written)
    (ht : Taken n a events written written.contents.length lease s) (hpending : a.pendingRelease = none)
    (hwatched : ∀ e ∈ events, e.eventSeq ≤ a.requiredThroughEventSeq)
    (hrequired : a.requiredThroughEventSeq ≤ source.throughEventSeq) :
    ∃ s' release rows, commitSnapshot C s n reservation.snapshotId =
        .ok (s', .snapshotCommitted n source.throughEventSeq release .queryPendingCommands) ∧
      (s'.tables n).scopes = rows.scopes ∧ (s'.tables n).sessions = rows.sessions ∧ Written (rows, none) source.records := by
  have hspace : a.namespace = n := Store.namespace_of_authority ht.authority
  have hpos : 0 < written.contents.length := by
    rw [h.contents]
    exact List.length_pos_of_ne_nil Packing.pack_ne_nil
  obtain ⟨st, hst, hb, -⟩ := ht.staging hpos
  have hrecords := (ht.whole h hst).2
  have hthrough : st.throughEventSeq = source.throughEventSeq := by rw [hb.through, h.through]
  have hbuffered : (s.bufferedEvents n).filter (fun e => st.throughEventSeq < e.eventSeq) = [] := by
    refine List.filter_eq_nil_iff.mpr fun e he => ?_
    have hmem := bufferedEvents_mem he
    rw [ht.events] at hmem
    have := hwatched e hmem
    rw [decide_eq_true_iff]
    omega
  have hfailure := ht.commitFailure_none h hst hb (hthrough ▸ hrequired)
  obtain ⟨o, hall, hclosed⟩ := validateRecordStream_through h.ordered
  obtain ⟨rows, hrows, hwritten, -⟩ := commitRecords_ok (t := s.tables n) hall hclosed
  have hnamed : (st.releaseDirective n).namespace = (a.committed st).namespace := hspace.symm
  obtain ⟨s', release, hgive, htables⟩ := giveUp_ok (s := s.onTables n fun _ => rows) (c := st.throughEventSeq) hnamed
    hpending rfl (by rw [hthrough]; exact hrequired) rfl
  have htables : s'.tables n = rows.cleared := by
    have hn : (a.committed st).namespace = n := hspace
    rw [hn, Store.tables_onTables_self] at htables
    exact htables
  refine ⟨s', release, rows, ?_, by rw [htables]; rfl, by rw [htables]; rfl, hwritten⟩
  unfold commitSnapshot
  rw [ht.authority]
  dsimp only
  rw [hpending, hst]
  dsimp only
  rw [hbuffered, hfailure]
  show commitCut s a st [] = _
  unfold commitCut
  dsimp only
  rw [hspace, hrecords, hrows]
  unfold Authority.committed at hgive
  rw [hspace] at hgive
  simp only [Bind.bind, Except.bind, applyBuffered, Pure.pure, Except.pure]
  rw [hgive, ← hthrough]
  rfl

/-! ## What the app then holds -/

/-- The tables hold the scopes and the sessions of the state, and nothing else. -/
structure Holds (t : Tables) (m : MaterializedFields) : Prop where
  distinct : t.Distinct
  scopes : ∀ s, s ∈ t.scopes ↔ ∃ scope ∈ m.scopes, s = ⟨scope.item, m.sessionsRevision scope.item.scopeId⟩
  sessions : ∀ x, x ∈ t.sessions ↔ ∃ scope ∈ m.scopes, ∃ item ∈ scope.sessions, x = ⟨item⟩

variable {m : MaterializedFields}

theorem mem_cut {r : Record} : r ∈ (projectMaterializedStateCut m).records ↔ ∃ scope ∈ m.scopes,
    r = .scope scope.item ∨ r = .sessionsScope scope.item.scopeId (m.sessionsRevision scope.item.scopeId) ∨
      ∃ item ∈ scope.sessions, r = .session item := by
  simp only [projectMaterializedStateCut, MaterializedScope.records, List.mem_flatMap, List.mem_insertionSort, List.mem_cons,
    List.mem_map]
  constructor
  · rintro ⟨scope, hscope, hr | hr | ⟨item, hitem, rfl⟩⟩
    · exact ⟨scope, hscope, .inl hr⟩
    · exact ⟨scope, hscope, .inr (.inl hr)⟩
    · exact ⟨scope, hscope, .inr (.inr ⟨item, hitem, rfl⟩)⟩
  · rintro ⟨scope, hscope, hr | hr | ⟨item, hitem, rfl⟩⟩
    · exact ⟨scope, hscope, .inl hr⟩
    · exact ⟨scope, hscope, .inr (.inl hr)⟩
    · exact ⟨scope, hscope, .inr (.inr ⟨item, hitem, rfl⟩)⟩

theorem mem_cut_scope {item : ScopeItem} :
    Record.scope item ∈ (projectMaterializedStateCut m).records ↔ ∃ scope ∈ m.scopes, scope.item = item := by
  simp [mem_cut, eq_comm]

theorem mem_cut_session {item : SessionItem} :
    Record.session item ∈ (projectMaterializedStateCut m).records ↔ ∃ scope ∈ m.scopes, item ∈ scope.sessions := by
  simp [mem_cut]

theorem holds_of_written {rows : Tables} (hw : Written (rows, none) (projectMaterializedStateCut m).records)
    (hplaced : ((projectMaterializedStateCut m).records.map Record.place).Nodup) : Holds rows m where
  distinct := hw.distinct
  scopes := by
    intro s
    constructor
    · intro hs
      obtain ⟨hitem, hrevision⟩ := hw.scopes s hs
      obtain ⟨scope, hscope, hsame⟩ := mem_cut_scope.mp hitem
      obtain ⟨scope', -, hr | hr | ⟨_, _, hr⟩⟩ := mem_cut.mp hrevision
      · cases hr
      · obtain ⟨hid, hrev⟩ := Record.sessionsScope.inj hr
        refine ⟨scope, hscope, ?_⟩
        rw [← hid] at hrev
        rw [hsame, ← hrev]
      · cases hr
    · rintro ⟨scope, hscope, rfl⟩
      have hlisted : Record.sessionsScope scope.item.scopeId (m.sessionsRevision scope.item.scopeId) ∈
          (projectMaterializedStateCut m).records := mem_cut.mpr ⟨scope, hscope, .inr (.inl rfl)⟩
      obtain ⟨s, hs⟩ := Option.isSome_iff_exists.mp (hw.hasScope _ _ hlisted)
      have hid := scope_key hs
      have hmem := Keyed.mem_of_find hs
      obtain ⟨hitem, hrevision⟩ := hw.scopes s hmem
      have hsame : Record.scope s.item = .scope scope.item :=
        eq_of_place hplaced hitem (mem_cut_scope.mpr ⟨scope, hscope, rfl⟩) (by
          simp [Record.place, Record.scopeId, Record.kind, Record.sessionId, hid])
      have hsameRevision := eq_of_place hplaced hrevision hlisted (by
          simp [Record.place, Record.scopeId, Record.kind, Record.sessionId, hid])
      obtain ⟨item, revision⟩ := s
      obtain rfl := Record.scope.inj hsame
      obtain rfl := (Record.sessionsScope.inj hsameRevision).2
      exact hmem
  sessions := by
    intro x
    constructor
    · intro hx
      obtain ⟨scope, hscope, hitem⟩ := mem_cut_session.mp (hw.sessions x hx)
      exact ⟨scope, hscope, x.item, hitem, rfl⟩
    · rintro ⟨scope, hscope, item, hitem, rfl⟩
      have hlisted := mem_cut_session.mpr ⟨scope, hscope, hitem⟩
      obtain ⟨found, hfound⟩ := Option.isSome_iff_exists.mp (hw.hasSession item hlisted)
      obtain ⟨x, hx, -⟩ := Option.map_eq_some_iff.mp hfound
      have hkey : x.key = (item.scopeId, item.sessionId) := Keyed.key_of_find hx
      obtain ⟨hid, hsid⟩ : x.item.scopeId = item.scopeId ∧ x.item.sessionId = item.sessionId := by
        simpa [StoredSession.key] using hkey
      have hmem := Keyed.mem_of_find hx
      have hsame := eq_of_place hplaced (hw.sessions x hmem) hlisted (by
        simp [Record.place, Record.scopeId, Record.kind, Record.sessionId, hid, hsid])
      obtain ⟨item'⟩ := x
      obtain rfl := Record.session.inj hsame
      exact hmem

/-! ## What the host serves -/

theorem publish_chunks {newCursor : Nat → String} (h : publish C newCursor limits now reservation source = .ok written) :
    written.manifest.chunks = chunkIndexes C newCursor written.contents := by
  unfold publish at h
  split at h
  · cases h
  split at h
  · cases h
  unfold writeCut at h
  cases hw : source.records.foldlM (Writing.write limits reservation) {} with
  | error e =>
    rw [hw] at h
    cases h
  | ok w =>
    rw [hw] at h
    obtain rfl := Except.ok.inj h
    rfl

theorem expectedCursor_succ {newCursor : Nat → String} (hchunks : written.manifest.chunks = chunkIndexes C newCursor written.contents)
    (hk : k < written.contents.length) :
    written.manifest.expectedCursor (k + 1) = if k + 1 < written.contents.length then some (newCursor k) else none := by
  rw [Manifest.expectedCursor, hchunks, chunkIndexes, List.getElem?_mapIdx, List.getElem?_eq_getElem hk]
  rfl

theorem Published.part_within (h : Published C limits now reservation source written) (hpart : records ∈ written.contents) :
    records.length ≤ maxSnapshotChunkRecords ∧ arrayBytes records ≤ maxSnapshotChunkCanonicalBytes := by
  by_cases hempty : records = []
  · rw [hempty, arrayBytes_nil]
    decide
  · have hsingle : ∀ r ∈ source.records, fits limits [r] = true := fun r hr => by
      have := h.small r hr
      simp [fits, show limits.maxChunkRecords = 256 from rfl, this]
    have hfits := Packing.fits_of_mem hsingle (h.contents ▸ hpart) hempty
    simp only [fits, Bool.and_eq_true, decide_eq_true_eq] at hfits
    exact hfits

theorem Published.chunks_within (h : Published C limits now reservation source written) :
    written.contents.length ≤ maxJsonInteger := by
  have hframes := h.frames_bytes
  have hcount : ∀ l : List (List Record), l.length ≤ (l.map fun part => arrayBytes part + 16384).sum := by
    intro l
    induction l with
    | nil => exact Nat.le_refl _
    | cons part rest ih =>
      rw [List.map_cons, List.sum_cons, List.length_cons]
      omega
  have hmax : maxStagedRawUtf8Bytes ≤ maxJsonInteger := by decide
  exact (hcount _).trans (hframes.trans hmax)

/-- A chunk is of the reservation and of the cut that were published. -/
theorem At.reads (h : Published C limits now reservation source written) (hd : At n written k d records) :
    (d.served.hostEpoch = reservation.binding.hostEpoch ∧
      d.served.snapshotRequestId = reservation.binding.snapshotRequestId ∧ d.served.snapshotId = reservation.snapshotId) ∧
    (d.served.totalRecords = source.records.length ∧ d.served.totalCanonicalBytes = arrayBytes source.records ∧
      d.served.cutDigest = C.sha256 (Record.array source.records).text) ∧
    (d.served.throughEventSeq = source.throughEventSeq ∧ d.served.scopesRevision = source.scopesRevision) ∧
    d.served.chunkIndex = k ∧ d.served.records = records := by
  obtain ⟨cut, chunk, hheld, -, hindex, hserved⟩ := hd.served
  rw [hserved]
  simp only [ActiveCut.chunkServed, hheld.manifest, h.binding, h.snapshotId, h.totalRecords, h.totalCanonicalBytes,
    h.cutDigest, h.through, h.scopesRevision, hindex, and_self]

/-- A chunk keeps the times of its snapshot, and its lease ends with the snapshot at the latest. -/
theorem At.times (h : Published C limits now reservation source written) (hd : At n written k d records) :
    d.served.snapshotCreatedAtMs = reservation.snapshotCreatedAtMs ∧
      d.served.snapshotAbsoluteExpiresAtMs = reservation.snapshotAbsoluteExpiresAtMs ∧
      d.served.snapshotLeaseExpiresAtMs ≤ reservation.snapshotAbsoluteExpiresAtMs := by
  obtain ⟨cut, chunk, hheld, -, -, hserved⟩ := hd.served
  have hfirst : written.snapshotLeaseExpiresAtMs ≤ written.manifest.snapshotAbsoluteExpiresAtMs := by
    rw [h.lease, h.absolute]
    exact Nat.min_le_right _ _
  have habsolute := hheld.absolute hfirst
  rw [hserved]
  dsimp only [ActiveCut.chunkServed]
  rw [hheld.manifest]
  exact ⟨h.created, h.absolute, h.absolute ▸ habsolute⟩

/-- **What is served is what the models of the app ask**, but for the lease. -/
theorem At.plain (h : Published C limits now reservation source written) (hasked : reservation.Asked n)
    (hsha : ∀ text, canonicalSha256 (C.sha256 text) = true) {newCursor : Nat → String}
    (hchunks : written.manifest.chunks = chunkIndexes C newCursor written.contents)
    (hcursors : ∀ i, (newCursor i).utf8ByteSize ≤ maxCursorUtf8Bytes) (hok : ∀ r ∈ source.records, r.ok = true)
    (hcounters : source.throughEventSeq ≤ unsignedCounterMax ∧ source.scopesRevision ≤ unsignedCounterMax)
    (hd : At n written k d records) (hrequest : d.requestId.utf8ByteSize ≤ 128) :
    d.Plain ∧ d.served.hostEpoch = n.hostEpoch := by
  have hk : k < written.contents.length := (List.getElem?_eq_some_iff.mp hd.place).1
  have hnext := expectedCursor_succ hchunks hk
  have hlast := hd.isLast h
  have hnextCursor := hd.nextCursor
  have hpart : records ∈ written.contents := List.mem_of_getElem? hd.place
  have hsubset : ∀ r ∈ records, r ∈ source.records := by
    intro r hr
    have hwhole : written.contents.flatten = source.records := by rw [h.contents, Packing.flatten_pack]
    rw [← hwhole]
    exact List.mem_flatten.mpr ⟨records, hpart, hr⟩
  have hsized : (written.manifest.expectedCursor k).all (fun t => t.utf8ByteSize ≤ maxCursorUtf8Bytes) = true := by
    cases k with
    | zero => rfl
    | succ k =>
      rw [expectedCursor_succ hchunks (Nat.lt_of_succ_lt hk), if_pos hk]
      exact decide_eq_true (hcursors k)
  obtain ⟨hbinding, htotals, hpoint, hplace⟩ := hd.reads h
  obtain ⟨hcreated, habsolute, hlease⟩ := hd.times h
  refine ⟨{ requestId := hrequest, hostId := ?_, hostEpoch := ?_, snapshotRequestId := ?_, snapshotId := ?_, nextCursor := ?_
            cutDigest := ?_, created := ?_, lease := ?_, absolute := ?_, chunkIndex := ?_, through := ?_, revision := ?_
            totalRecords := ?_, totalCanonicalBytes := ?_, records := ?_, ids := ?_, within := ?_, first := ?_
            requestedCursor := ?_, last := ?_, count := ?_, bytes := ?_ }, ?_⟩
  · rw [hd.context]
    exact hasked.hostId
  · rw [hbinding.1, hasked.hostEpoch.1]
    exact hasked.hostEpoch.2
  · rw [hbinding.2.1]
    exact bytes_of_id hasked.snapshotRequestId
  · rw [hbinding.2.2]
    exact bytes_of_id hasked.snapshotId
  · rw [hnextCursor, hnext]
    by_cases hmore : k + 1 < written.contents.length
    · rw [if_pos hmore]
      exact decide_eq_true (hcursors k)
    · rw [if_neg hmore]
      rfl
  · rw [htotals.2.2]
    exact hsha _
  · rw [hcreated]
    exact hasked.created.trans hasked.absolute
  · exact hlease.trans hasked.absolute
  · rw [habsolute]
    exact hasked.absolute
  · rw [hplace.1]
    exact hk.le.trans h.chunks_within
  · rw [hpoint.1]
    exact hcounters.1
  · rw [hpoint.2]
    exact hcounters.2
  · rw [htotals.1]
    exact h.totals_within.1
  · rw [htotals.2.1]
    exact h.totals_within.2
  · rw [hplace.2]
    exact fun r hr => hok r (hsubset r hr)
  · rw [hbinding.2.1, hbinding.2.2]
    exact ⟨hasked.snapshotRequestId, hasked.snapshotId⟩
  · rw [habsolute]
    exact hlease
  · rw [hplace.1, hd.requestedCursor]
    cases k with
    | zero => exact ⟨fun _ => rfl, fun _ => rfl⟩
    | succ k =>
      rw [expectedCursor_succ hchunks (Nat.lt_of_succ_lt hk), if_pos hk]
      exact ⟨fun hzero => absurd hzero (Nat.succ_ne_zero k), by simp⟩
  · rw [hd.requestedCursor]
    exact hsized
  · rw [hlast, hnextCursor, hnext]
    by_cases hmore : k + 1 < written.contents.length
    · rw [if_pos hmore]
      simp only [reduceCtorEq, iff_false]
      omega
    · rw [if_neg hmore]
      simp only [iff_true]
      omega
  · rw [hplace.2]
    exact (h.part_within hpart).1
  · rw [hplace.2]
    exact (h.part_within hpart).2
  · rw [hbinding.1, hasked.hostEpoch.1]

theorem plain_all {requestId : Nat → String} {served : List Served}
    (hone : ∀ k d records, At n written k d records → d.requestId = requestId k → d.Plain ∧ d.served.hostEpoch = n.hostEpoch)
    (hf : Follows written k lease served) :
    (∀ d ∈ deliveries n requestId (written.manifest.expectedCursor k) served, d.Plain) ∧
      ∀ s ∈ served, s.hostEpoch = n.hostEpoch := by
  induction served generalizing k lease with
  | nil => exact ⟨by simp [deliveries], by simp⟩
  | cons served rest ih =>
    obtain ⟨hplace, hindex, -, hserved, hrest⟩ := hf.uncons
    have hd : At n written k ⟨n, requestId served.chunkIndex, written.manifest.expectedCursor k, served⟩ served.records :=
      ⟨hplace, rfl, rfl, hserved⟩
    obtain ⟨hplain, hepoch⟩ := hone k _ _ hd (congrArg requestId hindex)
    obtain ⟨hplains, hepochs⟩ := ih hrest
    have hnext : served.nextCursor = written.manifest.expectedCursor (k + 1) := hd.nextCursor
    rw [deliveries, hnext]
    exact ⟨List.forall_mem_cons.mpr ⟨hplain, hplains⟩, List.forall_mem_cons.mpr ⟨hepoch, hepochs⟩⟩

/-! ## The whole way -/

/-- The cut that is committed is the one that was asked for. -/
def Committed (C : Core) (s : Store) (n : Namespace) (m : MaterializedFields) (snapshotId : String) (ds : List Delivery) :
    Prop :=
  ∃ s₁ s₂ release, takeAll s ds = some s₁ ∧
    commitSnapshot C s₁ n snapshotId = .ok (s₂, .snapshotCommitted n m.eventSeq release .queryPendingCommands) ∧
    Holds (s₂.tables n) m

def Sample.requestId (_ : Nat) : String := "q"

end Spool
end TmuxWorktree
