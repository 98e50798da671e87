import TmuxWorktree.Spool.Records
/-!
# Chunks — a cut is written in chunks, and served one after the other (`stateSnapshotSpool.ts`)

`writeCut` goes through the records once and closes a chunk when the next record would not fit.  A chunk is served to
whoever has the cursor of the one before it, as often as it is asked for.
-/
namespace TmuxWorktree
namespace Spool

open Sync (Record Core)

/-! ## Limits, reservations and manifests -/

structure Limits where
  maxChunkRecords : Nat
  maxChunkCanonicalBytes : Nat
  maxCutRecords : Nat
  maxCutCanonicalBytes : Nat
  idleLeaseMs : Nat
  absoluteLeaseMs : Nat
  deriving DecidableEq, Repr

/-- `RELAY_V2_STATE_SNAPSHOT_LIMITS`. -/
def limits : Limits where
  maxChunkRecords := 256
  maxChunkCanonicalBytes := 524288
  maxCutRecords := 100000
  maxCutCanonicalBytes := 268435456
  idleLeaseMs := 300000
  absoluteLeaseMs := 3600000

structure Binding where
  principalId : String
  clientInstanceId : String
  hostEpoch : String
  snapshotRequestId : String
  deriving DecidableEq, Repr

/-- `PersistedReservation`. -/
structure Reservation where
  snapshotId : String
  hostId : String
  binding : Binding
  snapshotCreatedAtMs : Nat
  snapshotAbsoluteExpiresAtMs : Nat
  reservedRecords : Nat
  reservedCanonicalBytes : Nat
  deriving DecidableEq, Repr

/-- `PersistedChunkIndex`. -/
structure ChunkIndex where
  index : Nat
  file : String
  recordCount : Nat
  canonicalBytes : Nat
  digest : String
  nextCursor : Option String
  deriving DecidableEq, Repr

/-- `PersistedManifest`. -/
structure Manifest where
  snapshotId : String
  hostId : String
  binding : Binding
  snapshotCreatedAtMs : Nat
  snapshotAbsoluteExpiresAtMs : Nat
  throughEventSeq : Nat
  scopesRevision : Nat
  totalRecords : Nat
  totalCanonicalBytes : Nat
  cutDigest : String
  metadataBytes : Nat
  chunks : List ChunkIndex
  deriving DecidableEq, Repr

/-- A cut as it is held: its manifest, its lease, and the records of its chunk files. -/
structure ActiveCut where
  manifest : Manifest
  snapshotLeaseExpiresAtMs : Nat
  contents : List (List Record)
  deriving DecidableEq, Repr

inductive SpoolError where
  | busy | capabilityUnavailable | invalidArgument | snapshotExpired | hostEpochMismatch | internal
  deriving DecidableEq, Repr

/-! ## The metadata of a manifest -/

def Binding.json (b : Binding) : Json :=
  .obj [("principalId", .str b.principalId), ("clientInstanceId", .str b.clientInstanceId), ("hostEpoch", .str b.hostEpoch),
    ("snapshotRequestId", .str b.snapshotRequestId)]

def ChunkIndex.json (c : ChunkIndex) : Json :=
  .obj [("index", .int c.index), ("file", .str c.file), ("recordCount", .int c.recordCount),
    ("canonicalBytes", .int c.canonicalBytes), ("digest", .str c.digest), ("nextCursor", .opt .str c.nextCursor)]

def Manifest.json (m : Manifest) : Json :=
  .obj [("version", .int 1), ("snapshotId", .str m.snapshotId), ("hostId", .str m.hostId), ("binding", m.binding.json),
    ("snapshotCreatedAtMs", .int m.snapshotCreatedAtMs), ("snapshotAbsoluteExpiresAtMs", .int m.snapshotAbsoluteExpiresAtMs),
    ("throughEventSeq", .name (toString m.throughEventSeq)), ("scopesRevision", .name (toString m.scopesRevision)),
    ("totalRecords", .int m.totalRecords), ("totalCanonicalBytes", .int m.totalCanonicalBytes),
    ("cutDigest", .str m.cutDigest), ("metadataBytes", .int m.metadataBytes), ("chunks", .arr (m.chunks.map ChunkIndex.json))]

def Manifest.bindingMarkerJson (m : Manifest) : Json :=
  .obj [("version", .int 1), ("snapshotId", .str m.snapshotId), ("hostId", .str m.hostId), ("binding", m.binding.json),
    ("snapshotAbsoluteExpiresAtMs", .int m.snapshotAbsoluteExpiresAtMs)]

/-- The size of `jsonFile`: the text and a line feed. -/
def jsonFileBytes (value : Json) : Nat := value.bytes + 1

def leaseMetadataAllowanceBytes : Nat := 256
def releaseTombstoneMetadataHeadroomBytes : Nat := 16384

def Manifest.measure (m : Manifest) (measured : Nat) : Nat :=
  jsonFileBytes { m with metadataBytes := measured }.json + jsonFileBytes m.bindingMarkerJson + leaseMetadataAllowanceBytes +
    releaseTombstoneMetadataHeadroomBytes

/-- `metadataBytesForManifest`: the manifest holds its own size. -/
def metadataBytesForManifest (m : Manifest) : Nat :=
  go 8 0
where
  go : Nat → Nat → Nat
    | 0, measured => measured
    | attempts + 1, measured =>
      let next := m.measure measured
      if next = measured then next else go attempts next

/-! ## Writing a cut -/

/-- The state of the loop of `writeCut`. -/
structure Writing where
  totalRecords : Nat := 0
  totalCanonicalBytes : Nat := 2
  currentRecords : List Record := []
  currentCanonicalBytes : Nat := 2
  /-- the records of the chunks that are written -/
  chunks : List (List Record) := []
  /-- what `fullDigest` has been given -/
  digested : String := "["
  deriving DecidableEq, Repr

/-- The bytes of a chunk file. -/
def chunkText (records : List Record) : String := "[" ++ Json.commas (records.map canonicalRecord) ++ "]"

def Writing.flush (w : Writing) : Writing :=
  { w with currentRecords := [], currentCanonicalBytes := 2, chunks := w.chunks ++ [w.currentRecords] }

/-- The total with one more record of so many bytes. -/
def Writing.nextTotalCanonicalBytes (w : Writing) (bytes : Nat) : Nat :=
  w.totalCanonicalBytes + bytes + if w.totalRecords = 0 then 0 else 1

/-- The open chunk is closed, if a record of so many bytes does not fit. -/
def Writing.makeRoom (limits : Limits) (w : Writing) (bytes : Nat) : Writing :=
  let addition := bytes + if w.currentRecords.isEmpty then 0 else 1
  if !w.currentRecords.isEmpty &&
      (limits.maxChunkRecords ≤ w.currentRecords.length || limits.maxChunkCanonicalBytes < w.currentCanonicalBytes + addition) then
    w.flush
  else w

def Writing.push (w : Writing) (record : Record) (canonical : String) : Writing :=
  { w with
    totalRecords := w.totalRecords + 1
    totalCanonicalBytes := w.nextTotalCanonicalBytes canonical.utf8ByteSize
    currentRecords := w.currentRecords ++ [record]
    currentCanonicalBytes :=
      w.currentCanonicalBytes + canonical.utf8ByteSize + if w.currentRecords.isEmpty then 0 else 1
    digested := w.digested ++ (if w.totalRecords = 0 then "" else ",") ++ canonical }

/-- One turn of the loop. -/
def Writing.write (limits : Limits) (reservation : Reservation) (w : Writing) (record : Record) :
    Except SpoolError Writing :=
  let canonical := canonicalRecord record
  let bytes := canonical.utf8ByteSize
  if reservation.reservedRecords < w.totalRecords + 1 ||
      reservation.reservedCanonicalBytes < w.nextTotalCanonicalBytes bytes then .error .busy
  else if limits.maxChunkCanonicalBytes < bytes + 2 then .error .capabilityUnavailable
  else if limits.maxCutRecords < w.totalRecords + 1 || limits.maxCutCanonicalBytes < w.nextTotalCanonicalBytes bytes then
    .error .capabilityUnavailable
  else .ok ((w.makeRoom limits bytes).push record canonical)

/-- The last `flush`. -/
def Writing.close (w : Writing) : Writing :=
  if !w.currentRecords.isEmpty || w.chunks.isEmpty then w.flush else w

def chunkFilename (index : Nat) : String :=
  "chunk-" ++ String.ofList ((Nat.toDigits 10 index).leftpad 6 '0') ++ ".json"

/-- The index entries of the chunks; each but the last has a cursor of its own. -/
def chunkIndexes (C : Core) (newCursor : Nat → String) (chunks : List (List Record)) : List ChunkIndex :=
  chunks.mapIdx fun index records =>
    { index := index, file := chunkFilename index, recordCount := records.length
      canonicalBytes := (chunkText records).utf8ByteSize, digest := C.sha256 (chunkText records)
      nextCursor := if index + 1 < chunks.length then some (newCursor index) else none }

/-- **`writeCut`**, at the time `now`, with the cursors that `newCursor` gives. -/
def writeCut (C : Core) (newCursor : Nat → String) (limits : Limits) (now : Nat) (reservation : Reservation) (cut : Cut) :
    Except SpoolError ActiveCut := do
  let w ← cut.records.foldlM (Writing.write limits reservation) {}
  let w := w.close
  let manifest : Manifest :=
    { snapshotId := reservation.snapshotId, hostId := reservation.hostId, binding := reservation.binding
      snapshotCreatedAtMs := reservation.snapshotCreatedAtMs
      snapshotAbsoluteExpiresAtMs := reservation.snapshotAbsoluteExpiresAtMs, throughEventSeq := cut.throughEventSeq
      scopesRevision := cut.scopesRevision, totalRecords := w.totalRecords, totalCanonicalBytes := w.totalCanonicalBytes
      cutDigest := C.sha256 (w.digested ++ "]"), metadataBytes := 0, chunks := chunkIndexes C newCursor w.chunks }
  return { manifest := { manifest with metadataBytes := metadataBytesForManifest manifest }
           snapshotLeaseExpiresAtMs := min (now + limits.idleLeaseMs) reservation.snapshotAbsoluteExpiresAtMs
           contents := w.chunks }

/-- The part of `buildAndPublish` that decides what is published: the order of the records, and the cut that is written. -/
def publish (C : Core) (newCursor : Nat → String) (limits : Limits) (now : Nat) (reservation : Reservation) (cut : Cut) :
    Except SpoolError ActiveCut := do
  if cut.hostEpoch ≠ reservation.binding.hostEpoch then .error .hostEpochMismatch
  else if !validateRecordStream cut.records then .error .internal
  else writeCut C newCursor limits now reservation cut

/-! ## Serving a chunk -/

/-- `RelayV2StateSnapshotGet` of a known snapshot. -/
structure Get where
  binding : Binding
  cursor : Option String
  nextChunkIndex : Nat
  deriving DecidableEq, Repr

/-- `RelayV2StateSnapshotChunk`. -/
structure Served where
  hostEpoch : String
  snapshotRequestId : String
  snapshotId : String
  snapshotCreatedAtMs : Nat
  snapshotLeaseExpiresAtMs : Nat
  snapshotAbsoluteExpiresAtMs : Nat
  chunkIndex : Nat
  isLast : Bool
  nextCursor : Option String
  throughEventSeq : Nat
  scopesRevision : Nat
  totalRecords : Nat
  totalCanonicalBytes : Nat
  cutDigest : String
  records : List Record
  deriving DecidableEq, Repr

/-- The cursor that the request of a chunk must have. -/
def Manifest.expectedCursor (m : Manifest) : Nat → Option String
  | 0 => none
  | index + 1 => (m.chunks[index]?).bind ChunkIndex.nextCursor

/-- The end of `serveExisting`, for a cut that is held: the lease is renewed, the chunk file is checked and read. -/
def ActiveCut.serve (C : Core) (limits : Limits) (now : Nat) (request : Get) (cut : ActiveCut) :
    Except SpoolError (ActiveCut × Served) := do
  let m := cut.manifest
  if m.binding ≠ request.binding then .error .snapshotExpired
  else
    match m.chunks[request.nextChunkIndex]?, cut.contents[request.nextChunkIndex]? with
    | some chunk, some records =>
      if request.cursor ≠ m.expectedCursor request.nextChunkIndex then .error .invalidArgument
      else
        let nextLease :=
          max cut.snapshotLeaseExpiresAtMs (min (now + limits.idleLeaseMs) m.snapshotAbsoluteExpiresAtMs)
        if (chunkText records).utf8ByteSize ≠ chunk.canonicalBytes || C.sha256 (chunkText records) ≠ chunk.digest then
          .error .internal
        else
          return ({ cut with snapshotLeaseExpiresAtMs := nextLease },
            { hostEpoch := m.binding.hostEpoch, snapshotRequestId := m.binding.snapshotRequestId
              snapshotId := m.snapshotId, snapshotCreatedAtMs := m.snapshotCreatedAtMs
              snapshotLeaseExpiresAtMs := nextLease, snapshotAbsoluteExpiresAtMs := m.snapshotAbsoluteExpiresAtMs
              chunkIndex := chunk.index, isLast := decide (chunk.index + 1 = m.chunks.length)
              nextCursor := chunk.nextCursor, throughEventSeq := m.throughEventSeq, scopesRevision := m.scopesRevision
              totalRecords := m.totalRecords, totalCanonicalBytes := m.totalCanonicalBytes, cutDigest := m.cutDigest
              records := records })
    | _, _ => .error .invalidArgument

/-- `serveExisting` and the clean-up before it: a cut whose lease or absolute time is over is gone, and so is one whose chunk
file is not what was written.  A request that is refused changes nothing else. -/
def serveExisting (C : Core) (limits : Limits) (now : Nat) (request : Get) :
    Option ActiveCut → Option ActiveCut × Except SpoolError Served
  | none => (none, .error .snapshotExpired)
  | some cut =>
    if cut.snapshotLeaseExpiresAtMs ≤ now || cut.manifest.snapshotAbsoluteExpiresAtMs ≤ now then
      (none, .error .snapshotExpired)
    else
      match cut.serve C limits now request with
      | .ok (cut, served) => (some cut, .ok served)
      | .error .internal => (none, .error .internal)
      | .error e => (some cut, .error e)

/-- `snapshotChunkFrame`: the records are what `JSON.parse` makes of their canonical texts. -/
def snapshotChunkFrame (hostId requestId : String) (c : Served) : Json :=
  .obj [("protocolVersion", .int 2), ("kind", .name "response"), ("type", .name "state.snapshot.chunk"),
    ("requestId", .str requestId), ("hostId", .str hostId), ("hostEpoch", .str c.hostEpoch),
    ("payload", .obj [("coverageComplete", .bool true), ("snapshotRequestId", .str c.snapshotRequestId),
      ("snapshotId", .str c.snapshotId), ("snapshotCreatedAtMs", .int c.snapshotCreatedAtMs),
      ("snapshotLeaseExpiresAtMs", .int c.snapshotLeaseExpiresAtMs),
      ("snapshotAbsoluteExpiresAtMs", .int c.snapshotAbsoluteExpiresAtMs), ("chunkIndex", .int c.chunkIndex),
      ("isLast", .bool c.isLast), ("nextCursor", .opt .str c.nextCursor),
      ("throughEventSeq", .name (toString c.throughEventSeq)), ("scopesRevision", .name (toString c.scopesRevision)),
      ("totalRecords", .int c.totalRecords), ("totalCanonicalBytes", .int c.totalCanonicalBytes),
      ("cutDigest", .str c.cutDigest), ("records", .arr (c.records.map fun r => (recordJson r).sorted))])]

end Spool
end TmuxWorktree
