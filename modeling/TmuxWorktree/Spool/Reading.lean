import TmuxWorktree.Spool.Chunks
/-!
# Reading — the app reads what the host serves

Reading the canonical text of a record gives the record back, unless its model refuses it; so the frame of a chunk is read
as the chunk, and the model writes the same frame again.
-/
namespace TmuxWorktree
namespace Spool

open Sync

/-! ## Records -/

/-- Reading under a condition. -/
def when {α : Type} (p : α → Bool) (a : α) : Option α := if p a then some a else none

theorem mapM_when {α : Type} (p : α → Bool) (l : List α) : l.mapM (when p) = if l.all p then some l else none := by
  induction l with
  | nil => rfl
  | cons a l ih =>
    rw [List.mapM_cons, ih]
    cases hp : p a <;> cases hl : l.all p <;> simp [when, hp, hl]

theorem mapM_map {α β γ : Type} (f : β → Option γ) (g : α → β) (l : List α) : (l.map g).mapM f = l.mapM (f ∘ g) := by
  induction l with
  | nil => rfl
  | cons a l ih => rw [List.map_cons, List.mapM_cons, List.mapM_cons, ih, Function.comp]

theorem parseProject_wireMap (p : Project) : parseProject p.wireMap = when Project.ok p := by
  obtain ⟨name, path, branch⟩ := p
  cases branch <;> simp [parseProject, Project.wireMap, Json.get?, when]

theorem parseScope_wireMap (s : ScopeItem) :
    parseScope s.wireMap = if s.ok && s.projects.all Project.ok then some s else none := by
  have hprojects : (s.projects.map Project.wireMap).mapM parseProject =
      if s.projects.all Project.ok then some s.projects else none := by
    rw [mapM_map, ← mapM_when]
    exact congrArg (s.projects.mapM ·) (funext parseProject_wireMap)
  obtain ⟨scopeId, displayName, kind, reachability, projects⟩ := s
  unfold parseScope ScopeItem.wireMap
  cases hall : projects.all Project.ok <;> cases kind <;> cases reachability <;>
    simp [Json.get?, parseScopeKind, parseReachability, hprojects, hall]

theorem parseSession_wireMap (s : SessionItem) : parseSession s.wireMap = when SessionItem.ok s := by
  obtain ⟨scopeId, sessionId, kind, displayName, project, label, cwd, attached, windowCount, createdAtMs, activityAtMs⟩ := s
  unfold parseSession SessionItem.wireMap
  cases kind <;>
    simp [Json.get?, parseSessionKind, when]

theorem requireRelayV2Counter_toString (n : Nat) :
    requireRelayV2Counter (toString n) = if n ≤ unsignedCounterMax then some n else none := by
  have hread : Nat.ofDigitChars 10 (toString n).toList 0 = n := by
    rw [Nat.toString_eq_ofList_toDigits, String.toList_ofList]
    exact Nat.ofDigitChars_toDigits (by decide) (le_refl 10)
  unfold requireRelayV2Counter
  rw [hread]
  simp

/-- **A record is read back, unless its model refuses it.** -/
theorem parseSnapshotRecord_canonical (r : Record) : parseSnapshotRecord r.canonical = when Record.ok r := by
  cases r with
  | scope item =>
    have hget : parseSnapshotRecord (Record.scope item).canonical = (parseScope item.wireMap).map .scope := by
      simp [parseSnapshotRecord, Record.canonical, Json.get?, Option.map_eq_bind]
    rw [hget, parseScope_wireMap, when, Record.ok]
    split <;> rfl
  | sessionsScope scopeId revision =>
    have hget : parseSnapshotRecord (Record.sessionsScope scopeId revision).canonical =
        (requireRelayV2Counter (toString revision)).bind fun n =>
          if requireRelayV2Id scopeId then some (.sessionsScope scopeId n) else none := by
      simp [parseSnapshotRecord, Record.canonical, Json.get?]
    rw [hget, requireRelayV2Counter_toString, when, Record.ok]
    by_cases hid : requireRelayV2Id scopeId = true <;> by_cases hle : revision ≤ unsignedCounterMax <;> simp [hid, hle]
  | session item =>
    have hget : parseSnapshotRecord (Record.session item).canonical = (parseSession item.wireMap).bind fun read =>
        if requireRelayV2Id item.scopeId && item.scopeId = read.scopeId then some (.session read) else none := by
      simp [parseSnapshotRecord, Record.canonical, Json.get?]
    rw [hget, parseSession_wireMap, when, when, Record.ok]
    cases hok : item.ok with
    | false => rfl
    | true =>
      have hid : requireRelayV2Id item.scopeId = true := by
        simp only [SessionItem.ok, Bool.and_eq_true] at hok
        exact hok.1.1.1.1.1.1.1.1.1.1
      simp [hid]

theorem recordJson_eq (r : Record) : recordJson r = r.toWireMap := by cases r <;> rfl

theorem recordJson_sorted (r : Record) : (recordJson r).sorted = r.canonical := by rw [recordJson_eq, r.toWireMap_sorted]

/-! ## Chunks -/

/-- A served chunk on its way: who asked, and for what. -/
structure Delivery where
  context : Namespace
  requestId : String
  requestedCursor : Option String
  served : Served

namespace Delivery

variable (d : Delivery)

/-- The frame, as the host sends it. -/
def frame : Json := snapshotChunkFrame d.context.hostId d.requestId d.served

/-- The effect that the frame becomes in the app: it answers the request, whose snapshot id is not known for the first chunk. -/
def effect : ApplyStateSnapshotChunk where
  context := d.context
  requestId := d.requestId
  snapshotRequestId := d.served.snapshotRequestId
  snapshotId := if d.served.chunkIndex = 0 then none else some d.served.snapshotId
  requestedCursor := d.requestedCursor
  requestedChunkIndex := d.served.chunkIndex
  rawUtf8Bytes := d.frame.bytes
  frame := d.frame

def chunk : ChunkFields where
  «namespace» := d.context
  snapshotRequestId := d.served.snapshotRequestId
  snapshotId := d.served.snapshotId
  snapshotCreatedAtMs := d.served.snapshotCreatedAtMs
  snapshotLeaseExpiresAtMs := d.served.snapshotLeaseExpiresAtMs
  snapshotAbsoluteExpiresAtMs := d.served.snapshotAbsoluteExpiresAtMs
  chunkIndex := d.served.chunkIndex
  requestedCursor := d.requestedCursor
  isLast := d.served.isLast
  nextCursor := d.served.nextCursor
  throughEventSeq := d.served.throughEventSeq
  scopesRevision := d.served.scopesRevision
  totalRecords := d.served.totalRecords
  totalCanonicalBytes := d.served.totalCanonicalBytes
  cutDigest := d.served.cutDigest
  records := d.served.records
  rawUtf8Bytes := d.frame.bytes

/-- What the models of the app ask of the chunk. -/
def readable : Bool := d.served.records.all Record.ok && d.chunk.named && d.chunk.valid

theorem fields_eq : (d.effect.fields (.obj [("coverageComplete", .bool true),
      ("snapshotRequestId", .str d.served.snapshotRequestId), ("snapshotId", .str d.served.snapshotId),
      ("snapshotCreatedAtMs", .int d.served.snapshotCreatedAtMs),
      ("snapshotLeaseExpiresAtMs", .int d.served.snapshotLeaseExpiresAtMs),
      ("snapshotAbsoluteExpiresAtMs", .int d.served.snapshotAbsoluteExpiresAtMs), ("chunkIndex", .int d.served.chunkIndex),
      ("isLast", .bool d.served.isLast), ("nextCursor", .opt .str d.served.nextCursor),
      ("throughEventSeq", .name (toString d.served.throughEventSeq)),
      ("scopesRevision", .name (toString d.served.scopesRevision)), ("totalRecords", .int d.served.totalRecords),
      ("totalCanonicalBytes", .int d.served.totalCanonicalBytes), ("cutDigest", .str d.served.cutDigest),
      ("records", .arr (d.served.records.map fun r => (recordJson r).sorted))])) =
    if d.served.records.all Record.ok && d.served.throughEventSeq ≤ unsignedCounterMax &&
      d.served.scopesRevision ≤ unsignedCounterMax then some d.chunk else none := by
  have hrecords : (d.served.records.map fun r => (recordJson r).sorted).mapM parseSnapshotRecord =
      if d.served.records.all Record.ok then some d.served.records else none := by
    rw [mapM_map, ← mapM_when]
    refine congrArg (d.served.records.mapM ·) (funext fun r => ?_)
    rw [Function.comp, recordJson_sorted, parseSnapshotRecord_canonical]
  have hseq := requireRelayV2Counter_toString d.served.throughEventSeq
  have hrev := requireRelayV2Counter_toString d.served.scopesRevision
  unfold ApplyStateSnapshotChunk.fields
  cases hall : d.served.records.all Record.ok <;> rw [hall] at hrecords <;>
    by_cases h₁ : d.served.throughEventSeq ≤ unsignedCounterMax <;>
    by_cases h₂ : d.served.scopesRevision ≤ unsignedCounterMax <;>
    simp_all [Json.get?, chunk, effect]

/-- **The model writes the frame that came.** -/
theorem stringify_frame (hepoch : d.served.hostEpoch = d.context.hostEpoch) :
    stringify d.frame = stringify (d.chunk.toResponseFrame d.requestId) := by
  have hrecords : Json.sortedItems (d.served.records.map fun r => (recordJson r).sorted) =
      Json.sortedItems (d.served.records.map Record.toWireMap) := by
    rw [Json.sortedItems_eq, Json.sortedItems_eq, List.map_map, List.map_map]
    refine List.map_congr_left fun r _ => ?_
    rw [Function.comp, Function.comp, Json.sorted_sorted, recordJson_eq]
  rw [stringify_eq, stringify_eq]
  unfold frame snapshotChunkFrame ChunkFields.toResponseFrame
  simp only [Json.sorted, Json.sortedFields, hrecords, hepoch, chunk]

/-- **The frame is read as the chunk**, unless a model refuses it. -/
theorem read_eq (hepoch : d.served.hostEpoch = d.context.hostEpoch) (c : Chunk) :
    d.effect.toStateSnapshotChunk = some c ↔ d.readable = true ∧ c.toChunkFields = d.chunk := by
  have hcanonical : stringify d.effect.frame = stringify (d.chunk.toResponseFrame d.effect.requestId) :=
    d.stringify_frame hepoch
  have hids : (d.effect.frame.get? "requestId").bind Json.string? = some d.effect.requestId ∧
      (d.effect.frame.get? "hostId").bind Json.string? = some d.effect.context.hostId ∧
      (d.effect.frame.get? "hostEpoch").bind Json.string? = some d.effect.context.hostEpoch := by
    simp [effect, frame, snapshotChunkFrame, Json.get?, hepoch]
  have hsnapshot : d.effect.snapshotId.any (· ≠ d.chunk.snapshotId) = false := by
    unfold effect chunk
    split <;> simp
  have hcounters : d.chunk.valid = true →
      d.served.throughEventSeq ≤ unsignedCounterMax ∧ d.served.scopesRevision ≤ unsignedCounterMax := by
    intro hvalid
    simp only [ChunkFields.valid, Bool.and_eq_true, decide_eq_true_eq] at hvalid
    exact ⟨hvalid.1.1.1.1.1.1.2, hvalid.1.1.1.1.1.2⟩
  have hpayload : ∃ payload, d.effect.frame.get? "payload" = some payload ∧ d.effect.fields payload =
      if d.served.records.all Record.ok && d.served.throughEventSeq ≤ unsignedCounterMax &&
        d.served.scopesRevision ≤ unsignedCounterMax then some d.chunk else none :=
    ⟨_, by simp [effect, frame, snapshotChunkFrame, Json.get?], d.fields_eq⟩
  obtain ⟨payload, hget, hfields⟩ := hpayload
  unfold ApplyStateSnapshotChunk.toStateSnapshotChunk
  rw [hget]
  simp only [Option.bind_eq_bind, Option.bind_some]
  rw [hfields]
  by_cases hread : (d.served.records.all Record.ok && d.served.throughEventSeq ≤ unsignedCounterMax &&
      d.served.scopesRevision ≤ unsignedCounterMax) = true
  · rw [if_pos hread]
    simp only [Bool.and_eq_true, decide_eq_true_eq] at hread
    have hrequest : d.chunk.snapshotRequestId = d.effect.snapshotRequestId := rfl
    have hindex : d.chunk.chunkIndex = d.effect.requestedChunkIndex := rfl
    simp only [Option.bind_some, hids, hcanonical, hrequest, hindex, hsnapshot, readable, hread.1.1]
    cases hnamed : d.chunk.named with
    | false => simp
    | true =>
      by_cases hvalid : d.chunk.valid = true
      · rw [if_neg (by simp), dif_pos hvalid]
        simp only [Option.some.injEq, hvalid, Bool.and_self, true_and]
        constructor
        · rintro rfl
          rfl
        · intro hc
          obtain ⟨fields, ok⟩ := c
          cases hc
          rfl
      · simp [hvalid]
  · rw [if_neg hread]
    simp only [Option.bind_none, reduceCtorEq, false_iff, not_and]
    intro hreadable
    simp only [readable, Bool.and_eq_true] at hreadable
    have := hcounters hreadable.2
    simp [hreadable.1.1, this] at hread

end Delivery

end Spool
end TmuxWorktree
