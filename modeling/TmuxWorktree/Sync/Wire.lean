import TmuxWorktree.Lib.JsonKeys
import TmuxWorktree.Sync.Snapshot
/-!
# Wire — records on the wire (`RelayV2RecoveryRepositoryAdapter.kt`, `RelayV2CanonicalJson.kt`)

The app reads each record of a chunk into its own model and writes the model again: the text that it counts and digests is
not the text that came.
-/
namespace TmuxWorktree
namespace Sync

/-! ## Canonical texts -/

/-- The digits of `toString(16).padStart(4, '0')`. -/
def padStart4 (n : Nat) : List Char := (Nat.toDigits 16 n).leftpad 4 '0'

/-- One turn of the loop of `appendString`; a pair of surrogates is one character here. -/
def appendCharacter (character : Char) : List Char :=
  if character = '"' then ['\\', '"']
  else if character = '\\' then ['\\', '\\']
  else if character.toNat = 0x08 then ['\\', 'b']
  else if character.toNat = 0x09 then ['\\', 't']
  else if character.toNat = 0x0A then ['\\', 'n']
  else if character.toNat = 0x0C then ['\\', 'f']
  else if character.toNat = 0x0D then ['\\', 'r']
  else if character.toNat < 0x20 then '\\' :: 'u' :: padStart4 character.toNat
  else [character]

def appendString (value : String) : String := Json.named (String.ofList (value.toList.flatMap appendCharacter))

mutual

/-- **`RelayV2CanonicalJson.stringify`.** -/
def stringify : Json → String
  | .null => "null"
  | .bool b => if b then "true" else "false"
  | .int n => toString n
  | .str s => appendString s
  | .name s => Json.named s
  | .arr items => "[" ++ Json.commas (stringifyItems items) ++ "]"
  | .obj fields =>
    "\x7b" ++ Json.commas ((Json.byKey (stringifyFields fields)).map fun f => Json.named f.1 ++ ":" ++ f.2) ++ "\x7d"

def stringifyItems : List Json → List String
  | [] => []
  | v :: rest => stringify v :: stringifyItems rest

def stringifyFields : List (String × Json) → List (String × String)
  | [] => []
  | (key, item) :: rest => (key, stringify item) :: stringifyFields rest

end

theorem appendCharacter_eq (c : Char) : appendCharacter c = Json.escape c := by
  have hquote : c = '"' ↔ c.toNat = 0x22 := by
    rw [← Char.toNat_inj]
    rfl
  have hslash : c = '\\' ↔ c.toNat = 0x5C := by
    rw [← Char.toNat_inj]
    rfl
  have hpad : ∀ n < 0x20, '\\' :: 'u' :: padStart4 n =
      ['\\', 'u', '0', '0', Json.hexDigit (n / 16), Json.hexDigit (n % 16)] := by
    decide
  rw [Json.escape_eq]
  unfold appendCharacter
  simp only [hquote, hslash]
  by_cases hlt : c.toNat < 0x20
  · simp only [hlt, hpad c.toNat hlt]
  · simp only [hlt, if_false]

theorem appendString_eq (s : String) : appendString s = Json.quoted s := by
  unfold appendString Json.quoted
  rw [show appendCharacter = Json.escape from funext appendCharacter_eq]

mutual

/-- **The app writes the canonical text.** -/
theorem stringify_eq : ∀ v : Json, stringify v = v.sorted.text
  | .null | .bool _ | .int _ | .name _ => rfl
  | .str s => by rw [stringify, Json.sorted, Json.text, appendString_eq]
  | .arr items => by
    rw [stringify, Json.sorted, Json.text, stringifyItems_eq, Json.textItems_eq, Json.sortedItems_eq, List.map_map]
    rfl
  | .obj fields => by
    rw [stringify, Json.sorted, Json.text, stringifyFields_eq, Json.textFields_eq, Json.byKey_map, List.map_map]
    rfl

theorem stringifyItems_eq : ∀ items : List Json, stringifyItems items = items.map fun v => v.sorted.text
  | [] => rfl
  | v :: rest => by rw [stringifyItems, stringify_eq v, stringifyItems_eq rest, List.map_cons]

theorem stringifyFields_eq : ∀ fields : List (String × Json),
    stringifyFields fields = (Json.sortedFields fields).map (Prod.map id Json.text)
  | [] => rfl
  | (k, v) :: rest => by
    rw [stringifyFields, stringify_eq v, stringifyFields_eq rest, Json.sortedFields, List.map_cons, Prod.map, id]

end

/-! ## Writing the model -/

def ScopeKind.wireValue : ScopeKind → String
  | .local => "local"
  | .ssh => "ssh"

def Reachability.wireValue : Reachability → String
  | .online => "online"
  | .unreachable => "unreachable"

def SessionKind.wireValue : SessionKind → String
  | .worktree => "worktree"
  | .terminal => "terminal"

def Project.toWireMap (p : Project) : Json :=
  .obj ([("name", .str p.name), ("path", .str p.path)] ++ (p.branch.map fun b => ("branch", Json.str b)).toList)

def ScopeItem.toWireMap (s : ScopeItem) : Json :=
  .obj [("scopeId", .str s.scopeId), ("displayName", .str s.displayName), ("kind", .name s.kind.wireValue),
    ("reachability", .name s.reachability.wireValue), ("projects", .arr (s.projects.map Project.toWireMap))]

def SessionItem.toWireMap (s : SessionItem) : Json :=
  .obj [("scopeId", .str s.scopeId), ("sessionId", .str s.sessionId), ("kind", .name s.kind.wireValue),
    ("displayName", .str s.displayName), ("state", .name "running"), ("project", .opt .str s.project),
    ("label", .opt .str s.label), ("cwd", .opt .str s.cwd), ("attached", .bool s.attached),
    ("windowCount", .int s.windowCount), ("createdAtMs", .int s.createdAtMs), ("activityAtMs", .int s.activityAtMs)]

def Record.toWireMap : Record → Json
  | .scope item => .obj [("recordType", .name "scope"), ("item", item.toWireMap)]
  | .sessionsScope scopeId revision =>
    .obj [("recordType", .name "sessions_scope"), ("scopeId", .str scopeId), ("revision", .name (toString revision)),
      ("completeness", .name "complete")]
  | .session item =>
    .obj [("recordType", .name "session"), ("scopeId", .str item.scopeId), ("item", item.toWireMap)]

def Record.canonicalJson (r : Record) : String := stringify r.toWireMap

theorem sorted_opt (o : Option String) : (Json.opt Json.str o).sorted = Json.opt Json.str o := by
  cases o <;> rfl

theorem Project.toWireMap_sorted (p : Project) : p.toWireMap.sorted = p.wireMap := by
  obtain ⟨name, path, branch⟩ := p
  cases branch <;> simp [toWireMap, wireMap, Json.sorted, Json.sortedFields, Json.byKey]

theorem ScopeItem.toWireMap_sorted (s : ScopeItem) : s.toWireMap.sorted = s.wireMap := by
  have hprojects : Json.sortedItems (s.projects.map Project.toWireMap) = s.projects.map Project.wireMap := by
    rw [Json.sortedItems_eq, List.map_map]
    exact List.map_congr_left fun p _ => p.toWireMap_sorted
  obtain ⟨scopeId, displayName, kind, reachability, projects⟩ := s
  cases kind <;> cases reachability <;>
    simp [toWireMap, wireMap, Json.sorted, Json.sortedFields, Json.byKey, ScopeKind.wireValue, Reachability.wireValue] <;>
    exact hprojects

theorem SessionItem.toWireMap_sorted (s : SessionItem) : s.toWireMap.sorted = s.wireMap := by
  obtain ⟨scopeId, sessionId, kind, displayName, project, label, cwd, attached, windowCount, createdAtMs, activityAtMs⟩ := s
  cases kind <;>
    simp [toWireMap, wireMap, Json.sorted, Json.sortedFields, Json.byKey, SessionKind.wireValue, sorted_opt]

theorem Record.toWireMap_sorted (r : Record) : r.toWireMap.sorted = r.canonical := by
  cases r with
  | scope item => simp [toWireMap, canonical, Json.sorted, Json.sortedFields, Json.byKey, item.toWireMap_sorted]
  | sessionsScope scopeId revision => simp [toWireMap, canonical, Json.sorted, Json.sortedFields, Json.byKey]
  | session item => simp [toWireMap, canonical, Json.sorted, Json.sortedFields, Json.byKey, item.toWireMap_sorted]

/-- **What the app writes for a record is its canonical text.** -/
theorem Record.canonicalJson_eq (r : Record) : r.canonicalJson = r.canonical.text := by
  rw [canonicalJson, stringify_eq, toWireMap_sorted]

/-! ## What the models check -/

/-- `Char.isWhitespace`. -/
def isWhitespace (c : Char) : Bool :=
  (0x09 ≤ c.toNat && c.toNat ≤ 0x0D) || (0x1C ≤ c.toNat && c.toNat ≤ 0x1F) || (0x2000 ≤ c.toNat && c.toNat ≤ 0x200A) ||
    [0x20, 0xA0, 0x1680, 0x2028, 0x2029, 0x202F, 0x205F, 0x3000].contains c.toNat

def hasNul (value : String) : Bool := value.toList.contains (Char.ofNat 0)

def trimmed (cs : List Char) : List Char := ((cs.dropWhile isWhitespace).reverse.dropWhile isWhitespace).reverse

def requireRelayV2Id (value : String) : Bool :=
  !value.toList.all isWhitespace && trimmed value.toList = value.toList && !hasNul value && value.utf8ByteSize ≤ 128

/-- `init` of `RelayV2ProjectResource`. -/
def Project.ok (p : Project) : Bool :=
  p.name ≠ "" && p.name.utf8ByteSize ≤ 128 && p.path ≠ "" && p.path.utf8ByteSize ≤ 4096 &&
    p.branch.all (fun b => b ≠ "" && b.utf8ByteSize ≤ 255 && !hasNul b) && !hasNul p.name && !hasNul p.path

/-- `init` of `RelayV2ScopeResource`. -/
def ScopeItem.ok (s : ScopeItem) : Bool :=
  requireRelayV2Id s.scopeId && s.displayName.utf8ByteSize ≤ 128 && !hasNul s.displayName && s.projects.length ≤ 256 &&
    (s.projects.map Project.name).dedup.length = s.projects.length

/-- `init` of `RelayV2SessionResource`. -/
def SessionItem.ok (s : SessionItem) : Bool :=
  requireRelayV2Id s.scopeId && requireRelayV2Id s.sessionId && s.displayName.utf8ByteSize ≤ 128 &&
    s.windowCount ≤ maxJsonInteger && s.createdAtMs ≤ maxJsonInteger && s.activityAtMs ≤ maxJsonInteger &&
    s.project.all (fun t => t.utf8ByteSize ≤ 128 && !hasNul t) && s.label.all (fun t => t.utf8ByteSize ≤ 128 && !hasNul t) &&
    s.cwd.all (fun t => t.utf8ByteSize ≤ 4096 && !hasNul t) && !hasNul s.displayName &&
    (match s.kind with
    | .worktree => s.project.any (· ≠ "") && s.cwd.any (· ≠ "")
    | .terminal => s.label.any (· ≠ "") && s.cwd.any (· ≠ ""))

/-- `requireRelayV2Counter`, with the value of the counter. -/
def requireRelayV2Counter (value : String) : Option Nat :=
  let n := Nat.ofDigitChars 10 value.toList 0
  if toString n = value && n ≤ unsignedCounterMax then some n else none

/-! ## Reading a record -/

def parseProject (project : Json) : Option Project := do
  let name ← (← project.get? "name").string?
  let path ← (← project.get? "path").string?
  let p : Project := ⟨name, path, (project.get? "branch").bind Json.string?⟩
  if p.ok then some p else none

def parseScopeKind : String → Option ScopeKind
  | "local" => some .local
  | "ssh" => some .ssh
  | _ => none

def parseReachability : String → Option Reachability
  | "online" => some .online
  | "unreachable" => some .unreachable
  | _ => none

def parseSessionKind : String → Option SessionKind
  | "worktree" => some .worktree
  | "terminal" => some .terminal
  | _ => none

def parseScope (item : Json) : Option ScopeItem := do
  let scopeId ← (← item.get? "scopeId").string?
  let displayName ← (← item.get? "displayName").string?
  let kind ← parseScopeKind (← (← item.get? "kind").string?)
  let reachability ← parseReachability (← (← item.get? "reachability").string?)
  let projects ← (← (← item.get? "projects").items?).mapM parseProject
  let s : ScopeItem := ⟨scopeId, displayName, kind, reachability, projects⟩
  if s.ok then some s else none

def parseSession (item : Json) : Option SessionItem := do
  let scopeId ← (← item.get? "scopeId").string?
  let sessionId ← (← item.get? "sessionId").string?
  let kind ← parseSessionKind (← (← item.get? "kind").string?)
  let displayName ← (← item.get? "displayName").string?
  let attached ← (← item.get? "attached").bool?
  let windowCount ← (← item.get? "windowCount").int?
  let createdAtMs ← (← item.get? "createdAtMs").int?
  let activityAtMs ← (← item.get? "activityAtMs").int?
  let s : SessionItem :=
    { scopeId := scopeId, sessionId := sessionId, kind := kind, displayName := displayName
      project := (item.get? "project").bind Json.string?, label := (item.get? "label").bind Json.string?
      cwd := (item.get? "cwd").bind Json.string?, attached := attached, windowCount := windowCount
      createdAtMs := createdAtMs, activityAtMs := activityAtMs }
  if s.ok then some s else none

/-- **`parseSnapshotRecord`.** -/
def parseSnapshotRecord (record : Json) : Option Record := do
  match ← (← record.get? "recordType").string? with
  | "scope" =>
    let item ← parseScope (← record.get? "item")
    return .scope item
  | "sessions_scope" =>
    let scopeId ← (← record.get? "scopeId").string?
    let revision ← requireRelayV2Counter (← (← record.get? "revision").string?)
    if requireRelayV2Id scopeId then return .sessionsScope scopeId revision else none
  | "session" =>
    let scopeId ← (← record.get? "scopeId").string?
    let item ← parseSession (← record.get? "item")
    if requireRelayV2Id scopeId && scopeId = item.scopeId then return .session item else none
  | _ => none

/-- What the models ask of a record. -/
def Record.ok : Record → Bool
  | .scope item => item.ok && item.projects.all Project.ok
  | .sessionsScope scopeId revision => requireRelayV2Id scopeId && revision ≤ unsignedCounterMax
  | .session item => item.ok

/-! ## Reading a chunk -/

def canonicalSha256 (value : String) : Bool :=
  value.toList.length = 43 && value.toList.all fun c =>
    ('A' ≤ c && c ≤ 'Z') || ('a' ≤ c && c ≤ 'z') || ('0' ≤ c && c ≤ '9') || c = '_' || c = '-'

/-- What `init` of `RelayV2SnapshotChunk` asks of the ids and of the digest. -/
def ChunkFields.named (c : ChunkFields) : Bool :=
  requireRelayV2Id c.snapshotRequestId && requireRelayV2Id c.snapshotId && canonicalSha256 c.cutDigest

def ChunkFields.toResponseFrame (c : ChunkFields) (requestId : String) : Json :=
  .obj [("protocolVersion", .int 2), ("kind", .name "response"), ("type", .name "state.snapshot.chunk"),
    ("requestId", .str requestId), ("hostId", .str c.namespace.hostId), ("hostEpoch", .str c.namespace.hostEpoch),
    ("payload", .obj [("coverageComplete", .bool true), ("snapshotRequestId", .str c.snapshotRequestId),
      ("snapshotId", .str c.snapshotId), ("snapshotCreatedAtMs", .int c.snapshotCreatedAtMs),
      ("snapshotLeaseExpiresAtMs", .int c.snapshotLeaseExpiresAtMs),
      ("snapshotAbsoluteExpiresAtMs", .int c.snapshotAbsoluteExpiresAtMs), ("chunkIndex", .int c.chunkIndex),
      ("isLast", .bool c.isLast), ("nextCursor", .opt .str c.nextCursor),
      ("throughEventSeq", .name (toString c.throughEventSeq)), ("scopesRevision", .name (toString c.scopesRevision)),
      ("totalRecords", .int c.totalRecords), ("totalCanonicalBytes", .int c.totalCanonicalBytes),
      ("cutDigest", .str c.cutDigest), ("records", .arr (c.records.map Record.toWireMap))])]

/-- `RelayV2RuntimeEffect.ApplyStateSnapshotChunk`: a frame, and the request that it answers. -/
structure ApplyStateSnapshotChunk where
  context : Namespace
  requestId : String
  snapshotRequestId : String
  snapshotId : Option String
  requestedCursor : Option String
  requestedChunkIndex : Nat
  rawUtf8Bytes : Nat
  frame : Json

def ApplyStateSnapshotChunk.fields (e : ApplyStateSnapshotChunk) (payload : Json) : Option ChunkFields := do
  let records ← (← (← payload.get? "records").items?).mapM parseSnapshotRecord
  return {
    «namespace» := e.context
    snapshotRequestId := ← (← payload.get? "snapshotRequestId").string?
    snapshotId := ← (← payload.get? "snapshotId").string?
    snapshotCreatedAtMs := ← (← payload.get? "snapshotCreatedAtMs").int?
    snapshotLeaseExpiresAtMs := ← (← payload.get? "snapshotLeaseExpiresAtMs").int?
    snapshotAbsoluteExpiresAtMs := ← (← payload.get? "snapshotAbsoluteExpiresAtMs").int?
    chunkIndex := ← (← payload.get? "chunkIndex").int?
    requestedCursor := e.requestedCursor
    isLast := ← (← payload.get? "isLast").bool?
    nextCursor := (payload.get? "nextCursor").bind Json.string?
    throughEventSeq := ← requireRelayV2Counter (← (← payload.get? "throughEventSeq").string?)
    scopesRevision := ← requireRelayV2Counter (← (← payload.get? "scopesRevision").string?)
    totalRecords := ← (← payload.get? "totalRecords").int?
    totalCanonicalBytes := ← (← payload.get? "totalCanonicalBytes").int?
    cutDigest := ← (← payload.get? "cutDigest").string?
    records := records
    rawUtf8Bytes := e.rawUtf8Bytes }

/-- **`toStateSnapshotChunk`**: the frame must be the one that the model writes again. -/
def ApplyStateSnapshotChunk.toStateSnapshotChunk (e : ApplyStateSnapshotChunk) : Option Chunk := do
  let payload ← e.frame.get? "payload"
  let c ← e.fields payload
  if (e.frame.get? "requestId").bind Json.string? ≠ some e.requestId ||
      (e.frame.get? "hostId").bind Json.string? ≠ some e.context.hostId ||
      (e.frame.get? "hostEpoch").bind Json.string? ≠ some e.context.hostEpoch ||
      c.snapshotRequestId ≠ e.snapshotRequestId || c.chunkIndex ≠ e.requestedChunkIndex ||
      e.snapshotId.any (· ≠ c.snapshotId) || !c.named || stringify e.frame ≠ stringify (c.toResponseFrame e.requestId) then
    none
  else if h : c.valid = true then some ⟨c, h⟩ else none

end Sync
end TmuxWorktree
