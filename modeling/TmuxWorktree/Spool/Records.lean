import TmuxWorktree.Sync.Wire
/-!
# Records — the cut that the host makes of its materialized state (`resourceState.ts`, `stateSnapshotSpool.ts`)

A cut lists each scope, its sessions_scope record and its sessions, by the bytes of their ids.  The spool checks the order
again before it writes the cut.
-/
namespace TmuxWorktree
namespace Spool

open Sync (ScopeItem SessionItem Project Record)

/-! ## Canonical texts -/

/-- `UnicodeEscape` of ECMAScript: four hexadecimal digits. -/
def unicodeEscape (n : Nat) : List Char := '\\' :: 'u' :: (Nat.toDigits 16 n).leftpad 4 '0'

/-- `QuoteJSONString` of ECMAScript, for one code point. -/
def quoteCodePoint (c : Char) : List Char :=
  if c.toNat = 0x08 then ['\\', 'b']
  else if c.toNat = 0x09 then ['\\', 't']
  else if c.toNat = 0x0A then ['\\', 'n']
  else if c.toNat = 0x0C then ['\\', 'f']
  else if c.toNat = 0x0D then ['\\', 'r']
  else if c = '"' then ['\\', '"']
  else if c = '\\' then ['\\', '\\']
  else if c.toNat < 0x20 then unicodeEscape c.toNat
  else [c]

/-- `JSON.stringify` of a string. -/
def quoteString (s : String) : String := Json.named (String.ofList (s.toList.flatMap quoteCodePoint))

mutual

/-- **`canonicalizeRelayV2MaterializedJson`.**  A string with a lone surrogate is no string here; the source throws. -/
def canonicalize : Json → String
  | .null => "null"
  | .bool b => if b then "true" else "false"
  | .int n => toString n
  | .str s => quoteString s
  | .name s => Json.named s
  | .arr items => "[" ++ Json.commas (canonicalizeItems items) ++ "]"
  | .obj fields =>
    "\x7b" ++ Json.commas ((Json.byKey (canonicalizeFields fields)).map fun f => Json.named f.1 ++ ":" ++ f.2) ++ "\x7d"

def canonicalizeItems : List Json → List String
  | [] => []
  | v :: rest => canonicalize v :: canonicalizeItems rest

def canonicalizeFields : List (String × Json) → List (String × String)
  | [] => []
  | (key, v) :: rest => (key, canonicalize v) :: canonicalizeFields rest

end

theorem quoteCodePoint_eq (c : Char) : quoteCodePoint c = Json.escape c := by
  have hquote : c = '"' ↔ c.toNat = 0x22 := by
    rw [← Char.toNat_inj]
    rfl
  have hslash : c = '\\' ↔ c.toNat = 0x5C := by
    rw [← Char.toNat_inj]
    rfl
  have hpad : ∀ n < 0x20, unicodeEscape n = ['\\', 'u', '0', '0', Json.hexDigit (n / 16), Json.hexDigit (n % 16)] := by
    decide
  rw [Json.escape_eq]
  unfold quoteCodePoint
  simp only [hquote, hslash]
  by_cases hlt : c.toNat < 0x20
  · have h₁ : c.toNat ≠ 0x22 := by omega
    have h₂ : c.toNat ≠ 0x5C := by omega
    simp only [hlt, hpad c.toNat hlt, h₁, h₂, if_false]
  · have h₁ : c.toNat ≠ 0x08 := by omega
    have h₂ : c.toNat ≠ 0x09 := by omega
    have h₃ : c.toNat ≠ 0x0A := by omega
    have h₄ : c.toNat ≠ 0x0C := by omega
    have h₅ : c.toNat ≠ 0x0D := by omega
    simp only [hlt, h₁, h₂, h₃, h₄, h₅, if_false]

theorem quoteString_eq (s : String) : quoteString s = Json.quoted s := by
  unfold quoteString Json.quoted
  rw [show quoteCodePoint = Json.escape from funext quoteCodePoint_eq]

mutual

/-- **The host writes the canonical text.** -/
theorem canonicalize_eq : ∀ v : Json, canonicalize v = v.sorted.text
  | .null | .bool _ | .int _ | .name _ => rfl
  | .str s => by rw [canonicalize, Json.sorted, Json.text, quoteString_eq]
  | .arr items => by
    rw [canonicalize, Json.sorted, Json.text, canonicalizeItems_eq, Json.textItems_eq, Json.sortedItems_eq, List.map_map]
    rfl
  | .obj fields => by
    rw [canonicalize, Json.sorted, Json.text, canonicalizeFields_eq, Json.textFields_eq, Json.byKey_map, List.map_map]
    rfl

theorem canonicalizeItems_eq : ∀ items : List Json, canonicalizeItems items = items.map fun v => v.sorted.text
  | [] => rfl
  | v :: rest => by rw [canonicalizeItems, canonicalize_eq v, canonicalizeItems_eq rest, List.map_cons]

theorem canonicalizeFields_eq : ∀ fields : List (String × Json),
    canonicalizeFields fields = (Json.sortedFields fields).map (Prod.map id Json.text)
  | [] => rfl
  | (k, v) :: rest => by
    rw [canonicalizeFields, canonicalize_eq v, canonicalizeFields_eq rest, Json.sortedFields, List.map_cons, Prod.map, id]

end

/-! ## The objects of the records -/

/-- A project as `normalizeProjects` builds it. -/
def projectJson (p : Project) : Json :=
  .obj ([("name", .str p.name), ("path", .str p.path)] ++ (p.branch.map fun b => ("branch", Json.str b)).toList)

def scopeJson (s : ScopeItem) : Json :=
  .obj [("scopeId", .str s.scopeId), ("displayName", .str s.displayName), ("kind", .name s.kind.wireValue),
    ("reachability", .name s.reachability.wireValue), ("projects", .arr (s.projects.map projectJson))]

def sessionJson (s : SessionItem) : Json :=
  .obj [("scopeId", .str s.scopeId), ("sessionId", .str s.sessionId), ("kind", .name s.kind.wireValue),
    ("displayName", .str s.displayName), ("state", .name "running"), ("project", .opt .str s.project),
    ("label", .opt .str s.label), ("cwd", .opt .str s.cwd), ("attached", .bool s.attached),
    ("windowCount", .int s.windowCount), ("createdAtMs", .int s.createdAtMs), ("activityAtMs", .int s.activityAtMs)]

/-- A `RelayV2MaterializedStateCutRecord`. -/
def recordJson : Record → Json
  | .scope item => .obj [("recordType", .name "scope"), ("item", scopeJson item)]
  | .sessionsScope scopeId revision =>
    .obj [("recordType", .name "sessions_scope"), ("scopeId", .str scopeId), ("revision", .name (toString revision)),
      ("completeness", .name "complete")]
  | .session item => .obj [("recordType", .name "session"), ("scopeId", .str item.scopeId), ("item", sessionJson item)]

def canonicalRecord (r : Record) : String := canonicalize (recordJson r)

/-- **The host and the app write the same text for a record.** -/
theorem canonicalRecord_eq (r : Record) : canonicalRecord r = r.canonical.text := by
  have hobject : recordJson r = r.toWireMap := by cases r <;> rfl
  rw [canonicalRecord, canonicalize_eq, hobject, r.toWireMap_sorted]

/-! ## The materialized state -/

structure MaterializedScope where
  item : ScopeItem
  sessions : List SessionItem
  deriving DecidableEq, Repr

/-- What a cut reads of the persisted state and of the counters beside it. -/
structure MaterializedFields where
  hostEpoch : String
  eventSeq : Nat
  scopesRevision : Nat
  sessionsRevision : String → Nat
  scopes : List MaterializedScope

def assertString (value : String) (maxBytes : Nat) : Bool :=
  value ≠ "" && value.utf8ByteSize ≤ maxBytes && !Sync.hasNul value

/-- The pattern of an issued id: its prefix and 32 hexadecimal digits. -/
def issued (head value : String) : Bool :=
  value.toList.take head.toList.length = head.toList && (value.toList.drop head.toList.length).length = 32 &&
    (value.toList.drop head.toList.length).all fun c => ('0' ≤ c && c ≤ '9') || ('a' ≤ c && c ≤ 'f')

/-- `normalizeProjects`, as a check. -/
def validProjects (projects : List Project) : Bool :=
  projects.length ≤ 256 &&
    projects.all (fun p => assertString p.name 128 && assertString p.path 4096 && p.branch.all fun b => assertString b 255) &&
    decide (projects.map Project.name).Nodup

def validateScope (s : ScopeItem) : Bool :=
  assertString s.scopeId 128 && assertString s.displayName 128 && validProjects s.projects

def validateSession (s : SessionItem) (scopeId : String) : Bool :=
  assertString s.scopeId 128 && assertString s.sessionId 128 && assertString s.displayName 128 && s.scopeId = scopeId &&
    s.windowCount ≤ Sync.maxJsonInteger && s.createdAtMs ≤ Sync.maxJsonInteger && s.activityAtMs ≤ Sync.maxJsonInteger &&
    s.project.all (assertString · 128) && s.label.all (assertString · 128) && s.cwd.all (assertString · 4096) &&
    (match s.kind with
    | .worktree => s.project.isSome && s.cwd.isSome
    | .terminal => s.label.isSome && s.cwd.isSome)

/-- What `parseMaterializedState` asks of the scopes and the sessions, and `parseHostState` of the counters. -/
def MaterializedFields.valid (m : MaterializedFields) : Bool :=
  m.eventSeq ≤ Sync.unsignedCounterMax && m.scopesRevision ≤ Sync.unsignedCounterMax &&
    m.scopes.all (fun scope => m.sessionsRevision scope.item.scopeId ≤ Sync.unsignedCounterMax) &&
    m.scopes.all (fun scope => validateScope scope.item && issued "scope_" scope.item.scopeId &&
    scope.sessions.all fun s => validateSession s scope.item.scopeId && issued "ses_" s.sessionId) &&
    decide (m.scopes.map fun scope => scope.item.scopeId).Nodup &&
    decide (m.scopes.flatMap fun scope => scope.sessions.map SessionItem.sessionId).Nodup

/-- **A materialized state that the host can hold.** -/
structure MaterializedState extends MaterializedFields where
  ok : toMaterializedFields.valid = true

/-! ## The cut -/

/-- `utf8Compare`: `Buffer.compare` of the bytes. -/
def utf8Compare (left right : String) : Ordering := compareOfLessAndEq left.toUTF8.data.toList right.toUTF8.data.toList

/-- `RelayV2MaterializedStateCut`. -/
structure Cut where
  hostEpoch : String
  throughEventSeq : Nat
  scopesRevision : Nat
  records : List Record
  deriving DecidableEq, Repr

def MaterializedScope.records (scope : MaterializedScope) (revision : Nat) : List Record :=
  .scope scope.item :: .sessionsScope scope.item.scopeId revision ::
    (scope.sessions.insertionSort fun a b => (utf8Compare a.sessionId b.sessionId).isLE).map .session

/-- **`projectMaterializedStateCut`.** -/
def projectMaterializedStateCut (m : MaterializedFields) : Cut where
  hostEpoch := m.hostEpoch
  throughEventSeq := m.eventSeq
  scopesRevision := m.scopesRevision
  records := (m.scopes.insertionSort fun a b => (utf8Compare a.item.scopeId b.item.scopeId).isLE).flatMap fun scope =>
    scope.records (m.sessionsRevision scope.item.scopeId)

/-! ## The order of the records -/

structure RecordOrder where
  currentScope : Option String := none
  lastScope : Option String := none
  lastSession : Option String := none
  sawSessionsScope : Bool := false
  deriving DecidableEq, Repr

/-- `acceptRecordOrder`, whose checks of the record's own keys hold of a `Record`. -/
def acceptRecordOrder (state : RecordOrder) : Record → Option RecordOrder
  | .scope item =>
    if (state.currentScope.isSome && !state.sawSessionsScope) ||
        state.lastScope.any (fun last => (utf8Compare last item.scopeId).isGE) then none
    else some { currentScope := some item.scopeId, lastScope := some item.scopeId }
  | .sessionsScope scopeId _ =>
    if state.currentScope.isNone || state.sawSessionsScope || state.currentScope ≠ some scopeId then none
    else some { state with sawSessionsScope := true }
  | .session item =>
    if state.currentScope.isNone || !state.sawSessionsScope || state.currentScope ≠ some item.scopeId ||
        state.lastSession.any (fun last => (utf8Compare last item.sessionId).isGE) then none
    else some { state with lastSession := some item.sessionId }

def finishRecordOrder (state : RecordOrder) : Bool := state.currentScope.isNone || state.sawSessionsScope

/-- **`validateRecordStream`.** -/
def validateRecordStream (records : List Record) : Bool :=
  (records.foldlM acceptRecordOrder {}).any finishRecordOrder

end Spool
end TmuxWorktree
