import TmuxWorktree.Frames.RoundTrip
import TmuxWorktree.Codec.Schema
import TmuxWorktree.Request.Parser
/-!
# Schema — the validator of `scopes.snapshot` (`codecSchema.ts`)

Of `validateRelayV2PublicFrame` the case `scopes.snapshot` is here; what it does with frames of other types is a
parameter.
-/
namespace TmuxWorktree
namespace Frames

open Utf16 Grammar
open Strict (Within)
open Codec (StringOptions outerOptions nameOptions idOptions)

namespace Schema

abbrev Check (α : Type) := Except Codec.FailureClass α

def rejectIf (c : Bool) (failureClass : Codec.FailureClass) : Check Unit := if c then throw failureClass else return ()

/-! ## Helpers (`codecSchemaHelpers.ts`) -/

def object : Value → Check Record
  | .object fields => return fields
  | .null => throw .forbiddenNull
  | _ => throw .typeCoercion

def exact (value : Record) (required optional : List String) : Check Unit := do
  rejectIf (!required.all fun key => (Request.field value key).isSome) .missingField
  rejectIf (!value.all fun f => (required ++ optional).any fun key => f.1 = ofString key) .unknownField

def field (value : Record) (name : String) : Check Value :=
  match Request.field value name with
  | some v => return v
  | none => throw .missingField

/-- `String.prototype.trim`. -/
def trim (s : Text) : Text := ((s.dropWhile Codec.Ts.isSpace).reverse.dropWhile Codec.Ts.isSpace).reverse

/-- `stringValue`, of the codec that leaves unpaired surrogates alone. -/
def stringValue (options : StringOptions) : Value → Check Text
  | .string s => do
    rejectIf (!options.allowEmpty && s.isEmpty) .invalidArgument
    rejectIf (!options.allowNul && s.any fun c => c.val = 0) .invalidArgument
    rejectIf (!options.allowOuterWhitespace && trim s ≠ s) .invalidArgument
    rejectIf (options.maxBytes.any fun max => max < utf8Length 3 s) .idByteLimit
    rejectIf (options.maxCharacters.any fun max => max < (characters s).length) .invalidArgument
    return s
  | .null => throw .forbiddenNull
  | _ => throw .typeCoercion

def id (v : Value) : Check Text := stringValue idOptions v

def booleanValue : Value → Check Bool
  | .bool b => return b
  | .null => throw .forbiddenNull
  | _ => throw .typeCoercion

def nullValue : Value → Check Unit
  | .null => return ()
  | _ => throw .schemaMismatch

/-- `literal`, of a string. -/
def literal (v : Value) (expected : String) : Check Unit :=
  match v with
  | .string s => rejectIf (s ≠ ofString expected) .schemaMismatch
  | .null => throw .forbiddenNull
  | _ => throw .schemaMismatch

/-- The number `2`. -/
def two : Binary64 := ⟨false, 1024 * Binary64.hidden, by decide⟩

def literalTwo : Value → Check Unit
  | .number d => rejectIf (d ≠ two) .schemaMismatch
  | .null => throw .forbiddenNull
  | _ => throw .schemaMismatch

def oneOf (allowed : List String) : Value → Check Text
  | .string s => do
    rejectIf (!allowed.any fun name => ofString name = s) .schemaMismatch
    return s
  | .null => throw .forbiddenNull
  | _ => throw .typeCoercion

/-- The loop of `array`. -/
def each (validator : Value → Check Unit) : List Value → Check Unit
  | [] => return ()
  | item :: items => do
    validator item
    each validator items

def array (validator : Value → Check Unit) (maximum : Nat) : Value → Check Unit
  | .array items => do
    rejectIf (maximum < items.length) .invalidArgument
    each validator items
  | .null => throw .forbiddenNull
  | _ => throw .typeCoercion

def uint64Max : Nat := 18446744073709551615

def counter : Value → Check Text
  | .string s => do
    rejectIf (!Request.isDecimal s) .nonCanonicalCounter
    rejectIf (uint64Max < digits s) .counterOverflow
    return s
  | .null => throw .forbiddenNull
  | _ => throw .typeCoercion

/-- The check of a field that need not be there. -/
def ifPresent (value : Record) (name : String) (check : Value → Check Text) : Check Unit :=
  match Request.field value name with
  | some v => do
    let _ ← check v
  | none => return ()

/-! ## Frames -/

def validateProject (value : Value) : Check Unit := do
  let project ← object value
  exact project ["name", "path"] ["branch"]
  let _ ← stringValue nameOptions (← field project "name")
  let _ ← stringValue (outerOptions 4096) (← field project "path")
  ifPresent project "branch" (stringValue (outerOptions 255))

def validateScope (value : Value) : Check Unit := do
  let scope ← object value
  exact scope ["scopeId", "displayName", "kind", "reachability", "projects"] []
  let _ ← id (← field scope "scopeId")
  let _ ← stringValue (outerOptions 128) (← field scope "displayName")
  let _ ← oneOf ["local", "ssh"] (← field scope "kind")
  let _ ← oneOf ["online", "unreachable"] (← field scope "reachability")
  array validateProject 256 (← field scope "projects")

def topLevelIdentifiers : List String :=
  ["requestId", "commandId", "hostId", "expectedHostEpoch", "hostEpoch", "hostInstanceId", "scopeId", "sessionId", "streamId"]

def validateTopLevelIdentifiers (frame : Record) : Check Unit := do
  topLevelIdentifiers.forM fun name => ifPresent frame name id
  ifPresent frame "eventSeq" counter

def publicRoot (frame : Record) (kind type : String) (required optional : List String) : Check Unit := do
  exact frame (["protocolVersion", "kind", "type"] ++ required) optional
  literalTwo (← field frame "protocolVersion")
  literal (← field frame "kind") kind
  literal (← field frame "type") type
  validateTopLevelIdentifiers frame

def scopesSnapshot (frame : Record) : Check Unit := do
  publicRoot frame "response" "scopes.snapshot" ["requestId", "hostId", "hostEpoch", "payload"] []
  let payload ← object (← field frame "payload")
  exact payload ["coverageComplete", "revision", "throughEventSeq", "items"] []
  let _ ← booleanValue (← field payload "coverageComplete")
  let _ ← counter (← field payload "revision")
  nullValue (← field payload "throughEventSeq")
  array validateScope 256 (← field payload "items")

/-- `RelayV2NormalizedPublicFrame`; the channel and the version are fixed. -/
structure NormalizedPublicFrame where
  kind : Option Value
  type : Text
  requestId : Option Value

/-- `validateRelayV2PublicFrame`, given what it checks of frames of other types. -/
def validateRelayV2PublicFrame (others : Text → Record → Check Unit) (frame : Record) : Check NormalizedPublicFrame := do
  let type ← stringValue nameOptions (← field frame "type")
  if type = ofString "scopes.snapshot" then scopesSnapshot frame else others type frame
  return ⟨Request.field frame "kind", type, Request.field frame "requestId"⟩

end Schema

/-! ## A snapshot that the host lets out and the client does not let in -/

/-- A local scope without projects. -/
def emptyScope : Value :=
  .object [(ofString "scopeId", .string (ofString "s")), (ofString "displayName", .string (ofString "s")),
    (ofString "kind", .string (ofString "local")), (ofString "reachability", .string (ofString "online")),
    (ofString "projects", .array [])]

/-- The answer to `scopes.snapshot.get` of a host with so many scopes. -/
def scopesFrame (scopes : Nat) : Record :=
  [(ofString "protocolVersion", .number Schema.two), (ofString "kind", .string (ofString "response")),
    (ofString "type", .string (ofString "scopes.snapshot")), (ofString "requestId", .string (ofString "q")),
    (ofString "hostId", .string (ofString "h")), (ofString "hostEpoch", .string (ofString "e")),
    (ofString "payload", .object [(ofString "coverageComplete", .bool true), (ofString "revision", .string (ofString "0")),
      (ofString "throughEventSeq", .null), (ofString "items", .array (List.replicate scopes emptyScope))])]

theorem validate_scopes (others : Text → Record → Schema.Check Unit) {n : Nat} (h : n ≤ 256) :
    ∃ normalized, Schema.validateRelayV2PublicFrame others (scopesFrame n) = .ok normalized := by
  have heach : ∀ k, Schema.each Schema.validateScope (List.replicate k emptyScope) = .ok () := by
    intro k
    induction k with
    | zero => rfl
    | succ k ih =>
      rw [List.replicate_succ, Schema.each, show Schema.validateScope emptyScope = .ok () from rfl]
      exact ih
  have harray : Schema.array Schema.validateScope 256 (.array (List.replicate n emptyScope)) = .ok () := by
    rw [Schema.array, Schema.rejectIf, List.length_replicate, decide_eq_false (Nat.not_lt.mpr h)]
    exact heach n
  have hframe : Schema.validateRelayV2PublicFrame others (scopesFrame n) =
      Schema.array Schema.validateScope 256 (.array (List.replicate n emptyScope)) >>= fun _ =>
        .ok ⟨some (.string (ofString "response")), ofString "scopes.snapshot", some (.string (ofString "q"))⟩ := rfl
  rw [hframe, harray]
  exact ⟨_, rfl⟩

theorem itemsText_replicate (n : Nat) (v : Value) :
    (itemsText (List.replicate n v)).length ≤ n * (v.text.length + 1) := by
  induction n with
  | zero => simp [itemsText]
  | succ n ih =>
    cases n with
    | zero => simp [itemsText]
    | succ n =>
      rw [List.replicate_succ, itemsText.eq_3 v _ (by simp [List.replicate_succ])]
      simp only [List.length_append, List.length_cons]
      rw [Nat.succ_mul]
      omega



theorem scopesFrame_length (n : Nat) : (stringifyFrame (scopesFrame n)).length ≤ 512 + n * 87 := by
  have hitems := itemsText_replicate n emptyScope
  have hscope : emptyScope.text.length = 86 := by decide +kernel
  rw [hscope] at hitems
  have htwo : (numberText Schema.two).length = 1 := by decide +kernel
  have hquotes : ∀ name ∈ ["protocolVersion", "kind", "response", "type", "scopes.snapshot", "requestId", "q", "hostId", "h",
      "hostEpoch", "e", "payload", "coverageComplete", "revision", "0", "throughEventSeq", "items"],
      (quote (ofString name)).length ≤ 18 := by decide
  simp only [List.mem_cons, List.not_mem_nil, or_false, forall_eq_or_imp, forall_eq] at hquotes
  simp only [stringifyFrame, scopesFrame, Value.text, fieldsText, List.length_append, List.length_cons, htwo, List.length_nil]
  omega

theorem scopesFrame_keys (n : Nat) : (frameTree (scopesFrame n)).keys = 11 + 5 * n := by
  have hitems : keysItems (treeItems (List.replicate n emptyScope)) = 5 * n := by
    induction n with
    | zero => rfl
    | succ n ih =>
      rw [List.replicate_succ, treeItems, keysItems, ih, show emptyScope.tree.keys = 5 from rfl]
      omega
  simp only [frameTree, scopesFrame, treeFields, Value.tree, Tree.keys, keysFields, hitems]
  omega

theorem frameType_scopes (n : Nat) : frameType (scopesFrame n) = some (ofString "scopes.snapshot") := by
  simp only [frameType, scopesFrame, treeFields, Value.tree]
  rfl

theorem scopesFrame_bytes {n : Nat} (h : n ≤ 256) : (utf8 (stringifyFrame (scopesFrame n))).length ≤ Channel.public'.frameBytes := by
  have hutf8 := utf8_length_le (stringifyFrame (scopesFrame n))
  have htext := scopesFrame_length n
  show _ ≤ 1048576
  omega

theorem allowed_two : Strict.Allowed (numberLiteral Schema.two) := by
  rw [Strict.Allowed, if_pos (by decide +kernel)]
  decide +kernel

theorem plain_two : plain Schema.two = Schema.two := by decide +kernel

theorem scopes_rejected (others : Text → Record → Schema.Check Unit) : ∃ bytes,
    encodeRelayV2WebSocketFrame (Schema.validateRelayV2PublicFrame others) .public' (scopesFrame 203) = .ok bytes ∧
      ∀ m, decodeRelayV2WebSocketFrame (Schema.validateRelayV2PublicFrame others) .public' bytes {} ≠ .ok m := by
  have hbytes := scopesFrame_bytes (n := 203) (by decide)
  refine ⟨_, encode_ok.mpr ⟨validate_scopes others (by decide), hbytes, rfl⟩, ?_⟩
  intro m hdecode
  obtain ⟨hwithin, -⟩ := (parse_encoded hbytes).mp (decode_ok.mp hdecode).1
  have hkeys := hwithin.keys
  rw [scopesFrame_keys, Channel.frameLimits, frameType_scopes, if_neg (by decide)] at hkeys
  exact absurd hkeys (by decide)

/-- **A snapshot of 203 scopes is let out and not let in**: it has 1026 keys. -/
theorem scopes_lost : ∃ bytes,
    encodeRelayV2WebSocketFrame (Schema.validateRelayV2PublicFrame fun _ _ => .ok ()) .public' (scopesFrame 203) = .ok bytes ∧
      ∀ m, decodeRelayV2WebSocketFrame (Schema.validateRelayV2PublicFrame fun _ _ => .ok ()) .public' bytes {} ≠ .ok m :=
  scopes_rejected fun _ _ => .ok ()

end Frames
end TmuxWorktree
