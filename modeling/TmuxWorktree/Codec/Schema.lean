import TmuxWorktree.Codec.Value
/-!
# Schema — the field validators of the host and of the Android app

The helpers of `codecSchemaHelpers.ts` and `codecSchema.ts` (namespace `Ts`) beside those of `RelayV2SchemaCommon.kt`
(namespace `Kotlin`).  The validators of structured errors, projects and scopes are the same text in both languages over
the language's own helpers.
-/
namespace TmuxWorktree
namespace Codec

open Utf16

/-! ## Strings -/

/-- `CodecSchemaStringOptions`, the optional parameters of `jsonString`. -/
structure StringOptions where
  allowEmpty : Bool := false
  allowOuterWhitespace : Bool := false
  maxBytes : Option Nat := none
  maxCharacters : Option Nat := none
  allowNul : Bool := false
  deriving DecidableEq

/-- `String.prototype.trim` removes white space and line terminators, the byte order mark among them. -/
def Ts.isSpace (c : CodeUnit) : Bool :=
  (0x09 ≤ c.val && c.val ≤ 0x0D) || (0x2000 ≤ c.val && c.val ≤ 0x200A) ||
    [0x20, 0xA0, 0x1680, 0x2028, 0x2029, 0x202F, 0x205F, 0x3000, 0xFEFF].contains c.val

/-- `Char.isWhitespace` of Kotlin: the separators of Unicode, and the control characters 09..0D and 1C..1F. -/
def Kotlin.isWhitespace (c : CodeUnit) : Bool :=
  (0x09 ≤ c.val && c.val ≤ 0x0D) || (0x1C ≤ c.val && c.val ≤ 0x1F) || (0x2000 ≤ c.val && c.val ≤ 0x200A) ||
    [0x20, 0xA0, 0x1680, 0x2028, 0x2029, 0x202F, 0x205F, 0x3000].contains c.val

/-- `stringValue`.  `Buffer.byteLength` counts the replacement character, three bytes, for a lone surrogate. -/
def Ts.stringValue (options : StringOptions) : Value → Check JsonString
  | .null => throw .forbiddenNull
  | .string s => do
    rejectIf (!options.allowEmpty && s.units.length = 0) .invalidArgument
    rejectIf (!options.allowNul && s.units.contains 0) .invalidArgument
    rejectIf (!options.allowOuterWhitespace && trim Ts.isSpace s.units ≠ s.units) .invalidArgument
    rejectIf (options.maxBytes.any (fun m => m < utf8Length 3 s.units)) .idByteLimit
    rejectIf (options.maxCharacters.any (fun m => m < codePoints s.units)) .invalidArgument
    return s
  | _ => throw .typeCoercion

def Kotlin.maxInt : Nat := 2147483647

/-- `jsonString`.  `toByteArray` writes a question mark, one byte, for a lone surrogate. -/
def Kotlin.jsonString (options : StringOptions) : Value → Check JsonString
  | .null => throw .forbiddenNull
  | .string s => do
    rejectIf (!options.allowEmpty && s.units.isEmpty) .invalidArgument
    rejectIf (!options.allowNul && s.units.contains 0) .invalidArgument
    rejectIf (!options.allowOuterWhitespace && trim Kotlin.isWhitespace s.units ≠ s.units) .invalidArgument
    rejectIf (options.maxBytes.getD Kotlin.maxInt < utf8Length 1 s.units) .idByteLimit
    rejectIf (options.maxCharacters.getD Kotlin.maxInt < codePoints s.units) .invalidArgument
    return s
  | _ => throw .typeCoercion

/-- The options of `id` and `jsonId`. -/
def idOptions : StringOptions := { maxBytes := some 128 }

def Ts.id : Value → Check JsonString := Ts.stringValue idOptions
def Kotlin.jsonId : Value → Check JsonString := Kotlin.jsonString idOptions

/-! ## Numbers -/

def Ts.integer (minimum maximum : Int) : Value → Check Int
  | .null => throw .forbiddenNull
  | .number n => do
    rejectIf (!n.js.isSafeInteger || n.js.isNegativeZero) .typeCoercion
    rejectIf (n.js.trunc < minimum || maximum < n.js.trunc) .invalidArgument
    return n.js.trunc
  | _ => throw .typeCoercion

/-- The `when` of `jsonInteger`.  The double is compared with the `Long` bounds as doubles, so 2^63 passes, and is then
cut to the greatest `Long`. -/
def Kotlin.integralValue : KotlinNumber → Check Int
  | .long n => return n
  | .double d => do
    rejectIf (!d.isInteger) .typeCoercion
    rejectIf (maxLong + 1 < d.trunc || d.trunc < minLong) .typeCoercion
    return (KotlinNumber.double d).toLong

def Kotlin.jsonInteger (minimum maximum : Int) : Value → Check Int
  | .null => throw .forbiddenNull
  | .number n => do
    let result ← Kotlin.integralValue n.kotlin
    rejectIf (result < minimum || maximum < result) .invalidArgument
    return result
  | _ => throw .typeCoercion

/-- The literals of the schema: texts, booleans, and integers that both languages have. -/
inductive Literal where
  | string (s : String)
  | bool (b : Bool)
  | int (n : Int) (safe : n.natAbs ≤ maxSafeInteger)

/-- `literal`: the value is strictly equal to the expected one. -/
def Ts.literal (v : Value) (expected : Literal) : Check Unit :=
  match v, expected with
  | .string s, .string t => if s.units = ofString t then return () else throw .schemaMismatch
  | .bool a, .bool b => if a = b then return () else throw .schemaMismatch
  | .number n, .int k _ => if n.js.isInteger && n.js.trunc = k then return () else throw .schemaMismatch
  | .null, _ => throw .forbiddenNull
  | _, _ => throw .schemaMismatch

/-- `jsonLiteral`: an `Int` or a `Long` is compared with `toLong` of the value. -/
def Kotlin.jsonLiteral (v : Value) (expected : Literal) : Check Unit :=
  match v, expected with
  | .string s, .string t => if s.units = ofString t then return () else throw .schemaMismatch
  | .bool a, .bool b => if a = b then return () else throw .schemaMismatch
  | .number n, .int k _ => if n.kotlin.toLong = k then return () else throw .schemaMismatch
  | .null, _ => throw .forbiddenNull
  | _, _ => throw .schemaMismatch

/-! ## Counters -/

def isDigit (c : CodeUnit) : Bool := 48 ≤ c.val && c.val ≤ 57

/-- `^(?:0|[1-9][0-9]*)$`. -/
def counterRegex : List CodeUnit → Bool
  | [] => false
  | c :: s => (c.val = 48 && s.isEmpty) || (49 ≤ c.val && c.val ≤ 57 && s.all isDigit)

/-- `BigInt`, `BigInteger` of a decimal text. -/
def bigInt (s : List CodeUnit) : Nat := s.foldl (fun n c => 10 * n + (c.val - 48)) 0

def uint64Max : Nat := 18446744073709551615

def Ts.counter : Value → Check JsonString
  | .null => throw .forbiddenNull
  | .string s => do
    rejectIf (!counterRegex s.units) .nonCanonicalCounter
    rejectIf (uint64Max < bigInt s.units) .counterOverflow
    return s
  | _ => throw .typeCoercion

def Kotlin.jsonCounter : Value → Check JsonString
  | .null => throw .forbiddenNull
  | .string s => do
    rejectIf (!counterRegex s.units) .nonCanonicalCounter
    rejectIf (uint64Max < bigInt s.units) .counterOverflow
    return s
  | _ => throw .typeCoercion

/-! ## Base64 -/

/-- The two last characters of an alphabet. -/
structure Alphabet where
  plus : Nat
  slash : Nat

def standard : Alphabet := ⟨43, 47⟩
def urlSafe : Alphabet := ⟨45, 95⟩

/-- The place of a character in an alphabet, `BASE64_ALPHABET.indexOf`. -/
def Alphabet.sextet (a : Alphabet) (c : CodeUnit) : Option Nat :=
  if 65 ≤ c.val && c.val ≤ 90 then some (c.val - 65)
  else if 97 ≤ c.val && c.val ≤ 122 then some (c.val - 71)
  else if 48 ≤ c.val && c.val ≤ 57 then some (c.val + 4)
  else if c.val = a.plus then some 62
  else if c.val = a.slash then some 63
  else none

/-- The character of a sextet. -/
def Alphabet.unit (a : Alphabet) (k : Nat) : CodeUnit :=
  Fin.ofNat 65536 (if k < 26 then k + 65 else if k < 52 then k + 71 else if k < 62 then k - 4
    else if k = 62 then a.plus else a.slash)

def Alphabet.has (a : Alphabet) (c : CodeUnit) : Bool := (a.sextet c).isSome

def isPad (c : CodeUnit) : Bool := c.val = 61

/-- `^(?:[A-Za-z0-9+/]{4})*(?:[A-Za-z0-9+/]{2}==|[A-Za-z0-9+/]{3}=)?$`. -/
def base64Regex : List CodeUnit → Bool
  | [] => true
  | [a, b, c, d] => standard.has a && standard.has b &&
      ((standard.has c && (standard.has d || isPad d)) || (isPad c && isPad d))
  | a :: b :: c :: d :: s => standard.has a && standard.has b && standard.has c && standard.has d && base64Regex s
  | _ => false

/-- `^[A-Za-z0-9_-]{2,}$`. -/
def base64UrlRegex (s : List CodeUnit) : Bool := 2 ≤ s.length && s.all urlSafe.has

/-- The number of `=` at the end that are padding. -/
def padding (s : List CodeUnit) : Nat :=
  match s.reverse with
  | a :: b :: _ => if isPad a && isPad b then 2 else if isPad a then 1 else 0
  | [a] => if isPad a then 1 else 0
  | [] => 0

/-- The sextet that the padding cuts short: `encoded[encoded.length - 3]`, or `- 2`. -/
def finalSextet (s : List CodeUnit) : Nat := ((s.reverse[padding s]?).bind standard.sextet).getD 0

/-- An unused low bit of the final sextet is set. -/
def unusedBits (s : List CodeUnit) : Bool :=
  (padding s = 2 && finalSextet s % 16 ≠ 0) || (padding s = 1 && finalSextet s % 4 ≠ 0)

def Ts.canonicalBase64 (maxDecodedBytes : Int) : Value → Check JsonString
  | .null => throw .forbiddenNull
  | .string s => do
    rejectIf (s.units.length = 0 || trim Ts.isSpace s.units ≠ s.units || s.units.contains 0) .invalidArgument
    rejectIf (!base64Regex s.units) .nonCanonicalBase64
    rejectIf (maxDecodedBytes < (s.units.length / 4 * 3 : Int) - padding s.units) .base64DecodedLimit
    rejectIf (unusedBits s.units) .nonCanonicalBase64
    return s
  | _ => throw .typeCoercion

/-- `Base64.getDecoder().decode` and its URL-safe sibling: a character outside the alphabet, or a single sextet at the
end, is an `IllegalArgumentException`. -/
def Kotlin.decode (a : Alphabet) (s : List CodeUnit) : Option (List Nat) :=
  match (s.filter (fun c => !isPad c)).mapM a.sextet with
  | some sextets => if sextets.length % 4 = 1 then none else some (Base64.decode sextets)
  | none => none

/-- `Base64.getEncoder().encodeToString`. -/
def Kotlin.encodeToString (a : Alphabet) (padded : Bool) (bytes : List Nat) : List CodeUnit :=
  (Base64.encode bytes).map a.unit ++ List.replicate (if padded then (3 - bytes.length % 3) % 3 else 0) 61

def Kotlin.jsonCanonicalBase64 (maxDecodedBytes : Int) : Value → Check JsonString
  | .null => throw .forbiddenNull
  | .string s => do
    rejectIf (s.units.isEmpty || trim Kotlin.isWhitespace s.units ≠ s.units || s.units.contains 0) .invalidArgument
    rejectIf (!base64Regex s.units) .nonCanonicalBase64
    rejectIf (maxDecodedBytes < (s.units.length / 4 * 3 : Int) - padding s.units) .base64DecodedLimit
    match Kotlin.decode standard s.units with
    | none => throw .nonCanonicalBase64
    | some decoded =>
      rejectIf (Kotlin.encodeToString standard true decoded ≠ s.units) .nonCanonicalBase64
      return s
  | _ => throw .typeCoercion

/-- The two calls of `replace` in `canonicalBase64Url`, on a character. -/
def replaceUrlSafe (c : CodeUnit) : CodeUnit := if c.val = 45 then 43 else if c.val = 95 then 47 else c

/-- `Buffer.from(text, "base64")`: the padding and the bits left over at the end are ignored. -/
def Ts.bufferFrom (s : List CodeUnit) : List Nat := Base64.decode (s.filterMap standard.sextet)

def base64UrlOptions : StringOptions := { maxBytes := some 2048 }

/-- `Math.ceil((decodedBytes * 4) / 3)`. -/
def Ts.expectedLength (decodedBytes : Int) : Int := -(-(decodedBytes * 4) / 3)

def Ts.canonicalBase64Url (decodedBytes : Option Int) (v : Value) : Check JsonString := do
  let encoded ← Ts.stringValue base64UrlOptions v
  rejectIf (!base64UrlRegex encoded.units || encoded.units.contains 61) .nonCanonicalBase64Url
  rejectIf (decodedBytes.any (fun n => encoded.units.length ≠ Ts.expectedLength n)) .nonCanonicalBase64Url
  let padded := encoded.units.map replaceUrlSafe ++ List.replicate ((4 - encoded.units.length % 4) % 4) 61
  rejectIf ((Base64.encode (Ts.bufferFrom padded)).map urlSafe.unit ≠ encoded.units) .nonCanonicalBase64Url
  return encoded

/-- An `Int` of the JVM. -/
def wrapInt (n : Int) : Int := (n + 2147483648) % 4294967296 - 2147483648

/-- `(decodedBytes * 4 + 2) / 3`. -/
def Kotlin.expectedLength (decodedBytes : Int) : Int := (wrapInt (wrapInt (decodedBytes * 4) + 2)).tdiv 3

def Kotlin.jsonCanonicalBase64Url (decodedBytes : Option Int) (v : Value) : Check JsonString := do
  let encoded ← Kotlin.jsonString base64UrlOptions v
  rejectIf (!base64UrlRegex encoded.units || encoded.units.contains 61) .nonCanonicalBase64Url
  rejectIf (decodedBytes.any (fun n => encoded.units.length ≠ Kotlin.expectedLength n)) .nonCanonicalBase64Url
  match Kotlin.decode urlSafe encoded.units with
  | none => throw .nonCanonicalBase64Url
  | some decoded =>
    rejectIf (Kotlin.encodeToString urlSafe false decoded ≠ encoded.units) .nonCanonicalBase64Url
    return encoded

/-! ## Records -/

/-- The helpers that the validators of records are written with. -/
structure Helpers where
  string : StringOptions → Value → Check JsonString
  integer : Int → Int → Value → Check Int
  literal : Value → Literal → Check Unit
  counter : Value → Check JsonString

def Ts.helpers : Helpers := ⟨Ts.stringValue, Ts.integer, Ts.literal, Ts.counter⟩
def Kotlin.helpers : Helpers := ⟨Kotlin.jsonString, Kotlin.jsonInteger, Kotlin.jsonLiteral, Kotlin.jsonCounter⟩

namespace Helpers
variable (h : Helpers)

def id (v : Value) : Check JsonString := h.string idOptions v

/-- The default bounds of an integer. -/
def integerValue (v : Value) : Check Int := h.integer 0 maxSafeInteger v

/-- `capabilities`: at most 64 ids, none of them twice. -/
def capabilities : Value → Check Unit :=
  array 64 (fun (seen : List JsonString) item => do
    let capability ← h.id item
    rejectIf (seen.contains capability) .schemaMismatch
    return capability :: seen) []

end Helpers

/-- A text that may have white space at its ends. -/
def outerOptions (maxBytes : Nat) : StringOptions := { allowOuterWhitespace := true, maxBytes := some maxBytes }

def nameOptions : StringOptions := { maxBytes := some 128 }

def commandDispositions : List String :=
  ["not_accepted", "accepted", "running", "completed", "in_doubt", "not_applicable"]

def errorCodes : List String :=
  ["AUTH_REQUIRED", "AUTH_INVALID", "PERMISSION_DENIED", "GRANT_NOT_FOUND", "ROLE_MISMATCH", "PROTOCOL_UNSUPPORTED",
    "HOST_DIALECT_UNAVAILABLE", "CAPABILITY_UNAVAILABLE", "INVALID_ENVELOPE", "INVALID_ARGUMENT", "HOST_NOT_FOUND",
    "HOST_OFFLINE", "HOST_EPOCH_MISMATCH", "EVENT_CURSOR_AHEAD", "HOST_SUPERSEDED", "DUPLICATE_CONNECTOR",
    "SCOPE_NOT_FOUND", "SCOPE_UNREACHABLE", "SNAPSHOT_EXPIRED", "SNAPSHOT_TOO_LARGE", "PROJECT_NOT_FOUND",
    "SESSION_NOT_FOUND", "PANE_NOT_FOUND", "IDEMPOTENCY_CONFLICT", "COMMAND_NOT_ACCEPTED", "COMMAND_WINDOW_EXPIRED",
    "COMMAND_RESULT_EXPIRED", "COMMAND_STATUS_UNKNOWN", "COMMAND_IN_DOUBT", "COMMAND_FAILED", "RATE_LIMITED", "BUSY",
    "SLOW_CONSUMER", "TERMINAL_STREAM_NOT_FOUND", "TERMINAL_STREAM_CONFLICT", "TERMINAL_OPEN_CONFLICT",
    "TERMINAL_CLOSE_CONFLICT", "TERMINAL_ROUTE_STALE", "TERMINAL_GENERATION_STALE", "TERMINAL_OFFSET_EXPIRED",
    "TERMINAL_INVALID_ACK", "TERMINAL_INPUT_GAP", "TERMINAL_INPUT_CONFLICT", "TERMINAL_RESIZE_GAP",
    "TERMINAL_RESIZE_CONFLICT", "INTERNAL"]

namespace Helpers
variable (h : Helpers)

/-- The `details` of a structured error. -/
def errorDetails (code : JsonString) (details : Object) : Check Unit := do
  if code.units = ofString "HOST_EPOCH_MISMATCH" then
    exact details ["expectedHostEpoch", "actualHostEpoch"] []
    let _ ← h.id (← field details "expectedHostEpoch")
    let _ ← h.id (← field details "actualHostEpoch")
  else if code.units = ofString "EVENT_CURSOR_AHEAD" then
    exact details ["clientLastEventSeq", "hostEventSeq"] []
    let _ ← h.counter (← field details "clientLastEventSeq")
    let _ ← h.counter (← field details "hostEventSeq")
  else if code.units = ofString "COMMAND_WINDOW_EXPIRED" then
    exact details ["reissueRequired"] []
    h.literal (← field details "reissueRequired") (.bool true)
  else if code.units = ofString "SNAPSHOT_TOO_LARGE" then
    exact details ["useStateSnapshot"] []
    h.literal (← field details "useStateSnapshot") (.bool true)
  else if code.units = ofString "COMMAND_RESULT_EXPIRED" then
    exact details ["finalState"] []
    let _ ← oneOf ["succeeded", "failed", "in_doubt"] (← field details "finalState")
  else throw .schemaMismatch

def validateStructuredError (v : Value) : Check Unit := do
  let error ← object v
  exact error ["code", "message", "retryable", "commandDisposition"] ["retryAfterMs", "details"]
  let code ← h.string nameOptions (← field error "code")
  rejectIf (!errorCodes.any (fun c => ofString c = code.units)) .schemaMismatch
  let _ ← h.string (outerOptions 4096) (← field error "message")
  let _ ← booleanValue (← field error "retryable")
  let _ ← oneOf commandDispositions (← field error "commandDisposition")
  ifPresent error "retryAfterMs" (nullable h.integerValue)
  match get? error "details" with
  | none | some .null => return ()
  | some details => h.errorDetails code (← object details)

def validateProject (v : Value) : Check Unit := do
  let project ← object v
  exact project ["name", "path"] ["branch"]
  let _ ← h.string nameOptions (← field project "name")
  let _ ← h.string (outerOptions 4096) (← field project "path")
  ifPresent project "branch" (h.string (outerOptions 255))

def validateScope (v : Value) : Check Unit := do
  let scope ← object v
  exact scope ["scopeId", "displayName", "kind", "reachability", "projects"] []
  let _ ← h.id (← field scope "scopeId")
  let _ ← h.string (outerOptions 128) (← field scope "displayName")
  let _ ← oneOf ["local", "ssh"] (← field scope "kind")
  let _ ← oneOf ["online", "unreachable"] (← field scope "reachability")
  array 256 (fun _ item => h.validateProject item) () (← field scope "projects")

end Helpers

def sessionKeys : List String :=
  ["scopeId", "sessionId", "kind", "displayName", "state", "project", "label", "cwd", "attached", "windowCount",
    "createdAtMs", "activityAtMs"]

/-- The check of the fields that depend on the kind of a session. -/
def sessionKind (kind : JsonString) (project label cwd : Bool) : Check Unit := do
  rejectIf (kind.units = ofString "worktree" && (!project || !cwd)) .schemaMismatch
  rejectIf (kind.units = ofString "terminal" && (!label || !cwd)) .schemaMismatch

def Ts.capabilities : Value → Check Unit := Ts.helpers.capabilities
def Ts.validateStructuredError : Value → Check Unit := Ts.helpers.validateStructuredError
def Ts.validateScope : Value → Check Unit := Ts.helpers.validateScope

def Kotlin.jsonCapabilities : Value → Check Unit := Kotlin.helpers.capabilities
def Kotlin.validateStructuredError : Value → Check Unit := Kotlin.helpers.validateStructuredError
def Kotlin.validateScope : Value → Check Unit := Kotlin.helpers.validateScope

/-- `validateSession` of the host. -/
def Ts.validateSession (v : Value) : Check Unit := do
  let session ← object v
  exact session sessionKeys []
  let _ ← Ts.id (← field session "scopeId")
  let _ ← Ts.id (← field session "sessionId")
  let kind ← oneOf ["worktree", "terminal"] (← field session "kind")
  let _ ← Ts.stringValue (outerOptions 128) (← field session "displayName")
  Ts.literal (← field session "state") (.string "running")
  let project ← nullable (Ts.stringValue nameOptions) (← field session "project")
  let label ← nullable (Ts.stringValue (outerOptions 128)) (← field session "label")
  let cwd ← nullable (Ts.stringValue (outerOptions 4096)) (← field session "cwd")
  sessionKind kind project.isSome label.isSome cwd.isSome
  let _ ← booleanValue (← field session "attached")
  let _ ← Ts.integer 0 maxSafeInteger (← field session "windowCount")
  let _ ← Ts.integer 0 maxSafeInteger (← field session "createdAtMs")
  let _ ← Ts.integer 0 maxSafeInteger (← field session "activityAtMs")

/-- `session[name]?.also { jsonString(it, …) } as? String`. -/
def Kotlin.optionalString (session : Object) (name : String) (options : StringOptions) : Check (Option JsonString) :=
  match get? session name with
  | none | some .null => return none
  | some v => do
    let s ← Kotlin.jsonString options v
    return some s

/-- `validateSession` of the Android app. -/
def Kotlin.validateSession (v : Value) : Check Unit := do
  let session ← object v
  exact session sessionKeys []
  let _ ← Kotlin.jsonId (← field session "scopeId")
  let _ ← Kotlin.jsonId (← field session "sessionId")
  let kind ← oneOf ["worktree", "terminal"] (← field session "kind")
  let _ ← Kotlin.jsonString (outerOptions 128) (← field session "displayName")
  Kotlin.jsonLiteral (← field session "state") (.string "running")
  let project ← Kotlin.optionalString session "project" nameOptions
  let label ← Kotlin.optionalString session "label" (outerOptions 128)
  let cwd ← Kotlin.optionalString session "cwd" (outerOptions 4096)
  sessionKind kind project.isSome label.isSome cwd.isSome
  let _ ← booleanValue (← field session "attached")
  let _ ← Kotlin.jsonInteger 0 maxSafeInteger (← field session "windowCount")
  let _ ← Kotlin.jsonInteger 0 maxSafeInteger (← field session "createdAtMs")
  let _ ← Kotlin.jsonInteger 0 maxSafeInteger (← field session "activityAtMs")

end Codec
end TmuxWorktree
