import TmuxWorktree.Strict.Parser
import TmuxWorktree.Lib.Paired
/-!
# Codec — encoding and decoding of frames and bodies (`codec.ts`)

The validators of the schema are a parameter: both directions call the same one, on the frame.  A frame is its fields in
the order in which they are enumerated.
-/
namespace TmuxWorktree
namespace Frames

open Utf16 Grammar
open Strict (Limits JsonFailureClass Inspection inspectRelayV2Json parseRelayV2JsonObject)

abbrev Record := List (Text × Value)

/-- `RelayV2WebSocketChannel`. -/
inductive Channel where
  | public'
  | carrier
  deriving DecidableEq, Repr

def Channel.frameBytes : Channel → Nat
  | .public' => 1048576
  | .carrier => 1500000

def httpBodyBytes : Nat := 16384

/-- The failure classes of `RelayV2CodecError`; those of the schema are `σ`. -/
inductive FailureClass (σ : Type) where
  | binaryFrame
  | compressionNotAllowed
  | frameLimit
  | invalidUtf8
  | json (failureClass : Option JsonFailureClass)
  | schema (failureClass : σ)

/-- `RelayV2FrameMetadata`. -/
structure Metadata where
  binary : Bool := false
  compressed : Bool := false

/-- `RelayV2DecodedMessage`; what the validators say of a frame is `ν`. -/
structure Decoded (ν : Type) where
  frame : Record
  normalized : ν
  canonicalWire : Text

section Codec

variable {σ ν : Type}

abbrev Result (σ α : Type) := Except (FailureClass σ) α

/-! ## Text and bytes -/

def stringifyFrame (frame : Record) : Text := (Value.object frame).text

/-- `TextDecoder`, fatal, which drops a byte order mark. -/
def decodeRelayV2StrictUtf8 (bytes : List UInt8) : Result σ Text :=
  let bytes := if bytes.take 3 = [0xEF, 0xBB, 0xBF] then bytes.drop 3 else bytes
  match decode bytes with
  | some source => return source
  | none => .error .invalidUtf8

def json {α : Type} : Except (Option JsonFailureClass) α → Result σ α := Except.mapError .json

def schema {α : Type} : Except σ α → Result σ α := Except.mapError .schema

/-! ## Limits -/

def standardLimits : Limits := { maxDepth := 16, maxDirectKeys := 256, maxTotalKeys := 1024, maxNodes := 4096 }

def snapshotLimits : Limits := { maxDepth := 16, maxDirectKeys := 256, maxTotalKeys := 8192, maxNodes := 16384 }

def httpLimits : Limits := { maxDepth := 8, maxDirectKeys := 32, maxTotalKeys := 32, maxNodes := 128 }

/-- The limits of the first pass. -/
def Channel.inspectionLimits : Channel → Limits
  | .public' => snapshotLimits
  | .carrier => standardLimits

/-- The limits for what the first pass has seen. -/
def Channel.limits (channel : Channel) (inspection : Inspection) : Limits :=
  if channel = .public' && inspection.rootIsObject && inspection.rootType = some (ofString "state.snapshot.chunk") then
    snapshotLimits
  else standardLimits

/-! ## Decoding -/

def parseWebSocketObject (channel : Channel) (bytes : List UInt8) (metadata : Metadata) : Result σ Record := do
  if metadata.binary then .error .binaryFrame
  else if metadata.compressed then .error .compressionNotAllowed
  else if channel.frameBytes < bytes.length then .error .frameLimit
  else
    let source ← decodeRelayV2StrictUtf8 bytes
    let inspection ← json (inspectRelayV2Json source channel.inspectionLimits)
    let limits := channel.limits inspection
    if limits.maxTotalKeys < inspection.totalKeys then .error (.json (some .jsonTotalKeyLimit))
    else if limits.maxNodes < inspection.totalNodes then .error (.json (some .jsonNodeLimit))
    else json (parseRelayV2JsonObject source limits)

/-- `contentEncoding`, as far as it counts: there is none, or it is the identity. -/
def parseHttpObject (bytes : List UInt8) (identity : Bool) : Result σ Record := do
  if !identity then .error .compressionNotAllowed
  else if httpBodyBytes < bytes.length then .error .frameLimit
  else
    let source ← decodeRelayV2StrictUtf8 bytes
    json (parseRelayV2JsonObject source httpLimits)

section Directions

variable (validate : Record → Except σ ν)

def decodeRelayV2WebSocketFrame (channel : Channel) (bytes : List UInt8) (metadata : Metadata) : Result σ (Decoded ν) := do
  let frame ← parseWebSocketObject channel bytes metadata
  let normalized ← schema (validate frame)
  return ⟨frame, normalized, stringifyFrame frame⟩

def decodeRelayV2HttpsBody (bytes : List UInt8) (identity : Bool) : Result σ (Decoded ν) := do
  let frame ← parseHttpObject bytes identity
  let normalized ← schema (validate frame)
  return ⟨frame, normalized, stringifyFrame frame⟩

/-! ## Encoding -/

def encodeChecked (frame : Record) (limit : Nat) : Result σ (List UInt8) :=
  let bytes := utf8 (stringifyFrame frame)
  if limit < bytes.length then .error .frameLimit else return bytes

def encodeRelayV2WebSocketFrame (channel : Channel) (frame : Record) : Result σ (List UInt8) := do
  let _ ← schema (validate frame)
  encodeChecked frame channel.frameBytes

def encodeRelayV2HttpsBody (body : Record) : Result σ (List UInt8) := do
  let _ ← schema (validate body)
  encodeChecked body httpBodyBytes

end Directions

end Codec

end Frames
end TmuxWorktree
