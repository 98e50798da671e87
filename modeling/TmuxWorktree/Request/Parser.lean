import TmuxWorktree.Terminal.State
import TmuxWorktree.Lib.Printing
/-!
# Parser — the request `input.agent-message` (`protocol.ts`)

A request is a value that `JSON.parse` has read.  A record is its fields as they are written; of two fields with a key the
later counts.
-/
namespace TmuxWorktree
namespace Request

open Utf16 Grammar
open Terminal (ControlError denied)

abbrev Record := List (Text × Value)

abbrev Parse (α : Type) := Except ControlError α

def invalid {α : Type} (message : String) : Parse α := .error (denied .invalidRequest message)

def maxInputBytes : Nat := 256 * 1024

/-! ## Records and strings -/

/-- An own property of the record. -/
def field (record : Record) (key : String) : Option Value :=
  (record.reverse.find? (fun f => f.1 = ofString key)).map Prod.snd

def isRecord : Value → Option Record
  | .object record => some record
  | _ => none

def exactKeys (record : Record) (required optional : List String) : Bool :=
  required.all (fun key => (field record key).isSome) &&
    record.all (fun f => (required ++ optional).any (fun key => f.1 = ofString key))

/-- `boundedString`, for strings that may not be empty. -/
def boundedString (value : Option Value) (name : String) (max : Nat) : Parse Text :=
  match value with
  | some (.string s) =>
    if s.length = 0 || max < s.length then invalid (name ++ " is invalid")
    else if s.any (fun c => c.val = 0x00 || c.val = 0x0D || c.val = 0x0A) then
      invalid (name ++ " contains a forbidden control character")
    else .ok s
  | _ => invalid (name ++ " is invalid")

/-! ## Timestamps -/

/-- The days from the epoch to a date of the Gregorian calendar. -/
def daysOfDate (year : Int) (month day : Nat) : Int :=
  let y := if month ≤ 2 then year - 1 else year
  let era := y.fdiv 400
  let yearOfEra := y - era * 400
  let dayOfYear : Int := (153 * (if month > 2 then month - 3 else month + 9) + 2) / 5 + day - 1
  era * 146097 + (yearOfEra * 365 + yearOfEra / 4 - yearOfEra / 100 + dayOfYear) - 719468

def dateOfDays (days : Int) : Int × Nat × Nat :=
  let z := days + 719468
  let era := z.fdiv 146097
  let dayOfEra := (z - era * 146097).toNat
  let yearOfEra := (dayOfEra - dayOfEra / 1460 + dayOfEra / 36524 - dayOfEra / 146096) / 365
  let dayOfYear := dayOfEra - (365 * yearOfEra + yearOfEra / 4 - yearOfEra / 100)
  let m := (5 * dayOfYear + 2) / 153
  let month := if m < 10 then m + 3 else m - 9
  ((if month ≤ 2 then yearOfEra + 1 else yearOfEra) + era * 400, month, dayOfYear - (153 * m + 2) / 5 + 1)

/-- A number in as many digits. -/
def padded (width n : Nat) : Text := ((Nat.toDigits 10 n).leftpad width '0').map fun c => Fin.ofNat 65536 c.toNat

/-- `Date.prototype.toISOString`. -/
def toISOString (ms : Int) : Text :=
  let (year, month, day) := dateOfDays (ms.fdiv 86400000)
  let time := (ms.fmod 86400000).toNat
  (if 0 ≤ year ∧ year ≤ 9999 then padded 4 year.toNat
    else (if year < 0 then 0x2D else 0x2B) :: padded 6 year.natAbs) ++
    0x2D :: padded 2 month ++ 0x2D :: padded 2 day ++ 0x54 :: padded 2 (time / 3600000) ++
    0x3A :: padded 2 (time / 60000 % 60) ++ 0x3A :: padded 2 (time / 1000 % 60) ++ 0x2E :: padded 3 (time % 1000) ++ [0x5A]

/-- The number that digits tell, if they are digits. -/
def number? (s : Text) : Option Nat := if s.all isDigit then some (digits s) else none

/-- `Date.parse` of a text with the form that `toISOString` has. -/
def dateParse (s : Text) : Option Int := do
  let (negative, wide) := match s with
    | 0x2D :: _ => (true, true)
    | 0x2B :: _ => (false, true)
    | _ => (false, false)
  let s := if wide then s.drop 1 else s
  let (yearText, s) := s.splitAt (if wide then 6 else 4)
  let year ← number? yearText
  let month ← number? ((s.drop 1).take 2)
  let day ← number? ((s.drop 4).take 2)
  let hour ← number? ((s.drop 7).take 2)
  let minute ← number? ((s.drop 10).take 2)
  let second ← number? ((s.drop 13).take 2)
  let milli ← number? ((s.drop 16).take 3)
  let ms := daysOfDate (if negative then -year else year) month day * 86400000 +
    (hour * 3600000 + minute * 60000 + second * 1000 + milli : Nat)
  if -8640000000000000 ≤ ms ∧ ms ≤ 8640000000000000 then some ms else none

example : toISOString 1763539200123 = ofString "2025-11-19T08:00:00.123Z" := by decide

def timestamp (value : Option Value) (name : String) : Parse Text := do
  let parsed ← boundedString value name 64
  match dateParse parsed with
  | some ms => if toISOString ms = parsed then return parsed else invalid (name ++ " is invalid")
  | none => invalid (name ++ " is invalid")

/-! ## The lease -/

structure Owner where
  kind : Terminal.OwnerKind
  instanceId : Text
  deriving DecidableEq

def ownerKinds : List (Terminal.OwnerKind × String) :=
  [(.feishu, "feishu"), (.dashboard, "dashboard"), (.localCli, "local-cli"), (.relayV2, "relay-v2"), (.twServe, "tw-serve")]

/-- The kind among these that the value names. -/
def named {α : Type} (kinds : List (α × String)) (value : Option Value) : Option α :=
  match value with
  | some (.string s) => (kinds.find? (fun k => ofString k.2 = s)).map Prod.fst
  | _ => none

def owner (value : Option Value) : Parse Owner :=
  match value.bind isRecord with
  | some record =>
    if exactKeys record ["kind", "instanceId"] [] then
      match named ownerKinds (field record "kind") with
      | some kind => return ⟨kind, ← boundedString (field record "instanceId") "owner.instanceId" 256⟩
      | none => invalid "owner.kind is invalid"
    else invalid "owner is invalid"
  | none => invalid "owner is invalid"

structure Lease where
  controlTargetId : Text
  controlEpoch : Text
  leaseId : Text
  fence : Text
  owner : Owner
  expiresAt : Text
  deriving DecidableEq

/-- `/^(?:0|[1-9]\d*)$/`. -/
def isDecimal (s : Text) : Bool := s.all isDigit && s ≠ [] && (s.head? ≠ some 0x30 || s.length = 1)

def lease (value : Option Value) : Parse Lease :=
  match value.bind isRecord with
  | some record =>
    if exactKeys record ["controlTargetId", "controlEpoch", "leaseId", "fence", "owner", "expiresAt"] [] then do
      let fence ← boundedString (field record "fence") "lease.fence" 32
      if isDecimal fence then
        return ⟨← boundedString (field record "controlTargetId") "lease.controlTargetId" 128,
          ← boundedString (field record "controlEpoch") "lease.controlEpoch" 128,
          ← boundedString (field record "leaseId") "lease.leaseId" 128, fence, ← owner (field record "owner"),
          ← timestamp (field record "expiresAt") "lease.expiresAt"⟩
      else invalid "lease.fence is invalid"
    else invalid "lease is invalid"
  | none => invalid "lease is invalid"

/-- `/^(?:0|[1-9]\d{0,4})$/`. -/
def isPane (s : Text) : Bool := isDecimal s && s.length ≤ 5

def pane (value : Option Value) : Parse Text := do
  let parsed ← boundedString value "pane" 8
  if isPane parsed then return parsed else invalid "pane is invalid"

/-! ## Runtime settings -/

inductive ReasoningEffort where
  | low | medium | high | xhigh | max | ultra
  deriving DecidableEq, Repr

inductive RuntimeMode where
  | default | plan
  deriving DecidableEq, Repr

/-- `TerminalControlAgentRuntimeSettings`. -/
structure RuntimeSettings where
  model : Option Text
  reasoningEffort : Option ReasoningEffort
  mode : RuntimeMode
  deriving DecidableEq

def ReasoningEffort.text : ReasoningEffort → String
  | low => "low"
  | medium => "medium"
  | high => "high"
  | xhigh => "xhigh"
  | max => "max"
  | ultra => "ultra"

def RuntimeMode.text : RuntimeMode → String
  | default => "default"
  | plan => "plan"

def efforts : List (ReasoningEffort × String) := [.low, .medium, .high, .xhigh, .max, .ultra].map fun e => (e, e.text)

def modes : List (RuntimeMode × String) := [.default, .plan].map fun m => (m, m.text)

/-- A character of `[A-Za-z0-9._:-]`. -/
def isModelUnit (c : CodeUnit) : Bool :=
  (65 ≤ c.val && c.val ≤ 90) || (97 ≤ c.val && c.val ≤ 122) || isDigit c || c.val = 0x2E || c.val = 0x5F || c.val = 0x3A ||
    c.val = 0x2D

def runtimeModel (value : Option Value) : Parse (Option Text) :=
  match value with
  | some .null => return none
  | _ => do
    let model ← boundedString value "runtime.model" 128
    if model.all isModelUnit then return some model else invalid "runtime.model is invalid"

def reasoningEffort (value : Option Value) : Parse (Option ReasoningEffort) :=
  match value with
  | some .null => return none
  | _ =>
    match named efforts value with
    | some effort => return some effort
    | none => invalid "runtime.reasoningEffort is invalid"

def agentRuntimeSettings (value : Value) : Parse RuntimeSettings :=
  match isRecord value with
  | some record =>
    if exactKeys record ["model", "reasoningEffort", "mode"] [] then do
      let model ← runtimeModel (field record "model")
      let effort ← reasoningEffort (field record "reasoningEffort")
      match named modes (field record "mode") with
      | some mode =>
        if model = some (ofString "gpt-5.6-luna") ∧ effort = some .ultra then
          invalid "GPT-5.6-Luna does not support ultra reasoning effort"
        else return ⟨model, effort, mode⟩
      | none => invalid "runtime.mode is invalid"
    else invalid "runtime is invalid"
  | none => invalid "runtime is invalid"

/-! ## The request -/

structure AgentMessage where
  requestId : Text
  lease : Lease
  operationId : Text
  pane : Text
  message : Text
  submit : Bool
  runtime : Option RuntimeSettings
  deriving DecidableEq

/-- The number `1`. -/
def one : Binary64 := ⟨false, 1023 * Binary64.hidden, by decide⟩

/-- The case `input.agent-message` of `parseTerminalControlRequest`. -/
def parseAgentMessage (record : Record) (requestId : Text) : Parse AgentMessage :=
  if exactKeys record ["protocolVersion", "requestId", "type", "lease", "operationId", "pane", "message", "submit"] ["runtime"]
  then
    match field record "message" with
    | some (.string message) =>
      if maxInputBytes < utf8Length 3 message then invalid "message is invalid or too large"
      else
        match field record "submit" with
        | some (.bool submit) => do
          let lease ← lease (field record "lease")
          let operationId ← boundedString (field record "operationId") "operationId" 192
          let pane ← pane (field record "pane")
          let runtime ← (field record "runtime").mapM agentRuntimeSettings
          return ⟨requestId, lease, operationId, pane, message, submit, runtime⟩
        | _ => invalid "submit must be boolean"
    | _ => invalid "message is invalid or too large"
  else invalid "invalid or unknown request type: input.agent-message"

/-- `parseTerminalControlRequest`; a request of another type, whose case is not embedded, is `none`. -/
def parseTerminalControlRequest (value : Value) : Parse (Option AgentMessage) :=
  match isRecord value with
  | some record => do
    match field record "protocolVersion" with
    | some (.number d) =>
      if d = one then
        let requestId ← boundedString (field record "requestId") "requestId" 128
        let type ← boundedString (field record "type") "type" 64
        if type = ofString "input.agent-message" then return some (← parseAgentMessage record requestId) else return none
      else .error (denied .unsupportedVersion "unsupported terminal-control protocolVersion")
    | _ => .error (denied .unsupportedVersion "unsupported terminal-control protocolVersion")
  | none => invalid "request must be an object"

end Request
end TmuxWorktree
