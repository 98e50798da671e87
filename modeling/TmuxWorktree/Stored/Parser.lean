import TmuxWorktree.Stored.Shape
/-!
# Parser — the parser of the stored state (`store.ts`)

A test gives a boolean or throws.  The tests of a name compare `String(x)` with the names; of an array this is the join of
its elements, so an array that holds just a name passes for it.
-/
namespace TmuxWorktree
namespace Stored

open Utf16 Grammar
open Request (Record field isRecord exactKeys isDecimal dateParse toISOString)

/-- A boolean, or the text of an exception. -/
abbrev Test := Except Text Bool

/-! ## `String(x)` -/

mutual

/-- `String(x)`.  An object inherits `toString` whenPresent it has a member of this name, which is no function. -/
def jsString : Value → Except Text Text
  | .null => return ofString "null"
  | .bool b => return ofString (if b then "true" else "false")
  | .number d => return numberText d
  | .string s => return s
  | .array items => joined items
  | .object record =>
    if (field record "toString").isSome then .error (ofString "Cannot convert object to primitive value")
    else return ofString "[object Object]"

/-- `join(",")`, for which `null` is empty. -/
def joined : List Value → Except Text Text
  | [] => return []
  | [.null] => return []
  | [v] => jsString v
  | .null :: w :: items => return 0x2C :: (← joined (w :: items))
  | v :: w :: items => return (← jsString v) ++ 0x2C :: (← joined (w :: items))

end

/-! ## Tests -/

/-- `&&`: what follows a test that fails is not run. -/
def allOf : List Test → Test
  | [] => return true
  | t :: ts => do if ← t then allOf ts else return false

/-- `names.includes(String(x))`. -/
def includes (names : List String) : Option Value → Test
  | some v => do
    let s ← jsString v
    return names.any fun name => ofString name = s
  | none => return names.contains "undefined"

/-- `x === "…"`. -/
def equals (value : Option Value) (name : String) : Bool :=
  match value with
  | some (.string s) => s = ofString name
  | _ => false

/-- What a test on an object says of a value. -/
def onRecord (value : Option Value) (test : Record → Test) : Test := (value.bind isRecord).elim (return false) test

/-- `x === undefined || test(x)`. -/
def whenPresent (value : Option Value) (test : Value → Test) : Test := value.elim (return true) test

def onText (value : Option Value) (test : Text → Bool) : Test :=
  match value with
  | some (.string s) => return test s
  | _ => return false

def isStoredString (value : Option Value) (max : Nat) : Test :=
  onText value fun s => s ≠ [] && s.length ≤ max && s.all fun c => c.val ≠ 0x00 && c.val ≠ 0x0D && c.val ≠ 0x0A

def isDecimalString (value : Option Value) : Test := onText value isDecimal

def isCanonicalTimestamp (value : Option Value) : Test :=
  onText value fun s => (dateParse s).any fun ms => toISOString ms = s

/-- `/^[a-f0-9]{64}$/`. -/
def isHash (value : Option Value) : Test :=
  onText value fun s => s.length = 64 && s.all fun c => isDigit c || (97 ≤ c.val && c.val ≤ 102)

/-- `Number.isSafeInteger(x) && x >= 0`. -/
def isCursor : Value → Test
  | .number d => return !(d.negative && d.bits ≠ 0) && Binary64.scaled d.bits % 2 ^ 1074 = 0 && Binary64.scaled d.bits < 2 ^ (53 + 1074)
  | _ => return false

def isOwner (value : Option Value) : Test :=
  onRecord value fun record => allOf
    [.ok (exactKeys record ["kind", "instanceId"] []), includes ownerKinds (field record "kind"),
      isStoredString (field record "instanceId") 256]

def isDrainProof (value : Option Value) : Test :=
  onRecord value fun record => allOf
    [.ok (exactKeys record ["disposition", "recordId", "recordedAt"] []), includes dispositions (field record "disposition"),
      isStoredString (field record "recordId") 192, isCanonicalTimestamp (field record "recordedAt")]

def isHandoff (value : Option Value) : Test :=
  onRecord value fun handoff => allOf
    [.ok (exactKeys handoff ["handoffId", "nextOwner", "requestedAt"] ["drain"]), isStoredString (field handoff "handoffId") 128,
      isOwner (field handoff "nextOwner"), isCanonicalTimestamp (field handoff "requestedAt"),
      whenPresent (field handoff "drain") fun drain => isDrainProof (some drain)]

def isOwnership (value : Option Value) : Test :=
  onRecord value fun record => allOf [isDecimalString (field record "fence"),
    if equals (field record "state") "FREE" then .ok (exactKeys record ["state", "fence"] [])
    else if equals (field record "state") "HELD" then allOf
      [.ok (exactKeys record ["state", "fence", "owner", "leaseId", "leaseExpiresAt"] []), isOwner (field record "owner"),
        isStoredString (field record "leaseId") 128, isCanonicalTimestamp (field record "leaseExpiresAt")]
    else if equals (field record "state") "DRAINING" then allOf
      [.ok (exactKeys record ["state", "fence", "owner", "leaseId", "leaseExpiresAt", "handoff"] []),
        isOwner (field record "owner"), isStoredString (field record "leaseId") 128,
        isCanonicalTimestamp (field record "leaseExpiresAt"), isHandoff (field record "handoff")]
    else return false]

def isOperation (value : Option Value) (inFlight : Bool) : Test :=
  let timeKey := if inFlight then "startedAt" else "completedAt"
  onRecord value fun record => allOf
    [.ok (exactKeys record ["operationId", "ownerInstanceId", "fence", "payloadHash", "kind", timeKey]
        (if inFlight then ["outputGeneration", "outputCursor"] else ["disposition", "outputGeneration", "outputCursor"])),
      isStoredString (field record "operationId") 192, isStoredString (field record "ownerInstanceId") 256,
      isDecimalString (field record "fence"), isHash (field record "payloadHash"),
      includes operationKinds (field record "kind"), isCanonicalTimestamp (field record timeKey),
      .ok (inFlight || equals (field record "disposition") "committed" || equals (field record "disposition") "in-doubt"),
      whenPresent (field record "outputGeneration") fun generation => isStoredString (some generation) 128,
      whenPresent (field record "outputCursor") isCursor]

def isRecovery (value : Option Value) : Test :=
  onRecord value fun record => allOf
    [.ok (exactKeys record ["reason", "since", "previousControlEpoch"] ["previousOwnerKind", "operationId"]),
      includes recoveryReasons (field record "reason"), isCanonicalTimestamp (field record "since"),
      isStoredString (field record "previousControlEpoch") 128,
      whenPresent (field record "previousOwnerKind") fun kind => includes ownerKinds (some kind),
      whenPresent (field record "operationId") fun id => isStoredString (some id) 192]

def isManagedSession (value : Option Value) : Test :=
  onRecord value fun record => allOf
    [.ok (exactKeys record ["name", "kind", "createdAt"] []), isStoredString (field record "name") 128,
      .ok (equals (field record "kind") "worktree" || equals (field record "kind") "terminal"),
      isCanonicalTimestamp (field record "createdAt")]

def isBackend (value : Option Value) : Test :=
  onRecord value fun record => allOf
    [.ok (exactKeys record ["kind", "tmuxInstanceId"] []), .ok (equals (field record "kind") "tmux"),
      isStoredString (field record "tmuxInstanceId") 128]

/-- A member of a value that is an object. -/
def member (value : Option Value) (key : String) : Option Value := (value.bind isRecord).bind fun record => field record key

def memberText (value : Value) (key : String) : Text :=
  match member (some value) key with
  | some (.string s) => s
  | _ => []

def isArrayOf (value : Option Value) (test : Value → Test) : Test :=
  match value with
  | some (.array items) => allOf (items.map test)
  | _ => return false

def elements : Option Value → List Value
  | some (.array items) => items
  | _ => []

def operationIds (record : Record) : List Text :=
  (elements (field record "completedOperations")).map fun operation => memberText operation "operationId"

def isTarget (value : Value) : Test :=
  onRecord (some value) fun record => allOf
    [.ok (exactKeys record
        ["controlTargetId", "lifecycle", "managedSession", "backend", "outputGeneration", "ownership", "revision",
          "completedOperations", "updatedAt"] ["inFlight", "recovery"]),
      isStoredString (field record "controlTargetId") 128, includes lifecycles (field record "lifecycle"),
      isManagedSession (field record "managedSession"), isBackend (field record "backend"),
      isStoredString (field record "outputGeneration") 128, isOwnership (field record "ownership"),
      isDecimalString (field record "revision"),
      isArrayOf (field record "completedOperations") fun operation => isOperation (some operation) false,
      whenPresent (field record "inFlight") fun operation => isOperation (some operation) true,
      .ok (decide (operationIds record).Nodup),
      whenPresent (field record "inFlight") fun operation => .ok (!(operationIds record).contains (memberText operation "operationId")),
      whenPresent (field record "recovery") fun recovery => isRecovery (some recovery),
      .ok (!equals (field record "lifecycle") "RECOVERY_REQUIRED" || (field record "recovery").isSome),
      .ok (equals (field record "lifecycle") "RECOVERY_REQUIRED" || (field record "recovery").isNone),
      .ok (equals (field record "lifecycle") "ACTIVE" || equals (member (field record "ownership") "state") "FREE"),
      isCanonicalTimestamp (field record "updatedAt")]

/-! ## `parseTerminalControlState` -/

def thrown {α : Type} (message : String) : Except Text α := .error (ofString message)

/-- The version is not `TERMINAL_CONTROL_STATE_VERSION`. -/
def unsupported {α : Type} (version : Value) : Except Text α := do
  .error (ofString "unsupported terminal-control state version: " ++ (← jsString version))

def parseVersion : Option Value → Except Text Unit
  | some (.number d) => if d = Request.one then return () else unsupported (.number d)
  | some v => unsupported v
  | none => thrown "terminal-control state root is malformed"

def parseTerminalControlState (value : Value) : Except Text Value :=
  match isRecord value with
  | some record =>
    if exactKeys record ["version", "controlEpoch", "targets"] [] then do
      parseVersion (field record "version")
      if !(← isStoredString (field record "controlEpoch") 128) then thrown "terminal-control state controlEpoch is malformed"
      else if !(← isArrayOf (field record "targets") isTarget) then thrown "terminal-control state targets are malformed"
      else if ((elements (field record "targets")).map fun target => memberText target "controlTargetId").Nodup then return value
      else thrown "terminal-control state contains duplicate target IDs"
    else thrown "terminal-control state root is malformed"
  | none => thrown "terminal-control state root is malformed"

end Stored
end TmuxWorktree
