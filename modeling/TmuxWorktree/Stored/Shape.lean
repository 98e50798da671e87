import TmuxWorktree.Request.Parser
/-!
# Shape — the declared types of the stored state (`store.ts`, `protocol.ts`)

A type of TypeScript is read as the values it holds.  An interface says what its members hold, not that there are no
others.
-/
namespace TmuxWorktree
namespace Stored

open Utf16 Grammar
open Request (Record field isRecord exactKeys)

abbrev Shape := Value → Prop

/-! ## Types -/

def text : Shape := fun v => ∃ s, v = .string s

def number : Shape := fun v => ∃ d, v = .number d

def literals (names : List String) : Shape := fun v => ∃ name ∈ names, v = .string (ofString name)

def arrayOf (shape : Shape) : Shape := fun v => ∃ items, v = .array items ∧ ∀ item ∈ items, shape item

structure Member where
  name : String
  shape : Shape
  optional : Bool

def required (name : String) (shape : Shape) : Member := ⟨name, shape, false⟩

def optional (name : String) (shape : Shape) : Member := ⟨name, shape, true⟩

def Member.In (m : Member) (record : Record) : Prop :=
  (field record m.name = none ∧ m.optional = true) ∨ ∃ v, field record m.name = some v ∧ m.shape v

def interface (members : List Member) : Shape := fun v => ∃ record, v = .object record ∧ ∀ m ∈ members, m.In record

/-! ## The declarations -/

def ownerKinds : List String := ["feishu", "dashboard", "local-cli", "relay-v2", "tw-serve"]

def dispositions : List String := ["drained", "cancelled", "uncertain"]

def operationKinds : List String := ["raw", "agent-message", "resize", "scroll", "lifecycle-kill"]

def recoveryReasons : List String :=
  ["CONTROLLER_RESTARTED", "LEASE_EXPIRED", "OPERATION_IN_DOUBT", "DRAIN_UNCERTAIN", "BACKEND_IDENTITY_UNCERTAIN",
    "OUTPUT_CONTINUITY_UNCERTAIN"]

def lifecycles : List String := ["ACTIVE", "RECOVERY_REQUIRED", "TARGET_GONE"]

def terminalControlOwner : Shape := interface [required "kind" (literals ownerKinds), required "instanceId" text]

def terminalControlDrainProof : Shape :=
  interface [required "disposition" (literals dispositions), required "recordId" text, required "recordedAt" text]

def terminalControlHandoff : Shape :=
  interface [required "handoffId" text, required "nextOwner" terminalControlOwner, required "requestedAt" text,
    optional "drain" terminalControlDrainProof]

/-- `TerminalControlOwnership`, by its state. -/
def terminalControlOwnership : Shape := fun v =>
  interface [required "state" (literals ["FREE"]), required "fence" text] v ∨
  interface [required "state" (literals ["HELD"]), required "fence" text, required "owner" terminalControlOwner,
    required "leaseId" text, required "leaseExpiresAt" text] v ∨
  interface [required "state" (literals ["DRAINING"]), required "fence" text, required "owner" terminalControlOwner,
    required "leaseId" text, required "leaseExpiresAt" text, required "handoff" terminalControlHandoff] v

def terminalControlOperationRecord : Shape :=
  interface [required "operationId" text, required "ownerInstanceId" text, required "fence" text,
    required "payloadHash" text, required "kind" (literals operationKinds),
    required "disposition" (literals ["committed", "in-doubt"]), optional "outputGeneration" text,
    optional "outputCursor" number, required "completedAt" text]

def terminalControlInFlightOperation : Shape :=
  interface [required "operationId" text, required "ownerInstanceId" text, required "fence" text,
    required "payloadHash" text, required "kind" (literals operationKinds), optional "outputGeneration" text,
    optional "outputCursor" number, required "startedAt" text]

def terminalControlRecoveryRecord : Shape :=
  interface [required "reason" (literals recoveryReasons), required "since" text, required "previousControlEpoch" text,
    optional "previousOwnerKind" (literals ownerKinds), optional "operationId" text]

def terminalControlTargetRecord : Shape :=
  interface [required "controlTargetId" text, required "lifecycle" (literals lifecycles),
    required "managedSession"
      (interface [required "name" text, required "kind" (literals ["worktree", "terminal"]), required "createdAt" text]),
    required "backend" (interface [required "kind" (literals ["tmux"]), required "tmuxInstanceId" text]),
    required "outputGeneration" text, required "ownership" terminalControlOwnership, required "revision" text,
    optional "inFlight" terminalControlInFlightOperation, optional "recovery" terminalControlRecoveryRecord,
    required "completedOperations" (arrayOf terminalControlOperationRecord), required "updatedAt" text]

def terminalControlState : Shape :=
  interface [required "version" (fun v => v = .number Request.one), required "controlEpoch" text,
    required "targets" (arrayOf terminalControlTargetRecord)]

end Stored
end TmuxWorktree
