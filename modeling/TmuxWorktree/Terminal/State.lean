import Mathlib.Data.List.Basic
import Mathlib.Algebra.Order.Ring.Nat
/-!
# State — the persisted terminal-control record (`store.ts`, `protocol.ts`)

One `TargetRecord` for each managed terminal: who may write to it (`ownership`), whether its continuity is certain
(`lifecycle`, `recovery`), the one write that may be under way (`inFlight`) and the bounded journal of finished writes
(`completedOperations`).  Canonical decimals (`fence`, `revision`) are natural numbers and canonical timestamps are
milliseconds; the other strings stay strings.
-/
namespace TmuxWorktree
namespace Terminal

/-! ## Errors -/

inductive ErrorCode where
  | invalidRequest | unsupportedVersion | targetNotFound | targetGone | permissionDenied | handoffPending
  | recoveryRequired | staleOutputCursor | operationInDoubt | resourceExhausted | internal
  deriving DecidableEq, Repr

/-- What a `throw` carries: a `TerminalControlProtocolError`, its subclass
`TerminalControlAgentMessageNotAppliedError`, or any other `Error`. -/
inductive ControlError where
  | protocol (code : ErrorCode) (message : String) (retryable : Bool)
  | notApplied (code : ErrorCode) (message : String) (retryable : Bool)
  | plain (message : String)
  deriving DecidableEq, Repr

namespace ControlError

/-- `error.code`, for the errors that are `TerminalControlProtocolError`s. -/
def code? : ControlError → Option ErrorCode
  | protocol c _ _ => some c
  | notApplied c _ _ => some c
  | plain _ => none

def message : ControlError → String
  | protocol _ m _ => m
  | notApplied _ m _ => m
  | plain m => m

/-- The backend says that the tmux lifecycle is over. -/
def isGone (e : ControlError) : Bool := e.code? = some .targetGone || e.code? = some .targetNotFound

end ControlError

/-- A `TerminalControlProtocolError` with the default `retryable = false`. -/
def denied (code : ErrorCode) (message : String) : ControlError := .protocol code message false

/-! ## Records -/

inductive OwnerKind where
  | feishu | dashboard | localCli | relayV2 | twServe
  deriving DecidableEq, Repr

structure Owner where
  kind : OwnerKind
  instanceId : String
  deriving DecidableEq, Repr

structure Lease where
  controlTargetId : String
  controlEpoch : String
  leaseId : String
  fence : Nat
  owner : Owner
  expiresAt : Int
  deriving DecidableEq, Repr

inductive DrainDisposition where
  | drained | cancelled | uncertain
  deriving DecidableEq, Repr

structure DrainProof where
  disposition : DrainDisposition
  recordId : String
  recordedAt : Int
  deriving DecidableEq, Repr

inductive Lifecycle where
  | active | recoveryRequired | targetGone
  deriving DecidableEq, Repr

inductive RecoveryReason where
  | controllerRestarted | leaseExpired | operationInDoubt | drainUncertain | backendIdentityUncertain
  | outputContinuityUncertain
  deriving DecidableEq, Repr

structure RecoveryRecord where
  reason : RecoveryReason
  since : Int
  previousControlEpoch : String
  previousOwnerKind : Option OwnerKind
  operationId : Option String
  deriving DecidableEq, Repr

inductive OperationKind where
  | raw | agentMessage | resize | scroll | lifecycleKill
  deriving DecidableEq, Repr

inductive Disposition where
  | committed | inDoubt
  deriving DecidableEq, Repr

structure OperationRecord where
  operationId : String
  ownerInstanceId : String
  fence : Nat
  payloadHash : String
  kind : OperationKind
  disposition : Disposition
  outputGeneration : Option String
  outputCursor : Option Nat
  completedAt : Int
  deriving DecidableEq, Repr

structure InFlightOperation where
  operationId : String
  ownerInstanceId : String
  fence : Nat
  payloadHash : String
  kind : OperationKind
  outputGeneration : Option String
  outputCursor : Option Nat
  startedAt : Int
  deriving DecidableEq, Repr

structure Handoff where
  handoffId : String
  nextOwner : Owner
  requestedAt : Int
  drain : Option DrainProof
  deriving DecidableEq, Repr

inductive Ownership where
  | free (fence : Nat)
  | held (fence : Nat) (owner : Owner) (leaseId : String) (leaseExpiresAt : Int)
  | draining (fence : Nat) (owner : Owner) (leaseId : String) (leaseExpiresAt : Int) (handoff : Handoff)
  deriving DecidableEq, Repr

inductive SessionKind where
  | worktree | terminal
  deriving DecidableEq, Repr

structure ManagedSession where
  name : String
  kind : SessionKind
  createdAt : Int
  deriving DecidableEq, Repr

structure TargetRecord where
  controlTargetId : String
  lifecycle : Lifecycle
  managedSession : ManagedSession
  tmuxInstanceId : String
  outputGeneration : String
  ownership : Ownership
  revision : Nat
  inFlight : Option InFlightOperation
  recovery : Option RecoveryRecord
  completedOperations : List OperationRecord
  updatedAt : Int
  deriving DecidableEq, Repr

structure ControlState where
  controlEpoch : String
  targets : List TargetRecord
  deriving DecidableEq, Repr

namespace Ownership

def fence : Ownership → Nat
  | free f => f
  | held f .. => f
  | draining f .. => f

def owner? : Ownership → Option Owner
  | free _ => none
  | held _ o .. => some o
  | draining _ o .. => some o

def leaseId? : Ownership → Option String
  | free _ => none
  | held _ _ l _ => some l
  | draining _ _ l .. => some l

def leaseExpiresAt? : Ownership → Option Int
  | free _ => none
  | held _ _ _ x => some x
  | draining _ _ _ x _ => some x

def isFree : Ownership → Bool
  | free _ => true
  | _ => false

def isDraining : Ownership → Bool
  | draining .. => true
  | _ => false

/-- `ownership.leaseExpiresAt = x`, on a lease. -/
def extend (x : Int) : Ownership → Ownership
  | free f => free f
  | held f o l _ => held f o l x
  | draining f o l _ h => draining f o l x h

section
variable (f : Nat) (o : Owner) (l : String) (x y : Int) (h : Handoff)

@[simp] theorem fence_free : (free f).fence = f := rfl
@[simp] theorem fence_held : (held f o l x).fence = f := rfl
@[simp] theorem fence_draining : (draining f o l x h).fence = f := rfl
@[simp] theorem owner?_free : (free f).owner? = none := rfl
@[simp] theorem owner?_held : (held f o l x).owner? = some o := rfl
@[simp] theorem owner?_draining : (draining f o l x h).owner? = some o := rfl
@[simp] theorem leaseId?_free : (free f).leaseId? = none := rfl
@[simp] theorem leaseId?_held : (held f o l x).leaseId? = some l := rfl
@[simp] theorem leaseId?_draining : (draining f o l x h).leaseId? = some l := rfl
@[simp] theorem leaseExpiresAt?_free : (free f).leaseExpiresAt? = none := rfl
@[simp] theorem leaseExpiresAt?_held : (held f o l x).leaseExpiresAt? = some x := rfl
@[simp] theorem leaseExpiresAt?_draining : (draining f o l x h).leaseExpiresAt? = some x := rfl
@[simp] theorem isFree_free : (free f).isFree = true := rfl
@[simp] theorem isFree_held : (held f o l x).isFree = false := rfl
@[simp] theorem isFree_draining : (draining f o l x h).isFree = false := rfl
@[simp] theorem isDraining_free : (free f).isDraining = false := rfl
@[simp] theorem isDraining_held : (held f o l x).isDraining = false := rfl
@[simp] theorem isDraining_draining : (draining f o l x h).isDraining = true := rfl

end

theorem extend_same (x : Int) (o : Ownership) :
    (o.extend x).fence = o.fence ∧ (o.extend x).leaseId? = o.leaseId? ∧ (o.extend x).owner? = o.owner? := by
  cases o <;> exact ⟨rfl, rfl, rfl⟩

theorem eq_free_of_isFree {o : Ownership} (h : o.isFree = true) : o = free o.fence := by
  cases o with
  | free f => rfl
  | held f o l x => cases h
  | draining f o l x h' => cases h

end Ownership

/-! ## Small predicates of the authority -/

def isInteractiveOwner (owner : Owner) : Bool := owner.kind ≠ .feishu

/-- `sameOwner` compares kind and instance: it is equality of owners. -/
def sameOwner (left right : Owner) : Bool := left.kind = right.kind && left.instanceId = right.instanceId

theorem sameOwner_iff {left right : Owner} : sameOwner left right = true ↔ left = right := by
  cases left; cases right; simp [sameOwner]

def sameInputOwnerClass (left right : Owner) : Bool :=
  if isInteractiveOwner left && isInteractiveOwner right then true else sameOwner left right

theorem sameInputOwnerClass_iff {left right : Owner} : sameInputOwnerClass left right = true ↔
    left = right ∨ (isInteractiveOwner left = true ∧ isInteractiveOwner right = true) := by
  unfold sameInputOwnerClass
  split
  · rename_i h
    simp only [Bool.and_eq_true] at h
    exact ⟨fun _ => .inr h, fun _ => rfl⟩
  · rename_i h
    simp only [Bool.and_eq_true] at h
    rw [sameOwner_iff]
    exact ⟨.inl, fun h' => h'.resolve_right h⟩

namespace TargetRecord

abbrev fence (t : TargetRecord) : Nat := t.ownership.fence

def leaseExpired (t : TargetRecord) (nowMs : Int) : Bool :=
  match t.ownership.leaseExpiresAt? with
  | none => false
  | some x => x ≤ nowMs

def isAbandonableNonFeishuLease (t : TargetRecord) : Bool :=
  match t.ownership with
  | .held _ owner _ _ => t.lifecycle = .active && owner.kind ≠ .feishu && t.inFlight = none
  | _ => false

def isAutoRecoverableNonFeishuState (t : TargetRecord) : Bool :=
  match t.recovery with
  | none => false
  | some r => t.lifecycle = .recoveryRequired && t.inFlight = none && r.previousOwnerKind ≠ some .feishu &&
      r.operationId = none && r.reason ≠ .operationInDoubt && r.reason ≠ .drainUncertain

def ensureOperable (t : TargetRecord) : Except ControlError Unit :=
  if t.lifecycle = .targetGone then
    .error (denied .targetGone "control target backend lifecycle has ended")
  else if t.lifecycle = .recoveryRequired || t.inFlight.isSome then
    .error (denied .recoveryRequired
      "terminal-control continuity is uncertain; explicit local recovery is required")
  else .ok ()

/-- The lease's epoch, identity and fence are those of the target's current ownership. -/
def leaseMatches (epoch : String) (t : TargetRecord) (lease : Lease) : Bool :=
  lease.controlEpoch = epoch && t.ownership.leaseId? = some lease.leaseId && t.fence = lease.fence

/-- `validateLease` of a target in a state of the given controller epoch. -/
def validateLease (epoch : String) (t : TargetRecord) (lease : Lease) (allowDraining : Bool) :
    Except ControlError Unit := do
  ensureOperable t
  if lease.controlTargetId ≠ t.controlTargetId || lease.controlEpoch ≠ epoch then
    .error (denied .permissionDenied "terminal input lease is fenced")
  else
    match t.ownership with
    | .free _ => .error (denied .permissionDenied "target has no current input owner")
    | .held fence owner leaseId _ =>
      if leaseId ≠ lease.leaseId || fence ≠ lease.fence || !sameInputOwnerClass owner lease.owner then
        .error (denied .permissionDenied "terminal input lease is fenced")
      else .ok ()
    | .draining fence owner leaseId _ _ =>
      if !allowDraining then
        .error (denied .handoffPending "target is draining for ownership handoff")
      else if leaseId ≠ lease.leaseId || fence ≠ lease.fence || !sameInputOwnerClass owner lease.owner then
        .error (denied .permissionDenied "terminal input lease is fenced")
      else .ok ()

/-- `leaseFromTarget`, and `leaseForOwner` when an owner is given. -/
def leaseFromTarget (epoch : String) (t : TargetRecord) : Except ControlError Lease :=
  match t.ownership with
  | .free _ => .error (denied .permissionDenied "target has no input owner")
  | .held fence owner leaseId expiresAt => .ok ⟨t.controlTargetId, epoch, leaseId, fence, owner, expiresAt⟩
  | .draining fence owner leaseId expiresAt _ => .ok ⟨t.controlTargetId, epoch, leaseId, fence, owner, expiresAt⟩

def leaseForOwner (epoch : String) (t : TargetRecord) (owner : Owner) : Except ControlError Lease := do
  let lease ← leaseFromTarget epoch t
  if !sameInputOwnerClass lease.owner owner then
    .error (denied .permissionDenied "terminal input lease is fenced")
  else if sameOwner lease.owner owner then .ok lease
  else .ok { lease with owner := owner }

/-! ## The journal -/

def maxCompletedOperations : Nat := 128

/-- The journal entry that `appendOperation` drops when the journal is full: the oldest committed one. -/
def evictedIndex (ops : List OperationRecord) : Option Nat :=
  if ops.length ≤ maxCompletedOperations then none
  else
    let i := ops.findIdx (fun op => op.disposition = .committed)
    if i < ops.length then some i else none

/-- `appendOperation`: push, then drop the oldest committed entry if the journal is over its bound. -/
def appendOperation (t : TargetRecord) (op : OperationRecord) : TargetRecord :=
  let ops := t.completedOperations ++ [op]
  match evictedIndex ops with
  | none => { t with completedOperations := ops }
  | some i => { t with completedOperations := ops.eraseIdx i }

def InFlightOperation.asInDoubt (op : InFlightOperation) (completedAt : Int) : OperationRecord where
  operationId := op.operationId
  ownerInstanceId := op.ownerInstanceId
  fence := op.fence
  payloadHash := op.payloadHash
  kind := op.kind
  disposition := .inDoubt
  outputGeneration := op.outputGeneration
  outputCursor := op.outputCursor
  completedAt := completedAt

/-- `completeInFlightAsInDoubt`; the operation id it returns is the in-flight one. -/
def completeInFlightAsInDoubt (t : TargetRecord) (completedAt : Int) : TargetRecord :=
  match t.inFlight with
  | none => t
  | some op => { t.appendOperation (InFlightOperation.asInDoubt op completedAt) with inFlight := none }

/-- The owner kind a recovery record remembers. -/
def previousOwnerKind (t : TargetRecord) : Option OwnerKind :=
  match t.ownership.owner? with
  | none => t.recovery.bind (·.previousOwnerKind)
  | some owner => some owner.kind

structure RecoveryOptions where
  previousControlEpoch : Option String := none
  operationId : Option String := none

/-- `markRecovery`: the fence advances, nobody holds the target, and a write under way is journalled as in doubt.
The three clock readings are those of `completedAt`, `since` and `updatedAt`. -/
def markRecovery (epoch : String) (t : TargetRecord) (reason : RecoveryReason) (options : RecoveryOptions)
    (completedAt since updatedAt : Int) : TargetRecord :=
  { t.completeInFlightAsInDoubt completedAt with
    lifecycle := .recoveryRequired
    ownership := .free (t.fence + 1)
    recovery := some
      { reason := reason
        since := since
        previousControlEpoch := options.previousControlEpoch.getD epoch
        previousOwnerKind := t.previousOwnerKind
        operationId := options.operationId <|> t.inFlight.map (·.operationId) }
    revision := t.revision + 1
    updatedAt := updatedAt }

/-- `invalidateTarget`: the incarnation is retired, with its journal. -/
def invalidateTarget (t : TargetRecord) (updatedAt : Int) : TargetRecord :=
  { t with
    lifecycle := .targetGone
    ownership := .free (t.fence + 1)
    inFlight := none
    recovery := none
    completedOperations := []
    revision := t.revision + 1
    updatedAt := updatedAt }

/-- `existingOperation`: the journal entry under this id, if the request may be answered from it. -/
def existingOperation (t : TargetRecord) (operationId ownerInstanceId : String) (fence : Nat) (hash : String)
    (kind : OperationKind) : Except ControlError (Option OperationRecord) :=
  match t.completedOperations.find? (fun op => op.operationId = operationId) with
  | none => .ok none
  | some op =>
    if op.payloadHash ≠ hash || op.kind ≠ kind then
      .error (denied .invalidRequest "operationId was reused with different ownership or payload")
    else if op.disposition = .inDoubt then
      .error (denied .operationInDoubt "operation was accepted previously but its backend disposition is uncertain")
    else if op.ownerInstanceId ≠ ownerInstanceId || op.fence ≠ fence then
      .error (denied .invalidRequest "operationId was reused with different ownership or payload")
    else .ok (some op)

end TargetRecord

/-! ## The state -/

namespace ControlState

/-- `state.targets.find(…)` by id. -/
def get? (s : ControlState) (id : String) : Option TargetRecord :=
  s.targets.find? (fun t => t.controlTargetId = id)

/-- A mutation of the record with this id. -/
def update (s : ControlState) (id : String) (f : TargetRecord → TargetRecord) : ControlState :=
  { s with targets := s.targets.map (fun t => if t.controlTargetId = id then f t else t) }

def push (s : ControlState) (t : TargetRecord) : ControlState := { s with targets := s.targets ++ [t] }

end ControlState
end Terminal
end TmuxWorktree
