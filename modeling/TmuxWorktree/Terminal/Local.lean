import TmuxWorktree.Terminal.Store
import Mathlib.Logic.Function.Basic
/-!
# Local — what one authority process holds in memory, and its synchronous entry points

The producer registry (`interactiveOwners`), the exact-target claims and observations, and the counters of external
operations live in one Node process and are lost with it.  A `Sync` is a piece of the authority that runs to its end
without an `await`: the parts of a request before it takes the store lock and after it gives it back, and the calls
that never take it.  Any number of them may run between two locked sections, and at every `await` inside one.
-/
namespace TmuxWorktree
namespace Terminal

/-! ## Relay v2 exact targets -/

inductive ProcessKind where
  | localProcess | ssh
  deriving DecidableEq, Repr

structure ProcessTarget where
  kind : ProcessKind
  targetId : String
  deriving DecidableEq, Repr

structure ManagedTarget where
  name : String
  kind : SessionKind
  incarnation : String
  deriving DecidableEq, Repr

/-- `TerminalControlRelayV2ExactTargetInput`; its `canonicalJson` text is the record itself. -/
structure ExactInput where
  hostId : String
  scopeId : String
  sessionId : String
  pane : Nat
  processTarget : ProcessTarget
  backendInstanceKey : String
  managedTarget : ManagedTarget
  owner : Owner
  deriving DecidableEq, Repr

structure ExactIdentity where
  controlTargetId : String
  controlEpoch : String
  targetIncarnationProof : String
  deriving DecidableEq, Repr

/-- The white space that `trim` removes. -/
def isTrimmed (c : Char) : Bool :=
  let n := c.toNat
  (9 ≤ n && n ≤ 13) || n = 32 || n = 0xa0 || n = 0x1680 || (0x2000 ≤ n && n ≤ 0x200a) || n = 0x2028 || n = 0x2029 ||
    n = 0x202f || n = 0x205f || n = 0x3000 || n = 0xfeff

def relayV2ExactBoundedId (s : String) (maxBytes : Nat) : Except ControlError String :=
  if s.toList = [] || s.toList.head?.any isTrimmed || s.toList.getLast?.any isTrimmed || !noControl s ||
      s.utf8ByteSize > maxBytes then
    .error (denied .invalidRequest "Relay v2 exact target identity is invalid")
  else .ok s

/-- `/^twinc2\.[A-Za-z0-9_-]{43}$/`. -/
def isIncarnation (s : String) : Bool :=
  s.toList.take 7 = "twinc2.".toList && s.toList.length = 50 &&
    (s.toList.drop 7).all (fun c => c.isAlphanum || c = '_' || c = '-')

def relayV2ExactInput (value : ExactInput) : Except ControlError ExactInput := do
  if value.pane > 65535 || !isIncarnation value.managedTarget.incarnation || value.owner.kind ≠ .relayV2 then
    .error (denied .invalidRequest "Relay v2 exact target input is malformed")
  else
    let hostId ← relayV2ExactBoundedId value.hostId 128
    let scopeId ← relayV2ExactBoundedId value.scopeId 128
    let sessionId ← relayV2ExactBoundedId value.sessionId 128
    let targetId ← relayV2ExactBoundedId value.processTarget.targetId 128
    let backendInstanceKey ← relayV2ExactBoundedId value.backendInstanceKey 128
    let name ← relayV2ExactBoundedId value.managedTarget.name 128
    let instanceId ← relayV2ExactBoundedId value.owner.instanceId 256
    .ok
      { hostId := hostId
        scopeId := scopeId
        sessionId := sessionId
        pane := value.pane
        processTarget := { value.processTarget with targetId := targetId }
        backendInstanceKey := backendInstanceKey
        managedTarget := { value.managedTarget with name := name }
        owner := ⟨.relayV2, instanceId⟩ }

def ownerRelayV2ExactConsumer (value : Owner) : Except ControlError Owner := do
  if value.kind ≠ .relayV2 then
    .error (denied .invalidRequest "Relay v2 exact target consumer owner is invalid")
  else
    let instanceId ← relayV2ExactBoundedId value.instanceId 256
    .ok ⟨.relayV2, instanceId⟩

def relayV2ExactIdentity (value : ExactIdentity) : Except ControlError ExactIdentity := do
  let controlTargetId ← relayV2ExactBoundedId value.controlTargetId 128
  let controlEpoch ← relayV2ExactBoundedId value.controlEpoch 128
  let targetIncarnationProof ← relayV2ExactBoundedId value.targetIncarnationProof 128
  .ok ⟨controlTargetId, controlEpoch, targetIncarnationProof⟩

/-! ## Process memory -/

inductive ClaimState where
  | prepared | admitted | consumed | revoked
  deriving DecidableEq, Repr

/-- `RelayV2ExactClaimRecord`.  `registered` says that the claim is still in the two registries of the authority;
`observing`, that `consumeRelayV2ExactObservation` burned it. -/
structure ClaimRecord where
  input : ExactInput
  preparationId : String
  identity : ExactIdentity
  lease : Lease
  externalEpoch : Nat
  targetExternalEpoch : Nat
  state : ClaimState
  registered : Bool
  observing : Bool
  deriving DecidableEq, Repr

structure TargetExternalState where
  epoch : Nat
  operations : Nat
  lastTouchedMs : Int
  deriving DecidableEq, Repr

/-- `RelayV2ExactObservationRecord`; an open one is in `relayV2ExactLiveObservations` and in the observer set of its
target. -/
structure ObservationRecord where
  controlTargetId : String
  controlEpoch : String
  targetIncarnationProof : String
  outputGeneration : String
  pane : String
  isOpen : Bool
  deriving DecidableEq, Repr

structure Local where
  interactiveOwners : String → Option Owner
  claims : List ClaimRecord
  /-- results of `prepareRelayV2ExactTarget` whose claim is not registered yet -/
  unclaimed : List ClaimRecord
  observations : List ObservationRecord
  targetExternalStates : String → Option TargetExternalState
  relayV2ExternalEpoch : Nat
  relayV2ExternalOperations : Nat
  relayV2ExactClosed : Bool

/-- A process that has just started. -/
def Local.fresh : Local where
  interactiveOwners := fun _ => none
  claims := []
  unclaimed := []
  observations := []
  targetExternalStates := fun _ => none
  relayV2ExternalEpoch := 0
  relayV2ExternalOperations := 0
  relayV2ExactClosed := false

namespace Local

/-- `resetInteractiveOwners` and the deletion in `unregisterInteractiveOwner`. -/
def resetInteractiveOwners (l : Local) (controlTargetId : String) : Local :=
  { l with interactiveOwners := Function.update l.interactiveOwners controlTargetId none }

def setInteractiveOwner (l : Local) (controlTargetId : String) (owner : Owner) : Local :=
  { l with interactiveOwners := Function.update l.interactiveOwners controlTargetId (some owner) }

def targetExternalOperations (l : Local) (controlTargetId : String) : Nat :=
  ((l.targetExternalStates controlTargetId).map (·.operations)).getD 0

def targetExternalEpoch (l : Local) (controlTargetId : String) : Nat :=
  ((l.targetExternalStates controlTargetId).map (·.epoch)).getD 0

/-- `relayV2ExactClaimCurrent`. -/
def claimCurrent (l : Local) (record : ClaimRecord) (nowMs : Int) : Bool :=
  !l.relayV2ExactClosed && l.relayV2ExternalOperations = 0 && l.relayV2ExternalEpoch = record.externalEpoch &&
    l.targetExternalOperations record.identity.controlTargetId = 0 &&
    l.targetExternalEpoch record.identity.controlTargetId = record.targetExternalEpoch &&
    nowMs < record.lease.expiresAt

/-- `relayV2ExactObserverCount`. -/
def observerCount (l : Local) (controlTargetId : String) : Nat :=
  l.observations.countP (fun o => o.isOpen && o.controlTargetId = controlTargetId)

/-- `relayV2ExactPruneStaleObservers`. -/
def pruneStaleObservers (l : Local) (epoch : String) (t : TargetRecord) : Local :=
  { l with
    observations := l.observations.map (fun o =>
      if o.isOpen && o.controlTargetId = t.controlTargetId &&
          (t.lifecycle = .targetGone || o.controlEpoch ≠ epoch || o.outputGeneration ≠ t.outputGeneration) then
        { o with isOpen := false }
      else o) }

/-- The claims that a withdrawal takes out of the registries: those of one target, or all. -/
def withdrawClaims (l : Local) (only : Option String) : Local :=
  { l with
    claims := l.claims.map (fun c =>
      if c.registered && only.all (fun id => c.identity.controlTargetId = id) then
        { c with
          registered := false
          state := if c.state = .consumed then c.state else .revoked }
      else c) }

def sweepTargetExternalStates (l : Local) (nowMs ttlMs : Int) : Local :=
  { l with
    targetExternalStates := fun id => (l.targetExternalStates id).filter (fun s =>
      !(s.operations = 0 && s.lastTouchedMs < nowMs - ttlMs)) }

/-- The claim record is replaced. -/
def setClaim (l : Local) (claim : Nat) (record : ClaimRecord) : Local := { l with claims := l.claims.set claim record }

end Local

/-! ## Events

The trace of a run: what became durable, what was handed out, and what was done to a terminal. -/

inductive ActivationCause where
  | reconciled | exactPreparation | forced
  deriving DecidableEq, Repr

inductive Event where
  /-- the state file now holds this state -/
  | saved (state : ControlState)
  /-- a save threw -/
  | saveFailed
  /-- `parseTerminalControlState` refused the state of a save -/
  | saveRejected (state : ControlState)
  /-- a record was made for a backend that had none -/
  | created (target : String)
  /-- a lease was built for a caller -/
  | issued (lease : Lease)
  /-- `validateLease` of a target: do epoch, lease id and fence match, and was the lease accepted -/
  | validated (target : String) (lease : Lease) (agrees accepted : Bool)
  /-- an operation was put in flight -/
  | started (target operationId : String)
  /-- a write call was made for an operation; `returned` if it ended without an error -/
  | write (target operationId : String) (kind : OperationKind) (owner : Owner) (fence : Nat) (returned : Bool)
  /-- the last write call of this operation is proved not to have been applied -/
  | provenNotApplied (target operationId : String)
  /-- the journal dropped a committed entry -/
  | evicted (target operationId : String)
  /-- `invalidateTarget` -/
  | retired (target : String)
  /-- `markRecovery`, with the record before it, the recovery instant and the operation named in its options -/
  | fenced (target : String) (before : TargetRecord) (reason : RecoveryReason) (since : Int)
      (operationId : Option String)
  /-- a target went from `RECOVERY_REQUIRED` back to `ACTIVE` -/
  | activated (target : String) (cause : ActivationCause)
  /-- `unregisterInteractiveOwner` in `release` -/
  | released (target : String) (owner : Owner)
  /-- `consumeRelayV2ExactTarget` made this owner the producer -/
  | rebound (target : String) (owner : Owner)
  /-- the process died and a new one started -/
  | restarted
  deriving DecidableEq, Repr

namespace TargetRecord

/-- What `appendOperation` drops. -/
def evictions (t : TargetRecord) (op : OperationRecord) : List Event :=
  let ops := t.completedOperations ++ [op]
  (((evictedIndex ops).bind (fun i => ops[i]?)).map (fun d => Event.evicted t.controlTargetId d.operationId)).toList

/-- What `completeInFlightAsInDoubt` drops. -/
def inDoubtEvictions (t : TargetRecord) (completedAt : Int) : List Event :=
  match t.inFlight with
  | none => []
  | some op => t.evictions (InFlightOperation.asInDoubt op completedAt)

def fenceEvents (t : TargetRecord) (reason : RecoveryReason) (options : RecoveryOptions) (completedAt since : Int) :
    List Event :=
  .fenced t.controlTargetId t reason since options.operationId :: t.inDoubtEvictions completedAt

end TargetRecord

/-! ## Synchronous entry points -/

inductive Sync where
  /-- `relayV2ExternalOperation`, up to its first `await` -/
  | externalBegin
  /-- its `finally` -/
  | externalEnd
  /-- `relayV2TargetExternalOperation` of a target, up to its first `await` -/
  | targetExternalBegin (controlTargetId : String)
  | targetExternalEnd (controlTargetId : String)
  /-- the end of `prepareRelayV2ExactTarget`: the claim is registered, or revoked if it is not current -/
  | registerClaim
  /-- `fenceRelayV2ExactTarget` -/
  | fenceClaim (claim : Nat) (input : ExactInput)
  /-- `consumeRelayV2ExactTarget` -/
  | consumeClaim (claim : Nat) (input : ExactInput) (consumerOwner : Owner)
  /-- `consumeRelayV2ExactObservation`, up to its first `await` -/
  | burnClaim (claim : Nat) (input : ExactInput) (identity : ExactIdentity)
  /-- `rollbackRelayV2ExactTarget`, up to its first `await` (also the claim's timer) -/
  | revokeClaim (claim : Nat)
  /-- the end of `closeRelayV2ExactObservation` -/
  | retireObservation (observation : Nat)
  /-- the end of `closeRelayV2ExactTargetAuthority` -/
  | closeAuthority
  deriving DecidableEq, Repr

/-- The external operation that the running section belongs to: it ends after the section. -/
inductive Running where
  | none | external | target (controlTargetId : String)
  deriving DecidableEq, Repr

/-- The number of open external operations that must outlive the running section. -/
def Running.held : Running → Nat
  | .external => 1
  | _ => 0

def Running.heldTarget (r : Running) (controlTargetId : String) : Nat := if r = .target controlTargetId then 1 else 0

/-- One synchronous entry point, at clock reading `nowMs`, with the events it leaves in the trace.  A call that throws
changes nothing. -/
def Sync.run (ttlMs nowMs : Int) (running : Running) (l : Local) : Sync → Local × List Event
  | externalBegin =>
    ({ l.withdrawClaims none with
        relayV2ExternalOperations := l.relayV2ExternalOperations + 1
        relayV2ExternalEpoch := l.relayV2ExternalEpoch + 1 }, [])
  | externalEnd =>
    if l.relayV2ExternalOperations ≤ running.held then (l, [])
    else ({ l with
        relayV2ExternalOperations := l.relayV2ExternalOperations - 1
        relayV2ExternalEpoch := l.relayV2ExternalEpoch + 1 }, [])
  | targetExternalBegin id =>
    let l := l.sweepTargetExternalStates nowMs ttlMs
    let s := (l.targetExternalStates id).getD ⟨0, 0, 0⟩
    ({ l.withdrawClaims (some id) with
        targetExternalStates := Function.update l.targetExternalStates id
          (some ⟨s.epoch + 1, s.operations + 1, nowMs⟩) }, [])
  | targetExternalEnd id =>
    match l.targetExternalStates id with
    | none => (l, [])
    | some s =>
      if s.operations ≤ running.heldTarget id then (l, [])
      else ({ l with
          targetExternalStates := Function.update l.targetExternalStates id
            (some { s with epoch := s.epoch + 1, operations := s.operations - 1 }) }, [])
  | registerClaim =>
    match l.unclaimed with
    | [] => (l, [])
    | record :: rest =>
      let record := if l.claimCurrent record nowMs then { record with state := .prepared, registered := true }
        else { record with state := .revoked, registered := false }
      ({ l with claims := l.claims ++ [record], unclaimed := rest }, [])
  | fenceClaim claim input =>
    match relayV2ExactInput input, l.claims[claim]? with
    | .ok input, some record =>
      if record.registered && record.state = .prepared && record.input = input && l.claimCurrent record nowMs then
        (l.setClaim claim { record with state := .admitted }, [])
      else (l, [])
    | _, _ => (l, [])
  | consumeClaim claim input consumerOwner =>
    match relayV2ExactInput input, ownerRelayV2ExactConsumer consumerOwner, l.claims[claim]? with
    | .ok input, .ok owner, some record =>
      if record.registered && record.state = .admitted && record.input = input && l.claimCurrent record nowMs then
        ((l.setClaim claim { record with state := .consumed, registered := false }).setInteractiveOwner
            record.lease.controlTargetId owner,
          [.issued { record.lease with owner := owner }, .rebound record.lease.controlTargetId owner])
      else (l, [])
    | _, _, _ => (l, [])
  | burnClaim claim input identity =>
    match relayV2ExactInput input, relayV2ExactIdentity identity, l.claims[claim]? with
    | .ok input, .ok identity, some record =>
      if record.registered && record.state = .admitted && record.input = input && record.identity = identity &&
          l.claimCurrent record nowMs then
        (l.setClaim claim { record with state := .consumed, registered := false, observing := true }, [])
      else (l, [])
    | _, _, _ => (l, [])
  | revokeClaim claim =>
    match l.claims[claim]? with
    | some record =>
      if record.registered && record.state ≠ .consumed && record.state ≠ .revoked then
        (l.setClaim claim { record with state := .revoked, registered := false }, [])
      else (l, [])
    | none => (l, [])
  | retireObservation observation =>
    ({ l with observations := l.observations.modify observation (fun o => { o with isOpen := false }) }, [])
  | closeAuthority =>
    if l.relayV2ExactClosed then (l, [])
    else ({ l.withdrawClaims none with
        relayV2ExactClosed := true, relayV2ExternalEpoch := l.relayV2ExternalEpoch + 1 }, [])

end Terminal
end TmuxWorktree
