import TmuxWorktree.Terminal.Authority
/-!
# Exact — the relay v2 sections: reservation, rollback, observation

`prepareRelayV2ExactTargetForProcess` reserves a target for a relay v2 owner: it proves the exact tmux incarnation
(or provisions a record for it), reconciles an abandoned owner, and publishes `HELD`.  The reservation is then consumed
into a lease (`Sync.consumeClaim`), consumed into a read observation, or rolled back.
-/
namespace TmuxWorktree
namespace Terminal

open Effect

variable (env : Env)

def relayV2ExactObservedIdentity (input : ExactInput) (observed : ExactObservation) (requireTmuxIdentity : Bool) :
    Except ControlError (Option String) :=
  if observed.managedSession.name ≠ input.managedTarget.name ||
      observed.managedSession.kind ≠ input.managedTarget.kind ||
      observed.managedIncarnation ≠ input.managedTarget.incarnation then
    .error (denied .targetGone "managed target changed during Relay v2 exact preparation")
  else if !isCanonicalTimestamp observed.managedSession.createdAt || !isStoredString observed.paneIdentity 128 ||
      !observed.tmuxInstanceId.all (isStoredString · 128) then
    .error (denied .recoveryRequired "exact terminal backend identity is malformed")
  else if requireTmuxIdentity && observed.tmuxInstanceId.isNone then
    .error (denied .recoveryRequired "exact terminal backend identity is unavailable")
  else .ok observed.tmuxInstanceId

def namedTargets (s : ControlState) (name : String) : List TargetRecord :=
  s.targets.filter (fun t => decide (t.lifecycle ≠ .targetGone ∧ t.managedSession.name = name))

/-- The record's session and tmux instance are those of the observation. -/
def sameIncarnation (o : ExactObservation) (t : TargetRecord) : Bool :=
  decide (t.managedSession.kind = o.managedSession.kind ∧ t.managedSession.createdAt = o.managedSession.createdAt ∧
    o.tmuxInstanceId = some t.tmuxInstanceId)

/-- Whether `prepare` must provision a record: there is none of this incarnation, and the tmux identity is known. -/
def mustProvision (input : ExactInput) (named : List TargetRecord) : M Bool :=
  if named.isEmpty then return true
  else if env.hasObserveExactTarget then do
    let observed ← await env env.observed
    let identity ← Eff.ofExcept (relayV2ExactObservedIdentity input observed false)
    let sameLifecycle := named.filter (fun t => decide
      (t.managedSession.kind = observed.managedSession.kind ∧
        t.managedSession.createdAt = observed.managedSession.createdAt))
    return !named.any (sameIncarnation observed) && !(identity.isNone && !sameLifecycle.isEmpty)
  else return false

/-- The incarnation of an existing record, proved by inspection. -/
def inspectExact (input : ExactInput) (named : List TargetRecord) : M (TargetRecord × ExactObservation) := do
  let inspected ← await env env.observed
  let _ ← Eff.ofExcept (relayV2ExactObservedIdentity input inspected true)
  match named.filter (sameIncarnation inspected) with
  | [t] => return (t, inspected)
  | [] => throw (denied .targetNotFound "exact terminal-control target is missing or ambiguous")
  | _ => throw (denied .recoveryRequired "exact terminal-control target is missing or ambiguous")

/-- A new record for an established incarnation; the older records of the name are retired. -/
def provisionExact (input : ExactInput) (named : List TargetRecord) : M (String × ExactObservation) := do
  Eff.require env.hasEstablishExactTarget
    (denied .targetNotFound "exact terminal-control target is missing")
  let established ← await env env.observed
  let identity ← Eff.ofExcept (relayV2ExactObservedIdentity input established true)
  invalidateTargets env (named.map (·.controlTargetId))
  let id ← pushTarget env established.managedSession (identity.getD "")
  let _ ← prepareOutput env id
  return (id, established)

/-- The identity probe of `reconcileRelayV2ExactInDoubtOperation`. -/
def exactIdentity (id : String) : M Unit :=
  tryCatch (backendAssertCurrent env) (fun error =>
    if error.isGone then retireAndThrow env id error.message
    else throw (denied .recoveryRequired (identityMessage error)))

/-- The recovery record names an in-doubt agent message of a relay v2 owner. -/
def isExactInDoubt (t : TargetRecord) : Bool :=
  match t.recovery with
  | none => false
  | some r => t.lifecycle = .recoveryRequired && t.inFlight = none && r.reason = .operationInDoubt &&
      r.previousOwnerKind = some .relayV2 &&
      r.operationId.any (fun id =>
        (t.completedOperations.find? (fun op => op.operationId = id)).any
          (fun op => op.disposition = .inDoubt && op.kind = .agentMessage))

def reconcileRelayV2ExactInDoubtOperation (id : String) : M Bool := do
  let t ← targetById id
  if !isExactInDoubt t then return false
  else do
    exactIdentity env id
    let _ ← recoverOutput env id
    resetInteractiveOwners id
    logEvent (.activated id .exactPreparation)
    assign env id (fun t => { t with lifecycle := .active, recovery := none, ownership := .free t.fence })
    saveTerminalControlState env
    return true

def busyError (message : String) : ControlError := .protocol .resourceExhausted message true

/-- The second half of the preparation: the record that was found or made is held for the input's owner. -/
def reserveExact (input : ExactInput) (externalEpoch : Nat) (id paneIdentity : String) : M Unit := do
  let _ ← reconcileAbandonedOwnership env id
  let _ ← reconcileRelayV2ExactInDoubtOperation env id
  ensureOperable id
  let w ← Eff.get
  let targetExternalEpoch := w.loc.targetExternalEpoch id
  Eff.require (w.loc.targetExternalOperations id = 0) (busyError "terminal-control target is busy")
  let t ← targetById id
  Eff.require t.ownership.isFree (busyError "exact terminal-control target already has an input owner")
  grantOwnership env id input.owner env.relayV2ExactTargetTtlMs
  resetInteractiveOwners id
  registerInteractiveOwner id input.owner
  saveTerminalControlState env
  let epoch ← controlEpoch
  let t ← targetById id
  let lease ← issueLease id (some input.owner)
  let preparationId ← randomUUID env
  let identity : ExactIdentity := ⟨id, epoch, "twct2." ++ env.digest (.exactTarget input epoch t paneIdentity)⟩
  modifyLocal (fun l => { l with
    unclaimed := l.unclaimed ++
      [⟨input, preparationId, identity, lease, externalEpoch, targetExternalEpoch, .prepared, false, false⟩] })

/-- `prepareRelayV2ExactTargetForProcess`, up to the registration of the claim (`Sync.registerClaim`). -/
def prepareRelayV2ExactTargetForProcess (rawInput : ExactInput) (expectedProcessTarget : Option ProcessTarget) :
    M Unit := do
  let input ← Eff.ofExcept (relayV2ExactInput rawInput)
  let w ← Eff.get
  Eff.require (!w.loc.relayV2ExactClosed && expectedProcessTarget.isSome && env.hasInspectExactTarget)
    (denied .permissionDenied "Relay v2 exact terminal target authority is unavailable")
  Eff.require (expectedProcessTarget = some input.processTarget)
    (denied .permissionDenied "Relay v2 exact terminal target crossed process authority")
  Eff.require (w.loc.relayV2ExternalOperations = 0) (busyError "terminal-control is busy")
  let externalEpoch := w.loc.relayV2ExternalEpoch
  locked env do
    let w ← Eff.get
    Eff.require (!w.loc.relayV2ExactClosed && w.loc.relayV2ExternalOperations = 0 &&
      w.loc.relayV2ExternalEpoch = externalEpoch) (busyError "terminal-control is busy")
    let named := namedTargets w.mem input.managedTarget.name
    let provision ← mustProvision env input named
    let found ← (if provision then provisionExact env input named
      else do
        let r ← inspectExact env input named
        return (r.1.controlTargetId, r.2))
    reserveExact env input externalEpoch found.1 found.2.paneIdentity

/-- `relayV2RollbackRecord`: a reservation that is still ours goes back to `FREE`. -/
def relayV2RollbackRecord (record : ClaimRecord) : M Bool := locked env do
  let w ← Eff.get
  match w.mem.get? record.lease.controlTargetId with
  | none => return false
  | some t =>
    match t.ownership with
    | .held fence owner leaseId _ =>
      if w.mem.controlEpoch = record.lease.controlEpoch && leaseId = record.lease.leaseId &&
          fence = record.lease.fence && sameOwner owner record.lease.owner then do
        resetInteractiveOwners t.controlTargetId
        freeOwnership env t.controlTargetId
        saveTerminalControlState env
        return true
      else return false
    | _ => return false

/-! ## Observation -/

def rejectFencedReservation {α : Type} (id : String) : M α := do
  resetInteractiveOwners id
  freeOwnership env id
  saveTerminalControlState env
  throw (denied .permissionDenied "Relay v2 exact terminal target claim cannot be consumed for observation")

/-- `if (!this.relayV2ExactClaimCurrent(record)) rejectFencedReservation()`. -/
def rejectUnlessCurrent (id : String) (record : ClaimRecord) : M Unit := do
  let nowMs ← isoNow env
  let w ← Eff.get
  if !w.loc.claimCurrent record nowMs then rejectFencedReservation env id else pure ()

/-- A backend call of the consume, whose failure retires or fences the target. -/
def observeProbe {α : Type} (id : String) (answer : Nat → Except ControlError α) (message : String) : M α :=
  tryCatch (await env answer) (fun error =>
    if error.isGone then retireAndThrow env id error.message
    else fenceAndThrow env id .backendIdentityUncertain (message ++ error.message))

structure ObservationBinding where
  controlTargetId : String
  controlEpoch : String
  targetIncarnationProof : String
  outputGeneration : String
  outputCursor : Nat
  deriving DecidableEq, Repr

/-- The inspection of `consumeRelayV2ExactObservation`: the incarnation and its proof are still those of the claim. -/
def observeIncarnation (id : String) (record : ClaimRecord) : M Unit := do
  let inspected ← observeProbe env id env.observed "could not prove the exact terminal backend lifecycle: "
  let t ← targetById id
  if inspected.managedSession.name ≠ record.input.managedTarget.name ||
      inspected.managedSession.kind ≠ record.input.managedTarget.kind ||
      inspected.managedSession.createdAt ≠ t.managedSession.createdAt ||
      inspected.managedIncarnation ≠ record.input.managedTarget.incarnation ||
      inspected.tmuxInstanceId ≠ some t.tmuxInstanceId then
    retireAndThrow env id "managed target changed before Relay v2 exact observation"
  else do
    let epoch ← controlEpoch
    if "twct2." ++ env.digest (.exactTarget record.input epoch t inspected.paneIdentity) ≠
        record.identity.targetIncarnationProof then
      retireAndThrow env id "managed target changed before Relay v2 exact observation"
    else pure ()

/-- `terminalDisplaySizeHint`. -/
def validDisplaySizeHint (hint : Option (Nat × Nat)) : Bool :=
  hint.all (fun s => 1 ≤ s.1 && s.1 ≤ 1000 && 1 ≤ s.2 && s.2 ≤ 500)

/-- The end of the consume: the reservation is freed, and the observer is registered before the save. -/
def publishObservation (id : String) (record : ClaimRecord) (output : Position) : M ObservationBinding := do
  resetInteractiveOwners id
  freeOwnership env id
  let t ← targetById id
  modifyLocal (fun l => { l with
    observations := l.observations ++
      [⟨record.identity.controlTargetId, record.identity.controlEpoch, record.identity.targetIncarnationProof,
        t.outputGeneration, toString record.input.pane, true⟩] })
  saveTerminalControlState env
  return ⟨record.identity.controlTargetId, record.identity.controlEpoch, record.identity.targetIncarnationProof,
    t.outputGeneration, output.retainedStartCursor.getD output.cursor⟩

/-- `consumeRelayV2ExactObservation`, after the claim was burned (`Sync.burnClaim`). -/
def consumeRelayV2ExactObservation (record : ClaimRecord) (displaySizeHint : Option (Nat × Nat)) :
    M ObservationBinding := do
  Eff.require (validDisplaySizeHint displaySizeHint)
    (denied .invalidRequest "terminal display size hint is invalid")
  locked env do
    let id := record.identity.controlTargetId
    let t ← targetById id
    let epoch ← controlEpoch
    Eff.require
      (match t.ownership with
        | .held fence owner leaseId _ => epoch = record.identity.controlEpoch && leaseId = record.lease.leaseId &&
            fence = record.lease.fence && sameOwner owner record.lease.owner
        | _ => false)
      (denied .permissionDenied "Relay v2 exact observation target record is fenced")
    rejectUnlessCurrent env id record
    ensureOperable id
    observeIncarnation env id record
    (match displaySizeHint with
      | none => pure ()
      | some _ => observeProbe env id env.done "could not size the exact terminal before observation: ")
    let w ← Eff.get
    let output ← (if w.loc.observerCount id = 0 then resetOutput env id else prepareOutput env id)
    rejectUnlessCurrent env id record
    publishObservation env id record output

def closedError : ControlError := denied .permissionDenied "Relay v2 exact observation is closed"

/-- The observation is open and the authority is not closed. -/
def requireOpen (observation : Nat) (e : ControlError) : M ObservationRecord := do
  let w ← Eff.get
  match w.loc.observations[observation]? with
  | none => throw (denied .permissionDenied "Relay v2 exact observation is not owned by this authority")
  | some record => if record.isOpen then return record else throw e

def pruneStaleObservers (id : String) : M Unit := do
  let epoch ← controlEpoch
  let t ← targetById id
  modifyLocal (·.pruneStaleObservers epoch t)

def staleCursorError : ControlError :=
  denied .staleOutputCursor "terminal output cursor was fenced by an ownership or controller generation change"

def maxOutputTailBytes : Nat := 262144

structure ObservationTail where
  controlEpoch : String
  chunk : Chunk
  deriving DecidableEq, Repr

def tailRelayV2ExactObservation (observation cursor maxBytes : Nat) : M ObservationTail := do
  Eff.require (isSafeCursor cursor && 1 ≤ maxBytes && maxBytes ≤ maxOutputTailBytes)
    (denied .invalidRequest "Relay v2 exact observation tail bounds are invalid")
  let _ ← requireOpen observation closedError
  locked env do
    let record ← requireOpen observation closedError
    let w ← Eff.get
    Eff.require (!w.loc.relayV2ExactClosed) closedError
    let id := record.controlTargetId
    let t ← targetById id
    pruneStaleObservers id
    Eff.require (t.lifecycle ≠ .targetGone) (denied .targetGone "control target backend lifecycle has ended")
    let _ ← requireOpen observation staleCursorError
    tryCatch (assertTargetCurrent env id) (fun error => do
      pruneStaleObservers id
      throw error)
    pruneStaleObservers id
    let _ ← requireOpen observation staleCursorError
    let chunk ← tailChunk env id
    let epoch ← controlEpoch
    return ⟨epoch, chunk⟩

/-- `closeRelayV2ExactObservation`, up to the retirement of the observer (`Sync.retireObservation`). -/
def closeRelayV2ExactObservation (observation : Nat) : M Unit := do
  let w ← Eff.get
  match w.loc.observations[observation]? with
  | none => pure ()
  | some record =>
    if !record.isOpen || w.loc.relayV2ExactClosed then pure ()
    else locked env do
      let id := record.controlTargetId
      let w ← Eff.get
      match w.mem.get? id with
      | none => pure ()
      | some t => do
        pruneStaleObservers id
        let w ← Eff.get
        if !((w.loc.observations[observation]?).any (·.isOpen)) || t.lifecycle ≠ .active || !t.ownership.isFree ||
            t.inFlight.isSome || w.loc.observerCount id ≠ 1 then pure ()
        else do
          let _ ← resetOutput env id
          assign env id (fun t => t)
          saveTerminalControlState env

/-- The observers pruned by `relayV2ExactIdleActivitySnapshot`, and its count of active leases. -/
def relayV2ExactIdleActivitySnapshot : M Nat := do
  let nowMs ← isoNow env
  tryCatch
    (locked env do
      let w ← Eff.get
      modifyLocal (fun l => w.mem.targets.foldl (fun l t => l.pruneStaleObservers w.mem.controlEpoch t) l)
      return w.mem.targets.countP (fun t =>
        t.ownership.leaseExpiresAt?.any (fun x => nowMs < x) || t.inFlight.isSome))
    (fun _ => return 1)

end Terminal
end TmuxWorktree
