import TmuxWorktree.Terminal.World
/-!
# Authority — the locked sections of `TerminalControlAuthority` (terminal-control v1)

Each definition is the body of the method of that name in `authority.ts`.  A record is mutated through its id, as the
source mutates it through the object it found in `state.targets`; a mutation made before a `throw` stays in the
section's state for whoever catches.
-/
namespace TmuxWorktree
namespace Terminal

open Effect

def defaultLeaseTtlMs : Int := 60000

/-! ## Views and results -/

inductive ViewState where
  | free | held | draining | recoveryRequired | targetGone
  deriving DecidableEq, Repr

structure OwnershipView where
  controlTargetId : String
  controlEpoch : String
  state : ViewState
  fence : Nat
  ownerKind : Option OwnerKind
  nextOwnerKind : Option OwnerKind
  handoffId : Option String
  leaseExpiresAt : Option Int
  outputGeneration : String
  outputCursor : Nat
  revision : Nat
  deriving DecidableEq, Repr

def viewState (t : TargetRecord) : ViewState :=
  match t.lifecycle, t.ownership with
  | .active, .free _ => .free
  | .active, .held .. => .held
  | .active, .draining .. => .draining
  | .recoveryRequired, _ => .recoveryRequired
  | .targetGone, _ => .targetGone

def ownershipView (epoch : String) (t : TargetRecord) (outputCursor : Nat) : OwnershipView where
  controlTargetId := t.controlTargetId
  controlEpoch := epoch
  state := viewState t
  fence := t.fence
  ownerKind := t.previousOwnerKind
  nextOwnerKind := match t.ownership with | .draining _ _ _ _ h => some h.nextOwner.kind | _ => none
  handoffId := match t.ownership with | .draining _ _ _ _ h => some h.handoffId | _ => none
  leaseExpiresAt := t.ownership.leaseExpiresAt?
  outputGeneration := t.outputGeneration
  outputCursor := outputCursor
  revision := t.revision

structure OperationResult where
  operationId : String
  deduplicated : Bool
  controlEpoch : String
  fence : Nat
  outputGeneration : Option String
  outputCursor : Option Nat
  deriving DecidableEq, Repr

def operationResult (epoch : String) (op : OperationRecord) (deduplicated : Bool) : OperationResult :=
  ⟨op.operationId, deduplicated, epoch, op.fence, op.outputGeneration, op.outputCursor⟩

structure LeaseGrant where
  lease : Option Lease
  ownership : OwnershipView
  deriving DecidableEq, Repr

/-! ## Records by id -/

/-- `targetById`; also the read of a record that the section already holds. -/
def targetById (id : String) : M TargetRecord := do
  let w ← Eff.get
  match w.mem.get? id with
  | none => throw (denied .targetNotFound "control target is unknown")
  | some t => return t

def controlEpoch : M String := do
  let w ← Eff.get
  return w.mem.controlEpoch

def view (id : String) (outputCursor : Nat) : M OwnershipView := do
  let epoch ← controlEpoch
  let t ← targetById id
  return ownershipView epoch t outputCursor

variable (env : Env)

def logEvents (es : List Event) : M Unit := Eff.modify (fun w => { w with trace := es ++ w.trace })

/-- `appendOperation(target, operation); target.inFlight = undefined`. -/
def appendOperation (id : String) (op : OperationRecord) : M Unit := do
  let t ← targetById id
  logEvents (t.evictions op)
  modifyTarget id (fun t => { t.appendOperation op with inFlight := none })

def markRecovery (id : String) (reason : RecoveryReason) (options : TargetRecord.RecoveryOptions := {}) : M Unit := do
  let completedAt ← isoNow env
  let since ← isoNow env
  let updatedAt ← isoNow env
  let epoch ← controlEpoch
  let t ← targetById id
  logEvents (t.fenceEvents reason options completedAt since)
  modifyTarget id (fun t => t.markRecovery epoch reason options completedAt since updatedAt)

def invalidateTarget (id : String) : M Unit := do
  let updatedAt ← isoNow env
  logEvent (.retired id)
  modifyTarget id (·.invalidateTarget updatedAt)

/-- `revision(target); target.updatedAt = isoNow(this.now)` after an assignment. -/
def assign (id : String) (f : TargetRecord → TargetRecord) : M Unit := do
  let updatedAt ← isoNow env
  modifyTarget id (fun t => { f t with revision := t.revision + 1, updatedAt := updatedAt })

/-- `invalidateTarget(target); save(); throw TARGET_GONE`. -/
def retireAndThrow {α : Type} (id message : String) : M α := do
  invalidateTarget env id
  saveTerminalControlState env
  throw (denied .targetGone message)

/-- `markRecovery(target, reason); save(); throw RECOVERY_REQUIRED`. -/
def fenceAndThrow {α : Type} (id : String) (reason : RecoveryReason) (message : String) : M α := do
  markRecovery env id reason
  saveTerminalControlState env
  throw (denied .recoveryRequired message)

/-! ## The producer registry -/

def registerInteractiveOwner (id : String) (owner : Owner) : M Unit := do
  let w ← Eff.get
  if !isInteractiveOwner owner then pure ()
  else
    match w.loc.interactiveOwners id with
    | some active =>
      if !sameOwner active owner then
        throw (.protocol .resourceExhausted "terminal input already has another active producer" true)
      else modifyLocal (·.setInteractiveOwner id owner)
    | none => modifyLocal (·.setInteractiveOwner id owner)

def unregisterInteractiveOwner (id : String) (owner : Owner) : M Bool := do
  let w ← Eff.get
  match w.loc.interactiveOwners id with
  | none => return false
  | some active =>
    if !sameOwner active owner then return false
    else do
      modifyLocal (·.resetInteractiveOwners id)
      logEvent (.released id owner)
      return true

def resetInteractiveOwners (id : String) : M Unit := modifyLocal (·.resetInteractiveOwners id)

/-! ## Leases -/

/-- `validateLease` against the section's record. -/
def validateLease (id : String) (lease : Lease) (allowDraining : Bool) : M Unit := do
  let epoch ← controlEpoch
  let t ← targetById id
  let verdict := t.validateLease epoch lease allowDraining
  logEvent (.validated id lease (t.leaseMatches epoch lease) verdict.isOk)
  Eff.ofExcept verdict

/-- `leaseForOwner` if an owner is given, `leaseFromTarget` otherwise. -/
def issueLease (id : String) (owner : Option Owner) : M Lease := do
  let epoch ← controlEpoch
  let t ← targetById id
  let lease ← Eff.ofExcept (match owner with
    | none => t.leaseFromTarget epoch
    | some o => t.leaseForOwner epoch o)
  logEvent (.issued lease)
  return lease

def issueGrant (id : String) (owner : Option Owner) (outputCursor : Nat) : M LeaseGrant := do
  let lease ← issueLease id owner
  let v ← view id outputCursor
  return ⟨some lease, v⟩

/-! ## Output and identity probes -/

def backendAssertCurrent : M Unit := await env env.done

def backendResetOutput : M Position := await env env.position

def outputCaptureLimitMessage : String := "terminal output generation exceeded its bounded capture limit"
def legacyCaptureRotationMessage : String := "terminal output legacy capture requires bounded rotation"

def isOutputRotationError (e : ControlError) : Bool :=
  e.code? = some .resourceExhausted &&
    (e.message = outputCaptureLimitMessage || e.message = legacyCaptureRotationMessage)

def setOutputGeneration (id generation : String) : M Unit :=
  modifyTarget id (fun t => { t with outputGeneration := generation })

/-- `target.outputGeneration = …; revision(target); target.updatedAt = …; save()`. -/
def adoptRepairedOutput (id : String) (output : Position) : M Unit := do
  setOutputGeneration id output.generation
  assign env id (fun t => t)
  saveTerminalControlState env

def continuityMessage (e : ControlError) : String := "terminal output continuity is uncertain: " ++ e.message

def prepareOutput (id : String) : M Position :=
  tryCatch
    (do
      let output ← await env env.position
      setOutputGeneration id output.generation
      return output)
    (fun error => do
      let t ← targetById id
      if t.lifecycle = .active && t.inFlight = none &&
          ((t.ownership.isFree && isOutputRotationError error) ||
            (!t.ownership.isFree && !t.ownership.isDraining &&
              t.ownership.owner?.any (fun o => o.kind ≠ .feishu))) then
        tryCatch
          (do
            backendAssertCurrent env
            let repaired ← backendResetOutput env
            adoptRepairedOutput env id repaired
            return repaired)
          (fun _ => fenceAndThrow env id .outputContinuityUncertain (continuityMessage error))
      else fenceAndThrow env id .outputContinuityUncertain (continuityMessage error))

def resetOutput (id : String) : M Position :=
  tryCatch
    (do
      let output ← backendResetOutput env
      setOutputGeneration id output.generation
      return output)
    (fun error => fenceAndThrow env id .outputContinuityUncertain (continuityMessage error))

def plannedOutputRecoveryGeneration (t : TargetRecord) : Except ControlError String :=
  match t.lifecycle, t.recovery with
  | .recoveryRequired, some r => .ok (env.digest (.outputRecovery t r))
  | _, _ => .error (denied .recoveryRequired "terminal output recovery has no persisted recovery identity")

def recoverOutput (id : String) : M Position :=
  tryCatch
    (do
      let t ← targetById id
      let _planned ← Eff.ofExcept (plannedOutputRecoveryGeneration env t)
      let output ← await env env.position
      setOutputGeneration id output.generation
      return output)
    (fun error => throw (denied .recoveryRequired (continuityMessage error)))

/-- The reset of an abandoned target's output; an error leaves it fenced. -/
def reconcileOutput (id : String) : M Bool :=
  tryCatch
    (do
      let output ← backendResetOutput env
      setOutputGeneration id output.generation
      return true)
    (fun _ => return false)

/-- The identity probe of `reconcileAbandonedOwnership`: an error that does not say "gone" leaves the target fenced. -/
def reconcileIdentity (id : String) : M Bool :=
  tryCatch
    (do
      backendAssertCurrent env
      return true)
    (fun error => if error.isGone then retireAndThrow env id error.message else return false)

/-- `reconcileAbandonedOwnership`, past the fencing of an expired lease. -/
def reconcileFenced (id : String) : M Bool := do
  let t ← targetById id
  if !t.isAutoRecoverableNonFeishuState then return false
  else do
    let current ← reconcileIdentity env id
    if !current then return false
    else do
      let reset ← reconcileOutput env id
      if !reset then return false
      else do
        logEvent (.activated id .reconciled)
        modifyLocal (·.resetInteractiveOwners id)
        assign env id (fun t => { t with lifecycle := .active, recovery := none, ownership := .free t.fence })
        saveTerminalControlState env
        return true

def reconcileAbandonedOwnership (id : String) : M Bool := do
  let t ← targetById id
  let nowMs ← isoNow env
  if t.lifecycle = .active && t.leaseExpired nowMs then do
    markRecovery env id (if t.ownership.isDraining then .drainUncertain else .leaseExpired)
    saveTerminalControlState env
    if !t.isAbandonableNonFeishuLease then return false
    else reconcileFenced env id
  else reconcileFenced env id

def ensureOperable (id : String) : M Unit := do
  let t ← targetById id
  Eff.ofExcept t.ensureOperable

def identityMessage (e : ControlError) : String := "could not prove the exact terminal backend lifecycle: " ++ e.message

def assertTargetCurrent (id : String) : M Unit := do
  let _ ← reconcileAbandonedOwnership env id
  ensureOperable id
  tryCatch (backendAssertCurrent env) (fun error =>
    if error.isGone then retireAndThrow env id error.message
    else fenceAndThrow env id .backendIdentityUncertain (identityMessage error))

/-! ## Continuity over a restart -/

/-- The reason under which `initializeContinuity` fences a record, if it does. -/
def restartReason (t : TargetRecord) : Option RecoveryReason :=
  if t.lifecycle ≠ .active then none
  else if t.inFlight.isSome then some .operationInDoubt
  else
    match t.ownership with
    | .draining .. => some .drainUncertain
    | .held .. => some .controllerRestarted
    | .free _ => none

/-- What `initializeContinuity` does to one record, with the events it leaves. -/
def restartTarget (previousControlEpoch : String) (completedAt since updatedAt : Int) (t : TargetRecord) :
    TargetRecord × List Event :=
  match restartReason t with
  | none => (t, [])
  | some reason =>
    (t.markRecovery previousControlEpoch reason { previousControlEpoch := some previousControlEpoch }
        completedAt since updatedAt,
      t.fenceEvents reason { previousControlEpoch := some previousControlEpoch } completedAt since)

/-- The loop over `state.targets`; three clock readings for each record. -/
def restartTargets (previousControlEpoch : String) (tick : Nat) : List TargetRecord → List TargetRecord × List Event
  | [] => ([], [])
  | t :: ts =>
    let r := restartTarget previousControlEpoch (env.now tick) (env.now (tick + 1)) (env.now (tick + 2)) t
    let rest := restartTargets previousControlEpoch (tick + 3) ts
    (r.1 :: rest.1, rest.2 ++ r.2)

/-- `state.controlEpoch = randomUUID()` and the loop. -/
def World.restartContinuity (w : World) (epoch : String) : World :=
  let r := restartTargets env w.mem.controlEpoch w.tick w.mem.targets
  { w with
    mem := ⟨epoch, r.1⟩
    tick := w.tick + 3 * w.mem.targets.length
    trace := r.2 ++ w.trace }

def initializeContinuity : M String := locked env do
  let epoch ← randomUUID env
  Eff.modify (·.restartContinuity env epoch)
  saveTerminalControlState env
  return epoch

/-! ## Targets -/

def invalidateTargets : List String → M Unit
  | [] => pure ()
  | id :: ids => do
    invalidateTarget env id
    invalidateTargets ids

/-- A record for a backend that has none. -/
def newTarget (id generation : String) (session : ManagedSession) (tmuxInstanceId : String) (updatedAt : Int) :
    TargetRecord where
  controlTargetId := id
  lifecycle := .active
  managedSession := session
  tmuxInstanceId := tmuxInstanceId
  outputGeneration := generation
  ownership := .free 0
  revision := 1
  inFlight := none
  recovery := none
  completedOperations := []
  updatedAt := updatedAt

/-- `state.targets.push({ controlTargetId: randomUUID(), … })`. -/
def pushTarget (session : ManagedSession) (tmuxInstanceId : String) : M String := do
  let id ← randomUUID env
  let generation ← randomUUID env
  let updatedAt ← isoNow env
  logEvent (.created id)
  Eff.modify (fun w => { w with mem := w.mem.push (newTarget id generation session tmuxInstanceId updatedAt) })
  return id

structure Resolution where
  controlTargetId : String
  controlEpoch : String
  managedSession : ManagedSession
  ownership : OwnershipView
  deriving DecidableEq, Repr

/-- The fencing of a write under way, in `resolveTarget` and `status`; says whether there was one. -/
def fenceInFlight (id : String) : M Bool := do
  let t ← targetById id
  if t.inFlight.isSome && t.lifecycle = .active then do
    markRecovery env id .operationInDoubt
    return true
  else return false

/-- `target.lifecycle === "ACTIVE" ? await this.prepareOutput(…) : { … cursor: 0 }`. -/
def outputCursorOf (id : String) : M Nat := do
  let t ← targetById id
  if t.lifecycle = .active then do
    let output ← prepareOutput env id
    return output.cursor
  else return 0

def saveIf (changed : Bool) : M Unit := if changed then saveTerminalControlState env else pure ()

/-- `resolveTarget`; the session name goes to the backend. -/
def resolveTarget (_sessionName : String) : M Resolution := locked env do
  let resolved ← await env env.resolved
  let w ← Eff.get
  let named := fun (t : TargetRecord) =>
    decide (t.lifecycle ≠ .targetGone ∧ t.managedSession.name = resolved.managedSession.name)
  let same := fun (t : TargetRecord) =>
    decide (t.managedSession = resolved.managedSession ∧ t.tmuxInstanceId = resolved.tmuxInstanceId)
  let stale := (w.mem.targets.filter (fun t => named t && !same t)).map (·.controlTargetId)
  invalidateTargets env stale
  let found := w.mem.targets.find? (fun t => named t && same t)
  let id ← (match found with
    | some t => pure t.controlTargetId
    | none => pushTarget env resolved.managedSession resolved.tmuxInstanceId)
  let fenced ← fenceInFlight env id
  let _ ← reconcileAbandonedOwnership env id
  let cursor ← outputCursorOf env id
  saveIf env (!stale.isEmpty || found.isNone || fenced)
  let epoch ← controlEpoch
  let t ← targetById id
  return ⟨id, epoch, t.managedSession, ownershipView epoch t cursor⟩

def status (id : String) : M OwnershipView := locked env do
  let _ ← targetById id
  let changed ← fenceInFlight env id
  let _ ← reconcileAbandonedOwnership env id
  let t ← targetById id
  (if t.lifecycle = .active then assertTargetCurrent env id else pure ())
  let cursor ← outputCursorOf env id
  saveIf env changed
  view id cursor

/-! ## Leases: `acquire`, `renew`, `release` -/

/-- `target.ownership = { state: "HELD", fence: nextDecimal(…), owner, leaseId: randomUUID(), leaseExpiresAt }`, with
its `revision` and `updatedAt`. -/
def grantOwnership (id : String) (owner : Owner) (ttlMs : Int) : M Unit := do
  let leaseId ← randomUUID env
  let expires ← expiresAt env ttlMs
  assign env id (fun t => { t with ownership := .held (t.fence + 1) owner leaseId expires })

/-- `target.ownership = { state: "FREE", fence: nextDecimal(…) }`, with its `revision` and `updatedAt`. -/
def freeOwnership (id : String) : M Unit := assign env id (fun t => { t with ownership := .free (t.fence + 1) })

def ownedMessage (kind : OwnerKind) : String :=
  "terminal input is owned by " ++ (match kind with
    | .feishu => "feishu" | .dashboard => "dashboard" | .localCli => "local-cli" | .relayV2 => "relay-v2"
    | .twServe => "tw-serve")

/-- The free branch of `acquire` and of `beginHandoff`. -/
def grantFree (id : String) (owner : Owner) (ttlMs : Int) : M Position := do
  let output ← prepareOutput env id
  grantOwnership env id owner ttlMs
  resetInteractiveOwners id
  registerInteractiveOwner id owner
  saveTerminalControlState env
  return output

def acquire (id : String) (owner : Owner) (ttlMs : Int := defaultLeaseTtlMs) : M LeaseGrant := locked env do
  let _ ← targetById id
  assertTargetCurrent env id
  let t ← targetById id
  match t.ownership with
  | .free _ => do
    let output ← grantFree env id owner ttlMs
    issueGrant id (some owner) output.cursor
  | .held _ holder _ _ =>
    if sameInputOwnerClass holder owner then do
      let output ← prepareOutput env id
      (if isInteractiveOwner owner then do
        registerInteractiveOwner id owner
        let expires ← expiresAt env ttlMs
        assign env id (fun t => { t with ownership := t.ownership.extend expires })
        saveTerminalControlState env
      else pure ())
      issueGrant id (some owner) output.cursor
    else if isInteractiveOwner holder && owner.kind = .feishu then do
      let output ← resetOutput env id
      resetInteractiveOwners id
      grantOwnership env id owner ttlMs
      saveTerminalControlState env
      issueGrant id (some owner) output.cursor
    else throw (denied .permissionDenied (ownedMessage holder.kind))
  | .draining _ holder _ _ handoff =>
    if sameOwner handoff.nextOwner owner then
      throw (denied .handoffPending "target is still draining its previous input owner")
    else throw (denied .permissionDenied (ownedMessage holder.kind))

def renew (lease : Lease) (ttlMs : Int := defaultLeaseTtlMs) : M LeaseGrant := locked env do
  let id := lease.controlTargetId
  let _ ← targetById id
  assertTargetCurrent env id
  validateLease id lease true
  let t ← targetById id
  Eff.require (!t.ownership.isFree) (denied .permissionDenied "target has no current input owner")
  registerInteractiveOwner id lease.owner
  let expires ← expiresAt env ttlMs
  assign env id (fun t => { t with ownership := t.ownership.extend expires })
  let output ← prepareOutput env id
  saveTerminalControlState env
  issueGrant id (some lease.owner) output.cursor

/-- The end of `release`: the lease goes back to `FREE`. -/
def releaseOwnership (id : String) : M OwnershipView := do
  let epoch ← controlEpoch
  let t ← targetById id
  modifyLocal (·.pruneStaleObservers epoch t)
  let w ← Eff.get
  let output ← (if 0 < w.loc.observerCount id then prepareOutput env id else resetOutput env id)
  resetInteractiveOwners id
  freeOwnership env id
  saveTerminalControlState env
  view id output.cursor

def release (lease : Lease) : M OwnershipView := locked env do
  let id := lease.controlTargetId
  let _ ← targetById id
  assertTargetCurrent env id
  validateLease id lease true
  let t ← targetById id
  if t.ownership.isDraining then
    throw (denied .handoffPending
      "draining ownership must commit or cancel its handoff; it cannot pass through FREE")
  else if isInteractiveOwner lease.owner then do
    let unregistered ← unregisterInteractiveOwner id lease.owner
    if !unregistered then do
      let output ← prepareOutput env id
      view id output.cursor
    else releaseOwnership env id
  else releaseOwnership env id

/-! ## Handoffs -/

def beginHandoff (id : String) (nextOwner : Owner) (currentLease : Option Lease) : M LeaseGrant := locked env do
  let _ ← targetById id
  assertTargetCurrent env id
  let t ← targetById id
  match t.ownership with
  | .free _ => do
    let output ← grantFree env id nextOwner defaultLeaseTtlMs
    issueGrant id none output.cursor
  | .draining _ _ _ _ handoff =>
    if sameOwner handoff.nextOwner nextOwner then do
      let output ← prepareOutput env id
      let v ← view id output.cursor
      return ⟨none, v⟩
    else throw (denied .handoffPending "another ownership handoff is already draining")
  | .held fence holder leaseId leaseExpiresAt => do
    (match currentLease with
      | some lease => validateLease id lease false
      | none =>
        Eff.require (holder.kind = .feishu && (nextOwner.kind = .dashboard || nextOwner.kind = .localCli))
          (denied .permissionDenied
            "only a controlled local owner may request a lease-less graceful takeover from Feishu"))
    if sameOwner holder nextOwner then do
      let output ← prepareOutput env id
      registerInteractiveOwner id nextOwner
      issueGrant id (some nextOwner) output.cursor
    else do
      let handoffId ← randomUUID env
      let requestedAt ← isoNow env
      assign env id (fun t =>
        { t with ownership := .draining fence holder leaseId leaseExpiresAt ⟨handoffId, nextOwner, requestedAt, none⟩ })
      let output ← prepareOutput env id
      saveTerminalControlState env
      let v ← view id output.cursor
      return ⟨none, v⟩

/-- `target.ownership.state !== "DRAINING" || target.ownership.handoff.handoffId !== handoffId`, negated. -/
def currentHandoff (id handoffId : String) : M Handoff := do
  let t ← targetById id
  match t.ownership with
  | .draining _ _ _ _ handoff =>
    if handoff.handoffId = handoffId then return handoff
    else throw (denied .invalidRequest "handoff is not current")
  | _ => throw (denied .invalidRequest "handoff is not current")

/-- `target.ownership.handoff.drain = drain`. -/
def setDrain (drain : DrainProof) : Ownership → Ownership
  | .draining f o l x h => .draining f o l x { h with drain := some drain }
  | other => other

/-- Back from `DRAINING` to `HELD`, on the same lease and fence. -/
def endDrain : Ownership → Ownership
  | .draining f o l x _ => .held f o l x
  | other => other

def commitHandoff (handoffId : String) (currentLease : Lease) (drain : DrainProof) (ttlMs : Int := defaultLeaseTtlMs) :
    M LeaseGrant := locked env do
  let id := currentLease.controlTargetId
  let _ ← targetById id
  assertTargetCurrent env id
  validateLease id currentLease true
  let handoff ← currentHandoff id handoffId
  modifyTarget id (fun t => { t with ownership := setDrain drain t.ownership })
  if drain.disposition = .uncertain then
    fenceAndThrow env id .drainUncertain "handoff drain disposition is uncertain; ownership was not transferred"
  else do
    let output ← resetOutput env id
    resetInteractiveOwners id
    grantOwnership env id handoff.nextOwner ttlMs
    registerInteractiveOwner id handoff.nextOwner
    modifyTarget id (fun t => { t with recovery := none })
    saveTerminalControlState env
    issueGrant id none output.cursor

/-- The end of `cancelHandoff` and of `withdrawHandoff`. -/
def resumeHeld (id : String) : M OwnershipView := do
  assign env id (fun t => { t with ownership := endDrain t.ownership })
  let output ← prepareOutput env id
  saveTerminalControlState env
  view id output.cursor

def cancelHandoff (handoffId : String) (currentLease : Lease) : M OwnershipView := locked env do
  let id := currentLease.controlTargetId
  let _ ← targetById id
  assertTargetCurrent env id
  validateLease id currentLease true
  let _ ← currentHandoff id handoffId
  resumeHeld env id

def withdrawHandoff (id handoffId : String) (nextOwner : Owner) : M OwnershipView := locked env do
  let _ ← targetById id
  assertTargetCurrent env id
  let t ← targetById id
  match t.ownership with
  | .draining _ _ _ _ handoff =>
    if handoff.handoffId = handoffId && sameOwner handoff.nextOwner nextOwner then resumeHeld env id
    else throw (denied .permissionDenied "only the exact pending next owner may withdraw this handoff")
  | _ => throw (denied .permissionDenied "only the exact pending next owner may withdraw this handoff")

inductive RecoveryProofKind where
  | feishuTurnCancelled | operatorAcknowledgedInDoubt | ownerUnreachable
  deriving DecidableEq, Repr

def forceIdentity (id : String) : M Unit :=
  tryCatch (backendAssertCurrent env) (fun error =>
    if error.isGone then retireAndThrow env id error.message
    else throw (denied .recoveryRequired
      ("force recovery could not prove the exact terminal backend lifecycle: " ++ error.message)))

/-- `completeInFlightAsInDoubt(target, this.now)`. -/
def completeInFlight (id : String) : M Unit := do
  let completedAt ← isoNow env
  let t ← targetById id
  logEvents (t.inDoubtEvictions completedAt)
  modifyTarget id (·.completeInFlightAsInDoubt completedAt)

def forceExpired (id : String) : M Unit := do
  let t ← targetById id
  let nowMs ← isoNow env
  if t.lifecycle = .active && t.leaseExpired nowMs then do
    markRecovery env id .leaseExpired
    saveTerminalControlState env
  else pure ()

def forceHandoff (id expectedControlEpoch : String) (nextOwner : Owner) (proof : RecoveryProofKind)
    (acknowledgeUncertainOperation : Bool) (ttlMs : Int := defaultLeaseTtlMs) : M LeaseGrant := do
  Eff.require ((nextOwner.kind = .dashboard || nextOwner.kind = .localCli) && acknowledgeUncertainOperation)
    (denied .permissionDenied
      "force takeover requires a controlled local owner and persisted external cancellation proof")
  locked env do
    let t ← targetById id
    let epoch ← controlEpoch
    Eff.require (epoch = expectedControlEpoch)
      (denied .permissionDenied "force takeover was prepared for a stale controller epoch")
    Eff.require (t.lifecycle ≠ .targetGone) (denied .targetGone "control target backend lifecycle has ended")
    forceExpired env id
    let t ← targetById id
    Eff.require (t.lifecycle = .recoveryRequired && t.recovery.isSome)
      (denied .permissionDenied "force recovery is only available for a durably fenced recovery target")
    Eff.require (!(t.previousOwnerKind = some .feishu && proof = .ownerUnreachable))
      (denied .permissionDenied
        "force takeover from Feishu requires a persisted turn cancellation or explicit in-doubt acknowledgement")
    forceIdentity env id
    completeInFlight env id
    let output ← recoverOutput env id
    resetInteractiveOwners id
    logEvent (.activated id .forced)
    let leaseId ← randomUUID env
    let expires ← expiresAt env ttlMs
    assign env id (fun t =>
      { t with lifecycle := .active, recovery := none, ownership := .held (t.fence + 1) nextOwner leaseId expires })
    registerInteractiveOwner id nextOwner
    saveTerminalControlState env
    issueGrant id none output.cursor

/-! ## Input -/

def callWrite (id operationId : String) (kind : OperationKind) (owner : Owner) (fence : Nat) : M Unit := do
  let n ← nextTick
  Eff.modify (fun w => w.interleave env.relayV2ExactTargetTtlMs (env.interleaved n))
  logEvent (.write id operationId kind owner fence ((env.done n).isOk && !env.dies n))
  Eff.crashIf (env.dies n)
  Eff.ofExcept (env.done n)

/-- The in-flight marker is durable before the write call. -/
def beginOperation (id : String) (op : InFlightOperation) : M Unit := do
  logEvent (.started id op.operationId)
  assign env id (fun t => { t with inFlight := some op })
  saveTerminalControlState env

/-- The output position a fenced raw write is recorded at. -/
def rawInputPosition (id : String) (lease : Lease) : M Position :=
  tryCatch (await env env.position) (fun error => do
    let t ← targetById id
    if lease.owner.kind ≠ .feishu && !t.ownership.isFree && !t.ownership.isDraining && t.inFlight = none then
      tryCatch
        (do
          backendAssertCurrent env
          let output ← backendResetOutput env
          adoptRepairedOutput env id output
          return output)
        (fun _ => fenceAndThrow env id .outputContinuityUncertain (continuityMessage error))
    else fenceAndThrow env id .outputContinuityUncertain (continuityMessage error))

/-- The write call for a payload.  Runtime settings need the fenced message path. -/
def writeInput (id operationId : String) (lease : Lease) (payload : InputPayload) : M Unit :=
  match payload with
  | .agentMessage _ _ (some _) =>
    if env.hasMessageFenced then callWrite env id operationId payload.kind lease.owner lease.fence
    else throw (denied .invalidRequest "Agent runtime settings require the fenced terminal backend")
  | _ => callWrite env id operationId payload.kind lease.owner lease.fence

/-- `markRecovery(…, OPERATION_IN_DOUBT, { operationId }); try { save() } catch {}`. -/
def fenceInDoubt (id operationId : String) : M Unit := do
  markRecovery env id .operationInDoubt { operationId := some operationId }
  tryCatch (saveTerminalControlState env) (fun _ => pure ())

/-- `target.inFlight = undefined`. -/
def clearInFlight (id operationId : String) : M Unit := do
  logEvent (.provenNotApplied id operationId)
  modifyTarget id (fun t => { t with inFlight := none })

def failedAsNotApplied (e : ControlError) : Bool :=
  match e with
  | .notApplied .. => true
  | _ => false

/-- The `catch` of the write call in `executeInput`: it always throws. -/
def failInput (id operationId : String) (kind : OperationKind) (error : ControlError) : M Unit :=
  if kind = .agentMessage && failedAsNotApplied error then do
    clearInFlight id operationId
    if error.isGone then retireAndThrow env id error.message
    else if error.code? = some .recoveryRequired then do
      markRecovery env id .backendIdentityUncertain
      saveTerminalControlState env
      throw error
    else do
      saveTerminalControlState env
      throw error
  else if kind = .raw && env.hasRawFenced && (error.isGone || error.code? = some .recoveryRequired) then do
    clearInFlight id operationId
    if error.isGone then retireAndThrow env id error.message
    else fenceAndThrow env id .backendIdentityUncertain error.message
  else do
    fenceInDoubt env id operationId
    throw (denied .operationInDoubt
      ("terminal backend write did not reach a provable boundary: " ++ error.message))

/-- The checks of `executeInput` up to the producer registry. -/
def admitInput (lease : Lease) (pane : String) (fencedRaw : Bool) : M Unit := do
  let id := lease.controlTargetId
  let _ ← targetById id
  (if fencedRaw then do
    let _ ← reconcileAbandonedOwnership env id
    pure ()
  else assertTargetCurrent env id)
  validateLease id lease false
  Eff.require (pane = "0")
    (denied .invalidRequest ("managed single-pane target has no logical pane: " ++ pane))
  registerInteractiveOwner id lease.owner

/-- `executeInput` of an operation that the journal does not hold. -/
def performInput (lease : Lease) (operationId : String) (payload : InputPayload) (hash : String) (fencedRaw : Bool) :
    M OperationResult := do
  let id := lease.controlTargetId
  let output ← (if fencedRaw then rawInputPosition env id lease else prepareOutput env id)
  let startedAt ← isoNow env
  beginOperation env id
    ⟨operationId, lease.owner.instanceId, lease.fence, hash, payload.kind, some output.generation, some output.cursor,
      startedAt⟩
  tryCatch (writeInput env id operationId lease payload) (failInput env id operationId payload.kind)
  let completedAt ← isoNow env
  let record : OperationRecord := ⟨operationId, lease.owner.instanceId, lease.fence, hash, payload.kind, .committed,
    some output.generation, some output.cursor, completedAt⟩
  appendOperation id record
  assign env id (fun t => t)
  saveTerminalControlState env
  let epoch ← controlEpoch
  return operationResult epoch record false

def executeInput (lease : Lease) (operationId pane : String) (payload : InputPayload) : M OperationResult := locked env do
  let id := lease.controlTargetId
  let fencedRaw := payload.kind = .raw && env.hasRawFenced
  admitInput env lease pane fencedRaw
  let hash := env.digest (.input pane payload)
  let t ← targetById id
  let completed ← Eff.ofExcept (t.existingOperation operationId lease.owner.instanceId lease.fence hash payload.kind)
  match completed with
  | some op => do
    (if fencedRaw then assertTargetCurrent env id else pure ())
    let epoch ← controlEpoch
    return operationResult epoch op true
  | none => performInput env lease operationId payload hash fencedRaw

/-- The `catch` of `killManaged`: a target that is provably still there was not killed. -/
def failKill (id operationId : String) (error : ControlError) : M Unit := do
  tryCatch
    (do
      backendAssertCurrent env
      clearInFlight id operationId
      assign env id (fun t => t)
      saveTerminalControlState env)
    (fun _ => do
      fenceInDoubt env id operationId
      throw (denied .operationInDoubt "managed target closure did not reach a provable boundary"))
  throw error

def executeLifecycleKill (lease : Lease) (operationId : String) : M OperationResult := locked env do
  let id := lease.controlTargetId
  let t ← targetById id
  let hash := env.digest (.kill "0" t.managedSession.name)
  let completed ← Eff.ofExcept (t.existingOperation operationId lease.owner.instanceId lease.fence hash .lifecycleKill)
  match completed with
  | some op => do
    let epoch ← controlEpoch
    return operationResult epoch op true
  | none => do
    assertTargetCurrent env id
    validateLease id lease false
    let output ← prepareOutput env id
    let startedAt ← isoNow env
    beginOperation env id
      ⟨operationId, lease.owner.instanceId, lease.fence, hash, .lifecycleKill, some output.generation,
        some output.cursor, startedAt⟩
    tryCatch (callWrite env id operationId .lifecycleKill lease.owner lease.fence) (failKill env id operationId)
    let completedAt ← isoNow env
    let record : OperationRecord := ⟨operationId, lease.owner.instanceId, lease.fence, hash, .lifecycleKill, .committed,
      some output.generation, some output.cursor, completedAt⟩
    appendOperation id record
    invalidateTarget env id
    saveTerminalControlState env
    let epoch ← controlEpoch
    return operationResult epoch record false

/-! ## Output -/

/-- `tailGoneErrorWithReprobe`: the error to surface, if the lifecycle is over or could not be proved. -/
def tailGoneErrorWithReprobe (id : String) (error : ControlError) : M (Option ControlError) :=
  if error.isGone then do
    invalidateTarget env id
    saveTerminalControlState env
    return some (denied .targetGone error.message)
  else
    tryCatch
      (do
        assertTargetCurrent env id
        return none)
      (fun reprobe =>
        if reprobe.isGone then return some (denied .targetGone reprobe.message)
        else if reprobe.code?.isSome then return some reprobe
        else return none)

/-- The `catch` of `backend.tailOutput`, in both tails: it always throws. -/
def failTail (id : String) (error : ControlError) : M Chunk :=
  if error.code? = some .staleOutputCursor then throw error
  else do
    let gone ← tailGoneErrorWithReprobe env id error
    match gone with
    | some e => throw e
    | none => fenceAndThrow env id .outputContinuityUncertain (continuityMessage error)

def tailChunk (id : String) : M Chunk := tryCatch (await env env.chunk) (failTail env id)

structure TailResult where
  controlTargetId : String
  controlEpoch : String
  fence : Nat
  ownerKind : Option OwnerKind
  chunk : Chunk
  deriving DecidableEq, Repr

/-- `tailOutput`; cursor and size bound go to the backend. -/
def tailOutput (id epoch outputGeneration : String) (_cursor _maxBytes : Nat) : M TailResult := locked env do
  let t ← targetById id
  let current ← controlEpoch
  Eff.require (epoch = current && outputGeneration = t.outputGeneration)
    (denied .staleOutputCursor "terminal output cursor was fenced by an ownership or controller generation change")
  assertTargetCurrent env id
  let chunk ← tailChunk env id
  let current ← controlEpoch
  let t ← targetById id
  return ⟨t.controlTargetId, current, t.fence, t.ownership.owner?.map (·.kind), chunk⟩

/-- What the three agent reads answer around the backend's own answer. -/
structure AgentReading (α : Type) where
  controlTargetId : String
  controlEpoch : String
  leaseId : String
  fence : Nat
  ownerKind : OwnerKind
  outputGeneration : String
  pane : String
  answer : α
  deriving DecidableEq, Repr

/-- The common body of `renderedSnapshot`, `agentStatus` and `agentResult`: a read for the exact agent owner. -/
def agentRead {α : Type} (ownerMessage staleMessage : String) (answer : Nat → Except ControlError α)
    (ownerKind : OwnerKind) (lease : Lease) (outputGeneration pane : String) : M (AgentReading α) := locked env do
  let id := lease.controlTargetId
  let _ ← targetById id
  Eff.require (lease.owner.kind = .feishu || lease.owner.kind = .relayV2) (denied .permissionDenied ownerMessage)
  assertTargetCurrent env id
  validateLease id lease true
  Eff.require (pane = "0")
    (denied .invalidRequest ("managed single-pane target has no logical pane: " ++ pane))
  let t ← targetById id
  Eff.require (outputGeneration = t.outputGeneration) (denied .staleOutputCursor staleMessage)
  let a ← await env answer
  let epoch ← controlEpoch
  return ⟨t.controlTargetId, epoch, lease.leaseId, t.fence, ownerKind, outputGeneration, pane, a⟩

/-- `renderedSnapshot` answers the owner kind `feishu` whoever asks. -/
def renderedSnapshot (lease : Lease) (outputGeneration pane : String) : M (AgentReading RenderedSnapshot) :=
  agentRead env "rendered terminal snapshots require the exact Feishu owner"
    "rendered terminal snapshot was fenced by an output generation change" env.rendered .feishu lease
    outputGeneration pane

def agentStatus (lease : Lease) (outputGeneration pane : String) : M (AgentReading AgentReport) :=
  agentRead env "agent status observations require an exact Agent consumer owner"
    "agent status observation was fenced by an output generation change" env.report lease.owner.kind lease
    outputGeneration pane

def agentResult (lease : Lease) (outputGeneration pane : String) : M (AgentReading AgentReport) :=
  agentRead env "Agent final response extraction requires an exact Agent consumer owner"
    "Agent final response extraction was fenced by an output generation change" env.report lease.owner.kind lease
    outputGeneration pane

end Terminal
end TmuxWorktree
