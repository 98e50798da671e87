import TmuxWorktree.Terminal.Run
/-!
# Paths — a section moves the world along what its actions move it along

A relation that holds across the bookkeeping of a section holds across every section, except where the section makes a
claim, opens an observation or closes one; those three are left to whoever has the relation.  A relation that holds across
the assignments to one record only holds across the sections of that record.
-/
namespace TmuxWorktree
namespace Terminal

open Effect

/-- **The bookkeeping of a section** that leaves records alone: the numbers of its questions, the trace, and the registry
of producers. -/
class Ambience (R : World → World → Prop) : Prop where
  tick : ∀ w : World, R w { w with tick := w.tick + 1 }
  log : ∀ (es : List Event) (w : World), R w { w with trace := es ++ w.trace }
  owners : ∀ (o : String → Option Owner) (w : World), R w { w with loc := { w.loc with interactiveOwners := o } }

/-- The rest of it: the section's copy of the state, and the state file. -/
class Ambient (R : World → World → Prop) : Prop extends Ambience R where
  mem : ∀ (s : ControlState) (w : World), R w { w with mem := s }
  persist : ∀ (s : ControlState) (w : World), R w (w.persist s)

/-- The record's id is left alone. -/
class KeepsId (f : TargetRecord → TargetRecord) : Prop where
  keeps : ∀ t, (f t).controlTargetId = t.controlTargetId

/-- An assignment to the record of a target. -/
class Assigns (R : World → World → Prop) (id : String) : Prop where
  assign : ∀ (f : TargetRecord → TargetRecord) [KeepsId f] (w : World), R w { w with mem := w.mem.update id f }

instance {R : World → World → Prop} [Ambient R] (id : String) : Assigns R id :=
  ⟨fun f _ w => Ambient.mem (w.mem.update id f) w⟩

class Saves (env : Env) (R : World → World → Prop) : Prop where
  save : Along R (saveTerminalControlState env)

class Loads (env : Env) (R : World → World → Prop) : Prop where
  load : Along R (loadTerminalControlState env)

/-- The synchronous calls at an `await`. -/
class Suspends (env : Env) (R : World → World → Prop) : Prop where
  suspend : ∀ w : World,
    R w ({ w with tick := w.tick + 1 }.interleave env.relayV2ExactTargetTtlMs (env.interleaved w.tick))

/-- The pruning of stale observers. -/
class Prunes (R : World → World → Prop) : Prop where
  prune : ∀ (epoch : String) (ts : List TargetRecord) (w : World),
    R w { w with loc := ts.foldl (fun l t => l.pruneStaleObservers epoch t) w.loc }

/-! ## Assignments -/

instance (a : TargetRecord → Lifecycle) (b : TargetRecord → ManagedSession) (c d : TargetRecord → String)
    (e : TargetRecord → Ownership) (f : TargetRecord → Nat) (g : TargetRecord → Option InFlightOperation)
    (h : TargetRecord → Option RecoveryRecord) (i : TargetRecord → List OperationRecord) (j : TargetRecord → Int) :
    KeepsId (fun t => ⟨t.controlTargetId, a t, b t, c t, d t, e t, f t, g t, h t, i t, j t⟩) := ⟨fun _ => rfl⟩

instance : KeepsId (fun t => t) := ⟨fun _ => rfl⟩

instance (f : TargetRecord → TargetRecord) [h : KeepsId f] (r : TargetRecord → Nat) (u : Int) :
    KeepsId (fun t => { f t with revision := r t, updatedAt := u }) := ⟨h.keeps⟩

theorem appendOperation_id (t : TargetRecord) (op : OperationRecord) :
    (t.appendOperation op).controlTargetId = t.controlTargetId := by
  unfold TargetRecord.appendOperation
  dsimp only
  cases TargetRecord.evictedIndex (t.completedOperations ++ [op]) <;> rfl

instance (op : OperationRecord) (g : Option InFlightOperation) :
    KeepsId (fun t => { t.appendOperation op with inFlight := g }) := ⟨fun t => appendOperation_id t op⟩

instance (a : Int) : KeepsId (·.completeInFlightAsInDoubt a) := ⟨fun t => by
  unfold TargetRecord.completeInFlightAsInDoubt
  cases t.inFlight with
  | none => rfl
  | some op => exact appendOperation_id t _⟩

instance (epoch : String) (reason : RecoveryReason) (options : TargetRecord.RecoveryOptions) (a b c : Int) :
    KeepsId (fun t => t.markRecovery epoch reason options a b c) :=
  ⟨KeepsId.keeps (f := (·.completeInFlightAsInDoubt a))⟩

instance (u : Int) : KeepsId (·.invalidateTarget u) := ⟨fun _ => rfl⟩

variable (env : Env) {α : Type} {R : World → World → Prop} [Std.Refl R] [IsTrans World R] [Ambience R] [Saves env R]
  [Suspends env R]

-- the instance of a section is a tree over its twenty binds
set_option synthInstance.maxSize 200000

/-! ## Primitive actions -/

/-- A question to the outside, with the calls that run until its answer comes. -/
def suspend : M Nat := do
  let n ← nextTick
  Eff.modify (fun w => w.interleave env.relayV2ExactTargetTtlMs (env.interleaved n))
  return n

theorem await_suspends (answer : Nat → Except ControlError α) :
    await env answer = (do
      let n ← suspend env
      Eff.crashIf (env.dies n)
      Eff.ofExcept (answer n)) := rfl

theorem callWrite_suspends (id operationId : String) (kind : OperationKind) (owner : Owner) (fence : Nat) :
    callWrite env id operationId kind owner fence = (do
      let n ← suspend env
      logEvent (.write id operationId kind owner fence ((env.done n).isOk && !env.dies n))
      Eff.crashIf (env.dies n)
      Eff.ofExcept (env.done n)) := rfl

theorem Ambience.ticks (w : World) : ∀ n : Nat, R w { w with tick := w.tick + n }
  | 0 => Std.Refl.refl w
  | n + 1 => IsTrans.trans _ _ _ (Ambience.ticks w n) (Ambience.tick { w with tick := w.tick + n })

instance : Along R nextTick := ⟨Ambience.tick⟩

instance (es : List Event) : Along R (logEvents es) := Along.modify (Ambience.log es)

instance (e : Event) : Along R (logEvent e) := Along.modify (Ambience.log [e])

instance [Ambient R] (f : World → ControlState) : Along R (Eff.modify (fun w => { w with mem := f w }) : M Unit) :=
  Along.modify (fun w => Ambient.mem (f w) w)

instance (id : String) (f : TargetRecord → TargetRecord) [KeepsId f] [Assigns R id] : Along R (modifyTarget id f) :=
  Along.modify (Assigns.assign f)

instance (id : String) (owner : Owner) : Along R (modifyLocal (·.setInteractiveOwner id owner)) :=
  Along.modify (fun w => Ambience.owners (Function.update w.loc.interactiveOwners id (some owner)) w)

instance (id : String) : Along R (modifyLocal (·.resetInteractiveOwners id)) :=
  Along.modify (fun w => Ambience.owners (Function.update w.loc.interactiveOwners id none) w)

instance [Prunes R] (epoch : String) (ts : List TargetRecord) :
    Along R (modifyLocal (fun l => ts.foldl (fun l t => l.pruneStaleObservers epoch t) l)) :=
  Along.modify (Prunes.prune epoch ts)

instance [Prunes R] (epoch : String) (t : TargetRecord) : Along R (modifyLocal (·.pruneStaleObservers epoch t)) :=
  Along.modify (Prunes.prune epoch [t])

instance : Along R (isoNow env) := by unfold isoNow; infer_instance

instance (ttlMs : Int) : Along R (expiresAt env ttlMs) := by unfold expiresAt; infer_instance

instance : Along R (randomUUID env) := by unfold randomUUID; infer_instance

instance : Along R (suspend env) := ⟨fun w => Suspends.suspend w⟩

instance (answer : Nat → Except ControlError α) : Along R (await env answer) := by
  rw [await_suspends]; infer_instance

instance [Ambient R] (s : ControlState) (answer : SaveAnswer) : Along R (commitSave s answer) := by
  have hp : Along R (Eff.modify (·.persist s) : M Unit) := Along.modify (Ambient.persist s)
  unfold commitSave
  cases answer <;> infer_instance

omit [Saves env R] in
instance [Ambient R] : Saves env R where
  save := by
    unfold saveTerminalControlState
    refine Along.bind (q := fun w => ?_)
    split
    · infer_instance
    · split <;> infer_instance

omit [Saves env R] in
instance [Ambient R] : Loads env R where
  load := by
    unfold loadTerminalControlState
    refine Along.bind (q := fun w => ?_)
    split
    · infer_instance
    · split <;> infer_instance

instance : Along R (saveTerminalControlState env) := Saves.save

instance [Loads env R] : Along R (loadTerminalControlState env) := Loads.load

instance locked_along [Loads env R] (operation : M α) [o : Along R operation] : Along R (locked env operation) := by
  unfold locked; infer_instance

/-! ## Records -/

instance (id : String) : Along R (targetById id) := by
  unfold targetById
  refine Along.bind (q := fun w => ?_)
  split <;> infer_instance

instance (id : String) (owner : Owner) : Along R (registerInteractiveOwner id owner) := by
  unfold registerInteractiveOwner
  refine Along.bind (q := fun w => Along.ite (q := ?_))
  split <;> infer_instance

instance (id : String) (owner : Owner) : Along R (unregisterInteractiveOwner id owner) := by
  unfold unregisterInteractiveOwner
  refine Along.bind (q := fun w => ?_)
  split <;> infer_instance

instance : Along R (controlEpoch) := by unfold controlEpoch; infer_instance

instance (id : String) (n : Nat) : Along R (view id n) := by unfold view; infer_instance

instance (id : String) (op : OperationRecord) [Assigns R id] : Along R (appendOperation id op) := by
  unfold appendOperation; infer_instance

instance (id : String) (reason : RecoveryReason) (options : TargetRecord.RecoveryOptions) [Assigns R id] :
    Along R (markRecovery env id reason options) := by
  unfold markRecovery; infer_instance

instance (id : String) [Assigns R id] : Along R (invalidateTarget env id) := by unfold invalidateTarget; infer_instance

instance (id : String) (f : TargetRecord → TargetRecord) [KeepsId f] [Assigns R id] : Along R (assign env id f) := by
  unfold assign; infer_instance

instance (id message : String) [Assigns R id] : Along R (retireAndThrow (α := α) env id message) := by
  unfold retireAndThrow; infer_instance

instance (id : String) (reason : RecoveryReason) (message : String) [Assigns R id] :
    Along R (fenceAndThrow (α := α) env id reason message) := by
  unfold fenceAndThrow; infer_instance

instance (id : String) : Along R (resetInteractiveOwners id) := by unfold resetInteractiveOwners; infer_instance

instance (id : String) (lease : Lease) (allowDraining : Bool) :
    Along R (validateLease id lease allowDraining) := by
  unfold validateLease; infer_instance

instance (id : String) (owner : Option Owner) : Along R (issueLease id owner) := by
  unfold issueLease; infer_instance

instance (id : String) (owner : Option Owner) (n : Nat) : Along R (issueGrant id owner n) := by
  unfold issueGrant; infer_instance

instance (id : String) : Along R (ensureOperable id) := by unfold ensureOperable; infer_instance

/-! ## Probes -/

instance : Along R (backendAssertCurrent env) := by unfold backendAssertCurrent; infer_instance

instance : Along R (backendResetOutput env) := by unfold backendResetOutput; infer_instance

instance (id generation : String) [Assigns R id] : Along R (setOutputGeneration id generation) := by
  unfold setOutputGeneration; infer_instance

instance (id : String) (output : Position) [Assigns R id] : Along R (adoptRepairedOutput env id output) := by
  unfold adoptRepairedOutput; infer_instance

instance (id : String) [Assigns R id] : Along R (prepareOutput env id) := by unfold prepareOutput; infer_instance

instance (id : String) [Assigns R id] : Along R (resetOutput env id) := by unfold resetOutput; infer_instance

instance (id : String) [Assigns R id] : Along R (recoverOutput env id) := by unfold recoverOutput; infer_instance

instance (id : String) [Assigns R id] : Along R (reconcileOutput env id) := by unfold reconcileOutput; infer_instance

instance (id : String) [Assigns R id] : Along R (reconcileIdentity env id) := by unfold reconcileIdentity; infer_instance

instance (id : String) [Assigns R id] : Along R (reconcileFenced env id) := by unfold reconcileFenced; infer_instance

instance (id : String) [Assigns R id] : Along R (reconcileAbandonedOwnership env id) := by
  unfold reconcileAbandonedOwnership; infer_instance

instance (id : String) [Assigns R id] : Along R (assertTargetCurrent env id) := by unfold assertTargetCurrent; infer_instance

instance (id : String) [Assigns R id] : Along R (fenceInFlight env id) := by unfold fenceInFlight; infer_instance

instance (id : String) [Assigns R id] : Along R (outputCursorOf env id) := by unfold outputCursorOf; infer_instance

instance (changed : Bool) : Along R (saveIf env changed) := by unfold saveIf; infer_instance

/-! ## Sections of `TerminalControlAuthority` -/

variable [Loads env R]

instance [Ambient R] (session : ManagedSession) (tmuxInstanceId : String) :
    Along R (pushTarget env session tmuxInstanceId) := by
  unfold pushTarget; infer_instance

instance (id : String) [Assigns R id] : Along R (status env id) := by unfold status; infer_instance

instance (id : String) (owner : Owner) (ttlMs : Int) [Assigns R id] : Along R (grantOwnership env id owner ttlMs) := by
  unfold grantOwnership; infer_instance

instance (id : String) [Assigns R id] : Along R (freeOwnership env id) := by unfold freeOwnership; infer_instance

instance (id : String) (owner : Owner) (ttlMs : Int) [Assigns R id] : Along R (grantFree env id owner ttlMs) := by
  unfold grantFree; infer_instance

instance (lease : Lease) (ttlMs : Int) [Assigns R lease.controlTargetId] : Along R (renew env lease ttlMs) := by
  unfold renew; dsimp only; infer_instance

instance [Prunes R] (id : String) [Assigns R id] : Along R (releaseOwnership env id) := by
  unfold releaseOwnership; infer_instance

instance [Prunes R] (lease : Lease) [Assigns R lease.controlTargetId] : Along R (release env lease) := by
  unfold release; dsimp only; infer_instance

instance (id : String) [Assigns R id] : Along R (resumeHeld env id) := by unfold resumeHeld; infer_instance

instance (id handoffId : String) : Along R (currentHandoff id handoffId) := by
  unfold currentHandoff
  refine Along.bind (q := fun t => ?_)
  split <;> infer_instance

instance (handoffId : String) (currentLease : Lease) (drain : DrainProof) (ttlMs : Int)
    [Assigns R currentLease.controlTargetId] :
    Along R (commitHandoff env handoffId currentLease drain ttlMs) := by
  unfold commitHandoff; dsimp only; infer_instance

instance (handoffId : String) (currentLease : Lease) [Assigns R currentLease.controlTargetId] :
    Along R (cancelHandoff env handoffId currentLease) := by
  unfold cancelHandoff; dsimp only; infer_instance

instance (id : String) [Assigns R id] : Along R (forceIdentity env id) := by unfold forceIdentity; infer_instance

instance (id : String) [Assigns R id] : Along R (completeInFlight env id) := by unfold completeInFlight; infer_instance

instance (id : String) [Assigns R id] : Along R (forceExpired env id) := by unfold forceExpired; infer_instance

instance (id epoch : String) (nextOwner : Owner) (proof : RecoveryProofKind) (acknowledge : Bool) (ttlMs : Int)
    [Assigns R id] :
    Along R (forceHandoff env id epoch nextOwner proof acknowledge ttlMs) := by
  unfold forceHandoff; infer_instance

instance (id operationId : String) (kind : OperationKind) (owner : Owner) (fence : Nat) :
    Along R (callWrite env id operationId kind owner fence) := by
  rw [callWrite_suspends]; infer_instance

instance (id : String) (op : InFlightOperation) [Assigns R id] : Along R (beginOperation env id op) := by
  unfold beginOperation; infer_instance

instance (id : String) (lease : Lease) [Assigns R id] : Along R (rawInputPosition env id lease) := by
  unfold rawInputPosition; infer_instance

instance (id operationId : String) [Assigns R id] : Along R (fenceInDoubt env id operationId) := by
  unfold fenceInDoubt; infer_instance

instance (id operationId : String) [Assigns R id] : Along R (clearInFlight id operationId) := by
  unfold clearInFlight; infer_instance

instance (id operationId : String) (kind : OperationKind) (error : ControlError) [Assigns R id] :
    Along R (failInput env id operationId kind error) := by
  unfold failInput; infer_instance

instance (lease : Lease) (pane : String) (fencedRaw : Bool) [Assigns R lease.controlTargetId] :
    Along R (admitInput env lease pane fencedRaw) := by
  unfold admitInput; dsimp only; infer_instance

instance (id operationId : String) (lease : Lease) (payload : InputPayload) :
    Along R (writeInput env id operationId lease payload) := by
  unfold writeInput
  split <;> infer_instance

instance (lease : Lease) (operationId : String) (payload : InputPayload) (hash : String) (fencedRaw : Bool)
    [Assigns R lease.controlTargetId] :
    Along R (performInput env lease operationId payload hash fencedRaw) := by
  unfold performInput; dsimp only; infer_instance

instance (id operationId : String) (error : ControlError) [Assigns R id] : Along R (failKill env id operationId error) := by
  unfold failKill; infer_instance

instance (id : String) (error : ControlError) [Assigns R id] : Along R (tailGoneErrorWithReprobe env id error) := by
  unfold tailGoneErrorWithReprobe; infer_instance

instance (id : String) (error : ControlError) [Assigns R id] : Along R (failTail env id error) := by
  unfold failTail
  refine Along.ite (q := Along.bind (q := fun gone => ?_))
  split <;> infer_instance

instance (id : String) [Assigns R id] : Along R (tailChunk env id) := by unfold tailChunk; infer_instance

instance (id epoch generation : String) (cursor maxBytes : Nat) [Assigns R id] :
    Along R (tailOutput env id epoch generation cursor maxBytes) := by
  unfold tailOutput; infer_instance

instance (ownerMessage staleMessage : String) (answer : Nat → Except ControlError α) (ownerKind : OwnerKind) (lease : Lease)
    (generation pane : String) [Assigns R lease.controlTargetId] :
    Along R (agentRead env ownerMessage staleMessage answer ownerKind lease generation pane) := by
  unfold agentRead; dsimp only; infer_instance

omit [Saves env R] [Suspends env R] [Loads env R] in
theorem invalidateTargets_along [∀ id, Assigns R id] : ∀ ids : List String, Along R (invalidateTargets env ids)
  | [] => Along.pure ()
  | _ :: ids => Along.bind (q := fun _ => invalidateTargets_along ids)

instance [Ambient R] (ids : List String) : Along R (invalidateTargets env ids) := invalidateTargets_along env ids

instance [Ambient R] (sessionName : String) : Along R (resolveTarget env sessionName) := by
  unfold resolveTarget
  refine locked_along env _ (o := Along.bind (q := fun resolved => Along.bind (q := fun w => Along.bind (q := fun _ =>
    Along.bind (p := ?_)))))
  split <;> infer_instance

instance [Ambient R] (epoch : String) : Along R (Eff.modify (·.restartContinuity env epoch) : M Unit) :=
  Along.modify (fun w => by
    have h := Ambience.ticks (R := R) w (3 * w.mem.targets.length)
    have h' := Ambient.mem (R := R) ⟨epoch, (restartTargets env w.mem.controlEpoch w.tick w.mem.targets).1⟩
      { w with tick := w.tick + 3 * w.mem.targets.length }
    have h'' := Ambience.log (R := R) (restartTargets env w.mem.controlEpoch w.tick w.mem.targets).2
      { w with
        tick := w.tick + 3 * w.mem.targets.length
        mem := ⟨epoch, (restartTargets env w.mem.controlEpoch w.tick w.mem.targets).1⟩ }
    exact IsTrans.trans _ _ _ h (IsTrans.trans _ _ _ h' h''))

instance [Ambient R] : Along R (initializeContinuity env) := by unfold initializeContinuity; infer_instance

instance (id : String) (owner : Owner) (ttlMs : Int) [Assigns R id] : Along R (acquire env id owner ttlMs) := by
  unfold acquire
  refine locked_along env _ (o := Along.bind (q := fun _ => Along.bind (q := fun _ => Along.bind (q := fun t => ?_))))
  split <;> infer_instance

instance (id : String) (nextOwner : Owner) (currentLease : Option Lease) [Assigns R id] :
    Along R (beginHandoff env id nextOwner currentLease) := by
  unfold beginHandoff
  refine locked_along env _ (o := Along.bind (q := fun _ => Along.bind (q := fun _ => Along.bind (q := fun t => ?_))))
  split
  · infer_instance
  · infer_instance
  · refine Along.bind (p := ?_)
    split <;> infer_instance

instance (id handoffId : String) (nextOwner : Owner) [Assigns R id] : Along R (withdrawHandoff env id handoffId nextOwner) := by
  unfold withdrawHandoff
  refine locked_along env _ (o := Along.bind (q := fun _ => Along.bind (q := fun _ => Along.bind (q := fun t => ?_))))
  split <;> infer_instance

instance (lease : Lease) (operationId pane : String) (payload : InputPayload) [Assigns R lease.controlTargetId] :
    Along R (executeInput env lease operationId pane payload) := by
  unfold executeInput
  refine locked_along env _ (o := Along.bind (q := fun _ => Along.bind (q := fun t => Along.bind
    (q := fun completed => ?_))))
  split <;> infer_instance

instance (lease : Lease) (operationId : String) [Assigns R lease.controlTargetId] :
    Along R (executeLifecycleKill env lease operationId) := by
  unfold executeLifecycleKill
  refine locked_along env _ (o := Along.bind (q := fun t => Along.bind (q := fun completed => ?_)))
  split <;> infer_instance

instance (lease : Lease) (generation pane : String) [Assigns R lease.controlTargetId] :
    Along R (renderedSnapshot env lease generation pane) := by
  unfold renderedSnapshot; infer_instance

instance (lease : Lease) (generation pane : String) [Assigns R lease.controlTargetId] :
    Along R (agentStatus env lease generation pane) := by
  unfold agentStatus; infer_instance

instance (lease : Lease) (generation pane : String) [Assigns R lease.controlTargetId] :
    Along R (agentResult env lease generation pane) := by
  unfold agentResult; infer_instance

/-! ## Relay v2 sections -/

instance (input : ExactInput) (named : List TargetRecord) : Along R (mustProvision env input named) := by
  unfold mustProvision; infer_instance

instance (input : ExactInput) (named : List TargetRecord) : Along R (inspectExact env input named) := by
  unfold inspectExact
  refine Along.bind (q := fun _ => Along.bind (q := fun _ => ?_))
  split <;> infer_instance

instance [Ambient R] (input : ExactInput) (named : List TargetRecord) : Along R (provisionExact env input named) := by
  unfold provisionExact; infer_instance

instance (id : String) [Assigns R id] : Along R (exactIdentity env id) := by unfold exactIdentity; infer_instance

instance (id : String) [Assigns R id] : Along R (reconcileRelayV2ExactInDoubtOperation env id) := by
  unfold reconcileRelayV2ExactInDoubtOperation; infer_instance

instance [Ambient R] (input : ExactInput) (expected : Option ProcessTarget)
    [∀ input externalEpoch id paneIdentity, Along R (reserveExact env input externalEpoch id paneIdentity)] :
    Along R (prepareRelayV2ExactTargetForProcess env input expected) := by
  unfold prepareRelayV2ExactTargetForProcess; dsimp only; infer_instance

instance [Ambient R] (record : ClaimRecord) : Along R (relayV2RollbackRecord env record) := by
  unfold relayV2RollbackRecord
  refine locked_along env _ (o := Along.bind (q := fun w => ?_))
  split
  · infer_instance
  · split <;> infer_instance

instance (id : String) [Assigns R id] : Along R (rejectFencedReservation (α := α) env id) := by
  unfold rejectFencedReservation; infer_instance

instance (id : String) (record : ClaimRecord) [Assigns R id] : Along R (rejectUnlessCurrent env id record) := by
  unfold rejectUnlessCurrent; infer_instance

instance (id : String) (answer : Nat → Except ControlError α) (message : String) [Assigns R id] :
    Along R (observeProbe env id answer message) := by
  unfold observeProbe; infer_instance

instance (id : String) (record : ClaimRecord) [Assigns R id] : Along R (observeIncarnation env id record) := by
  unfold observeIncarnation; infer_instance

instance (record : ClaimRecord) (hint : Option (Nat × Nat)) [Assigns R record.identity.controlTargetId]
    [∀ id output, Along R (publishObservation env id record output)] :
    Along R (consumeRelayV2ExactObservation env record hint) := by
  unfold consumeRelayV2ExactObservation
  cases hint <;> dsimp only <;> infer_instance

instance (observation : Nat) (e : ControlError) : Along R (requireOpen observation e) := by
  unfold requireOpen
  refine Along.bind (q := fun w => ?_)
  split <;> infer_instance

instance [Prunes R] (id : String) : Along R (pruneStaleObservers id) := by unfold pruneStaleObservers; infer_instance

instance [∀ id, Assigns R id] [Prunes R] (observation cursor maxBytes : Nat) :
    Along R (tailRelayV2ExactObservation env observation cursor maxBytes) := by
  unfold tailRelayV2ExactObservation; infer_instance

instance [∀ id, Assigns R id] [Prunes R] (observation : Nat) : Along R (closeRelayV2ExactObservation env observation) := by
  unfold closeRelayV2ExactObservation
  refine Along.bind (q := fun w => ?_)
  split
  · infer_instance
  · refine Along.ite (q := locked_along env _ (o := Along.bind (q := fun w => ?_)))
    split <;> infer_instance

instance [Prunes R] : Along R (relayV2ExactIdleActivitySnapshot env) := by
  unfold relayV2ExactIdleActivitySnapshot; infer_instance

/-! ## Sections -/

instance (x : M α) [Along R x] : Along R (discard x) := by unfold discard; infer_instance

instance [Ambient R] [Prunes R] (request : Request) : Along R (handleV1 env request) := by
  cases request <;> unfold handleV1 <;> infer_instance

instance [Ambient R] [Prunes R] (l : Local) (s : Section)
    [∀ input externalEpoch id paneIdentity, Along R (reserveExact env input externalEpoch id paneIdentity)]
    [∀ id record output, Along R (publishObservation env id record output)] : Along R (s.program env l) := by
  cases s with
  | rollback claim =>
    unfold Section.program
    cases h : l.claims[claim]? <;> simp only [h] <;> infer_instance
  | observe claim hint =>
    unfold Section.program
    cases h : l.claims[claim]? <;> simp only [h] <;> infer_instance
  | _ =>
    unfold Section.program
    infer_instance

end Terminal
end TmuxWorktree
