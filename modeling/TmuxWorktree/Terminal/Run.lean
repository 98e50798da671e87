import TmuxWorktree.Terminal.Exact
/-!
# Run — every order in which the authority's sections and synchronous calls can happen

The store lock admits one section at a time, so a run is a list of steps: a synchronous call, a whole section (with
other synchronous calls at its `await`s, chosen by the `Env`), or the death of the process.  A section of a `handle`
request runs while its own external operation is open; a rollback runs for a revoked claim; an observation is consumed
for a burned one.
-/
namespace TmuxWorktree
namespace Terminal

open Effect

/-- `TerminalControlRequest`, the requests that take the store lock. -/
inductive Request where
  | targetResolve (sessionName : String)
  | ownershipStatus (controlTargetId : String)
  | leaseAcquire (controlTargetId : String) (owner : Owner) (ttlMs : Int)
  | leaseRenew (lease : Lease) (ttlMs : Int)
  | leaseRelease (lease : Lease)
  | handoffBegin (controlTargetId : String) (nextOwner : Owner) (currentLease : Option Lease)
  | handoffCommit (handoffId : String) (currentLease : Lease) (drain : DrainProof) (ttlMs : Int)
  | handoffCancel (handoffId : String) (currentLease : Lease)
  | handoffWithdraw (controlTargetId handoffId : String) (nextOwner : Owner)
  | handoffForce (controlTargetId expectedControlEpoch : String) (nextOwner : Owner) (proof : RecoveryProofKind)
      (acknowledgeUncertainOperation : Bool) (ttlMs : Int)
  | input (lease : Lease) (operationId pane : String) (payload : InputPayload)
  | lifecycleKill (lease : Lease) (operationId : String)
  | outputTail (controlTargetId controlEpoch outputGeneration : String) (cursor maxBytes : Nat)
  | outputRenderedSnapshot (lease : Lease) (outputGeneration pane : String)
  | activityAgentStatus (lease : Lease) (outputGeneration pane : String)
  | activityAgentResult (lease : Lease) (outputGeneration pane : String)
  deriving DecidableEq, Repr

variable (env : Env)

/-- The answer's value is dropped: a run keeps the world. -/
def discard {α : Type} (x : M α) : M Unit := do
  let _ ← x
  pure ()

def handleV1 : Request → M Unit
  | .targetResolve name => discard (resolveTarget env name)
  | .ownershipStatus id => discard (status env id)
  | .leaseAcquire id owner ttlMs => discard (acquire env id owner ttlMs)
  | .leaseRenew lease ttlMs => discard (renew env lease ttlMs)
  | .leaseRelease lease => discard (release env lease)
  | .handoffBegin id nextOwner lease => discard (beginHandoff env id nextOwner lease)
  | .handoffCommit handoffId lease drain ttlMs => discard (commitHandoff env handoffId lease drain ttlMs)
  | .handoffCancel handoffId lease => discard (cancelHandoff env handoffId lease)
  | .handoffWithdraw id handoffId nextOwner => discard (withdrawHandoff env id handoffId nextOwner)
  | .handoffForce id epoch nextOwner proof acknowledge ttlMs =>
    discard (forceHandoff env id epoch nextOwner proof acknowledge ttlMs)
  | .input lease operationId pane payload => discard (executeInput env lease operationId pane payload)
  | .lifecycleKill lease operationId => discard (executeLifecycleKill env lease operationId)
  | .outputTail id epoch generation cursor maxBytes => discard (tailOutput env id epoch generation cursor maxBytes)
  | .outputRenderedSnapshot lease generation pane => discard (renderedSnapshot env lease generation pane)
  | .activityAgentStatus lease generation pane => discard (agentStatus env lease generation pane)
  | .activityAgentResult lease generation pane => discard (agentResult env lease generation pane)

/-- A locked section, with what it needs from the process. -/
inductive Section where
  | handle (request : Request)
  | initializeContinuity
  | prepare (input : ExactInput) (expectedProcessTarget : Option ProcessTarget)
  | rollback (claim : Nat)
  | observe (claim : Nat) (displaySizeHint : Option (Nat × Nat))
  | tailObservation (observation cursor maxBytes : Nat)
  | closeObservation (observation : Nat)
  | idleActivity
  deriving DecidableEq, Repr

/-- The external operation a section belongs to. -/
def Section.running : Section → Running
  | .handle (.ownershipStatus id) => .target id
  | .handle _ => .external
  | .initializeContinuity => .external
  | _ => .none

/-- The section's external operation is open, its claim is revoked or burned. -/
def Section.admissible (l : Local) (s : Section) : Bool :=
  (match s.running with
    | .none => true
    | .external => 0 < l.relayV2ExternalOperations
    | .target id => 0 < l.targetExternalOperations id) &&
  (match s with
    | .rollback claim => (l.claims[claim]?).any (fun c => c.state = .revoked)
    | .observe claim _ => (l.claims[claim]?).any (fun c => c.observing)
    | _ => true)

def Section.program (l : Local) : Section → M Unit
  | .handle request => handleV1 env request
  | .initializeContinuity => discard (Terminal.initializeContinuity env)
  | .prepare input expected => prepareRelayV2ExactTargetForProcess env input expected
  | .rollback claim =>
    match l.claims[claim]? with
    | some record => discard (relayV2RollbackRecord env record)
    | none => pure ()
  | .observe claim hint =>
    match l.claims[claim]? with
    | some record => discard (consumeRelayV2ExactObservation env record hint)
    | none => pure ()
  | .tailObservation observation cursor maxBytes =>
    discard (tailRelayV2ExactObservation env observation cursor maxBytes)
  | .closeObservation observation => closeRelayV2ExactObservation env observation
  | .idleActivity => discard (relayV2ExactIdleActivitySnapshot env)

inductive Step where
  | sync (call : Sync)
  | locked (s : Section)
  | die
  deriving DecidableEq, Repr

/-- A new process: its memory is empty. -/
def World.restart (w : World) : World :=
  { w with mem := ⟨"-", []⟩, loc := Local.fresh, running := .none, trace := .restarted :: w.trace }

/-- The world after a section: a crash inside it takes the process down. -/
def runSection (w : World) (s : Section) : World :=
  if s.admissible w.loc then
    match s.program env w.loc { w with running := s.running } with
    | (.crash, w') => w'.restart
    | (_, w') => { w' with running := .none }
  else w

def runStep (w : World) : Step → World
  | .sync call =>
    { w with tick := w.tick + 1 }.interleave env.relayV2ExactTargetTtlMs [(call, env.now w.tick)]
  | .locked s => runSection env w s
  | .die => w.restart

/-- The world after a run. -/
def runFrom (w : World) (steps : List Step) : World := steps.foldl (runStep env) w

def run (steps : List Step) : World := runFrom env World.init steps

end Terminal
end TmuxWorktree
