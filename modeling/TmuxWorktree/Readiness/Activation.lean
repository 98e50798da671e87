import Mathlib.Data.List.Basic
/-!
# Activation — the H0 readiness of a host (`hostH0ReadinessActivation.ts`)

An activation issues a receipt on the store, reads the store once more, exchanges the receipt for a lease, and publishes
the source as ready for as long as the lease lives.  The store serves its operations one at a time and in order; what an
`await` gets is taken up at any later time, so calls overlap in every way.
-/
namespace TmuxWorktree
namespace Readiness

def maxH0SourceGeneration : Nat := 18446744073709551615

/-- `H0ActivationRecord`, of the attempt it is kept under; `cleanupFailed` is a `cleanupError` that is not null. -/
structure Record where
  lease : Option Nat
  active : Bool
  retired : Bool
  releaseAttempted : Bool
  ownerInvalidated : Bool
  cleanupFailed : Bool
  deriving DecidableEq

/-- What the store makes of an operation: a lineage that is ours or another, a fault of the disk that comes before a
commit, or any other error, which costs the store its proofs. -/
inductive Outcome where
  | done (ours : Bool)
  | storageFault
  | failed
  deriving DecidableEq, Repr

/-- Where a call of `activate` stands; `receipt` is the generation of its receipt, and a settled call returned a value or
threw. -/
inductive Progress where
  | issuing
  | issued (receipt : Nat) (outcome : Outcome)
  | seeding (receipt : Nat)
  | seeded (receipt : Nat) (outcome : Outcome)
  | settled (returned : Option Bool)
  deriving DecidableEq, Repr

/-- An operation that waits for the store. -/
inductive Request where
  | issue (attempt : Nat)
  | seed (attempt receipt : Nat)
  | read (call : Nat)
  deriving DecidableEq, Repr

/-- `runtimeH0.read`: it waits for the store, or for its turn to go on. -/
inductive Reading where
  | waiting
  | answered (outcome : Outcome)
  | settled (returned : Bool)
  deriving DecidableEq, Repr

structure World where
  /-- the owner state of the store: the newest generation, the receipts, and the leases with the record that each closes -/
  proofGeneration : Nat := 0
  receipts : List Nat := []
  leases : List (Nat × Nat) := []
  queue : List Request := []
  /-- the variables of the activation -/
  disposed : Bool := false
  mutationEpoch : Nat := 0
  currentAttempt : Option Nat := none
  sourceGeneration : Nat := 0
  sourceWithdrawn : Bool := false
  active : Option Nat := none
  lastVerified : Bool := false
  records : Nat → Option Record := fun _ => none
  /-- the calls: an `activate` by its attempt, and the reads -/
  calls : Nat → Option Progress := fun _ => none
  reads : Nat → Option Reading := fun _ => none
  /-- the source: whether it is ready, and how often it was closed -/
  published : Bool := false
  closes : Nat := 0

namespace World

def setRecord (w : World) (attempt : Nat) (r : Record) : World :=
  { w with records := fun a => if a = attempt then some r else w.records a }

def setCall (w : World) (attempt : Nat) (p : Progress) : World :=
  { w with calls := fun a => if a = attempt then some p else w.calls a }

def setRead (w : World) (call : Nat) (r : Reading) : World :=
  { w with reads := fun c => if c = call then some r else w.reads c }

def enqueue (w : World) (request : Request) : World := { w with queue := w.queue ++ [request] }

/-! ## The owner's parts of an activation -/

def isCurrentAttempt (w : World) (attempt : Nat) : Bool :=
  !w.disposed && w.currentAttempt = some attempt && attempt = w.mutationEpoch

def invalidateAttempt (w : World) : World := { w with mutationEpoch := w.mutationEpoch + 1, currentAttempt := none }

/-- `finishAttempt`: the call returns `false`. -/
def finishAttempt (w : World) (attempt : Nat) : World :=
  { w with currentAttempt := if w.currentAttempt = some attempt then none else w.currentAttempt }.setCall attempt
    (.settled (some false))

/-- The call throws if its cleanup failed, and finishes the attempt if not. -/
def finishUnless (w : World) (failed : Bool) (attempt : Nat) : World :=
  if failed then w.setCall attempt (.settled none) else w.finishAttempt attempt

/-- `withdrawSource`; the sink takes its close. -/
def withdrawSource (w : World) : World :=
  if w.sourceWithdrawn then w else { w with sourceWithdrawn := true, published := false, closes := w.closes + 1 }

/-- `releaseRecord`: the store takes back a lease that is live. -/
def releaseRecord (w : World) (attempt : Nat) : World :=
  match w.records attempt with
  | some r =>
    match r.lease with
    | some lease =>
      if r.releaseAttempted then w
      else
        let released := w.leases.contains (lease, attempt)
        { w with leases := w.leases.filter (· ≠ (lease, attempt)) }.setRecord attempt
          { r with releaseAttempted := true, cleanupFailed := r.cleanupFailed || (!released && !r.ownerInvalidated) }
    | none => w
  | none => w

def retireRecord (w : World) (attempt : Nat) : World :=
  match w.records attempt with
  | some r =>
    let w :=
      if r.retired then w
      else
        ({ w with active := if w.active = some attempt then none else w.active }.setRecord attempt
          { r with retired := true, active := false }).withdrawSource
    w.releaseRecord attempt
  | none => w

def cleanupFailed (w : World) (attempt : Nat) : Bool := (w.records attempt).any (·.cleanupFailed)

/-- `failClosed`, and whether its cleanup failed. -/
def failClosed (w : World) : World × Bool :=
  let w := w.invalidateAttempt
  match w.active with
  | some attempt =>
    let w := w.withdrawSource.retireRecord attempt
    (w, w.cleanupFailed attempt)
  | none => (w.withdrawSource, false)

/-! ## The store -/

/-- The `close` of a lease's sink. -/
def closeLease (w : World) (attempt : Nat) : World :=
  match w.records attempt with
  | some r =>
    if r.retired then w
    else
      let w := w.setRecord attempt { r with ownerInvalidated := true }
      let w := if w.currentAttempt = some attempt then w.invalidateAttempt else w
      w.retireRecord attempt
  | none => w

/-- `invalidateH0ProofsFor`: the receipts and the leases end, and then the sinks of the leases are closed. -/
def invalidateProofs (w : World) : World :=
  (w.leases.map Prod.snd).foldl closeLease { w with receipts := [], leases := [] }

/-- The store ends the operation at the head of its queue. -/
def serve (w : World) (outcome : Outcome) : World :=
  match w.queue with
  | [] => w
  | request :: queue =>
    let w := { w with queue := queue }
    let w := if outcome = .failed then w.invalidateProofs else w
    match request with
    | .issue attempt =>
      match outcome with
      | .done _ =>
        let w := w.invalidateProofs
        { w with proofGeneration := w.proofGeneration + 1, receipts := [w.proofGeneration + 1] }.setCall attempt
          (.issued (w.proofGeneration + 1) outcome)
      | _ => w.setCall attempt (.issued 0 outcome)
    | .seed attempt receipt => w.setCall attempt (.seeded receipt outcome)
    | .read call => w.setRead call (.answered outcome)

/-- `consumeH0ReadinessReceiptFor`, into the record of an attempt: only the newest receipt gives a lease. -/
def consumeReceipt (w : World) (attempt receipt : Nat) : World × Option Nat :=
  if w.receipts.contains receipt && receipt = w.proofGeneration then
    ({ w with receipts := w.receipts.filter (· ≠ receipt), leases := (receipt, attempt) :: w.leases }, some receipt)
  else (w, none)

/-! ## `activate` -/

/-- Up to the first `await`. -/
def activate (w : World) : World :=
  let attempt := w.mutationEpoch + 1
  let w := { w with mutationEpoch := attempt, currentAttempt := some attempt }
  if w.disposed then w.finishAttempt attempt else (w.enqueue (.issue attempt)).setCall attempt .issuing

def resumeIssued (w : World) (attempt receipt : Nat) (outcome : Outcome) : World :=
  if !w.isCurrentAttempt attempt then w.finishAttempt attempt
  else
    match outcome with
    | .done true => (w.enqueue (.seed attempt receipt)).setCall attempt (.seeding receipt)
    | .done false =>
      let (w, failed) := { w with receipts := w.receipts.filter (· ≠ receipt) }.failClosed
      w.setCall attempt (.settled (if failed then none else some false))
    | _ => w.failClosed.1.setCall attempt (.settled none)

/-- The source is published; its `answer` is `none` if it throws. -/
def publish (w : World) (attempt : Nat) (r : Record) (answer : Option Bool) : World :=
  let w := { w with active := some attempt, sourceWithdrawn := false, published := answer = some true }.setRecord attempt
    { r with active := true }
  if answer = some true then { w with currentAttempt := none }.setCall attempt (.settled (some true))
  else
    let w := w.retireRecord attempt
    w.finishUnless (answer.isNone || w.cleanupFailed attempt) attempt

/-- After the read that seeds the last verified snapshot.  The receipt is consumed whether or not the attempt is still
the current one. -/
def resumeSeeded (w : World) (attempt receipt : Nat) (outcome : Outcome) (answer : Option Bool) : World :=
  let w := match outcome with
    | .done ours => { w with lastVerified := ours || w.lastVerified }
    | _ => { w with lastVerified := false }
  let (w, lease) := w.consumeReceipt attempt receipt
  let r : Record := ⟨lease, false, false, false, false, false⟩
  let w := w.setRecord attempt r
  if lease = none then
    let (w, failed) := w.failClosed
    w.finishUnless failed attempt
  else if !w.isCurrentAttempt attempt || maxH0SourceGeneration ≤ w.sourceGeneration then
    let w := w.retireRecord attempt
    w.finishUnless (w.cleanupFailed attempt) attempt
  else { w with sourceGeneration := w.sourceGeneration + 1 }.publish attempt r answer

/-- The call goes on with what it awaits; `answer` is what the sink makes of a publication. -/
def resume (w : World) (attempt : Nat) (answer : Option Bool) : World :=
  match w.calls attempt with
  | some (.issued receipt outcome) => w.resumeIssued attempt receipt outcome
  | some (.seeded receipt outcome) => w.resumeSeeded attempt receipt outcome answer
  | _ => w

/-! ## `close`, `dispose` and the reads -/

/-- `close` and `dispose` retire the record that is active. -/
def withdraw (w : World) : World :=
  match w.active with
  | some attempt => w.withdrawSource.retireRecord attempt
  | none => w.withdrawSource

def close (w : World) : World := if w.disposed then w else w.invalidateAttempt.withdraw

def dispose (w : World) : World := if w.disposed then w else { w.invalidateAttempt with disposed := true }.withdraw

/-- `runtimeH0.read`, up to its `await`. -/
def read (w : World) (call : Nat) : World :=
  if w.disposed || (w.reads call).isSome then w else (w.enqueue (.read call)).setRead call .waiting

/-- A read that fails withdraws the source, unless the disk is at fault and a snapshot was verified before. -/
def resumeRead (w : World) (call : Nat) : World :=
  match w.reads call with
  | some (.answered (.done true)) => { w with lastVerified := true }.setRead call (.settled true)
  | some (.answered outcome) =>
    if outcome = .storageFault && w.lastVerified && !w.disposed then w.setRead call (.settled true)
    else w.failClosed.1.setRead call (.settled false)
  | _ => w

end World

/-! ## Runs -/

inductive Step where
  | activate
  | close
  | dispose
  | read (call : Nat)
  /-- the store ends its next operation -/
  | serve (outcome : Outcome)
  /-- an `activate` call goes on -/
  | resume (attempt : Nat) (answer : Option Bool)
  | resumeRead (call : Nat)
  /-- the store loses its proofs to an operation of another caller -/
  | invalidateProofs
  deriving DecidableEq, Repr

def step (w : World) : Step → World
  | .activate => w.activate
  | .close => w.close
  | .dispose => w.dispose
  | .read call => w.read call
  | .serve outcome => w.serve outcome
  | .resume attempt answer => w.resume attempt answer
  | .resumeRead call => w.resumeRead call
  | .invalidateProofs => w.invalidateProofs

def run (steps : List Step) : World := steps.foldl step {}

end Readiness
end TmuxWorktree
