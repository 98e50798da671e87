import TmuxWorktree.Lib.Effect
import TmuxWorktree.Lib.Keyed
import TmuxWorktree.Stream.Ring
/-!
# State — the terminal manager's state, its environment and its trace (`terminalManager.ts`)

Every public operation and every backend callback of `RelayV2TerminalManager` runs under one serializer (`enqueue`), so
an operation is a program over the manager's state in which only the answers of the awaited calls vary.  The answers
come from `Environment.answers`, one for each await; an answer may also cut the run off there, so that what is proved of
the ends of all runs holds at every await.

`trace` is not in the source: it lists what crossed the manager's border (bytes from the backend, frames, calls of the
control authority), newest first, and the properties are stated over it.  Identities that are only compared
(principals, routes, targets, tokens, digests) are numbers.
-/
namespace TmuxWorktree
namespace Stream

open Effect

/-! ## Errors and answers -/

/-- `RelayV2TerminalErrorCode`, the codes of structured errors, and `none` for an error without one.  `openTimeout` is a
`BUSY` of `openDeadlineError`, which the manager tells apart. -/
inductive ErrorCode where
  | none | busy | openTimeout | capabilityUnavailable | hostEpochMismatch | invalidArgument | permissionDenied | streamNotFound
  | streamConflict | openConflict | closeConflict | routeStale | generationStale | offsetExpired | invalidAck
  | inputGap | inputConflict | resizeGap | resizeConflict | slowConsumer | scopeNotFound | scopeUnreachable
  | sessionNotFound | paneNotFound | commandInDoubt | resourceExhausted | internal
  deriving DecidableEq, Repr

/-- A thrown error. -/
structure Fault where
  code : ErrorCode
  message : String
  deriving DecidableEq, Repr

/-- `RelayV2TerminalStructuredError`; `commandDisposition` follows from the code. -/
structure StructuredError where
  code : ErrorCode
  message : String
  retryable : Bool
  deriving DecidableEq, Repr

/-- What a call of the control authority came to, past `validateAuthorityResult`, `validateLeaseResult` and
`controlFailure`. -/
inductive Verdict where
  | accepted
  | rejected (error : StructuredError)
  | uncertain (error : StructuredError)
  deriving DecidableEq, Repr

/-- The client instance and its stream id: `streamKey` is the pair, within one host epoch. -/
structure StreamKey where
  auth : Nat
  streamId : Nat
  deriving DecidableEq, Repr

/-- `RelayV2TerminalResetReason`. -/
inductive ResetReason where
  | slowConsumer | hostBufferPressure | streamLost | offsetExpired | generationStale
  deriving DecidableEq, Repr

inductive Disposition where
  | new | resumed | reset
  deriving DecidableEq, Repr

inductive OpenOutcome where
  | opened (generation : Nat) (disposition : Disposition) (replayFromOffset : Nat)
  | reset (generation : Option Nat) (reason : ResetReason) (requestedOffset bufferStartOffset tailOffset : Option Nat)
  | error (code : ErrorCode) (message : String)
  deriving DecidableEq, Repr

/-- `RelayV2TerminalDurableStreamAuthority`, other than absent. -/
structure StreamAuthority where
  closed : Bool
  generation : Nat
  target : Nat
  pane : Nat
  resumeTokenHash : Nat
  canonicalBinding : Nat
  deriving DecidableEq, Repr

/-- What the durable lineage answers to a claim, a preparation, a commit or a release of an open.  `replay` carries
the durable outcome, its resume token hash and the prepared binding. -/
inductive LineageAnswer where
  | done
  | claimed (authority : Option StreamAuthority)
  | replay (outcome : OpenOutcome) (resumeTokenHash : Nat) (preparedBinding : Option Nat)
  | refused (fault : Fault)
  deriving DecidableEq, Repr

/-- `RelayV2TerminalCloseReason`. -/
inductive CloseReason where
  | clientClosed | backendExit | backendError
  deriving DecidableEq, Repr

/-- The part of `RelayV2TerminalDurableCloseTombstone` that the manager reads. -/
structure CloseRecord where
  streamKey : StreamKey
  closeId : Nat
  fingerprint : Nat
  target : Nat
  generation : Nat
  finalOffset : Nat
  reason : CloseReason
  exitCode : Option Int
  expiresAt : Nat
  deriving DecidableEq, Repr

def CloseRecord.key (r : CloseRecord) : StreamKey × Nat := (r.streamKey, r.closeId)

/-- `RelayV2TerminalDurableCloseClaimResult`: which of the lineage's answers comes.  The record of an answer is the one
the lineage holds, see `Manager.durableCloses`. -/
inductive CloseClaim where
  | conflict | notFound | final | claimed | existingIntent
  deriving DecidableEq, Repr

/-- **The answer to one await**: the promise resolves or rejects with `fault`; the other fields are the value, each
read by the calls that return such a value. -/
structure Answer where
  /-- The run is looked at here: nothing after this await has happened yet. -/
  cut : Bool := false
  resolves : Bool := true
  fault : Fault := ⟨.none, "rejected"⟩
  flag : Bool := true
  time : Nat := 0
  verdict : Verdict := .accepted
  lineage : LineageAnswer := .done
  close : CloseClaim := .claimed
  deriving DecidableEq, Repr

/-! ## Streams -/

inductive Status where
  | live | detached | closed | lost
  deriving DecidableEq, Repr

inductive Phase where
  | replay | live
  deriving DecidableEq, Repr

/-- `TerminalBinding`.  `id` numbers the binding objects the manager has made; `closeNotification` is `"event"`. -/
structure Binding where
  id : Nat
  route : Nat
  ackedOffset : Nat
  sentThroughOffset : Nat
  phase : Phase
  replayBoundary : Nat
  closeNotification : Bool
  closeNotified : Bool
  deriving DecidableEq, Repr

/-- `TerminalCondition`. -/
structure Condition where
  finalOffset : Nat
  reason : CloseReason
  exitCode : Option Int
  ringExpiresAt : Nat
  deriving DecidableEq, Repr

/-- `PendingCloseResponse`; `routeRequestKey` is the pair of the first two fields. -/
structure PendingCloseResponse where
  route : Nat
  requestId : Nat
  closeRecordKey : StreamKey × Nat
  deduplicated : Bool
  deriving DecidableEq, Repr

def PendingCloseResponse.key (p : PendingCloseResponse) : Nat × Nat := (p.route, p.requestId)

/-- The two control sequences of a stream. -/
inductive Kind where
  | input | resize
  deriving DecidableEq, Repr

/-- What a control frame carries. -/
inductive Payload where
  | data (bytes : Bytes)
  | size (cols rows : Nat)
  deriving DecidableEq, Repr

/-- `payloadHash` of the data, or `${cols}x${rows}`. -/
inductive Fingerprint where
  | hash (digest : Nat)
  | size (cols rows : Nat)
  deriving DecidableEq, Repr

/-- `PendingSequence`: `inDoubt` holds the error of the state `"in_doubt"`. -/
structure PendingSequence where
  seq : Nat
  fingerprint : Fingerprint
  inDoubt : Option StructuredError
  deriving DecidableEq, Repr

/-- `ProducerControlRetry`, with the copy of the frame its timer sends again. -/
structure Retry where
  sequence : Nat
  payload : Payload
  route : Nat
  deriving DecidableEq, Repr

/-- The window of one control sequence: `inputAcked`, `inputFloor`, `inputHashes`, `pendingInput`, `inputRetry` and
`inputRetryAttempt`, or their namesakes of resize. -/
structure Window where
  acked : Nat := 0
  floor : Nat := 0
  retained : List (Nat × Fingerprint) := []
  pending : Option PendingSequence := none
  retry : Option Retry := none
  retryAttempt : Nat := 0
  deriving DecidableEq, Repr

/-- `TerminalControlLease`, as far as the manager reads it. -/
structure Lease where
  expiresAt : Nat
  deriving DecidableEq, Repr

/-- The control plane of a stream. -/
structure Control where
  producerLease : Option Lease := none
  renewLeaseAfter : Nat := 0
  retiringLease : Option Lease := none
  input : Window := {}
  resize : Window := {}
  controlInDoubt : Option StructuredError := none
  deriving DecidableEq, Repr

def Control.window (c : Control) : Kind → Window
  | .input => c.input
  | .resize => c.resize

def Control.setWindow (c : Control) (kind : Kind) (w : Window) : Control :=
  match kind with
  | .input => { c with input := w }
  | .resize => { c with resize := w }

/-- **`TerminalStream`**.  `backend` says that an attachment is held. -/
structure TerminalStream where
  key : StreamKey
  target : Nat
  pane : Nat
  canonicalBinding : Nat
  generation : Nat
  resumeTokenHash : Nat
  status : Status
  ring : ByteRing
  ringRetained : Bool
  backend : Bool
  backendPaused : Bool
  pauseFailed : Bool
  control : Control
  binding : Option Binding
  detachedUntil : Option Nat
  retainedUntil : Nat
  close : Option Condition
  pendingCloseResponses : List PendingCloseResponse
  closeId : Option Nat
  reservedCloseRecord : Bool
  lastUsedAt : Nat
  deriving DecidableEq

/-- `stream.close?.finalOffset ?? stream.ring.tailOffset`. -/
def TerminalStream.through (s : TerminalStream) : Nat :=
  match s.close with
  | some c => c.finalOffset
  | none => s.ring.tail

def TerminalStream.canReplay (s : TerminalStream) (first through : Nat) : Bool :=
  s.ringRetained && s.ring.hasRange first through

inductive OpenMode where
  | new | resume | reset
  deriving DecidableEq, Repr

/-- `openFingerprint`: what it hashes. -/
structure OpenFingerprint where
  target : Nat
  pane : Nat
  cols : Nat
  rows : Nat
  mode : OpenMode
  resume : Option (Nat × Nat)
  nextOffset : Option Nat
  deriving DecidableEq, Repr

structure OpenRecord where
  streamKey : StreamKey
  openId : Nat
  fingerprint : OpenFingerprint
  expiresAt : Nat
  outcome : OpenOutcome
  resumeTokenHash : Option Nat
  deriving DecidableEq, Repr

def OpenRecord.key (r : OpenRecord) : StreamKey × Nat := (r.streamKey, r.openId)

/-! ## The trace -/

/-- `operationId`: the joined parts. -/
structure OperationId where
  hostInstanceId : Nat
  streamId : Nat
  generation : Nat
  kind : Kind
  seq : Nat
  deriving DecidableEq, Repr

/-- Who asked for an asynchronous reset. -/
inductive ResetOrigin where
  | pump | loseStream
  deriving DecidableEq, Repr

/-- **What crossed the manager's border.**  Frames are those that `sendFrame` took.  Three events mark moments inside the
manager: `bound` a new binding object, `abandoned` a binding given up for a reset, `lost` the loss of a stream, the last
two with the stream's status just before. -/
inductive Event where
  | delivered (key : StreamKey) (generation : Nat) (data : Bytes)
  | bound (id : Nat) (key : StreamKey) (generation offset : Nat)
  | opened (id : Nat) (key : StreamKey) (generation replayFromOffset : Nat)
  | replayStarted (id : Nat) (key : StreamKey) (generation fromOffset : Nat)
  | output (id : Nat) (key : StreamKey) (generation offset : Nat) (data : Bytes)
  | closed (id : Nat) (key : StreamKey) (generation finalOffset : Nat)
  | closedElsewhere (route : Nat) (key : StreamKey) (generation finalOffset : Nat)
  | abandoned (id : Nat) (key : StreamKey) (generation : Nat) (reason : ResetReason) (origin : ResetOrigin)
      (status : Status)
  | reset (id : Nat) (key : StreamKey) (generation : Nat) (reason : ResetReason)
  | resetResponse (route : Nat) (key : StreamKey) (generation : Option Nat) (reason : ResetReason)
  | lost (key : StreamKey) (generation : Nat) (reason : ResetReason) (status : Status) (bound : Bool)
  | wrote (kind : Kind) (key : StreamKey) (generation seq : Nat) (operation : OperationId) (payload : Payload)
      (verdict : Verdict)
  | controlAck (kind : Kind) (key : StreamKey) (generation seq acked : Nat)
  | controlError (kind : Kind) (key : StreamKey) (generation seq acked : Nat) (code : ErrorCode)
  deriving DecidableEq, Repr

/-! ## The manager -/

/-- What a manager is constructed with.  `payloadHash` is SHA-256 of the frame's data. -/
structure Config where
  limits : Limits
  hostId : Nat
  hostEpoch : Nat
  hostInstanceId : Nat
  payloadHash : Bytes → Nat

/-- **The manager's state**, with the environment's answers.  Four fields stand for things outside the manager object:
`generations` counts the generations that the durable lineage has issued, each once; `durableCloses` is what it was
told of closes; `bindings` counts the binding objects; `inbox` is what is left of the chunk in hand. -/
structure Manager where
  streams : List TerminalStream := []
  quarantinedBackends : List Nat := []
  openRecords : List OpenRecord := []
  closeRecords : List CloseRecord := []
  ringBytes : Int := 0
  hostPressure : Bool := false
  stopping : Bool := false
  generations : Nat := 0
  durableCloses : List CloseRecord := []
  bindings : Nat := 0
  inbox : Option (StreamKey × Nat × Bytes) := none
  trace : List Event := []
  answers : Nat → Answer
  tick : Nat := 0

abbrev Act := Eff Manager Fault

/-- `streams.get(key)`. -/
def Manager.stream (m : Manager) (key : StreamKey) : Option TerminalStream :=
  Keyed.find TerminalStream.key key m.streams

/-- The stream at `key` goes through `f`. -/
def Manager.update (m : Manager) (key : StreamKey) (f : TerminalStream → TerminalStream) : Manager :=
  { m with streams := Keyed.update TerminalStream.key key f m.streams }

/-- `streams.set(stream.key, stream)`. -/
def Manager.put (m : Manager) (s : TerminalStream) : Manager :=
  { m with streams := Keyed.put TerminalStream.key s m.streams }

/-- `streams.delete(key)`. -/
def Manager.delete (m : Manager) (key : StreamKey) : Manager :=
  { m with streams := Keyed.erase TerminalStream.key key m.streams }

def Manager.emit (m : Manager) (e : Event) : Manager := { m with trace := e :: m.trace }

/-- One await: the answer, if the run goes on past it. -/
def ask : Act Answer := fun m =>
  let a := m.answers m.tick
  if a.cut then (.crash, { m with tick := m.tick + 1 }) else (.ok a, { m with tick := m.tick + 1 })

/-- One await whose rejection is thrown. -/
def await : Act Answer := do
  let a ← ask
  if a.resolves then pure a else throw a.fault

def now : Act Nat := fun m => (.ok (m.answers m.tick).time, { m with tick := m.tick + 1 })

/-- `streams.get(key)` at this moment. -/
def streamAt (key : StreamKey) : Act (Option TerminalStream) := fun m => (.ok (m.stream key), m)

/-- A mutation of the stream at `key`. -/
def update (key : StreamKey) (f : TerminalStream → TerminalStream) : Act Unit := Eff.modify fun m => m.update key f

/-- A mutation of the control plane of the stream at `key`. -/
def updateControl (key : StreamKey) (f : Control → Control) : Act Unit :=
  update key fun s => { s with control := f s.control }

def emit (e : Event) : Act Unit := Eff.modify fun m => m.emit e

/-- `sendFrame`: the frame is in the trace once it was taken. -/
def sendFrame (e : Event) : Act Unit := do
  let _ ← await
  emit e

def fail {α : Type} (code : ErrorCode) (message : String) : Act α := throw ⟨code, message⟩

end Stream
end TmuxWorktree
