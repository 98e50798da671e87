import TmuxWorktree.Stream.Serve
/-!
# Input — the two control sequences of a stream (`terminalManager.ts`)

`inputInternal` and `resizeInternal` are one algorithm over two windows: a frame inside the window is answered from it,
the next frame is written under the producer lease, anything else is refused.  The authority's answer decides what
stays behind: the number is acknowledged, or the stream is in doubt, or the frame may be tried again.
-/
namespace TmuxWorktree
namespace Stream

open Effect

/-- A control frame: the stream and generation it is for, its route, its number and what it carries. -/
structure Frame where
  key : StreamKey
  route : Nat
  generation : Nat
  seq : Nat
  payload : Payload
  deriving DecidableEq, Repr

/-- `payloadHash(input.data)`, or the size's fingerprint. -/
def Config.fingerprint (C : Config) : Payload → Fingerprint
  | .data bytes => .hash (C.payloadHash bytes)
  | .size cols rows => .size cols rows

def Config.dedupeEntries (C : Config) : Kind → Nat
  | .input => C.limits.inputDedupeEntries
  | .resize => C.limits.resizeDedupeEntries

def gapCode : Kind → ErrorCode
  | .input => .inputGap
  | .resize => .resizeGap

def conflictCode : Kind → ErrorCode
  | .input => .inputConflict
  | .resize => .resizeConflict

/-! ## Answers -/

/-- `sendInputAck`, `sendResizeAck`. -/
def sendControlAck (kind : Kind) (key : StreamKey) (seq : Nat) : Act Unit := do
  let s ← streamAt key
  match s with
  | none => pure ()
  | some s =>
    if s.binding.isSome then sendFrame (.controlAck kind key s.generation seq (s.control.window kind).acked)
    else pure ()

def sendControlError (kind : Kind) (key : StreamKey) (seq : Nat) (code : ErrorCode) : Act Unit := do
  let s ← streamAt key
  match s with
  | none => pure ()
  | some s =>
    if s.binding.isSome then
      sendFrame (.controlError kind key s.generation seq (s.control.window kind).acked code)
    else pure ()

/-! ## Frames the window answers -/

/-- Whether a frame is answered from the window: `some true` acknowledges it, `some false` is a conflict. -/
def Window.known (w : Window) (seq : Nat) (fp : Fingerprint) : Option Bool :=
  if seq ≤ w.floor then some true
  else if seq ≤ w.acked then some (w.fingerprintAt seq = some fp)
  else none

def Window.cancelRetryOf (seq : Nat) (w : Window) : Window :=
  if w.retry.any (fun r => r.sequence = seq) then w.cancelRetry else w

def answerKnown (kind : Kind) (f : Frame) (same : Bool) : Act Unit := do
  updateWindow f.key kind (Window.cancelRetryOf f.seq)
  if same then sendControlAck kind f.key f.seq else sendControlError kind f.key f.seq (conflictCode kind)

/-! ## Frames that are written -/

def setPending (kind : Kind) (key : StreamKey) (pending : Option PendingSequence) : Act Unit :=
  updateWindow key kind fun w => { w with pending := pending }

def cancelRetry (kind : Kind) (key : StreamKey) : Act Unit := updateWindow key kind Window.cancelRetry

/-- The pending slot is emptied if it is this frame's. -/
def Window.dropPending (seq : Nat) (w : Window) : Window :=
  if w.pending.any (fun p => p.seq = seq) then { w with pending := none } else w

/-- The number was accepted: it is acknowledged and its fingerprint retained. -/
def Window.accept (limit seq : Nat) (fp : Fingerprint) (w : Window) : Window :=
  Window.trim limit { w.cancelRetry with acked := seq, retained := w.retained ++ [(seq, fp)], pending := none }

/-- Nobody knows whether the frame was written. -/
def leaveInDoubt (kind : Kind) (f : Frame) (fp : Fingerprint) (e : StructuredError) : Act Unit := do
  setInDoubt f.key e
  setPending kind f.key (some ⟨f.seq, fp, some e⟩)
  cancelRetry kind f.key
  sendControlError kind f.key f.seq e.code

/-- The frame was not written: it is kept for a retry, or refused. -/
def retryOrRefuse (kind : Kind) (f : Frame) (e : StructuredError) : Act Unit :=
  if e.retryable then updateWindow f.key kind fun w => w.scheduleRetry f.seq f.payload f.route
  else do
    updateWindow f.key kind (Window.dropPending f.seq)
    cancelRetry kind f.key
    sendControlError kind f.key f.seq e.code

def rejectWrite (kind : Kind) (f : Frame) (e : StructuredError) : Act Unit :=
  if e.code = .permissionDenied then do
    let _ ← releaseProducerLease f.key
    clearControlWindows f.key
    retryOrRefuse kind f e
  else retryOrRefuse kind f e

def Manager.acceptWrite (C : Config) (m : Manager) (kind : Kind) (f : Frame) (fp : Fingerprint) : Manager :=
  m.update f.key fun s => { s with
    control := s.control.setWindow kind ((s.control.window kind).accept (C.dedupeEntries kind) f.seq fp) }

def operationId (C : Config) (kind : Kind) (f : Frame) : OperationId :=
  ⟨C.hostInstanceId, f.key.streamId, f.generation, kind, f.seq⟩

/-- `writeInput`, `resize` of the authority: the call and its answer go into the trace together with what the manager
makes of them. -/
def Manager.wrote (C : Config) (m : Manager) (kind : Kind) (f : Frame) (verdict : Verdict) : Manager :=
  let m' := m.emit (.wrote kind f.key f.generation f.seq (operationId C kind f) f.payload verdict)
  match verdict with
  | .accepted => m'.acceptWrite C kind f (C.fingerprint f.payload)
  | _ => m'

def writeFrame (C : Config) (kind : Kind) (f : Frame) : Act Unit := do
  let a ← ask
  Eff.modify fun m => m.wrote C kind f a.verdict
  match a.verdict with
  | .accepted => sendControlAck kind f.key f.seq
  | .uncertain e => do
    dropProducerLease f.key
    leaveInDoubt kind f (C.fingerprint f.payload) e
  | .rejected e => rejectWrite kind f e

/-- The next frame of the sequence: it becomes the pending one and is written once the lease is held. -/
def writeNext (C : Config) (kind : Kind) (f : Frame) : Act Unit := do
  setPending kind f.key (some ⟨f.seq, C.fingerprint f.payload, none⟩)
  let lease ← ensureProducerLease f.key
  match lease with
  | .accepted _ => writeFrame C kind f
  | .uncertain e => leaveInDoubt kind f (C.fingerprint f.payload) e
  | .rejected e => retryOrRefuse kind f e

/-- A frame above the window. -/
def admitFrame (C : Config) (kind : Kind) (f : Frame) (w : Window) : Act Unit :=
  if f.seq ≠ w.acked + 1 then sendControlError kind f.key f.seq (gapCode kind)
  else if w.pending.any fun p => p.seq ≠ f.seq || p.fingerprint ≠ C.fingerprint f.payload then
    sendControlError kind f.key f.seq (conflictCode kind)
  else match w.pending.bind PendingSequence.inDoubt with
    | some e => sendControlError kind f.key f.seq e.code
    | none => writeNext C kind f

/-- A frame above the window, once the old lease has been looked at. -/
def admitUnlessInDoubt (C : Config) (kind : Kind) (f : Frame) : Act Unit := do
  reconcileRetiringLease f.key
  let s ← streamAt f.key
  match s with
  | none => pure ()
  | some s =>
    match s.control.controlInDoubt with
    | some e => sendControlError kind f.key f.seq e.code
    | none => admitFrame C kind f (s.control.window kind)

/-- The checks of a frame's own fields. -/
def checkPayload (C : Config) : Payload → Act Unit
  | .data bytes =>
    if C.limits.maxFrameBytes < bytes.length then fail .invalidArgument "terminal input exceeds 64 KiB" else pure ()
  | .size cols rows =>
    if cols < 1 || 1000 < cols || rows < 1 || 500 < rows then
      fail .invalidArgument "terminal size is outside the frozen bounds"
    else pure ()

def parsePositiveCounter (value : Nat) (label : String) : Act Nat := do
  let n ← parseCounter value label
  if n = 0 then fail .invalidArgument (label ++ " must start at 1") else pure n

def seqLabel : Kind → String
  | .input => "inputSeq"
  | .resize => "resizeSeq"

/-- A frame for a stream that is bound to its route. -/
def handleFrame (C : Config) (kind : Kind) (f : Frame) (s : TerminalStream) : Act Unit :=
  match (s.control.window kind).known f.seq (C.fingerprint f.payload) with
  | some same => answerKnown kind f same
  | none => admitUnlessInDoubt C kind f

def controlInternal (C : Config) (kind : Kind) (f : Frame) : Act Unit := do
  sweepInternal C.limits false
  let s ← requireBoundStream f.key f.route f.generation
  if s.status = .closed then fail .streamNotFound "terminal stream is already closed"
  else
    checkPayload C f.payload
    let _ ← parsePositiveCounter f.seq (seqLabel kind)
    handleFrame C kind f s

def inputInternal (C : Config) (key : StreamKey) (route generation seq : Nat) (data : Bytes) : Act Unit :=
  controlInternal C .input ⟨key, route, generation, seq, .data data⟩

def resizeInternal (C : Config) (key : StreamKey) (route generation seq cols rows : Nat) : Act Unit :=
  controlInternal C .resize ⟨key, route, generation, seq, .size cols rows⟩

/-- The timer of a scheduled retry fires: its copy of the frame comes in again, if the stream is still live and bound. -/
def retryFires (C : Config) (kind : Kind) (key : StreamKey) : Act Unit := do
  let m ← Eff.get
  match (m.stream key).bind fun s => (s.control.window kind).retry.map fun r => (s, r) with
  | none => pure ()
  | some (s, r) => do
    updateWindow key kind fun w => { w with retry := none }
    if m.stopping || s.status ≠ .live || s.binding.isNone then pure ()
    else controlInternal C kind ⟨key, r.route, s.generation, r.sequence, r.payload⟩

end Stream
end TmuxWorktree
