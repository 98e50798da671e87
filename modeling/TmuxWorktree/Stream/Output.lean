import Mathlib.Data.List.Sort
import TmuxWorktree.Stream.Control
/-!
# Output — the output plane of the terminal manager (`terminalManager.ts`)

Bytes come from a stream's backend, go into its ring and leave on the one binding the stream has: `pump` sends what the
client's credit allows, an acknowledgement frees credit and ring.  `refreshBackpressure` pauses backends, `reclaimHostRing`
empties rings nobody is bound to live, `sweepInternal` retires what has expired.
-/
namespace TmuxWorktree
namespace Stream

open Effect

/-! ## Backends and back-pressure -/

/-- `backend.pause()`: a failed pause is only noted. -/
def pauseBackend (key : StreamKey) : Act Unit := do
  let a ← ask
  if a.resolves then update key fun s => { s with backendPaused := true }
  else update key fun s => { s with pauseFailed := true }

/-- `backend.resume()`: a failed resume is only noted. -/
def resumeBackend (key : StreamKey) : Act Unit := do
  let a ← ask
  if a.resolves then update key fun s => { s with backendPaused := false, pauseFailed := false }
  else update key fun s => { s with pauseFailed := true }

/-- The first part of `refreshBackpressure`: the host's pressure has a high and a low water mark. -/
def Manager.refreshHostPressure (L : Limits) (m : Manager) : Manager :=
  if m.hostPressure = false ∧ (L.hostRingBytes : Int) ≤ m.ringBytes then { m with hostPressure := true }
  else if m.hostPressure = true ∧ m.ringBytes ≤ (L.hostRingBytes * 3 / 4 : Nat) then { m with hostPressure := false }
  else m

/-- `streamPressure` of one stream. -/
def TerminalStream.pressed (L : Limits) (s : TerminalStream) : Bool :=
  if s.backendPaused then L.streamRingBytes * 3 / 4 < s.ring.byteLength else L.streamRingBytes ≤ s.ring.byteLength

/-- What `refreshBackpressure` does for one stream: pause, resume or nothing. -/
def refreshStream (L : Limits) (key : StreamKey) : Act Unit := do
  let m ← Eff.get
  match m.stream key with
  | none => pure ()
  | some s =>
    let canDrain := s.status = .live && s.binding.isSome
    let shouldPause := m.hostPressure || s.pressed L
    if !s.backend || s.status = .closed || s.status = .lost then pure ()
    else if !shouldPause && !canDrain then pure ()
    else if shouldPause = s.backendPaused then pure ()
    else if shouldPause then pauseBackend key
    else resumeBackend key

def streamKeys : Act (List StreamKey) := fun m => (.ok (m.streams.map TerminalStream.key), m)

def refreshBackpressure (L : Limits) : Act Unit := do
  Eff.modify (Manager.refreshHostPressure L)
  let keys ← streamKeys
  Eff.forEach (refreshStream L) keys

/-- `disposeBackend`: a failed close of the attachment is ignored. -/
def disposeBackend (key : StreamKey) : Act Unit := do
  let s ← streamAt key
  if s.any TerminalStream.backend then
    update key fun s => { s with backend := false, backendPaused := false }
    let _ ← ask
    pure ()
  else pure ()

/-! ## Rings -/

/-- The state after `stream.ring.clear()`, with its bytes off the host's count. -/
def Manager.clearRing (m : Manager) (key : StreamKey) (retained : Bool) : Manager :=
  match m.stream key with
  | none => m
  | some s => { m.update key (fun s => { s with ring := s.ring.clear.2, ringRetained := retained }) with
      ringBytes := m.ringBytes - s.ring.clear.1 }

def checkRingBytes : Act Unit := do
  let m ← Eff.get
  if m.ringBytes < 0 then fail .none "Relay v2 terminal ring accounting underflow" else pure ()

def removeRing (key : StreamKey) (retainEmptyTimeline : Bool) : Act Unit := do
  Eff.modify fun m => m.clearRing key retainEmptyTimeline
  checkRingBytes

/-! ## Losing a stream -/

/-- The binding of the stream at `key` is given up. -/
def Manager.abandon (m : Manager) (key : StreamKey) (s : TerminalStream) (b : Binding) (reason : ResetReason)
    (origin : ResetOrigin) : Manager :=
  (m.update key fun s => { s with binding := none }).emit (.abandoned b.id key s.generation reason origin s.status)

/-- `sendAsyncReset`: the binding is gone before the frame is sent. -/
def sendAsyncReset (key : StreamKey) (reason : ResetReason) (origin : ResetOrigin) : Act Unit := do
  let s ← streamAt key
  match s.bind fun s => s.binding.map fun b => (s, b) with
  | none => pure ()
  | some (s, b) => do
    Eff.modify fun m => m.abandon key s b reason origin
    sendFrame (.reset b.id key s.generation reason)

/-- The open records of a stream are kept at least as long as the stream. -/
def holdOpenRecords (key : StreamKey) (until_ : Nat) : Act Unit :=
  Eff.modify fun m => { m with openRecords := m.openRecords.map fun r =>
    if r.streamKey = key then { r with expiresAt := max r.expiresAt until_ } else r }

/-- What `loseStream` does to the stream once the reset has been sent. -/
def retireStream (L : Limits) (key : StreamKey) : Act Unit := do
  let t ← now
  update key fun s => { s with
    status := .lost, detachedUntil := none, retainedUntil := t + L.controlRetentionMs
    control := { s.control with
      input := { s.control.input with retained := [], pending := none }
      resize := { s.control.resize with retained := [], pending := none } } }
  removeRing key false
  let _ ← releaseProducerLease key
  clearControlWindows key
  holdOpenRecords key (t + L.controlRetentionMs)
  disposeBackend key

/-- The frame's error wins over the retirement's. -/
def rethrow (sent retired : Except Fault Unit) : Act Unit := do
  Eff.ofExcept sent
  Eff.ofExcept retired

def noteLost (key : StreamKey) (reason : ResetReason) : Act Unit := do
  let s ← streamAt key
  match s with
  | none => pure ()
  | some s => emit (.lost key s.generation reason s.status s.binding.isSome)

def notifyLost (key : StreamKey) (reason : ResetReason) (notify : Bool) : Act Unit :=
  if notify then sendAsyncReset key reason .loseStream else pure ()

def loseStream (L : Limits) (key : StreamKey) (reason : ResetReason) (notify : Bool) : Act Unit := do
  noteLost key reason
  let sent ← Eff.attempt (notifyLost key reason notify)
  let retired ← Eff.attempt (retireStream L key)
  rethrow sent retired

def deleteStream (key : StreamKey) : Act Unit := Eff.modify fun m => m.delete key

def evictStaleLocalStream (L : Limits) (key : StreamKey) : Act Unit := do
  loseStream L key .streamLost false
  deleteStream key

/-! ## The pump -/

/-- A replay that has reached its boundary goes live. -/
def Binding.enterLive (b : Binding) : Binding :=
  if b.phase = .replay ∧ b.replayBoundary ≤ b.sentThroughOffset then { b with phase := .live } else b

def mapBinding (key : StreamKey) (f : Binding → Binding) : Act Unit :=
  update key fun s => { s with binding := s.binding.map f }

/-- How far the pump may send at this moment. -/
def TerminalStream.pumpThrough (s : TerminalStream) (b : Binding) : Nat :=
  if b.phase = .replay then b.replayBoundary else s.through

/-- `maxUnackedBytes - (sentThroughOffset - ackedOffset)`. -/
def Binding.credit (L : Limits) (b : Binding) : Nat := L.maxUnackedBytes - (b.sentThroughOffset - b.ackedOffset)

/-- The frame was taken: the cursor moves past its bytes. -/
def Manager.advance (m : Manager) (key : StreamKey) (b : Binding) (generation : Nat) (data : Bytes) : Manager :=
  (m.update key fun s => { s with binding := some { b with sentThroughOffset := b.sentThroughOffset + data.length } }).emit
    (.output b.id key generation b.sentThroughOffset data)

def sendOutput (key : StreamKey) (b : Binding) (generation : Nat) (data : Bytes) : Act Unit := do
  let _ ← await
  Eff.modify fun m => m.advance key b generation data
  let t ← now
  update key fun s => { s with lastUsedAt := t }

/-- One pass of the pump's loop for a stream and its binding: `true` goes round again, `false` leaves the loop, and
`none` has reset the stream. -/
def pumpStep (L : Limits) (key : StreamKey) (s : TerminalStream) (b : Binding) : Act (Option Bool) :=
  let through := s.pumpThrough b
  if through ≤ b.sentThroughOffset then pure (some false)
  else if b.sentThroughOffset < s.ring.start ∨ s.ringRetained = false then do
    sendAsyncReset key .slowConsumer .pump
    pure none
  else if b.credit L = 0 then pure (some false)
  else
    let data := s.ring.read b.sentThroughOffset (min (b.credit L) L.maxFrameBytes) through
    if data.length = 0 then do
      sendAsyncReset key .slowConsumer .pump
      pure none
    else do
      sendOutput key b s.generation data
      pure (some true)

/-- The stream at `key` and its binding, with the phase brought up to date. -/
def pumpHead (key : StreamKey) : Act (Option (TerminalStream × Binding)) := do
  mapBinding key Binding.enterLive
  let s ← streamAt key
  pure (s.bind fun s => s.binding.map fun b => (s, b))

/-- The pump's loop; `false` is a return from `pump` itself.  Every pass that goes round again spends credit, so
`maxUnackedBytes + 1` passes are enough. -/
def pumpLoop (L : Limits) (key : StreamKey) : Nat → Act Bool
  | 0 => pure true
  | fuel + 1 => do
    let head ← pumpHead key
    match head with
    | none => pure true
    | some (s, b) => do
      let next ← pumpStep L key s b
      match next with
      | none => pure false
      | some false => pure true
      | some true => pumpLoop L key fuel

/-- One queued close response: sent, if its record is still held, and then forgotten. -/
def sendPendingClose (key : StreamKey) (b : Binding) (p : PendingCloseResponse) : Act Unit := do
  let m ← Eff.get
  match Keyed.find CloseRecord.key p.closeRecordKey m.closeRecords with
  | none => pure ()
  | some record =>
    if p.route ≠ b.route then pure ()
    else do
      sendFrame (.closed b.id record.streamKey record.generation record.finalOffset)
      update key fun s => { s with
        pendingCloseResponses := Keyed.erase PendingCloseResponse.key p.key s.pendingCloseResponses }

def sendClosedEvent (key : StreamKey) (generation : Nat) (b : Binding) (c : Condition) : Act Unit :=
  if b.closeNotification && !b.closeNotified then do
    sendFrame (.closed b.id key generation c.finalOffset)
    mapBinding key fun b => { b with closeNotified := true }
  else pure ()

/-- The end of `pump`: everything up to the final offset has been sent. -/
def pumpClosed (key : StreamKey) : Act Unit := do
  let s ← streamAt key
  match s.bind fun s => s.binding.bind fun b => s.close.map fun c => (s, b, c) with
  | none => pure ()
  | some (s, b, c) =>
    if b.sentThroughOffset ≠ c.finalOffset then pure ()
    else do
      Eff.forEach (sendPendingClose key b) s.pendingCloseResponses
      sendClosedEvent key s.generation b c

def pump (L : Limits) (key : StreamKey) : Act Unit := do
  let more ← pumpLoop L key (L.maxUnackedBytes + 1)
  if more then pumpClosed key else pure ()

/-! ## Backend output -/

/-- The rings `reclaimHostRing` may look at, the ones it takes first in front. -/
def reclaimRank (s : TerminalStream) : Nat :=
  match s.status with
  | .closed => 0
  | .detached => 1
  | _ => 2

def reclaimBefore (s t : TerminalStream) : Prop :=
  reclaimRank s < reclaimRank t ∨ (reclaimRank s = reclaimRank t ∧ s.lastUsedAt ≤ t.lastUsedAt)

instance : DecidableRel reclaimBefore := fun _ _ => inferInstanceAs (Decidable (_ ∨ _))

def Manager.reclaimCandidates (m : Manager) (current : StreamKey) : List StreamKey :=
  ((m.streams.filter fun s => s.key ≠ current ∧ 0 < s.ring.byteLength).insertionSort reclaimBefore).map
    TerminalStream.key

def reclaimLoop (L : Limits) (requiredBytes : Nat) : List StreamKey → Act Unit
  | [] => pure ()
  | key :: rest => do
    let m ← Eff.get
    match m.stream key with
    | none => reclaimLoop L requiredBytes rest
    | some s =>
      if s.status = .closed ∨ s.status = .detached then do
        removeRing key (s.status ≠ .closed)
        let m ← Eff.get
        if m.ringBytes + requiredBytes ≤ L.hostRingBytes then pure () else reclaimLoop L requiredBytes rest
      else pure ()

def reclaimHostRing (L : Limits) (requiredBytes : Nat) (current : StreamKey) : Act Unit := do
  let m ← Eff.get
  if m.ringBytes + requiredBytes ≤ L.hostRingBytes then pure ()
  else reclaimLoop L requiredBytes (m.reclaimCandidates current)

/-- The state after `stream.ring.append(data)`, with the new bytes on the host's count. -/
def Manager.appendRing (m : Manager) (key : StreamKey) (data : Bytes) : Manager :=
  match m.stream key with
  | none => m
  | some s => { m.update key (fun s => { s with ring := s.ring.append data, ringRetained := true }) with
      ringBytes := m.ringBytes + ((s.ring.append data).byteLength - s.ring.byteLength : Int)
      inbox := m.inbox.map fun i => (i.1, i.2.1, i.2.2.drop data.length) }

/-- The last part of `appendOutput`: the bytes are taken. -/
def acceptBytes (L : Limits) (key : StreamKey) (data : Bytes) : Act Bool := do
  Eff.modify fun m => m.appendRing key data
  let t ← now
  update key fun s => { s with lastUsedAt := t }
  let m ← Eff.get
  if (L.hostRingBytes : Int) < m.ringBytes then fail .none "Relay v2 terminal host ring exceeded its hard limit"
  else pure true

def refuseBytes (L : Limits) (key : StreamKey) (reason : ResetReason) : Act Bool := do
  loseStream L key reason true
  pure false

/-- `additionalBytes` of `appendOutput`. -/
def TerminalStream.additionalBytes (L : Limits) (s : TerminalStream) (n : Nat) : Nat :=
  min n (L.streamRingBytes - s.ring.byteLength)

/-- Whether the append would overwrite bytes the client has not acknowledged. -/
def TerminalStream.overtakes (s : TerminalStream) (n : Nat) : Bool :=
  s.binding.any fun b => b.ackedOffset < s.ring.predictedStartAfter n

/-- The second part of `appendOutput`: room in the host's ring. -/
def appendWithin (L : Limits) (key : StreamKey) (s : TerminalStream) (data : Bytes) : Act Bool := do
  reclaimHostRing L (s.additionalBytes L data.length) key
  let m ← Eff.get
  if (L.hostRingBytes : Int) < m.ringBytes + (s.additionalBytes L data.length : Nat) then
    refuseBytes L key .hostBufferPressure
  else acceptBytes L key data

def appendOutput (L : Limits) (key : StreamKey) (data : Bytes) : Act Bool := do
  let s ← streamAt key
  match s with
  | none => pure false
  | some s =>
    if maxCounter < s.ring.tail + data.length then refuseBytes L key .hostBufferPressure
    else if s.overtakes data.length then refuseBytes L key .slowConsumer
    else appendWithin L key s data

/-- The loop of `backendOutput` over the parts of a chunk; `false` if one was refused. -/
def appendParts (L : Limits) (key : StreamKey) : Nat → Bytes → Act Bool
  | 0, _ => pure true
  | fuel + 1, data =>
    if data.length = 0 then pure true
    else do
      let accepted ← appendOutput L key (data.take L.maxFrameBytes)
      if accepted then appendParts L key fuel (data.drop L.maxFrameBytes) else pure false

def TerminalStream.producing (s : TerminalStream) : Bool := s.status = .live || s.status = .detached

def backendOutput (L : Limits) (key : StreamKey) (generation : Nat) (data : Bytes) : Act Unit := do
  let s ← streamAt key
  if s.any (fun s => s.generation = generation && s.producing) then
    let accepted ← appendParts L key data.length data
    if accepted then
      pump L key
      refreshBackpressure L
    else pure ()
  else pure ()

def rejectBackendChunk (L : Limits) (key : StreamKey) (generation : Nat) : Act Unit := do
  let s ← streamAt key
  if s.any (fun s => s.generation = generation && s.status ≠ .lost) then loseStream L key .streamLost true else pure ()

/-- A chunk for a stream generation has come. -/
def Manager.deliver (m : Manager) (key : StreamKey) (generation : Nat) (data : Bytes) : Manager :=
  { m.emit (.delivered key generation data) with inbox := some (key, generation, data) }

/-- `onBytes`: a chunk over the frame limit is a failure of the backend. -/
def takeChunk (L : Limits) (key : StreamKey) (generation : Nat) (data : Bytes) : Act Unit :=
  if L.maxFrameBytes < data.length then rejectBackendChunk L key generation
  else backendOutput L key generation data

def onBytes (L : Limits) (key : StreamKey) (generation : Nat) (data : Bytes) : Act Unit := do
  Eff.modify fun m => m.deliver key generation data
  let result ← Eff.attempt (takeChunk L key generation data)
  Eff.modify fun m => { m with inbox := none }
  Eff.ofExcept result

def backendResetRequired (L : Limits) (key : StreamKey) (generation : Nat) : Act Unit := do
  let s ← streamAt key
  if s.any (fun s => s.generation = generation && s.close.isNone && s.status ≠ .lost) then
    loseStream L key .slowConsumer true
    refreshBackpressure L
  else pure ()

/-! ## Closing -/

/-- The state after `commitTerminalCondition` at time `t`. -/
def TerminalStream.commit (L : Limits) (t : Nat) (reason : CloseReason) (exitCode : Option Int) (s : TerminalStream) :
    TerminalStream :=
  if s.close.isSome then s
  else { s with
    close := some ⟨s.ring.tail, reason, exitCode, t + L.detachedLeaseMs⟩
    status := .closed, detachedUntil := none, retainedUntil := t + L.controlRetentionMs }

def commitTerminalCondition (L : Limits) (key : StreamKey) (reason : CloseReason) (exitCode : Option Int) :
    Act Unit := do
  let s ← streamAt key
  if s.any fun s => s.close.isNone then
    let t ← now
    update key (TerminalStream.commit L t reason exitCode)
    holdOpenRecords key (t + L.controlRetentionMs)
  else pure ()

/-- What the manager makes of the backend's last word. -/
def normalizeBackendClose (reason : CloseReason) (exitCode : Option Int) : CloseReason × Option Int :=
  let valid := exitCode.all fun n => -2147483648 ≤ n ∧ n ≤ 2147483647
  if !valid || (reason = .backendExit && exitCode.isNone) then (.backendError, none) else (reason, exitCode)

/-- The lineage has marked the stream closed: the stream is, too. -/
def settleBackendClosed (L : Limits) (key : StreamKey) (result : CloseReason × Option Int) : Act Unit := do
  update key fun s => { s with backend := false, backendPaused := false }
  let _ ← releaseProducerLease key
  clearControlWindows key
  commitTerminalCondition L key result.1 result.2
  let s ← streamAt key
  if s.any fun s => s.binding.isSome then
    mapBinding key fun b => { b with closeNotification := true, closeNotified := false }
    pump L key
  else pure ()

/-- `markDurableStreamClosed`: on an identity mismatch the stream is evicted and the answer is `false`. -/
def markStreamClosed (L : Limits) (key : StreamKey) : Act Bool := do
  let a ← await
  if a.flag then pure true
  else
    evictStaleLocalStream L key
    refreshBackpressure L
    pure false

def backendClosed (L : Limits) (key : StreamKey) (generation : Nat) (reason : CloseReason) (exitCode : Option Int) :
    Act Unit := do
  let s ← streamAt key
  if s.any (fun s => s.generation = generation && s.close.isNone && s.status ≠ .lost) then
    let marked ← Eff.attempt (markStreamClosed L key)
    match marked with
    | .error e => do
      loseStream L key .streamLost false
      refreshBackpressure L
      throw e
    | .ok false => pure ()
    | .ok true => do
      settleBackendClosed L key (normalizeBackendClose reason exitCode)
      refreshBackpressure L
  else pure ()

/-! ## Sweeps -/

/-- The lease of a live stream: given up once expired, kept otherwise.  `false` skips the rest of the visit. -/
def maintainLease (key : StreamKey) (lease : Lease) (t : Nat) : Act Bool :=
  if lease.expiresAt ≤ t then do
    let result ← releaseProducerLease key
    clearAfterRelease key result
    pure false
  else do
    let result ← ensureProducerLease key
    match result with
    | .accepted _ => pure true
    | .rejected e | .uncertain e => do
      setInDoubt key e
      if e.code = .internal then throw ⟨.internal, e.message⟩ else pure true

/-- The detached lease has run out. -/
def expireDetached (L : Limits) (key : StreamKey) (t : Nat) : Act Unit := do
  update key fun s => { s with status := .lost, retainedUntil := t + L.controlRetentionMs }
  let _ ← releaseProducerLease key
  clearControlWindows key
  removeRing key false
  disposeBackend key

/-- The second part of a visit: what has expired is retired. -/
def expireStream (L : Limits) (key : StreamKey) (t : Nat) : Act Unit := do
  let s ← streamAt key
  match s with
  | none => pure ()
  | some s => do
    if s.status = .detached ∧ s.detachedUntil.any (· ≤ t) then expireDetached L key t
    else if s.status = .closed ∧ s.close.any (fun c => c.ringExpiresAt ≤ t) ∧ s.ringRetained then removeRing key false
    else pure ()

/-- The lease a sweep has to look after. -/
def TerminalStream.maintained (s : TerminalStream) : Option Lease :=
  if s.status = .live then s.control.producerLease else none

def sweepStream (L : Limits) (maintainProducerLeases : Bool) (t : Nat) (key : StreamKey) : Act Unit := do
  let s ← streamAt key
  match s.bind fun s => if maintainProducerLeases then s.maintained else none with
  | none => expireStream L key t
  | some lease => do
    let go ← maintainLease key lease t
    if go then expireStream L key t else pure ()

def Manager.holdsOpenRecord (m : Manager) (r : OpenRecord) : Bool :=
  match r.outcome with
  | .opened generation _ _ => (m.stream r.streamKey).any fun s => s.producing && s.generation = generation
  | _ => false

def Manager.sweepRecords (m : Manager) (t : Nat) : Manager :=
  { m with
    openRecords := m.openRecords.filter fun r => t < r.expiresAt || m.holdsOpenRecord r
    closeRecords := m.closeRecords.filter fun r => t < r.expiresAt }

/-- Whether a stream has nothing left to be kept for. -/
def Manager.forgettable (m : Manager) (t : Nat) (s : TerminalStream) : Bool :=
  (s.status = .closed || s.status = .lost) && s.retainedUntil ≤ t
    && !m.openRecords.any (fun r => r.streamKey = s.key) && !m.closeRecords.any (fun r => r.streamKey = s.key)

/-- The last loop of a sweep, for one stream. -/
def forgetStream (t : Nat) (key : StreamKey) : Act Unit := do
  let m ← Eff.get
  if (m.stream key).any (m.forgettable t) then
    let _ ← await
    removeRing key false
    deleteStream key
  else pure ()

def sweepQuarantined (t : Nat) : Act Unit := do
  let m ← Eff.get
  Eff.modify fun m => { m with quarantinedBackends := m.quarantinedBackends.filter (t < ·) }
  Eff.forEach (fun _ => do let _ ← ask; pure ()) (m.quarantinedBackends.filter (· ≤ t))

def sweepInternal (L : Limits) (maintainProducerLeases : Bool) : Act Unit := do
  let t ← now
  sweepQuarantined t
  let keys ← streamKeys
  Eff.forEach (sweepStream L maintainProducerLeases t) keys
  Eff.modify fun m => m.sweepRecords t
  let keys ← streamKeys
  Eff.forEach (forgetStream t) keys
  refreshBackpressure L

end Stream
end TmuxWorktree
