import TmuxWorktree.Stream.Output
/-!
# Serve — the client's requests on a stream (`terminalManager.ts`)

Replay, acknowledgement, unbind, close, and the two control sequences.  Each sweeps first, as the source does.
-/
namespace TmuxWorktree
namespace Stream

open Effect

/-! ## Requests -/

/-- The parts every request has: the stream it names, the route it came on, and the host it was meant for. -/
structure Request where
  key : StreamKey
  route : Nat
  requestId : Nat
  hostId : Nat
  hostEpoch : Nat
  target : Nat
  deriving DecidableEq, Repr

def assertHost (C : Config) (r : Request) : Act Unit :=
  if r.hostId ≠ C.hostId then fail .permissionDenied "terminal host is not authorized"
  else if r.hostEpoch ≠ C.hostEpoch then fail .hostEpochMismatch "terminal request targets a stale host lineage"
  else pure ()

/-- `parseCounter` of a canonical decimal. -/
def parseCounter (value : Nat) (label : String) : Act Nat :=
  if maxCounter < value then fail .invalidArgument (label ++ " exceeds the counter limit") else pure value

def sendResetResponse (r : Request) (generation : Option Nat) (reason : ResetReason) : Act Unit :=
  sendFrame (.resetResponse r.route r.key generation reason)

def requireBoundStream (key : StreamKey) (route : Nat) (generation : Nat) : Act TerminalStream := do
  let s ← streamAt key
  match s with
  | none => fail .streamNotFound "terminal stream is not retained"
  | some s =>
    if s.status = .lost then fail .streamNotFound "terminal stream is not retained"
    else if !(s.binding.any fun b => b.route = route) then fail .routeStale "terminal route binding is stale"
    else if generation ≠ s.generation then fail .generationStale "terminal generation is stale"
    else pure s

/-! ## Binding -/

/-- `prepareClosedNotification`: whether the binding owes its client the close event. -/
def prepareClosedNotification (key : StreamKey) : Act Bool := do
  let m ← Eff.get
  match (m.stream key).bind fun s => s.close.map fun c => (s, c) with
  | none => pure false
  | some (s, c) =>
    if m.closeRecords.any fun r =>
        r.streamKey = s.key && r.generation = s.generation && (s.closeId.isNone || s.closeId = some r.closeId) then
      pure false
    else if c.reason = .clientClosed then
      fail .internal "explicit terminal close is missing its correlated tombstone"
    else pure true

def fenceChangedBinding (key : StreamKey) (nextRoute : Nat) : Act Unit := do
  let s ← streamAt key
  if s.any fun s => s.binding.any fun b => b.route ≠ nextRoute then
    endRouteControl key
    update key fun s => { s with
      pendingCloseResponses := s.pendingCloseResponses.filter fun p => p.route = nextRoute }
  else pure ()

/-- The state with a new binding object on the stream at `key`. -/
def Manager.bind (m : Manager) (key : StreamKey) (route generation offset through : Nat) (notification : Bool) :
    Manager :=
  { (m.update key fun s => { s with
      binding := some ⟨m.bindings, route, offset, offset, .replay, through, notification, false⟩ }).emit
      (.bound m.bindings key generation offset) with
    bindings := m.bindings + 1 }

/-- A new binding object; the result is its number. -/
def bindStream (key : StreamKey) (route generation offset through : Nat) : Act Nat := do
  let notification ← prepareClosedNotification key
  let m ← Eff.get
  Eff.modify fun m => m.bind key route generation offset through notification
  pure m.bindings

/-- The end of `bindOpened`: a backend parked while the stream was detached is started again. -/
def rearmBackend (key : StreamKey) : Act Unit := do
  let m ← Eff.get
  if (m.stream key).any (fun s => s.backend && s.backendPaused) && !m.hostPressure then resumeBackend key
  else pure ()

def bindOpened (C : Config) (r : Request) (replayFromOffset : Nat) : Act Unit := do
  let s ← streamAt r.key
  match s with
  | none => pure ()
  | some s => do
    fenceChangedBinding r.key r.route
    update r.key fun s => { s with status := if s.close.isSome then .closed else .live, detachedUntil := none }
    let id ← bindStream r.key r.route s.generation replayFromOffset s.through
    let t ← now
    update r.key fun s => { s with lastUsedAt := t }
    sendFrame (.opened id r.key s.generation replayFromOffset)
    pump C.limits r.key
    rearmBackend r.key
    refreshBackpressure C.limits

/-- The last part of `replayInternal`: the route is bound again at an older offset. -/
def rebindReplay (C : Config) (r : Request) (s : TerminalStream) (fromOffset : Nat) : Act Unit := do
  fenceChangedBinding r.key r.route
  let id ← bindStream r.key r.route s.generation fromOffset s.through
  sendFrame (.replayStarted id r.key s.generation fromOffset)
  pump C.limits r.key
  refreshBackpressure C.limits

/-- `replayInternal` for a stream that is there. -/
def replayStream (C : Config) (r : Request) (generation fromOffset : Nat) (s : TerminalStream) : Act Unit :=
  if !(s.binding.any fun b => b.route = r.route) then fail .routeStale "terminal route binding is stale"
  else if s.target ≠ r.target then sendResetResponse r (some generation) .streamLost
  else if s.generation ≠ generation then sendResetResponse r (some generation) .generationStale
  else if s.through < fromOffset then fail .invalidArgument "terminal replay offset is beyond the known tail"
  else if !s.canReplay fromOffset s.through then sendResetResponse r (some s.generation) .offsetExpired
  else rebindReplay C r s fromOffset

def replayInternal (C : Config) (r : Request) (generation offset : Nat) : Act Unit := do
  assertHost C r
  sweepInternal C.limits false
  let fromOffset ← parseCounter offset "fromOffset"
  let s ← streamAt r.key
  match s with
  | none => sendResetResponse r (some generation) .streamLost
  | some s =>
    if s.status = .lost then sendResetResponse r (some generation) .streamLost
    else replayStream C r generation fromOffset s

/-! ## Acknowledgement -/

/-- The state after an acknowledgement: the cursor moves and the bytes below it leave the ring. -/
def Manager.acknowledge (m : Manager) (key : StreamKey) (next : Nat) : Manager :=
  match m.stream key with
  | none => m
  | some s => { m.update key (fun s => { s with
        binding := s.binding.map fun b => { b with ackedOffset := next }
        ring := (s.ring.discardBefore next).2 }) with
      ringBytes := m.ringBytes - (s.ring.discardBefore next).1 }

def outputAckInternal (C : Config) (key : StreamKey) (route generation offset : Nat) : Act Unit := do
  sweepInternal C.limits false
  let s ← requireBoundStream key route generation
  let nextOffset ← parseCounter offset "nextOffset"
  match s.binding with
  | none => pure ()
  | some b =>
    if b.sentThroughOffset < nextOffset then
      fail .invalidAck "terminal ACK exceeds bytes sent on the current binding"
    else if nextOffset ≤ b.ackedOffset then pure ()
    else do
      Eff.modify fun m => m.acknowledge key nextOffset
      checkRingBytes
      let t ← now
      update key fun s => { s with lastUsedAt := t }
      pump C.limits key
      refreshBackpressure C.limits

/-! ## Leaving -/

/-- A live stream whose route is gone keeps its ring and parks its backend. -/
def detachStream (L : Limits) (key : StreamKey) : Act Unit := do
  endRouteControl key
  let t ← now
  update key fun s => { s with
    status := .detached, detachedUntil := some (t + L.detachedLeaseMs), lastUsedAt := t }
  let s ← streamAt key
  if s.any fun s => s.backend && !s.backendPaused then pauseBackend key else pure ()

/-- What `unbind` does for one stream. -/
def unbindStream (L : Limits) (auth route : Nat) (key : StreamKey) : Act Unit := do
  let s ← streamAt key
  match s with
  | none => pure ()
  | some s =>
    if key.auth = auth ∧ s.binding.any fun b => b.route = route then do
      update key fun s => { s with binding := none }
      if s.status = .live then detachStream L key else pure ()
    else pure ()

def unbind (L : Limits) (auth route : Nat) : Act Unit := do
  sweepInternal L false
  let keys ← streamKeys
  Eff.forEach (unbindStream L auth route) keys
  refreshBackpressure L

/-- What `shutdown` does for one stream. -/
def shutdownStream (key : StreamKey) : Act Unit := do
  update key fun s => { s with binding := none }
  let result ← releaseProducerLease key
  clearAfterRelease key result
  disposeBackend key

def shutdown : Act Unit := do
  Eff.modify fun m => { m with stopping := true }
  let keys ← streamKeys
  Eff.forEach shutdownStream keys
  let m ← Eff.get
  Eff.modify fun m => { m with quarantinedBackends := [] }
  Eff.forEach (fun _ => do let _ ← ask; pure ()) m.quarantinedBackends
  if m.streams.any fun s => s.control.controlInDoubt.isSome then
    fail .internal "terminal-control producer release did not converge during shutdown"
  else pure ()

/-! ## Closing on request -/

def queueCloseResponse (key : StreamKey) (p : PendingCloseResponse) : Act Unit := do
  let s ← streamAt key
  if s.any fun s => (Keyed.find PendingCloseResponse.key p.key s.pendingCloseResponses).isNone
      && 64 ≤ s.pendingCloseResponses.length then
    fail .busy "terminal close response queue is full"
  else
    update key fun s => { s with
      pendingCloseResponses := Keyed.put PendingCloseResponse.key p s.pendingCloseResponses }

/-- `deliverCloseResponse`: on the stream's own route the answer waits for the bytes before it; elsewhere it is sent at
once. -/
def deliverCloseResponse (C : Config) (r : Request) (record : CloseRecord) (deduplicated : Bool) : Act Unit := do
  let s ← streamAt r.key
  if s.any fun s => s.generation = record.generation && s.binding.any fun b => b.route = r.route then
    queueCloseResponse r.key ⟨r.route, r.requestId, record.key, deduplicated⟩
    pump C.limits r.key
  else sendFrame (.closedElsewhere r.route r.key record.generation record.finalOffset)

def Manager.controlSlots (m : Manager) : Nat :=
  m.openRecords.length + m.closeRecords.length + (m.streams.filter TerminalStream.reservedCloseRecord).length

def requireControlSlots (C : Config) (additional : Nat) : Act Unit := do
  let m ← Eff.get
  if C.limits.maxControlRecords < m.controlSlots + additional then
    fail .busy "Relay v2 terminal control record quota is full"
  else pure ()

/-- The state after `cacheCloseRecord`. -/
def Manager.cacheCloseRecord (C : Config) (m : Manager) (record : CloseRecord) : Manager :=
  if (Keyed.find CloseRecord.key record.key m.closeRecords).isSome
      || m.controlSlots < C.limits.maxControlRecords
      || (m.stream record.streamKey).any TerminalStream.reservedCloseRecord then
    { m with closeRecords := Keyed.put CloseRecord.key record m.closeRecords }
  else m

/-- `terminal.close`: the stream's generation, the capability and the id of the close. -/
structure CloseRequest extends Request where
  generation : Nat
  resumeTokenHash : Nat
  closeId : Nat
  deriving DecidableEq, Repr

/-- `closeFingerprint`, as the pair of what it hashes beside the target. -/
def CloseRequest.matches (r : CloseRequest) (record : CloseRecord) : Bool :=
  record.target = r.target && record.generation = r.generation && record.fingerprint = r.resumeTokenHash

/-- The checks a close of a retained stream passes before anything durable is written. -/
def checkClose (C : Config) (r : CloseRequest) (s : TerminalStream) : Act Unit :=
  if s.generation ≠ r.generation then fail .generationStale "terminal close targets a stale generation"
  else if s.resumeTokenHash ≠ r.resumeTokenHash then fail .permissionDenied "terminal close capability is invalid"
  else if s.closeId.any (· ≠ r.closeId) then
    fail .closeConflict "terminal generation already has a different closeId"
  else if s.status ≠ .closed ∧ !(s.binding.any fun b => b.route = r.route) then
    fail .routeStale "only the current connector route may close a live terminal stream"
  else if s.close.isNone && !s.reservedCloseRecord then requireControlSlots C 1
  else pure ()

/-- The close a stream would have: its own condition, or a client's close at the tail. -/
def TerminalStream.intent (s : TerminalStream) (r : CloseRequest) (expiresAt : Nat) : CloseRecord :=
  { streamKey := r.key, closeId := r.closeId, fingerprint := r.resumeTokenHash, target := s.target
    generation := s.generation, finalOffset := s.through
    reason := (s.close.map Condition.reason).getD .clientClosed
    exitCode := s.close.bind Condition.exitCode, expiresAt := expiresAt }

/-- The stream a close names, if it is retained for the same target. -/
def closeTarget (r : CloseRequest) : Act (Option TerminalStream) := do
  let s ← streamAt r.key
  pure (s.filter fun s => s.status ≠ .lost && s.target = r.target)

/-- What is proposed to the durable lineage. -/
def proposeClose (C : Config) (r : CloseRequest) : Act (Option CloseRecord) := do
  let s ← closeTarget r
  match s with
  | none => pure none
  | some s => do
    checkClose C r s
    let t ← now
    pure (some (s.intent r (t + C.limits.controlRetentionMs)))

/-- The lineage's part of `claimClose`: an intent it takes is on its record from then on. -/
def Manager.storeClose (m : Manager) (record : CloseRecord) : Manager :=
  { m with durableCloses := Keyed.put CloseRecord.key record m.durableCloses }

/-- `claimClose`: the record the manager goes on with, and how far it is. -/
inductive CloseState where
  | final (record : CloseRecord)
  | intent (record : CloseRecord) (fresh : Bool)
  deriving DecidableEq, Repr

/-- `closeRecordFromDurable`: a tombstone that has expired is not taken. -/
def checkTombstone (record : CloseRecord) : Act Unit := do
  let t ← now
  if record.expiresAt ≤ t then fail .internal "durable terminal close tombstone failed validation" else pure ()

/-- `claimClose` of an intent the lineage did not have; it may keep it for longer. -/
def claimNewClose (a : Answer) (proposed : Option CloseRecord) : Act CloseState :=
  match proposed with
  | none => fail .internal "durable lineage claimed a close without an intent"
  | some record => do
    let stored := { record with expiresAt := max record.expiresAt a.time }
    Eff.modify fun m => m.storeClose stored
    checkTombstone stored
    pure (.intent stored true)

/-- `claimClose` of a record the lineage has. -/
def claimStoredClose (r : CloseRequest) (final : Bool) : Act CloseState := do
  let m ← Eff.get
  match Keyed.find CloseRecord.key (r.key, r.closeId) m.durableCloses with
  | none => fail .streamNotFound "terminal stream is not retained"
  | some record =>
    if !r.matches record then
      fail .closeConflict "terminal closeId was durably retained with a different request"
    else do
      checkTombstone record
      pure (if final then .final record else .intent record false)

/-- A claim whose answer is an error may have been stored all the same. -/
def claimRejected (a : Answer) (proposed : Option CloseRecord) : Act CloseState := do
  match proposed with
  | some record => if a.flag then Eff.modify fun m => m.storeClose record else pure ()
  | none => pure ()
  throw a.fault

def claimClose (r : CloseRequest) (proposed : Option CloseRecord) : Act CloseState := do
  let a ← ask
  if a.resolves then
    match a.close with
    | .conflict => fail .closeConflict "terminal closeId was durably retained with a different request"
    | .notFound => fail .streamNotFound "terminal stream is not retained"
    | .final => claimStoredClose r true
    | .existingIntent => claimStoredClose r false
    | .claimed => claimNewClose a proposed
  else claimRejected a proposed

/-- Whether a stream's close is the one of the record. -/
def Condition.agrees (c : Condition) (record : CloseRecord) : Bool :=
  c.finalOffset = record.finalOffset && c.reason = record.reason && c.exitCode = record.exitCode

/-- The middle of `closeInternal`: the stream takes the close of the intent. -/
def closeStream (C : Config) (r : CloseRequest) (record : CloseRecord) : Act Unit := do
  let s ← closeTarget r
  if s.any fun s => s.generation = record.generation then
    commitTerminalCondition C.limits r.key record.reason record.exitCode
    let s ← streamAt r.key
    if s.any fun s => s.close.any fun c => c.agrees record then
      let _ ← releaseProducerLease r.key
      clearControlWindows r.key
      disposeBackend r.key
    else fail .internal "terminal close winner diverged from its durable intent"
  else pure ()

/-- The end of `closeInternal`: the close is final and the stream knows its id. -/
def finalizeClose (C : Config) (r : CloseRequest) (record : CloseRecord) (deduplicated : Bool) : Act Unit := do
  let _ ← await
  checkTombstone record
  Eff.modify fun m => m.cacheCloseRecord C record
  update r.key fun s =>
    if s.generation = record.generation then { s with closeId := some record.closeId, reservedCloseRecord := false }
    else s
  deliverCloseResponse C r.toRequest record deduplicated

/-- `closeInternal` past the local records. -/
def closeDurably (C : Config) (r : CloseRequest) : Act Unit := do
  let proposed ← proposeClose C r
  let state ← claimClose r proposed
  match state with
  | .final record => do
    Eff.modify fun m => m.cacheCloseRecord C record
    deliverCloseResponse C r.toRequest record true
  | .intent record fresh => do
    closeStream C r record
    finalizeClose C r record (!fresh)

def closeInternal (C : Config) (r : CloseRequest) : Act Unit := do
  assertHost C r.toRequest
  sweepInternal C.limits false
  let m ← Eff.get
  match Keyed.find CloseRecord.key (r.key, r.closeId) m.closeRecords with
  | some record =>
    if !r.matches record then fail .closeConflict "terminal closeId was reused with a different request"
    else deliverCloseResponse C r.toRequest record true
  | none => closeDurably C r

end Stream
end TmuxWorktree
