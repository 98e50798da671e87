import TmuxWorktree.Stream.Input
/-!
# Open — new, resumed and reset generations (`terminalManager.ts`)

An open is claimed at the durable lineage, reconciled with the stream that is there, prepared, and settled; then the
stream is bound to the request's route.  What the lineage, the resolver and the backend answer is arbitrary, except
that a generation is issued once.
-/
namespace TmuxWorktree
namespace Stream

open Effect

/-- `RelayV2TerminalResume`, with the hash of its token. -/
structure Resume where
  generation : Nat
  resumeTokenHash : Nat
  nextOffset : Option Nat
  deriving DecidableEq, Repr

structure OpenRequest extends Request where
  openId : Nat
  pane : Nat
  cols : Nat
  rows : Nat
  mode : OpenMode
  resume : Option Resume
  deriving DecidableEq, Repr

def OpenRequest.fingerprint (r : OpenRequest) : OpenFingerprint :=
  ⟨r.target, r.pane, r.cols, r.rows, r.mode, r.resume.map fun x => (x.generation, x.resumeTokenHash),
    if r.mode = .resume then r.resume.bind Resume.nextOffset else none⟩

/-- The offset a resume asks for. -/
def OpenRequest.requestedOffset (r : OpenRequest) : Option Nat :=
  if r.mode = .resume then r.resume.bind Resume.nextOffset else none

/-- `validateOpenMode`, with the error it throws. -/
def OpenRequest.modeError (r : OpenRequest) : Option String :=
  match r.mode, r.resume with
  | .new, some _ => some "mode=new forbids resume fields"
  | .resume, none => some "mode=resume requires resume fields"
  | .resume, some x =>
    match x.nextOffset with
    | none => some "mode=resume requires nextOffset"
    | some n => if maxCounter < n then some "nextOffset exceeds the counter limit" else none
  | .reset, some x => if x.nextOffset.isSome then some "mode=reset forbids nextOffset" else none
  | _, _ => none

def checkOpen (C : Config) (r : OpenRequest) : Act Unit := do
  let m ← Eff.get
  if m.stopping then fail .busy "terminal manager is stopping"
  else
    assertHost C r.toRequest
    checkPayload C (.size r.cols r.rows)
    if 65535 < r.pane then fail .invalidArgument "terminal pane is outside the frozen bounds"
    else match r.modeError with
      | some message => fail .invalidArgument message
      | none => pure ()

/-! ## Open records -/

/-- The state after `cacheOpenRecord`. -/
def Manager.cacheOpenRecord (C : Config) (m : Manager) (record : OpenRecord) : Manager :=
  if (Keyed.find OpenRecord.key record.key m.openRecords).isSome || m.controlSlots < C.limits.maxControlRecords then
    { m with openRecords := Keyed.put OpenRecord.key record m.openRecords }
  else m

def cacheOutcome (C : Config) (r : OpenRequest) (outcome : OpenOutcome) (tokenHash : Option Nat) : Act Unit := do
  let t ← now
  Eff.modify fun m => m.cacheOpenRecord C
    ⟨r.key, r.openId, r.fingerprint, t + C.limits.controlRetentionMs, outcome, tokenHash⟩

/-- `throwOpenError`, and the response to a reset. -/
def answerUnopened (r : OpenRequest) (outcome : OpenOutcome) : Act Unit :=
  match outcome with
  | .error code message => fail code message
  | .reset generation reason _ _ _ => sendResetResponse r.toRequest generation reason
  | .opened _ _ _ => pure ()

/-- `streamLostFromDurableOpened`; other outcomes stay as they are. -/
def OpenOutcome.withoutToken : OpenOutcome → OpenOutcome
  | .opened generation disposition offset =>
    .reset (some generation) .streamLost (if disposition = .reset then none else some offset) none none
  | outcome => outcome

/-- `settleOpenRecord`: the outcome that stands, and whether it is the one proposed. -/
def settleOpenRecord (C : Config) (r : OpenRequest) (proposed : OpenOutcome) (tokenHash : Option Nat)
    (retainLocal : Bool) : Act (Bool × OpenOutcome) := do
  let a ← await
  match a.lineage with
  | .done => do
    if retainLocal then cacheOutcome C r proposed tokenHash else pure ()
    pure (true, proposed)
  | .replay outcome _ _ => do
    if retainLocal then cacheOutcome C r outcome.withoutToken none else pure ()
    pure (false, outcome.withoutToken)
  | _ => fail .internal "durable terminal open commit result is invalid"

def lostOutcome (generation requestedOffset : Option Nat) : OpenOutcome :=
  .reset generation .streamLost requestedOffset none none

/-- `failOpenRecord` and the answer that follows it. -/
def failOpen (C : Config) (r : OpenRequest) (proposed : OpenOutcome) (retainLocal : Bool) : Act Unit := do
  let settled ← settleOpenRecord C r proposed none retainLocal
  answerUnopened r settled.2

/-! ## Reconciliation -/

/-- `LocalStreamLineageReconciliation`. -/
inductive Reconciliation where
  | absent
  | exact (stream : TerminalStream)
  | divergent (stream : TerminalStream) (localFenceAuthorized effectTargetProven : Bool)
  deriving DecidableEq

/-- `localStreamForAuthority`. -/
def TerminalStream.isFor (s : TerminalStream) (a : StreamAuthority) : Bool :=
  s.generation = a.generation && s.target = a.target && s.pane = a.pane && s.resumeTokenHash = a.resumeTokenHash
    && s.canonicalBinding = a.canonicalBinding
    && if a.closed then s.status = .closed && s.close.isSome else s.producing

/-- `reconcileLocalStreamLineage` for a claimed open. -/
def reconcileClaimed (s : Option TerminalStream) (authority : Option StreamAuthority) (retained : Option OpenRecord) :
    Reconciliation :=
  match s with
  | none => .absent
  | some s =>
    let proven := authority.any fun a => s.generation = a.generation && s.canonicalBinding = a.canonicalBinding
    if s.status = .lost && !s.backend then .divergent s true proven
    else if retained.isNone && authority.any s.isFor then .exact s
    else .divergent s true proven

/-- `localRecordMatchesDurable` for an opened outcome. -/
def OpenRecord.matchesOpened (record : OpenRecord) (s : TerminalStream) (r : OpenRequest) (outcome : OpenOutcome) :
    Bool :=
  record.fingerprint = r.fingerprint && record.resumeTokenHash = some s.resumeTokenHash && record.outcome = outcome

/-- `reconcileLocalStreamLineage` for the replay of an opened outcome. -/
def reconcileOpened (r : OpenRequest) (s : Option TerminalStream) (generation tokenHash preparedBinding : Nat)
    (outcome : OpenOutcome) (retained : Option OpenRecord) : Reconciliation :=
  match s with
  | none => .absent
  | some s =>
    let authorized := s.generation = generation
    let proven := authorized && s.canonicalBinding = preparedBinding
    if s.status = .lost && !s.backend then .divergent s authorized proven
    else if (s.producing || (s.status = .closed && s.close.isSome)) && s.generation = generation
        && s.target = r.target && s.resumeTokenHash = tokenHash && proven
        && retained.all (fun record => record.matchesOpened s r outcome) then .exact s
    else .divergent s authorized proven

/-- `cleanupDivergentLocalStream`: a stream whose old lease is not settled stays. -/
def cleanupDivergentLocalStream (C : Config) (key : StreamKey) : Act Unit := do
  update key fun s => { s with binding := none }
  loseStream C.limits key .streamLost false
  let s ← streamAt key
  if s.any fun s => s.control.retiringLease.isSome then pure () else deleteStream key

/-- The state after a stream was quarantined: it is gone with its ring, its backend is kept on a list of its own. -/
def Manager.quarantine (m : Manager) (key : StreamKey) (expiresAt : Nat) : Manager :=
  match m.stream key with
  | none => m
  | some s => { m.delete key with
      ringBytes := m.ringBytes - s.ring.clear.1
      quarantinedBackends := if s.backend then m.quarantinedBackends ++ [expiresAt] else m.quarantinedBackends }

def quarantineDivergentLocalStream (C : Config) (key : StreamKey) : Act Unit := do
  let t ← now
  Eff.modify fun m => m.quarantine key (t + C.limits.controlRetentionMs)
  checkRingBytes
  Eff.modify fun m => { m with openRecords := m.openRecords.filter fun r => r.streamKey ≠ key }

def fenceDivergentLocalStream (C : Config) (key : StreamKey) (localFenceAuthorized effectTargetProven : Bool) :
    Act Unit :=
  if !localFenceAuthorized then pure ()
  else if effectTargetProven then cleanupDivergentLocalStream C key
  else quarantineDivergentLocalStream C key

/-! ## Replays of a durable outcome -/

def replayDurableOpen (C : Config) (r : OpenRequest) (outcome : OpenOutcome) : Act Unit := do
  cacheOutcome C r outcome.withoutToken none
  answerUnopened r outcome.withoutToken

/-- What `recoverOpenRecord` makes of a record at time `t`. -/
def OpenRecord.recover (C : Config) (t : Nat) (outcome : OpenOutcome) (record : OpenRecord) : OpenRecord :=
  { record with
    outcome := outcome.withoutToken, resumeTokenHash := none, expiresAt := t + C.limits.controlRetentionMs }

/-- `recoverOpenRecord` and its answer. -/
def recoverOpenRecord (C : Config) (r : OpenRequest) (outcome : OpenOutcome) : Act Unit := do
  let t ← now
  let recover := Keyed.update OpenRecord.key (r.key, r.openId) (OpenRecord.recover C t outcome)
  Eff.modify fun m => { m with openRecords := recover m.openRecords }
  answerUnopened r outcome.withoutToken

/-- `setAttachmentDisplaySizeHint`, for a stream that is not closed. -/
def hintSize (s : TerminalStream) : Act Unit :=
  if s.close.isNone && s.backend then do
    let _ ← await
    pure ()
  else pure ()

/-- `replayOpenRecord` for an opened outcome of a stream that is there. -/
def replayOpenRecord (C : Config) (r : OpenRequest) (s : TerminalStream) (outcome : OpenOutcome)
    (tokenHash : Option Nat) (offset preparedBinding : Nat) : Act Unit :=
  if s.status = .lost || s.canonicalBinding ≠ preparedBinding || tokenHash ≠ some s.resumeTokenHash then
    recoverOpenRecord C r outcome
  else if !s.canReplay offset s.through then recoverOpenRecord C r outcome
  else do
    hintSize s
    bindOpened C r.toRequest offset

def replayOpened (C : Config) (r : OpenRequest) (generation offset tokenHash preparedBinding : Nat)
    (outcome : OpenOutcome) : Act Unit := do
  let m ← Eff.get
  let retained := Keyed.find OpenRecord.key (r.key, r.openId) m.openRecords
  match reconcileOpened r (m.stream r.key) generation tokenHash preparedBinding outcome retained with
  | .absent => replayDurableOpen C r outcome
  | .divergent s authorized proven => do
    fenceDivergentLocalStream C s.key authorized proven
    replayDurableOpen C r outcome
  | .exact s => do
    if retained.isNone then cacheOutcome C r outcome (some s.resumeTokenHash) else pure ()
    replayOpenRecord C r s outcome (some s.resumeTokenHash) offset preparedBinding

def reconcileAndReplay (C : Config) (r : OpenRequest) (outcome : OpenOutcome) (tokenHash : Nat)
    (preparedBinding : Option Nat) : Act Unit :=
  match outcome, preparedBinding with
  | .opened generation _ offset, some binding => replayOpened C r generation offset tokenHash binding outcome
  | .opened _ _ _, none => fail .internal "durable terminal replay proof is malformed"
  | outcome, _ => replayDurableOpen C r outcome

/-! ## Preparation -/

/-- `retryableExactTargetPressure`. -/
def Fault.isTargetPressure (f : Fault) : Bool :=
  f.code = .resourceExhausted
    || (f.code = .permissionDenied && f.message = "exact terminal-control target already has an input owner")

/-- `isOpenDeadlineError`. -/
def Fault.timedOut (f : Fault) : Bool := f.code = .openTimeout

/-- The claim is given back, unless somebody settled it. -/
def releaseUnprepared (C : Config) (r : OpenRequest) : Act Unit := do
  let a ← await
  match a.lineage with
  | .replay outcome tokenHash binding => reconcileAndReplay C r outcome tokenHash binding
  | .done => fail .busy "exact terminal target preparation is busy"
  | _ => fail .internal "durable terminal unprepared claim release is invalid"

/-- The exact target is not to be had: the open fails for good. -/
def failUnavailable (C : Config) (r : OpenRequest) (fault : Fault) : Act Unit :=
  failOpen C r (.error .capabilityUnavailable
    (if fault.code = .capabilityUnavailable then fault.message else "exact terminal target is unavailable")) true

/-- The durable part of `prepareCanonicalTarget`: `true` goes on with the open. -/
def prepareDurably (C : Config) (r : OpenRequest) : Act Bool := do
  let a ← await
  match a.lineage with
  | .done => pure true
  | .replay outcome tokenHash binding => do
    reconcileAndReplay C r outcome tokenHash binding
    pure false
  | _ => fail .capabilityUnavailable "exact terminal target preparation is unavailable"

/-- `prepareCanonicalTarget`: the canonical binding of the target, or `none` if the open has been answered.  The
resolver's refresh loop is one answer here: it waits and asks again and does nothing else. -/
def prepareCanonicalTarget (C : Config) (r : OpenRequest) : Act (Option Nat) := do
  let a ← ask
  if a.resolves then
    let prepared ← Eff.attempt (prepareDurably C r)
    match prepared with
    | .ok true => pure (some a.time)
    | .ok false => pure none
    | .error fault =>
      if fault.timedOut then throw fault
      else do
        failUnavailable C r fault
        pure none
  else if a.fault.timedOut then throw a.fault
  else if a.fault.isTargetPressure then do
    releaseUnprepared C r
    pure none
  else do
    failUnavailable C r a.fault
    pure none

def prepareRetainedDurably (C : Config) (r : OpenRequest) : Act Bool := do
  let a ← await
  match a.lineage with
  | .done => pure true
  | .replay outcome tokenHash binding => do
    reconcileAndReplay C r outcome tokenHash binding
    pure false
  | _ => fail .internal "durable resume preparation returned an invalid closed shape"

/-- `prepareRetainedTarget`: `true` goes on with the resume. -/
def prepareRetainedTarget (C : Config) (r : OpenRequest) : Act Bool := do
  let prepared ← Eff.attempt (prepareRetainedDurably C r)
  match prepared with
  | .ok go => pure go
  | .error fault =>
    if fault.timedOut then throw fault
    else do
      failOpen C r (lostOutcome (r.resume.map Resume.generation) r.requestedOffset) true
      pure false

/-! ## Generations -/

def newStream (C : Config) (r : OpenRequest) (generation canonicalBinding tokenHash t : Nat) : TerminalStream :=
  { key := r.key, target := r.target, pane := r.pane, canonicalBinding := canonicalBinding
    generation := generation, resumeTokenHash := tokenHash, status := .live
    ring := ByteRing.new C.limits.streamRingBytes, ringRetained := true
    backend := true, backendPaused := false, pauseFailed := false, control := {}, binding := none
    detachedUntil := none, retainedUntil := t + C.limits.controlRetentionMs, close := none
    pendingCloseResponses := [], closeId := none, reservedCloseRecord := true, lastUsedAt := t }

/-- The lineage issues a generation it has not issued before.  It does so with the claim; nothing depends on the number
before the attachment. -/
def issueGeneration : Act Nat := fun m => (.ok m.generations, { m with generations := m.generations + 1 })

/-- A reset gives up the lease of the stream it replaces, or tells the client to wait. -/
def yieldLease (key : StreamKey) : Act Unit := do
  let s ← streamAt key
  if s.any fun s => s.control.producerLease.isSome || s.control.retiringLease.isSome then
    let result ← releaseProducerLease key
    match result with
    | .uncertain _ => do
      reconcileRetiringLease key
      let s ← streamAt key
      if s.any fun s => s.control.retiringLease.isSome then
        let _ ← await
        fail .busy "terminal reset is waiting for the previous producer release to confirm"
      else pure ()
    | _ => pure ()
  else pure ()

/-- The stream a reset replaces is lost before its successor is attached. -/
def retirePrevious (key : StreamKey) : Act Unit := do
  update key fun s => { s with binding := none, status := .lost, detachedUntil := none }
  clearControlWindows key
  removeRing key false
  disposeBackend key

/-- What an open does with the stream that is there. -/
inductive Previous where
  | none | replaced | alreadyLost
  deriving DecidableEq, Repr

def retireFor (previous : Previous) (key : StreamKey) : Act Unit :=
  match previous with
  | .none => pure ()
  | .replaced => retirePrevious key
  | .alreadyLost => update key fun s => { s with binding := Option.none }

def freeCloseSlot (previous : Previous) (key : StreamKey) : Act Unit :=
  if previous = .replaced then update key fun s => { s with reservedCloseRecord := false } else pure ()

/-- `discardProvisionalGeneration`: the new stream was never published. -/
def discardProvisional (r : OpenRequest) : Act Unit := do
  Eff.modify fun m => { m with openRecords := Keyed.erase OpenRecord.key (r.key, r.openId) m.openRecords }
  let _ ← ask
  pure ()

/-- The new stream is published and bound. -/
def publish (C : Config) (r : OpenRequest) (s : TerminalStream) (disposition : Disposition) : Act Unit := do
  Eff.modify fun m => m.put s
  cacheOutcome C r (.opened s.generation disposition 0) (some s.resumeTokenHash)
  bindOpened C r.toRequest 0

/-- The backend is attached: the open is settled, and the stream published if it won. -/
def settleGeneration (C : Config) (r : OpenRequest) (s : TerminalStream) (disposition : Disposition) : Act Unit := do
  let completion ← Eff.attempt (settleOpenRecord C r (.opened s.generation disposition 0) (some s.resumeTokenHash) false)
  match completion with
  | .error e => do
    discardProvisional r
    throw e
  | .ok (false, outcome) => do
    discardProvisional r
    answerUnopened r outcome
  | .ok (true, _) => publish C r s disposition

/-- The backend could not be attached. -/
def failAttachment (C : Config) (r : OpenRequest) (generation : Nat) (previous : Previous) (a : Answer) : Act Unit :=
  if a.fault.timedOut then do
    freeCloseSlot previous r.key
    throw a.fault
  else do
    let settled ← settleOpenRecord C r (lostOutcome (some generation) none) none true
    freeCloseSlot previous r.key
    answerUnopened r settled.2

/-- The last part of `createGeneration`: the old stream goes, the new one is attached. -/
def attachGeneration (C : Config) (r : OpenRequest) (disposition : Disposition) (previous : Previous)
    (canonicalBinding : Nat) : Act Unit := do
  retireFor previous r.key
  let t ← now
  let a ← ask
  let generation ← issueGeneration
  if a.resolves then
    settleGeneration C r (newStream C r generation canonicalBinding a.time t) disposition
  else failAttachment C r generation previous a

def createGeneration (C : Config) (r : OpenRequest) (disposition : Disposition) (previous : Previous) : Act Unit := do
  if previous = .replaced then yieldLease r.key else pure ()
  let prepared ← prepareCanonicalTarget C r
  match prepared with
  | none => pure ()
  | some canonicalBinding => attachGeneration C r disposition previous canonicalBinding

/-- What a resume comes to, from the stream that is there and the durable authority. -/
inductive ResumePlan where
  | bind (offset : Nat)
  | reset (outcome : OpenOutcome)
  | beyondTail
  deriving DecidableEq

/-- The outcome of `resumeGeneration` for a stream that is the authority's. -/
def TerminalStream.resumePlan (s : TerminalStream) (offset : Nat) : ResumePlan :=
  if s.through < offset then .beyondTail
  else if s.canReplay offset s.through then .bind offset
  else .reset (.reset (some s.generation) .offsetExpired (some offset)
    (if s.ringRetained then some s.ring.start else none) (some s.through))

def planResume (r : OpenRequest) (existing : Option TerminalStream) (authority : Option StreamAuthority)
    (resume : Resume) (offset : Nat) : ResumePlan :=
  match authority with
  | none => .reset (lostOutcome (some resume.generation) (some offset))
  | some a =>
    let own := existing.filter fun s => s.isFor a
    if a.generation ≠ resume.generation then
      .reset (.reset (some resume.generation) .generationStale (some offset)
        (own.bind fun s => if s.ringRetained then some s.ring.start else none) (own.map TerminalStream.through))
    else match own with
      | none => .reset (lostOutcome (some resume.generation) (some offset))
      | some s =>
        if s.target ≠ r.target || a.pane ≠ r.pane || a.resumeTokenHash ≠ resume.resumeTokenHash
            || s.resumeTokenHash ≠ resume.resumeTokenHash then
          .reset (lostOutcome (some resume.generation) (some offset))
        else s.resumePlan offset

/-- The end of a resume whose target has been prepared. -/
def settleResume (C : Config) (r : OpenRequest) (s : TerminalStream) (offset : Nat) : Act Unit := do
  hintSize s
  let settled ← settleOpenRecord C r (.opened s.generation .resumed offset) (some s.resumeTokenHash) true
  if settled.1 then bindOpened C r.toRequest offset else answerUnopened r settled.2

def bindResume (C : Config) (r : OpenRequest) (s : TerminalStream) (offset : Nat) : Act Unit := do
  let go ← prepareRetainedTarget C r
  if go then settleResume C r s offset else pure ()

def resumeGeneration (C : Config) (r : OpenRequest) (existing : Option TerminalStream)
    (authority : Option StreamAuthority) : Act Unit :=
  match r.resume.bind fun x => x.nextOffset.map fun n => (x, n) with
  | none => fail .internal "terminal resume lost its token hash evidence"
  | some (resume, offset) =>
    match planResume r existing authority resume offset, existing with
    | .beyondTail, _ => fail .invalidArgument "terminal resume offset is beyond the known tail"
    | .reset outcome, _ => failOpen C r outcome true
    | .bind offset, some s => bindResume C r s offset
    | .bind _, none => fail .internal "opened resume lost its durable retained authority"

/-- `validExisting` of `resetGeneration`. -/
def resetReplaces (r : OpenRequest) (existing : Option TerminalStream) (authority : Option StreamAuthority) : Bool :=
  match existing, authority, r.resume with
  | some s, some a, some x =>
    !a.closed && s.producing && a.generation = x.generation && s.generation = a.generation && s.target = r.target
      && a.target = r.target && a.pane = r.pane && a.resumeTokenHash = x.resumeTokenHash
      && s.resumeTokenHash = x.resumeTokenHash
  | _, _, _ => false

def resetGeneration (C : Config) (r : OpenRequest) (existing : Option TerminalStream)
    (authority : Option StreamAuthority) (alreadyLost : Bool) : Act Unit :=
  if alreadyLost then createGeneration C r .reset .alreadyLost
  else if resetReplaces r existing authority then createGeneration C r .reset .replaced
  else if authority.isNone && existing.isNone then createGeneration C r .reset .none
  else failOpen C r (lostOutcome (r.resume.map Resume.generation) none) true

/-- `exactLostLocalReset`: the local stream is the lost one that the request and the lineage name. -/
def OpenRequest.resetsLost (r : OpenRequest) (authority : Option StreamAuthority) (retained : Bool) :
    Reconciliation → Bool
  | .divergent s authorized proven =>
    !retained && r.mode = .reset && s.status = .lost && !s.backend && s.control.producerLease.isNone
      && s.control.retiringLease.isNone && !s.ringRetained && s.ring.byteLength = 0 && authorized && proven
      && authority.any (fun a => !a.closed && s.generation = a.generation && a.target = r.target && a.pane = r.pane
        && s.resumeTokenHash = a.resumeTokenHash
        && r.resume.any fun x => x.generation = a.generation && a.resumeTokenHash = x.resumeTokenHash
          && s.resumeTokenHash = x.resumeTokenHash)
  | _ => false

/-- A bare reset of a lost stream without backend and lease may forget that stream first. -/
def OpenRequest.forcesPast (r : OpenRequest) : Reconciliation → Bool
  | .divergent s _ _ => r.mode = .reset && r.resume.isNone && s.status = .lost && !s.backend
      && s.control.producerLease.isNone && s.control.retiringLease.isNone
  | _ => false

def Manager.backendSlotCount (m : Manager) : Nat :=
  m.quarantinedBackends.length + (m.streams.filter TerminalStream.backend).length

def Manager.openQuota (C : Config) (m : Manager) (r : OpenRequest) (existing alreadyLost : Bool) : Option String :=
  let slots := if r.mode = .new || (r.mode = .reset && !existing && !alreadyLost) then 2 else 1
  if C.limits.maxControlRecords < m.controlSlots + slots then some "Relay v2 terminal control record quota is full"
  else if (r.mode = .new || (r.mode = .reset && !existing)) && C.limits.maxStreams ≤ m.backendSlotCount then
    some "Relay v2 terminal stream quota is full"
  else none

/-- An open whose stream is what the lineage says it is. -/
def openReconciled (C : Config) (r : OpenRequest) (authority : Option StreamAuthority)
    (existing : Option TerminalStream) (alreadyLost : Bool) : Act Unit := do
  let m ← Eff.get
  if r.mode = .new && (authority.isSome || existing.isSome) then
    failOpen C r (.error .streamConflict "terminal streamId is already retained") true
  else match m.openQuota C r existing.isSome alreadyLost with
    | some message => failOpen C r (.error .busy message) false
    | none =>
      match r.mode with
      | .new => createGeneration C r .new .none
      | .resume => resumeGeneration C r existing authority
      | .reset => resetGeneration C r existing authority alreadyLost

/-- An open whose stream is something else: it fails, and the stream is fenced. -/
def openDivergent (C : Config) (r : OpenRequest) (reconciliation : Reconciliation) : Act Unit := do
  let settled ← settleOpenRecord C r (lostOutcome (r.resume.map Resume.generation) r.requestedOffset) none false
  match reconciliation with
  | .divergent s authorized proven => fenceDivergentLocalStream C s.key authorized proven
  | _ => pure ()
  answerUnopened r settled.2

/-- The local stream and record an open finds. -/
def reconcileHere (r : OpenRequest) (authority : Option StreamAuthority) : Act (Reconciliation × Bool) := fun m =>
  let retained := Keyed.find OpenRecord.key (r.key, r.openId) m.openRecords
  (.ok (reconcileClaimed (m.stream r.key) authority retained, retained.isSome), m)

/-- A force reset fences the dead stream and looks again. -/
def reconcilePast (C : Config) (r : OpenRequest) (authority : Option StreamAuthority) :
    Act (Reconciliation × Bool) := do
  let first ← reconcileHere r authority
  match r.forcesPast first.1, first.1 with
  | true, .divergent s authorized proven => do
    fenceDivergentLocalStream C s.key authorized proven
    reconcileHere r authority
  | _, _ => pure first

def openClaimed (C : Config) (r : OpenRequest) (authority : Option StreamAuthority) : Act Unit := do
  let found ← reconcilePast C r authority
  let alreadyLost := r.resetsLost authority found.2 found.1
  match found with
  | (.exact s, false) => openReconciled C r authority (some s) alreadyLost
  | (.absent, false) => openReconciled C r authority none alreadyLost
  | (reconciliation, retained) =>
    if alreadyLost && !retained then openReconciled C r authority none true
    else openDivergent C r reconciliation

def openInternal (C : Config) (r : OpenRequest) : Act Unit := do
  checkOpen C r
  let a ← await
  match a.lineage with
  | .refused fault => throw fault
  | .done => fail .internal "durable lineage returned an unknown open claim"
  | .replay outcome tokenHash binding => reconcileAndReplay C r outcome tokenHash binding
  | .claimed authority => openClaimed C r authority

end Stream
end TmuxWorktree
