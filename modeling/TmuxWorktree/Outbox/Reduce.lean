import TmuxWorktree.Outbox.Restore
import TmuxWorktree.Codec.Schema
/-!
# Reduce — the authority reducer of the outbox (`RelayV2OutboxAuthorityCore.kt`)
-/
namespace TmuxWorktree
namespace Outbox

/-! ## Actions -/

structure Draft where
  profileId : String
  principalId : String
  hostId : String
  expectedHostEpoch : String
  dedupeWindowId : String
  commandId : String
  scopeId : String
  sessionId : Option String
  arguments : Arguments
  deriving DecidableEq, Repr

inductive StatusState where
  | notAccepted | accepted | running | succeeded | failed | inDoubt | expired | unknown
  deriving DecidableEq, Repr

inductive CommandDisposition where
  | notAccepted | completed | inDoubt | notApplicable
  deriving DecidableEq, Repr

inductive ExpiredFinalState where
  | succeeded | failed | inDoubt
  deriving DecidableEq, Repr

inductive StatusSource where
  | executeResponse | queryResponse | resultEvent
  deriving DecidableEq, Repr

def StatusSource.attemptKind : StatusSource → Option AttemptKind
  | .executeResponse => some .execute
  | .queryResponse => some .query
  | .resultEvent => none

inductive CommandResult where
  | createdSession (sessionId scopeId : String) (worktree : Bool)
  | agentMessage (pane : Nat) (submit : Bool) (messageUtf8Bytes : Nat)
  | killedSession (sessionId : String) (terminated : Bool)
  deriving DecidableEq, Repr

/-- `RelayV2CommandStatusEvidence`; the message for a reader is inert. -/
structure Evidence where
  entryId : EntryId
  dedupeWindowId : String
  hostEpoch : String
  scopeId : String
  sessionId : Option String
  operation : Operation
  source : StatusSource
  attemptKind : Option AttemptKind
  state : StatusState
  attemptRequestId : Option String := none
  result : Option CommandResult := none
  retryable : Bool := false
  retryAfterMs : Option Nat := none
  reissueRequired : Bool := false
  errorCode : Option String := none
  commandDisposition : Option CommandDisposition := none
  detailsReissueRequired : Option Bool := none
  expiredFinalState : Option ExpiredFinalState := none
  deriving DecidableEq, Repr

inductive Recovery where
  | none
  | retrySameCommand (attemptRequestId : String)
  | reissue (replacementCommandId newDedupeWindowId : String) (replacementCreatedAtMillis : Nat)
  deriving DecidableEq, Repr

inductive OldLineageAvailability where
  | queryable | lost
  deriving DecidableEq, Repr

inductive Action where
  | enqueue (draft : Draft) (createdAtMillis : Nat)
  | dispatchEligible (attemptRequestIds : List (EntryId × String)) (effectBudget : Nat)
  | beginQueries (entryIds : List EntryId) (attemptRequestIds : List String)
  | hostContinuityObserved (profileId principalId hostId hostEpoch : String)
  | attemptInterrupted (entryId : EntryId) (attemptRequestId : Option String)
  | reconcileStatus (evidence : Evidence) (recovery : Recovery)
  | hostEpochChanged (profileId principalId hostId previousHostEpoch observedHostEpoch currentDedupeWindowId : String)
      (oldLineage : OldLineageAvailability)
  | confirmQueuedTarget (entryId : EntryId) (observedHostEpoch currentDedupeWindowId verifiedScopeId : String)
      (verifiedSessionId : Option String)
  deriving DecidableEq, Repr

/-! ## Effects and results -/

/-- `RelayV2OutboxCommand`. -/
structure Command where
  entryId : EntryId
  dedupeWindowId : String
  operation : Operation
  scopeId : String
  sessionId : Option String
  arguments : Arguments
  requestFingerprint : Fingerprint
  deriving DecidableEq, Repr

def Entry.command (e : Entry) : Command :=
  ⟨e.id, e.dedupeWindowId, e.operation, e.scopeId, e.sessionId, e.arguments, e.requestFingerprint⟩

inductive Effect where
  | executeCommand (command : Command) (attempt : Attempt) (retryAfterMs : Option Nat)
  | queryCommands (authority : String × String × String × String) (attemptRequestId : String)
      (items : List (EntryId × String))
  | revalidateOpaqueTarget (entryId : EntryId) (observedHostEpoch currentDedupeWindowId priorScopeId : String)
      (priorSessionId : Option String)
  | confirmOldLineage (entryId : EntryId)
  | reissueCreated (original replacement : EntryId)
  deriving DecidableEq, Repr

inductive Mutation where
  | insert (entry : Entry)
  | replace (previousId : EntryId) (entry : Entry)

/-- What `reduce` returns; a rejection leaves the state, and so does what it throws. -/
inductive Result where
  | applied (state : State) (effects : List Effect)
  | rejected (reason : Rejection)
  | thrown

/-! ## Applying mutations -/

def Entry.withinCapacity (c : Capacity) (e : Entry) : Bool :=
  e.attempts.length ≤ c.maxAttemptsPerEntry &&
    e.targetProvenance.confirmedHistory.length ≤ c.maxTargetProvenanceSteps &&
    e.targetProvenance.canonicalValue.bytes ≤ c.maxTargetProvenanceCanonicalBytes &&
    e.arguments.canonicalMap.bytes ≤ c.maxArgumentsCanonicalBytes && e.canonicalByteCount ≤ c.maxEntryCanonicalBytes

def State.withinCapacity (c : Capacity) (s : State) : Bool :=
  s.entries.length ≤ c.maxEntries && s.canonicalByteCount ≤ c.maxStateCanonicalBytes &&
    s.entries.all (Entry.withinCapacity c)

/-- The loop of `apply`. -/
def mutate : List Mutation → List Entry → Except Rejection (List Entry)
  | [], entries => .ok entries
  | .insert e :: rest, entries =>
    if entries.any fun x => x.id = e.id then .error .duplicateCommand else mutate rest (entries ++ [e])
  | .replace id e :: rest, entries =>
    match entries.findIdx? fun x => x.id = id with
    | none => .error .entryNotFound
    | some index =>
      if (entries.eraseIdx index).any fun x => x.id = e.id then .error .duplicateCommand
      else mutate rest (entries.set index e)

/-- **`apply`**. -/
def apply (C : Core) (s : State) (mutations : List Mutation) (effects : List Effect) (nextCreationOrder : Nat) : Result :=
  if mutations.isEmpty then .applied s effects
  else
    match mutate mutations s.entries with
    | .error reason => .rejected reason
    | .ok entries =>
      match restore C entries nextCreationOrder with
      | .error reason => .rejected reason
      | .ok candidate => if candidate.withinCapacity C.capacity then .applied candidate effects else .rejected .capacityExceeded

/-! ## Entries -/

def entryFromDraft (C : Core) (d : Draft) (createdOrder createdAtMillis : Nat) (reissuedFrom : Option String) : Entry :=
  let fingerprint := C.fingerprint d.arguments.operation d.dedupeWindowId d.expectedHostEpoch d.hostId d.scopeId
    d.sessionId d.arguments
  { profileId := d.profileId, principalId := d.principalId, hostId := d.hostId
    expectedHostEpoch := d.expectedHostEpoch, dedupeWindowId := d.dedupeWindowId, commandId := d.commandId
    operation := d.arguments.operation, scopeId := d.scopeId, sessionId := d.sessionId, arguments := d.arguments
    requestFingerprint := fingerprint, state := .queued, acceptanceEvidence := .none, attempts := []
    createdOrder := createdOrder, createdAtMillis := createdAtMillis, reissuedFromCommandId := reissuedFrom
    targetProvenance := ⟨⟨d.expectedHostEpoch, d.dedupeWindowId, d.scopeId, d.sessionId, fingerprint⟩, []⟩ }

def Entry.appendAttempt (e : Entry) (retained : List Attempt) (requestId : String) (kind : AttemptKind)
    (state : StateTag) : Entry :=
  { e with attempts := retained ++ [⟨requestId, kind, retained.length + 1⟩], state := state }

/-- `appendRecoveryQueryAttempt`: a full list is cut down to the newest execute. -/
def Entry.appendRecoveryQueryAttempt (e : Entry) (requestId : String) (state : StateTag) (maxAttempts : Nat) : Entry :=
  let retained :=
    if e.attempts.length < maxAttempts then e.attempts
    else ((e.attempts.reverse.find? fun a => a.kind = .execute).map fun a => { a with ordinal := 1 }).toList
  e.appendAttempt retained requestId .query state

/-- `appendRetryExecuteAttempt`: the evidence settles every attempt of a full list. -/
def Entry.appendRetryExecuteAttempt (e : Entry) (requestId : String) (maxAttempts : Nat) : Entry :=
  e.appendAttempt (if e.attempts.length < maxAttempts then e.attempts else []) requestId .execute .sending

def State.hasAttemptRequestId (s : State) (requestId : String) : Bool :=
  s.entries.any fun e => e.attempts.any fun a => a.requestId = requestId

def State.hasReplacementFor (s : State) (e : Entry) : Bool :=
  s.entries.any fun c => c.queryAuthority = e.queryAuthority && c.reissuedFromCommandId = some e.commandId

/-- `requireOutboxId` does not throw. -/
def outboxId (value : String) : Bool :=
  let space := fun (c : Char) => c.toNat < 65536 && Codec.Kotlin.isWhitespace (Fin.ofNat 65536 c.toNat)
  let chars := value.toList
  !chars.isEmpty && !chars.head?.any space && !chars.getLast?.any space && !chars.contains (Char.ofNat 0) &&
    Json.units value ≤ 128 && value.utf8ByteSize ≤ 128

/-! ## Enqueue and dispatch -/

def enqueue (C : Core) (s : State) (draft : Draft) (createdAtMillis : Nat) : Result :=
  if Json.units draft.arguments.canonicalMap.text > maxArgumentsCanonicalBytes then .thrown
  else
    let e := entryFromDraft C draft s.nextCreationOrder createdAtMillis none
    if (s.entry e.id).isSome then .rejected .duplicateCommand
    else apply C s [.insert e] [] (s.nextCreationOrder + 1)

/-- The loop of `dispatchEligibleEntries`, with the lanes that are blocked so far. -/
def eligibleFrom : List LaneKey → List Entry → List Entry
  | _, [] => []
  | blocked, e :: rest =>
    match e.state with
    | .sending | .accepted | .confirming | .ambiguous => eligibleFrom (e.laneKey :: blocked) rest
    | .queued =>
      if e.laneKey ∉ blocked && e.targetRevalidation.isNone then e :: eligibleFrom (e.laneKey :: blocked) rest
      else eligibleFrom (e.laneKey :: blocked) rest
    | .succeeded | .failedFinal | .reissued => eligibleFrom blocked rest

def dispatchEligibleEntries (s : State) : List Entry := eligibleFrom [] s.entries

/-- The entries that a dispatch sends, with their request ids. -/
def dispatched (s : State) (attemptRequestIds : List (EntryId × String)) (effectBudget : Nat) : List (Entry × String) :=
  ((dispatchEligibleEntries s).filterMap fun e => (attemptRequestIds.lookup e.id).map fun r => (e, r)).take effectBudget

def dispatchEligible (C : Core) (s : State) (attemptRequestIds : List (EntryId × String)) (effectBudget : Nat) : Result :=
  let values := attemptRequestIds.map Prod.snd
  if !values.all outboxId then .rejected .recoveryInputMismatch
  else if !decide values.Nodup || values.any s.hasAttemptRequestId then .rejected .duplicateAttemptRequestId
  else if !attemptRequestIds.all fun p => (dispatchEligibleEntries s).any fun e => e.id = p.1 then
    .rejected .invalidTransition
  else
    let sent := dispatched s attemptRequestIds effectBudget
    let updated := fun (p : Entry × String) => p.1.appendAttempt p.1.attempts p.2 .execute .sending
    apply C s (sent.map fun p => .replace p.1.id (updated p))
      (sent.map fun p => .executeCommand (updated p).command ⟨p.2, .execute, p.1.attempts.length + 1⟩ none)
      s.nextCreationOrder

/-! ## Queries and interruptions -/

def queryable (t : StateTag) : Bool := t = .sending || t = .accepted || t = .confirming || t = .ambiguous

def interruptible (t : StateTag) : Bool := t = .sending || t = .accepted || t = .confirming

def chunked {α : Type} (size : Nat) : Nat → List α → List (List α)
  | 0, _ => []
  | _, [] => []
  | fuel + 1, l => l.take size :: chunked size fuel (l.drop size)

/-- The batches of `beginQueries`: the entries of each authority in turn, so many at a time. -/
def queryBatches (entries : List Entry) : List ((String × String × String × String) × List Entry) :=
  (entries.map Entry.queryAuthority).eraseDups.flatMap fun authority =>
    (chunked maxQueryItemsPerBatch entries.length (entries.filter fun e => e.queryAuthority = authority)).map fun b =>
      (authority, b)

def Entry.queried (e : Entry) (requestId : String) (maxAttempts : Nat) : Entry :=
  e.appendRecoveryQueryAttempt requestId (if e.state = .ambiguous then .ambiguous else .confirming) maxAttempts

def beginQueries (C : Core) (s : State) (entryIds : List EntryId) (attemptRequestIds : List String) : Result :=
  if !decide attemptRequestIds.Nodup || attemptRequestIds.any s.hasAttemptRequestId then
    .rejected .duplicateAttemptRequestId
  else
    let entries := s.entries.filter fun e => e.id ∈ entryIds
    if entries.length ≠ entryIds.eraseDups.length then .rejected .entryNotFound
    else if entries.any fun e => !queryable e.state then .rejected .invalidTransition
    else
      let batches := queryBatches entries
      if batches.length ≠ attemptRequestIds.length then .rejected .recoveryInputMismatch
      else
        let asked := (batches.zip attemptRequestIds).flatMap fun b => b.1.2.map fun e => (e, b.2)
        apply C s (asked.map fun p => .replace p.1.id (p.1.queried p.2 C.capacity.maxAttemptsPerEntry))
          ((batches.zip attemptRequestIds).map fun b =>
            .queryCommands b.1.1 b.2 (b.1.2.map fun e => (e.id, e.dedupeWindowId)))
          s.nextCreationOrder

def hostContinuityObserved (s : State) (profileId principalId hostId hostEpoch : String) : Result :=
  if s.entries.any fun e => e.queryAuthority = (profileId, principalId, hostId, hostEpoch) then .applied s []
  else .rejected .entryNotFound

def interruptAttempt (C : Core) (s : State) (entryId : EntryId) (attemptRequestId : Option String) : Result :=
  match s.entry entryId with
  | none => .rejected .entryNotFound
  | some e =>
    if attemptRequestId.any fun r => !e.attempts.any fun a => a.requestId = r then .rejected .statusIdentityMismatch
    else if !interruptible e.state then .rejected .invalidTransition
    else apply C s [.replace e.id { e with state := .confirming }] [] s.nextCreationOrder

/-! ## Evidence -/

namespace Evidence

variable (v : Evidence)

def hasNoErrorMetadata : Bool :=
  !v.retryable && v.retryAfterMs.isNone && !v.reissueRequired && v.errorCode.isNone && v.commandDisposition.isNone &&
    v.detailsReissueRequired.isNone && v.expiredFinalState.isNone

def isNonFailureStatus : Bool := v.hasNoErrorMetadata && v.result.isNone

def hasValidCorrelation (e : Entry) : Bool :=
  match v.source.attemptKind with
  | none =>
    v.attemptRequestId.isNone && v.attemptKind.isNone &&
      (v.state = .succeeded || v.state = .failed || v.state = .inDoubt)
  | some kind =>
    v.attemptRequestId.any fun requestId =>
      v.attemptKind = some kind && e.attempts.any fun a => a.requestId = requestId && a.kind = kind

/-- `matches`, of the result. -/
def resultMatches (e : Entry) : Bool :=
  match e.operation, v.result with
  | .createWorktree, some (.createdSession _ scopeId worktree) => scopeId = e.scopeId && worktree
  | .createTerminal, some (.createdSession _ scopeId worktree) => scopeId = e.scopeId && !worktree
  | .sendAgentMessage, some (.agentMessage pane submit messageUtf8Bytes) =>
    match e.arguments with
    | .sendAgentMessage pane' message submit' =>
      pane = pane' && submit = submit' && messageUtf8Bytes = message.utf8ByteSize
    | _ => false
  | .killSession, some (.killedSession sessionId terminated) => some sessionId = e.sessionId && terminated
  | _, _ => false

def isFixedFailure (code : String) (disposition : CommandDisposition) : Bool :=
  !v.retryable && v.retryAfterMs.isNone && !v.reissueRequired && v.errorCode = some code &&
    v.commandDisposition = some disposition && v.detailsReissueRequired.isNone && v.expiredFinalState.isNone &&
    v.result.isNone

def isValidExpiredFailure : Bool :=
  match v.expiredFinalState with
  | none => false
  | some final =>
    let disposition := if final = .inDoubt then CommandDisposition.inDoubt else .completed
    !v.retryable && v.retryAfterMs.isNone && !v.reissueRequired && v.errorCode = some "COMMAND_RESULT_EXPIRED" &&
      v.commandDisposition = some disposition && v.detailsReissueRequired.isNone && v.result.isNone

def isRetryableNotAccepted : Bool :=
  v.retryable && !v.reissueRequired &&
    (match v.source with
    | .executeResponse => v.errorCode.isSome
    | .queryResponse => v.retryAfterMs.isSome && v.errorCode = some "COMMAND_NOT_ACCEPTED"
    | .resultEvent => false) &&
    v.commandDisposition = some .notAccepted && v.detailsReissueRequired.isNone && v.expiredFinalState.isNone &&
    v.result.isNone

def isReissueRequiredNotAccepted : Bool :=
  !v.retryable && v.retryAfterMs.isNone && v.reissueRequired && v.errorCode = some "COMMAND_WINDOW_EXPIRED" &&
    v.commandDisposition = some .notAccepted && v.detailsReissueRequired = some true && v.expiredFinalState.isNone &&
    v.result.isNone

def finalCommandFailureCodes : List String :=
  ["COMMAND_FAILED", "SCOPE_NOT_FOUND", "PROJECT_NOT_FOUND", "SESSION_NOT_FOUND", "PANE_NOT_FOUND"]

/-- What `reconcileFinal` asks of a failure. -/
def isFinalFailure : Bool :=
  !v.retryable && v.retryAfterMs.isNone && !v.reissueRequired && v.errorCode.any (· ∈ finalCommandFailureCodes) &&
    v.commandDisposition = some .completed && v.detailsReissueRequired.isNone && v.result.isNone

end Evidence

/-! ## Status -/

/-- An entry takes the state that the evidence gives it. -/
def settle (C : Core) (s : State) (e : Entry) (state : StateTag) (acceptance : AcceptanceEvidence) : Result :=
  apply C s [.replace e.id { e with state := state, acceptanceEvidence := acceptance }] [] s.nextCreationOrder

def reconcileAccepted (C : Core) (s : State) (e : Entry) (v : Evidence) : Result :=
  if !v.isNonFailureStatus || e.state = .ambiguous then .rejected .statusNotAuthorizing
  else settle C s e (if e.state = .sending then .accepted else e.state) .durable

def reconcileRunning (C : Core) (s : State) (e : Entry) (v : Evidence) : Result :=
  if !v.isNonFailureStatus || e.state = .ambiguous then .rejected .statusNotAuthorizing
  else settle C s e .confirming .durable

def reconcileSucceeded (C : Core) (s : State) (e : Entry) (v : Evidence) : Result :=
  if !(v.hasNoErrorMetadata && v.resultMatches e) then .rejected .statusNotAuthorizing
  else settle C s e .succeeded .durable

def reconcileFailed (C : Core) (s : State) (e : Entry) (v : Evidence) : Result :=
  if !v.isFinalFailure then .rejected .statusNotAuthorizing else settle C s e .failedFinal .durable

/-- `reconcileAmbiguous`, with what the state of the evidence asks and the acceptance it leaves. -/
def reconcileAmbiguous (C : Core) (s : State) (e : Entry) (valid : Bool) (acceptance : AcceptanceEvidence) : Result :=
  if !valid then .rejected .statusNotAuthorizing else settle C s e .ambiguous acceptance

def Entry.replacementDraft (e : Entry) (commandId dedupeWindowId : String) : Draft :=
  ⟨e.profileId, e.principalId, e.hostId, e.expectedHostEpoch, dedupeWindowId, commandId, e.scopeId, e.sessionId, e.arguments⟩

def Entry.replacement (C : Core) (e : Entry) (commandId dedupeWindowId : String) (order createdAtMillis : Nat) : Entry :=
  let base := entryFromDraft C (e.replacementDraft commandId dedupeWindowId) order createdAtMillis (some e.commandId)
  { base with
    reissueLineageProof := some
      { parentProfileId := e.profileId, parentPrincipalId := e.principalId, parentHostId := e.hostId
        parentCommandId := e.commandId, parentExpectedHostEpoch := e.expectedHostEpoch
        parentDedupeWindowId := e.dedupeWindowId, parentScopeId := e.scopeId, parentSessionId := e.sessionId
        parentRequestFingerprint := e.requestFingerprint, replacementProfileId := base.profileId
        replacementPrincipalId := base.principalId, replacementHostId := base.hostId
        replacementCommandId := base.commandId, replacementInitialTarget := base.targetProvenance.initialTarget } }

def retry (C : Core) (s : State) (e : Entry) (v : Evidence) (requestId : String) : Result :=
  if s.hasAttemptRequestId requestId then .rejected .duplicateAttemptRequestId
  else
    let updated := e.appendRetryExecuteAttempt requestId C.capacity.maxAttemptsPerEntry
    match updated.attempts.getLast? with
    | none => .thrown
    | some attempt =>
      apply C s [.replace e.id updated] [.executeCommand updated.command attempt v.retryAfterMs] s.nextCreationOrder

def reissue (C : Core) (s : State) (e : Entry) (commandId dedupeWindowId : String) (createdAtMillis : Nat) : Result :=
  if e.replacementCommandId.isSome || s.hasReplacementFor e then .rejected .replacementAlreadyExists
  else if commandId = e.commandId || dedupeWindowId = e.dedupeWindowId then .rejected .recoveryInputMismatch
  else
    let replacement := e.replacement C commandId dedupeWindowId s.nextCreationOrder createdAtMillis
    if (s.entry replacement.id).isSome then .rejected .duplicateCommand
    else
      apply C s
        [.replace e.id { e with state := .reissued, replacementCommandId := some replacement.commandId }, .insert replacement]
        [.reissueCreated e.id replacement.id] (s.nextCreationOrder + 1)

/-- **`reconcileNotAccepted`**: only evidence about an attempt after which nothing was executed counts. -/
def reconcileNotAccepted (C : Core) (s : State) (e : Entry) (v : Evidence) (recovery : Recovery) : Result :=
  if e.state = .ambiguous || e.acceptanceEvidence ≠ .none then .rejected .statusNotAuthorizing
  else
    match v.source.attemptKind, v.attemptRequestId with
    | some proofKind, some proofRequestId =>
      if v.attemptKind ≠ some proofKind then .rejected .statusNotAuthorizing
      else
        match e.attempts.find? fun a => a.requestId = proofRequestId && a.kind = proofKind with
        | none => .rejected .statusIdentityMismatch
        | some proof =>
          if e.attempts.any fun a => a.kind = .execute && a.ordinal > proof.ordinal then .rejected .statusNotAuthorizing
          else if v.isRetryableNotAccepted then
            match recovery with
            | .retrySameCommand requestId => retry C s e v requestId
            | _ => .rejected .recoveryInputMismatch
          else if v.isReissueRequiredNotAccepted then
            match recovery with
            | .reissue commandId dedupeWindowId createdAtMillis => reissue C s e commandId dedupeWindowId createdAtMillis
            | _ => .rejected .recoveryInputMismatch
          else .rejected .statusNotAuthorizing
    | _, _ => .rejected .statusNotAuthorizing

/-- The evidence names the entry as it is. -/
def Evidence.identifies (v : Evidence) (e : Entry) : Bool :=
  v.hostEpoch = e.expectedHostEpoch && v.dedupeWindowId = e.dedupeWindowId && v.scopeId = e.scopeId &&
    v.sessionId = e.sessionId && v.operation = e.operation && v.hasValidCorrelation e

def settled (t : StateTag) : Bool := t = .queued || t = .reissued || t = .succeeded || t = .failedFinal

/-- **`reconcileStatus`**. -/
def reconcileStatus (C : Core) (s : State) (v : Evidence) (recovery : Recovery) : Result :=
  match s.entry v.entryId with
  | none => .rejected .entryNotFound
  | some e =>
    if !v.identifies e then .rejected .statusIdentityMismatch
    else if settled e.state then .rejected .invalidTransition
    else if (v.state = .expired) ≠ v.expiredFinalState.isSome then .rejected .statusNotAuthorizing
    else if v.state ≠ .notAccepted && recovery ≠ .none then .rejected .recoveryInputMismatch
    else
      match v.state with
      | .accepted => reconcileAccepted C s e v
      | .running => reconcileRunning C s e v
      | .succeeded => reconcileSucceeded C s e v
      | .failed => reconcileFailed C s e v
      | .inDoubt => reconcileAmbiguous C s e (v.isFixedFailure "COMMAND_IN_DOUBT" .inDoubt) .durable
      | .expired => reconcileAmbiguous C s e v.isValidExpiredFailure .durable
      | .unknown => reconcileAmbiguous C s e (v.isFixedFailure "COMMAND_STATUS_UNKNOWN" .inDoubt) e.acceptanceEvidence
      | .notAccepted => reconcileNotAccepted C s e v recovery

/-! ## Host epochs -/

/-- A queued entry is moved to the observed epoch, to be confirmed there. -/
def Entry.moved (C : Core) (e : Entry) (observedHostEpoch currentDedupeWindowId : String) : Entry :=
  let fingerprint := C.fingerprint e.operation currentDedupeWindowId observedHostEpoch e.hostId e.scopeId e.sessionId
    e.arguments
  let proposed : Target := ⟨observedHostEpoch, currentDedupeWindowId, e.scopeId, e.sessionId, fingerprint⟩
  let source := (e.targetRevalidation.map Revalidation.sourceConfirmedTarget).getD
    ((e.targetProvenance.confirmedHistory.getLast?.map ConfirmedStep.confirmedTarget).getD e.targetProvenance.initialTarget)
  let ordinal := (e.targetRevalidation.map Revalidation.confirmationOrdinal).getD
    (e.targetProvenance.confirmedHistory.length + 1)
  { e with
    expectedHostEpoch := observedHostEpoch
    dedupeWindowId := currentDedupeWindowId
    requestFingerprint := fingerprint
    targetRevalidation := some ⟨observedHostEpoch, currentDedupeWindowId, proposed, source, ordinal⟩ }

/-- What an epoch change makes of an entry of the previous epoch, and the effect. -/
def Entry.epochChanged (C : Core) (e : Entry) (observedHostEpoch currentDedupeWindowId : String)
    (oldLineage : OldLineageAvailability) : Option (Entry × List Effect) :=
  match e.state with
  | .queued =>
    let updated := e.moved C observedHostEpoch currentDedupeWindowId
    some (updated, [.revalidateOpaqueTarget updated.id observedHostEpoch currentDedupeWindowId e.scopeId e.sessionId])
  | .sending | .accepted | .confirming =>
    match oldLineage with
    | .lost => some ({ e with state := .ambiguous }, [])
    | .queryable => some ({ e with state := .confirming }, [.confirmOldLineage e.id])
  | _ => none

def hostEpochChanged (C : Core) (s : State) (profileId principalId hostId previousHostEpoch observedHostEpoch
    currentDedupeWindowId : String) (oldLineage : OldLineageAvailability) : Result :=
  let found := s.entries.filter fun e => e.queryAuthority = (profileId, principalId, hostId, previousHostEpoch)
  if found.isEmpty then .rejected .entryNotFound
  else
    let changed := found.filterMap fun e =>
      (e.epochChanged C observedHostEpoch currentDedupeWindowId oldLineage).map fun c => (e, c)
    apply C s (changed.map fun p => .replace p.1.id p.2.1) (changed.flatMap fun p => p.2.2) s.nextCreationOrder

def Entry.confirmed (e : Entry) (pending : Revalidation) : Entry :=
  let target := pending.proposedTarget
  { e with
    expectedHostEpoch := target.expectedHostEpoch
    dedupeWindowId := target.dedupeWindowId
    scopeId := target.scopeId
    sessionId := target.sessionId
    requestFingerprint := target.requestFingerprint
    targetRevalidation := none
    targetProvenance :=
      { e.targetProvenance with
        confirmedHistory := e.targetProvenance.confirmedHistory ++
          [⟨pending.sourceConfirmedTarget, target, pending.confirmationOrdinal⟩] } }

def confirmQueuedTarget (C : Core) (s : State) (entryId : EntryId) (observedHostEpoch currentDedupeWindowId
    verifiedScopeId : String) (verifiedSessionId : Option String) : Result :=
  match s.entry entryId with
  | none => .rejected .entryNotFound
  | some e =>
    match e.targetRevalidation with
    | none => .rejected .targetRevalidationRequired
    | some pending =>
      let history := e.targetProvenance.confirmedHistory
      if e.state ≠ .queued || pending.observedHostEpoch ≠ observedHostEpoch ||
          pending.dedupeWindowId ≠ currentDedupeWindowId || e.expectedHostEpoch ≠ observedHostEpoch ||
          e.dedupeWindowId ≠ currentDedupeWindowId then .rejected .statusIdentityMismatch
      else if !targetShape e.operation verifiedSessionId then .rejected .invalidTransition
      else if e.reissuedFromCommandId.isSome && e.reissueLineageProof.isNone then .rejected .invariantViolation
      else if pending.proposedTarget ≠ e.target || verifiedScopeId ≠ pending.proposedTarget.scopeId ||
          verifiedSessionId ≠ pending.proposedTarget.sessionId then .rejected .statusIdentityMismatch
      else if pending.sourceConfirmedTarget ≠
            (history.getLast?.map ConfirmedStep.confirmedTarget).getD e.targetProvenance.initialTarget ||
          pending.confirmationOrdinal ≠ history.length + 1 then .rejected .invariantViolation
      else if history.length ≥ C.capacity.maxTargetProvenanceSteps then .rejected .capacityExceeded
      -- the step itself asks for two epochs, and nobody catches it
      else if pending.sourceConfirmedTarget.expectedHostEpoch = pending.proposedTarget.expectedHostEpoch then .thrown
      else
        let updated := e.confirmed pending
        if s.entries.any fun x => x.id = updated.id && x.id ≠ e.id then .rejected .duplicateCommand
        else apply C s [.replace e.id updated] [] s.nextCreationOrder

/-! ## The reducer -/

/-- **`reduce`**. -/
def reduce (C : Core) (s : State) : Action → Result
  | .enqueue draft createdAtMillis => enqueue C s draft createdAtMillis
  | .dispatchEligible ids budget => dispatchEligible C s ids budget
  | .beginQueries entryIds ids => beginQueries C s entryIds ids
  | .hostContinuityObserved profileId principalId hostId hostEpoch =>
    hostContinuityObserved s profileId principalId hostId hostEpoch
  | .attemptInterrupted entryId requestId => interruptAttempt C s entryId requestId
  | .reconcileStatus evidence recovery => reconcileStatus C s evidence recovery
  | .hostEpochChanged profileId principalId hostId previous observed window oldLineage =>
    hostEpochChanged C s profileId principalId hostId previous observed window oldLineage
  | .confirmQueuedTarget entryId observed window scopeId sessionId =>
    confirmQueuedTarget C s entryId observed window scopeId sessionId

end Outbox
end TmuxWorktree
