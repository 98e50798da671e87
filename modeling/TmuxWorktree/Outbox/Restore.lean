import TmuxWorktree.Outbox.State
import Mathlib.Data.List.Sort
/-!
# Restore — what a state of the outbox has to pass
-/
namespace TmuxWorktree
namespace Outbox

inductive Rejection where
  | entryNotFound | duplicateCommand | duplicateAttemptRequestId | invalidTransition | statusIdentityMismatch
  | statusNotAuthorizing | recoveryInputMismatch | targetRevalidationRequired | replacementAlreadyExists
  | invariantViolation | capacityExceeded
  deriving DecidableEq, Repr

/-- `require`, `check` and `requireOutboxCapacity`: `apply` catches what they throw and answers a rejection. -/
def require (condition : Bool) (reason : Rejection) : Except Rejection Unit := if condition then .ok () else .error reason

/-! ## One entry -/

def Target.matchesFingerprint (C : Core) (t : Target) (e : Entry) : Bool :=
  targetShape e.operation t.sessionId &&
    t.requestFingerprint = C.fingerprint e.operation t.dedupeWindowId t.expectedHostEpoch e.hostId t.scopeId t.sessionId
      e.arguments

/-- A step of the history goes on from the step before. -/
def ConfirmedStep.valid (C : Core) (e : Entry) (index : Nat) (tail : Target) (step : ConfirmedStep) : Bool :=
  step.confirmationOrdinal = index + 1 && step.sourceTarget = tail && step.sourceTarget ≠ step.confirmedTarget &&
    step.confirmedTarget.scopeId = step.sourceTarget.scopeId &&
    step.confirmedTarget.sessionId = step.sourceTarget.sessionId &&
    step.sourceTarget.matchesFingerprint C e && step.confirmedTarget.matchesFingerprint C e

/-- The history is valid, and where it ends. -/
def historyTail (C : Core) (e : Entry) : Nat → Target → List ConfirmedStep → Option Target
  | _, tail, [] => some tail
  | index, tail, step :: rest =>
    if step.valid C e index tail then historyTail C e (index + 1) step.confirmedTarget rest else none

def Provenance.isValidFor (C : Core) (p : Provenance) (e : Entry) : Bool :=
  p.initialTarget.matchesFingerprint C e &&
    match historyTail C e 0 p.initialTarget p.confirmedHistory with
    | none => false
    | some tail =>
      match e.targetRevalidation with
      | none => e.target = tail
      | some pending =>
        pending.proposedTarget = e.target && pending.sourceConfirmedTarget = tail &&
          pending.confirmationOrdinal = p.confirmedHistory.length + 1 && e.target.matchesFingerprint C e &&
          e.target ≠ tail && e.target.scopeId = tail.scopeId && e.target.sessionId = tail.sessionId

/-- The part of `validateForRestore` on the state. -/
def Entry.stateValid (e : Entry) : Bool :=
  match e.state with
  | .queued => e.attempts.isEmpty && e.acceptanceEvidence = .none && e.replacementCommandId.isNone
  | .sending =>
    e.attempts.getLast?.any (fun a => a.kind = .execute) && e.acceptanceEvidence = .none && e.replacementCommandId.isNone
  | .accepted => !e.attempts.isEmpty && e.acceptanceEvidence = .durable && e.replacementCommandId.isNone
  | .confirming | .ambiguous => !e.attempts.isEmpty && e.replacementCommandId.isNone
  | .succeeded | .failedFinal => !e.attempts.isEmpty && e.acceptanceEvidence = .durable && e.replacementCommandId.isNone
  | .reissued => !e.attempts.isEmpty && e.acceptanceEvidence = .none && e.replacementCommandId.isSome

def Entry.valid (C : Core) (e : Entry) : Bool :=
  e.arguments.operation = e.operation &&
    e.requestFingerprint = C.fingerprint e.operation e.dedupeWindowId e.expectedHostEpoch e.hostId e.scopeId e.sessionId
      e.arguments &&
    decide (e.attempts.map Attempt.requestId).Nodup &&
    e.attempts.map Attempt.ordinal = List.range' 1 e.attempts.length &&
    e.stateValid &&
    (e.targetRevalidation.isNone || e.state = .queued) &&
    e.targetRevalidation.all (fun r => r.proposedTarget = e.target) &&
    (e.reissuedFromCommandId.isNone = e.reissueLineageProof.isNone) &&
    e.targetProvenance.isValidFor C e

/-! ## Attempts and reissues across the entries -/

/-- `validateAttemptOwnership`: an execute has one owner; the owners of a query are of one authority and one batch. -/
def attemptOwnershipValid (entries : List Entry) : Bool :=
  let owned := entries.flatMap fun e => e.attempts.map fun a => (e, a)
  owned.all fun p =>
    let owners := owned.filter fun q => q.2.requestId = p.2.requestId
    owners.all (fun q => q.2.kind = p.2.kind) &&
      match p.2.kind with
      | .execute => owners.length = 1
      | .query =>
        owners.length ≤ maxQueryItemsPerBatch && owners.all fun q => q.1.queryAuthority = p.1.queryAuthority

def Entry.hasSameReissueIntent (C : Core) (e other : Entry) : Bool :=
  match other.reissueLineageProof with
  | none => false
  | some p =>
    let t := p.replacementInitialTarget
    e.profileId = other.profileId && e.principalId = other.principalId && e.hostId = other.hostId &&
      e.operation = other.operation && e.arguments = other.arguments &&
      (p.parentProfileId = e.profileId && p.parentPrincipalId = e.principalId && p.parentHostId = e.hostId &&
        p.parentCommandId = e.commandId && p.parentExpectedHostEpoch = e.expectedHostEpoch &&
        p.parentDedupeWindowId = e.dedupeWindowId && p.parentScopeId = e.scopeId && p.parentSessionId = e.sessionId &&
        p.parentRequestFingerprint = e.requestFingerprint) &&
      (p.replacementProfileId = other.profileId && p.replacementPrincipalId = other.principalId &&
        p.replacementHostId = other.hostId && p.replacementCommandId = other.commandId &&
        t.expectedHostEpoch = e.expectedHostEpoch && t.dedupeWindowId ≠ e.dedupeWindowId && t.scopeId = e.scopeId &&
        t.sessionId = e.sessionId && t.matchesFingerprint C other && t = other.targetProvenance.initialTarget)

/-- The entry with a lineage key. -/
def byLineage (entries : List Entry) (key : String × String × String × String) : Option Entry :=
  entries.find? fun e => e.lineageKey e.commandId = key

/-- The replacement of a lineage key. -/
def replacementOf (entries : List Entry) (key : String × String × String × String) : Option Entry :=
  entries.find? fun e => e.reissuedFromCommandId.any fun parent => e.lineageKey parent = key

/-- The walk along replacements ends within so many steps. -/
def chainEnds (entries : List Entry) : Nat → String × String × String × String → Bool
  | 0, key => (replacementOf entries key).isNone
  | n + 1, key =>
    match replacementOf entries key with
    | none => true
    | some child => chainEnds entries n (child.lineageKey child.commandId)

/-- `validateReissueGraph`.  The source colours the keys of a walk; a walk that is longer than the entries are many is
the one that meets a colour again. -/
def reissueGraphValid (C : Core) (entries : List Entry) : Bool :=
  decide (entries.map fun e => e.lineageKey e.commandId).Nodup &&
    decide (entries.filterMap fun e => e.reissuedFromCommandId.map e.lineageKey).Nodup &&
    entries.all (fun child => child.reissuedFromCommandId.all fun parentId =>
      (byLineage entries (child.lineageKey parentId)).any fun parent =>
        parent.state = .reissued && parent.replacementCommandId = some child.commandId &&
          parent.hasSameReissueIntent C child) &&
    entries.all (fun parent => parent.state ≠ .reissued ||
      parent.replacementCommandId.any fun replacementId =>
        (replacementOf entries (parent.lineageKey parent.commandId)).any fun child =>
          child.lineageKey child.commandId = parent.lineageKey replacementId && parent.hasSameReissueIntent C child) &&
    entries.all fun e => chainEnds entries entries.length (e.lineageKey e.commandId)

/-! ## A state -/

structure State where
  entries : List Entry
  nextCreationOrder : Nat
  canonicalByteCount : Nat

def State.entry (s : State) (id : EntryId) : Option Entry := s.entries.find? fun e => e.id = id

/-- `cheapCanonicalLowerBound`, of a target. -/
def Target.cheapLowerBound (t : Target) : Nat :=
  Json.units t.expectedHostEpoch + Json.units t.dedupeWindowId + Json.units t.scopeId + (t.sessionId.map Json.units).getD 0 +
    Json.units t.requestFingerprint.sha256Hex

/-- `cheapCanonicalLowerBound`, of an entry: the lengths of the texts in it. -/
def Entry.cheapLowerBound (e : Entry) : Nat :=
  Json.units e.arguments.canonicalMap.text + Json.units e.profileId + Json.units e.principalId + Json.units e.hostId +
    Json.units e.expectedHostEpoch + Json.units e.dedupeWindowId + Json.units e.commandId + Json.units e.scopeId +
    (e.sessionId.map Json.units).getD 0 +
    (e.targetRevalidation.map fun r => Json.units r.observedHostEpoch + Json.units r.dedupeWindowId +
      r.proposedTarget.cheapLowerBound + r.sourceConfirmedTarget.cheapLowerBound).getD 0 +
    (e.reissueLineageProof.map fun p => Json.units p.parentProfileId + Json.units p.parentPrincipalId + Json.units p.parentHostId +
      Json.units p.parentCommandId + Json.units p.parentExpectedHostEpoch + Json.units p.parentDedupeWindowId +
      Json.units p.parentScopeId + (p.parentSessionId.map Json.units).getD 0 +
      Json.units p.parentRequestFingerprint.sha256Hex + Json.units p.replacementProfileId + Json.units p.replacementPrincipalId +
      Json.units p.replacementHostId + Json.units p.replacementCommandId +
      p.replacementInitialTarget.cheapLowerBound).getD 0 +
    e.targetProvenance.initialTarget.cheapLowerBound +
    (e.targetProvenance.confirmedHistory.map fun step =>
      step.sourceTarget.cheapLowerBound + step.confirmedTarget.cheapLowerBound).sum +
    (e.attempts.map fun a => Json.units a.requestId).sum

def stateCanonicalFixedBytes (nextCreationOrder : Nat) : Nat :=
  "\x7b\"entries\":[".utf8ByteSize + ("],\"nextCreationOrder\":" ++ toString nextCreationOrder ++ "\x7d").utf8ByteSize

/-- The second loop of `restore`: the bytes of the entries, each of which is checked. -/
def restoreEntries (C : Core) (nextCreationOrder : Nat) : Nat → Nat → List Entry → Except Rejection Nat
  | _, bytes, [] => .ok bytes
  | index, bytes, e :: rest => do
    require (e.targetProvenance.canonicalValue.bytes ≤ maxTargetProvenanceCanonicalBytes) .capacityExceeded
    require (e.valid C) .invariantViolation
    require (e.arguments.canonicalMap.bytes ≤ maxArgumentsCanonicalBytes) .capacityExceeded
    require (e.canonicalByteCount ≤ maxEntryCanonicalBytes) .capacityExceeded
    let bytes := bytes + e.canonicalByteCount + (if index > 0 then 1 else 0)
    require (bytes + stateCanonicalFixedBytes nextCreationOrder ≤ maxStateCanonicalBytes) .capacityExceeded
    restoreEntries C nextCreationOrder (index + 1) bytes rest

/-- The order of the entries.  No two have one order, so the second key of the source is never asked. -/
def createdBefore (a b : Entry) : Prop := a.createdOrder ≤ b.createdOrder

instance : DecidableRel createdBefore := fun a b => inferInstanceAs (Decidable (a.createdOrder ≤ b.createdOrder))

/-- **`RelayV2OutboxState.restore`**. -/
def restore (C : Core) (entries : List Entry) (nextCreationOrder : Nat) : Except Rejection State := do
  require (entries.length ≤ maxEntries) .capacityExceeded
  require (entries.all fun e => e.targetProvenance.confirmedHistory.length ≤ maxTargetProvenanceSteps &&
    e.attempts.length ≤ maxAttemptsPerEntry && Json.units e.arguments.canonicalMap.text ≤ maxArgumentsCanonicalBytes)
    .capacityExceeded
  require ((entries.map Entry.cheapLowerBound).sum ≤ maxStateCanonicalBytes) .capacityExceeded
  require (decide (entries.map Entry.id).Nodup) .invariantViolation
  require (decide (entries.map Entry.createdOrder).Nodup) .invariantViolation
  require (entries.all fun e => e.createdOrder < nextCreationOrder) .invariantViolation
  let bytes ← restoreEntries C nextCreationOrder 0 0 entries
  require (attemptOwnershipValid entries) .invariantViolation
  require (reissueGraphValid C entries) .invariantViolation
  return ⟨entries.insertionSort createdBefore, nextCreationOrder, stateCanonicalFixedBytes nextCreationOrder + bytes⟩

def State.empty : State := ⟨[], 0, stateCanonicalFixedBytes 0⟩

end Outbox
end TmuxWorktree
