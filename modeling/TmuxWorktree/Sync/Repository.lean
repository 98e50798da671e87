import TmuxWorktree.Sync.State
/-!
# Repository — the transactions of the mobile cache (`RelayV2StateSyncRepositoryCore.kt`)

Each operation is one transaction: it gives back the store with its answer, or a fault, and then nothing has changed.
-/
namespace TmuxWorktree
namespace Sync

/-! ## Answers -/

inductive ResyncReason where
  | fresh | cursorBehind | hostEpochChanged | eventGap | eventRevisionConflict | eventBufferOverflow
  | snapshotRestartRequired | snapshotIdentityConflict | snapshotOrderConflict | snapshotLimitExceeded
  | snapshotIncomplete | snapshotCountMismatch | snapshotDigestMismatch
  deriving DecidableEq, Repr

/-- `RelayV2SnapshotReleaseReason.valueOf`. -/
def ResyncReason.releaseReason : ResyncReason → Except Fault ReleaseReason
  | .fresh => .ok .fresh
  | .cursorBehind | .hostEpochChanged => .error .unknownReleaseReason
  | .eventGap => .ok .eventGap
  | .eventRevisionConflict => .ok .eventRevisionConflict
  | .eventBufferOverflow => .ok .eventBufferOverflow
  | .snapshotRestartRequired => .ok .snapshotRestartRequired
  | .snapshotIdentityConflict => .ok .snapshotIdentityConflict
  | .snapshotOrderConflict => .ok .snapshotOrderConflict
  | .snapshotLimitExceeded => .ok .snapshotLimitExceeded
  | .snapshotIncomplete => .ok .snapshotIncomplete
  | .snapshotCountMismatch => .ok .snapshotCountMismatch
  | .snapshotDigestMismatch => .ok .snapshotDigestMismatch

inductive RotationReason where
  | eventCursorAhead | requiredWatermarkRegressed | unknownHostEpoch
  deriving DecidableEq, Repr

inductive BufferedRecovery where
  | continueCurrent | supersedeQueryCompletion
  deriving DecidableEq, Repr

structure Continuation where
  snapshotRequestId : String
  snapshotId : String
  cursor : String
  nextChunkIndex : Nat
  deriving DecidableEq, Repr

structure Resync where
  «namespace» : Namespace
  reason : ResyncReason
  release : Option Obligation := none
  afterReleasePhase : Option PostReleasePhase := none
  durableCursorEventSeq : Option Nat := release.bind Obligation.durableCursorEventSeq
  requiredThroughEventSeq : Option Nat := none
  continuation : Option Continuation := none
  supersedesQueryCompletion : Bool := false
  deriving DecidableEq, Repr

inductive Result where
  | live (n : Namespace) (cursorEventSeq : Nat)
  | resyncRequired (resync : Resync)
  | eventBuffered (n : Namespace) (eventSeq : Nat) (durableCursorEventSeq : Option Nat) (requiredThroughEventSeq : Nat)
      (recoveryAction : BufferedRecovery)
  | releasePending (n : Namespace) (release : Obligation) (afterReleasePhase : PostReleasePhase)
  | rotationRequired (n : Namespace) (reason : RotationReason)
  | snapshotStaged (n : Namespace) (snapshotId : String) (nextChunkIndex : Nat) (nextCursor : Option String)
      (complete : Bool)
  | snapshotCommitted (n : Namespace) (cursorEventSeq : Nat) (release : Obligation) (afterReleasePhase : PostReleasePhase)
  | snapshotExpired (n : Namespace) (snapshotRequestId snapshotId : String) (durableCursorEventSeq : Option Nat)
  | duplicateEvent
  deriving DecidableEq, Repr

/-- `RelayV2SnapshotReleaseCompletion`. -/
structure Completion where
  release : Obligation
  afterReleasePhase : PostReleasePhase
  deriving DecidableEq, Repr

inductive Answer where
  | result (r : Result)
  | obligation (o : Option Obligation)
  | completion (c : Option Completion)
  | done
  deriving DecidableEq, Repr

/-- `ResyncRequired`, which checks its fields. -/
def resyncRequired (r : Resync) : Except Fault Result := do
  check (r.release.isNone = r.afterReleasePhase.isNone) .invalidResult
  if r.supersedesQueryCompletion then
    let required ← present r.requiredThroughEventSeq .invalidResult
    check (r.durableCursorEventSeq.all fun c => c < required) .invalidResult
  return .resyncRequired r

/-- `EventBuffered`, which checks its fields. -/
def eventBuffered (n : Namespace) (eventSeq : Nat) (cursor : Option Nat) (required : Nat) (recovery : BufferedRecovery) :
    Except Fault Result := do
  check (eventSeq ≤ required) .invalidResult
  return .eventBuffered n eventSeq cursor required recovery

def unknownEpoch (n : Namespace) : Result := .rotationRequired n .unknownHostEpoch

def releasePending (n : Namespace) (a : Authority) (pending : Obligation) : Except Fault Result := do
  let afterRelease ← present a.afterReleasePhase .missingAfterRelease
  return .releasePending n pending afterRelease

/-! ## Connect plans -/

inductive Recovery where
  | empty | live | resyncing | releasePending
  deriving DecidableEq, Repr

structure PlanFields where
  identity : Identity
  resume : Option Cursor
  recovery : Recovery
  durableHostEpoch : Option String
  requiredThroughEventSeq : Option Nat
  snapshotRequestId : Option String := none
  snapshotId : Option String := none
  snapshotNextCursor : Option String := none
  snapshotNextChunkIndex : Option Nat := none
  snapshotComplete : Option Bool := none
  releaseObligationToken : Option String := none
  deriving DecidableEq, Repr

/-- What `init` of `RelayV2StateConnectPlan` asks. -/
def PlanFields.valid (p : PlanFields) : Bool :=
  p.snapshotNextChunkIndex.all (1 ≤ ·) &&
    (match p.recovery with
    | .empty =>
      p.resume.isNone && p.durableHostEpoch.isNone && p.requiredThroughEventSeq.isNone && p.snapshotRequestId.isNone &&
        p.releaseObligationToken.isNone
    | .live =>
      p.resume.any (fun c => p.durableHostEpoch = some c.hostEpoch) && p.requiredThroughEventSeq.isSome &&
        p.snapshotRequestId.isNone && p.releaseObligationToken.isNone
    | .resyncing => p.durableHostEpoch.isSome && p.requiredThroughEventSeq.isSome && p.releaseObligationToken.isNone
    | .releasePending =>
      p.durableHostEpoch.isSome && p.requiredThroughEventSeq.isSome && p.releaseObligationToken.isSome &&
        p.snapshotRequestId.isNone) &&
    p.resume.all (fun c => p.durableHostEpoch = some c.hostEpoch) &&
    (p.snapshotId.isSome = p.snapshotRequestId.isSome) &&
    (p.snapshotNextChunkIndex.isSome = p.snapshotRequestId.isSome) &&
    (p.snapshotComplete.isSome = p.snapshotRequestId.isSome) &&
    (p.snapshotRequestId.isNone || p.recovery = .resyncing) &&
    (p.snapshotRequestId.isNone || (p.snapshotComplete = some true) = p.snapshotNextCursor.isNone) &&
    p.snapshotNextCursor.all (fun c => !c.isEmpty) &&
    (p.snapshotRequestId.isSome || p.snapshotNextCursor.isNone)

/-- `RelayV2StateConnectPlan`. -/
structure ConnectPlan extends PlanFields where
  ok : toPlanFields.valid = true

def Authority.recovery (a : Authority) (pending : Option Obligation) : Recovery :=
  if pending.isSome then .releasePending else if a.phase = .live then .live else .resyncing

def planFields (C : Core) (s : Store) (identity : Identity) : Option Authority → Except Fault PlanFields
  | none => .ok { identity, resume := none, recovery := .empty, durableHostEpoch := none, requiredThroughEventSeq := none }
  | some a => do
    let pending ← a.validatedPendingRelease
    check (a.phase ≠ .live || (a.cursorEventSeq.isSome && pending.isNone)) .liveWithoutCursor
    let staged := s.snapshot a.namespace
    check (a.phase = .resyncing || staged.isNone) .liveWithStaging
    return {
      identity
      resume := a.cursorEventSeq.map fun c => ⟨a.namespace.hostEpoch, c⟩
      recovery := a.recovery a.pendingRelease
      durableHostEpoch := some a.namespace.hostEpoch
      requiredThroughEventSeq := some a.requiredThroughEventSeq
      snapshotRequestId := staged.map StoredSnapshot.snapshotRequestId
      snapshotId := staged.map StoredSnapshot.snapshotId
      snapshotNextCursor := staged.bind StoredSnapshot.nextCursor
      snapshotNextChunkIndex := staged.map StoredSnapshot.nextChunkIndex
      snapshotComplete := staged.map StoredSnapshot.complete
      releaseObligationToken := pending.map C.opaqueToken }

/-- **`loadConnectPlan`**. -/
def loadConnectPlan (C : Core) (s : Store) (identity : Identity) : Except Fault ConnectPlan := do
  let found := s.authoritiesOf identity
  check (found.length ≤ 1) .ambiguousResume
  let fields ← planFields C s identity found.head?
  if h : fields.valid = true then return ⟨fields, h⟩ else .error .invalidResult

def validateConnectPlan (C : Core) (s : Store) (plan : ConnectPlan) : Except Fault Unit := do
  let found := s.authoritiesOf plan.identity
  if plan.recovery = .empty then check found.isEmpty .staleConnectPlan
  else
    match found with
    | [a] =>
      check (some a.namespace.hostEpoch = plan.durableHostEpoch) .staleConnectPlan
      let pending ← a.validatedPendingRelease
      check (a.recovery pending = plan.recovery && a.cursorEventSeq = plan.resume.map Cursor.eventSeq &&
        some a.requiredThroughEventSeq = plan.requiredThroughEventSeq &&
        pending.map C.opaqueToken = plan.releaseObligationToken) .staleConnectPlan
      let staged := s.snapshot a.namespace
      check (staged.map StoredSnapshot.snapshotRequestId = plan.snapshotRequestId &&
        staged.map StoredSnapshot.snapshotId = plan.snapshotId &&
        staged.bind StoredSnapshot.nextCursor = plan.snapshotNextCursor &&
        staged.map StoredSnapshot.nextChunkIndex = plan.snapshotNextChunkIndex &&
        staged.map StoredSnapshot.complete = plan.snapshotComplete) .staleContinuation
    | _ => .error .staleConnectPlan

/-! ## Leaving a snapshot -/

/-- A staged snapshot is given up: the obligation to release it is put with the plan for afterwards, and the staging and the
buffer are deleted. -/
def giveUp (s : Store) (a : Authority) (directive : Directive) (reason : ReleaseReason) (after : PostReleasePhase) :
    Except Fault (Store × Obligation) := do
  let release ← a.releaseObligation directive reason
  let s ← s.putAuthority
    { a with phase := .resyncing, pendingRelease := some release, afterReleasePhase := some after }
  return ((s.deleteSnapshot a.namespace).deleteBufferedEvents a.namespace, release)

/-- The staged snapshot, when there is one, is given up; the buffer goes in any case. -/
def giveUpStaged (s : Store) (a : Authority) (reason : ReleaseReason) : Except Fault (Store × Option Obligation) := do
  match s.snapshot a.namespace with
  | some staged =>
    let (s, release) ← giveUp s a (staged.releaseDirective a.namespace) reason .restartSnapshot
    return (s, some release)
  | none => return ((s.deleteSnapshot a.namespace).deleteBufferedEvents a.namespace, none)

def afterOf (release : Option Obligation) : Option PostReleasePhase := release.map fun _ => .restartSnapshot

/-! ## Hello -/

inductive Disposition where
  | fresh | matched | cursorBehind | hostEpochChanged | eventCursorAhead
  deriving DecidableEq, Repr

/-- What `init` of `RelayV2StateHello` asks. -/
def helloValid (n : Namespace) (welcomeEventSeq : Nat) (resume : Option Cursor) : Disposition → Bool
  | .fresh => resume.isNone
  | .matched => resume.any fun c => c.hostEpoch = n.hostEpoch && c.eventSeq = welcomeEventSeq
  | .cursorBehind => resume.any fun c => c.hostEpoch = n.hostEpoch && c.eventSeq < welcomeEventSeq
  | .hostEpochChanged => resume.any fun c => c.hostEpoch ≠ n.hostEpoch
  | .eventCursorAhead => resume.any fun c => c.hostEpoch = n.hostEpoch && c.eventSeq > welcomeEventSeq

structure Hello where
  «namespace» : Namespace
  welcomeEventSeq : Nat
  resume : Option Cursor
  disposition : Disposition
  ok : helloValid «namespace» welcomeEventSeq resume disposition = true

/-- `bufferCovers`, from the event that is expected next. -/
def coversFrom (fromExclusive throughInclusive : Nat) : Nat → List Event → Except Fault Bool
  | _, [] => .ok (throughInclusive ≤ fromExclusive)
  | expected, e :: rest => do
    if e.eventSeq ≤ fromExclusive then coversFrom fromExclusive throughInclusive expected rest
    else if throughInclusive < e.eventSeq then coversFrom fromExclusive throughInclusive expected rest
    else if e.eventSeq ≠ expected then return false
    else if e.eventSeq = throughInclusive then return true
    else
      let expected ← increment expected
      coversFrom fromExclusive throughInclusive expected rest

def bufferCovers (s : Store) (n : Namespace) (fromExclusive throughInclusive : Nat) : Except Fault Bool := do
  let expected ← increment fromExclusive
  coversFrom fromExclusive throughInclusive expected (s.bufferedEvents n)

/-- The staged snapshot cannot go on: it is complete, or its cut and the buffer do not reach the watermark. -/
def stagingUseless (s : Store) (n : Namespace) (required : Nat) : Except Fault Bool := do
  match s.snapshot n with
  | none => return false
  | some staged =>
    if staged.complete then return true
    else if staged.throughEventSeq < required then
      let covered ← bufferCovers s n staged.throughEventSeq required
      return !covered
    else return false

/-- The end of `applySameEpochWelcome`: a staging that can reach the watermark goes on, any other is given up. -/
def resumeStaging (s : Store) (updated : Authority) (durableCursor : Option Nat) : Except Fault (Store × Result) := do
  let n := updated.namespace
  let s ← s.putAuthority updated
  let useless ← stagingUseless s n updated.requiredThroughEventSeq
  if useless then
    let pinned ← present (s.snapshot n) .missingCursor
    let (s, release) ← giveUp s updated (pinned.releaseDirective n) .snapshotRestartRequired .restartSnapshot
    let r ← resyncRequired
      { «namespace» := n, reason := .snapshotRestartRequired, release := some release
        afterReleasePhase := some .restartSnapshot }
    return (s, r)
  else
    let continuation := (s.snapshot n).bind fun staged =>
      if staged.complete then none
      else staged.nextCursor.map fun cursor =>
        ⟨staged.snapshotRequestId, staged.snapshotId, cursor, staged.nextChunkIndex⟩
    let r ← resyncRequired
      { «namespace» := n, reason := .cursorBehind, durableCursorEventSeq := durableCursor
        continuation := continuation }
    return (s, r)

def applySameEpochWelcome (s : Store) (current : Option Authority) (hello : Hello) : Except Fault (Store × Result) := do
  let n := hello.namespace
  match current with
  | none => return (s, unknownEpoch n)
  | some current =>
    if current.namespace ≠ n || current.cursorEventSeq ≠ hello.resume.map Cursor.eventSeq then return (s, unknownEpoch n)
    else if hello.welcomeEventSeq < current.requiredThroughEventSeq then
      return (s, .rotationRequired n .requiredWatermarkRegressed)
    else
      let required := max current.requiredThroughEventSeq hello.welcomeEventSeq
      if hello.disposition = .matched then
        let updated := { current with requiredThroughEventSeq := required, phase := .live }
        match s.snapshot n with
        | some staged =>
          let (s, release) ← giveUp s updated (staged.releaseDirective n) .snapshotRestartRequired .queryPendingCommands
          return (s, .releasePending n release .queryPendingCommands)
        | none =>
          let s ← s.putAuthority updated
          let s := (s.deleteSnapshot n).deleteBufferedEvents n
          let cursor ← present updated.cursorEventSeq .missingCursor
          return (s, .live n cursor)
      -- a fresh hello has no materialized cursor: the cache starts again, the staging may go on
      else if hello.disposition = .fresh then
        resumeStaging ((s.deleteSessions n).deleteScopes n) (newAuthority n required) current.cursorEventSeq
      else
        resumeStaging s { current with requiredThroughEventSeq := required, phase := .resyncing } current.cursorEventSeq

def applyPendingHello (s : Store) (current : Authority) (pending : Obligation) (hello : Hello) :
    Except Fault (Store × Result) := do
  let required := max current.requiredThroughEventSeq hello.welcomeEventSeq
  let afterRelease :=
    if current.afterReleasePhase = some .queryPendingCommands && hello.disposition ≠ .fresh &&
        hello.disposition ≠ .hostEpochChanged && pending.durableCursorEventSeq.any (required ≤ ·) then
      PostReleasePhase.queryPendingCommands
    else .restartSnapshot
  let s ← s.putAuthority
    { current with requiredThroughEventSeq := required, phase := .resyncing, afterReleasePhase := some afterRelease }
  return (s, .releasePending hello.namespace pending afterRelease)

/-- The state of another epoch that the plan has found is deleted. -/
def deleteOtherEpoch (s : Store) (plan : ConnectPlan) (n : Namespace) : Store :=
  match plan.durableHostEpoch with
  | some epoch => if epoch ≠ n.hostEpoch then s.deleteNamespaceState { n with hostEpoch := epoch } else s
  | none => s

/-- The obligation to release a staged snapshot, when there is one. -/
def Authority.releaseStaged (a : Authority) (staged : Option StoredSnapshot) (reason : ReleaseReason) :
    Except Fault (Option Obligation) :=
  match staged with
  | some st => (a.releaseObligation (st.releaseDirective a.namespace) reason).map some
  | none => .ok none

def applyFreshHello (s : Store) (plan : ConnectPlan) (current : Option Authority) (hello : Hello) :
    Except Fault (Store × Result) := do
  let n := hello.namespace
  if plan.recovery = .resyncing && plan.durableHostEpoch = some n.hostEpoch then applySameEpochWelcome s current hello
  else
    let s := deleteOtherEpoch s plan n
    let staged := current.bind fun a => s.snapshot a.namespace
    let s := s.deleteNamespaceState n
    let authority := newAuthority n hello.welcomeEventSeq
    let release ← authority.releaseStaged staged .fresh
    let s ← s.putAuthority { authority with pendingRelease := release, afterReleasePhase := afterOf release }
    let r ← resyncRequired
      { «namespace» := n, reason := .fresh, release := release, afterReleasePhase := afterOf release }
    return (s, r)

def applyEpochChangedHello (s : Store) (hello : Hello) : Except Fault (Store × Result) := do
  let n := hello.namespace
  let resume ← present hello.resume .missingResume
  let s := (s.deleteNamespaceState { n with hostEpoch := resume.hostEpoch }).deleteNamespaceState n
  let s ← s.putAuthority (newAuthority n hello.welcomeEventSeq)
  let r ← resyncRequired { «namespace» := n, reason := .hostEpochChanged }
  return (s, r)

/-- **`applyHello`**. -/
def applyHello (C : Core) (s : Store) (plan : ConnectPlan) (hello : Hello) : Except Fault (Store × Result) := do
  let n := hello.namespace
  let current := s.authority n
  if hello.disposition = .eventCursorAhead then return (s, .rotationRequired n .eventCursorAhead)
  else
    check (plan.identity = n.connectIdentity && plan.resume = hello.resume) .crossedConnectPlan
    validateConnectPlan C s plan
    if current.any fun a => hello.welcomeEventSeq < a.requiredThroughEventSeq then
      return (s, .rotationRequired n .requiredWatermarkRegressed)
    else
      match current.bind fun a => a.pendingRelease.map fun p => (a, p) with
      | some (a, pending) => applyPendingHello s a pending hello
      | none =>
        match hello.disposition with
        | .fresh => applyFreshHello s plan current hello
        | .hostEpochChanged => applyEpochChangedHello s hello
        | _ => applySameEpochWelcome s current hello

/-! ## Manual resync -/

def beginManualResync (s : Store) (n : Namespace) : Except Fault (Store × Result) := do
  match s.authority n with
  | none => return (s, unknownEpoch n)
  | some a =>
    match a.pendingRelease with
    | some pending =>
      let r ← releasePending n a pending
      return (s, r)
    | none =>
      let (s, release) ← giveUpStaged s a .snapshotRestartRequired
      let s ← s.putAuthority
        { a with phase := .resyncing, pendingRelease := release, afterReleasePhase := afterOf release }
      let r ← resyncRequired
        { «namespace» := n, reason := .snapshotRestartRequired, release := release, afterReleasePhase := afterOf release
          durableCursorEventSeq := a.cursorEventSeq, requiredThroughEventSeq := some a.requiredThroughEventSeq }
      return (s, r)

end Sync
end TmuxWorktree
