import TmuxWorktree.Sync.Repository
/-!
# Events — a state event is applied, or it waits in the buffer (`RelayV2StateSyncRepositoryCore.kt`)

A live cache applies the event that comes next.  Every other event waits, until a snapshot and the events after it are
committed together; an event that cannot wait ends the staging.
-/
namespace TmuxWorktree
namespace Sync

/-! ## One event on the rows -/

/-- What an event makes of the rows: the rows, how the count and the bytes of the records change, and the revision. -/
structure Effect where
  rows : Tables
  records : Int
  bytes : Int
  scopesRevision : Option Nat

namespace Tables

variable (t : Tables) (scopesRevision : Option Nat) (resultingRevision : Nat)

def scopeUpsert (item : ScopeItem) : Except Fault (Option Effect) := do
  match scopesRevision with
  | none => return none
  | some revision =>
    let expected ← increment revision
    if resultingRevision ≠ expected then return none
    else
      match t.scope item.scopeId with
      | none =>
        let updated : StoredScope := ⟨item, 0⟩
        return some ⟨t.putScope updated, 2, updated.canonicalBytes, some resultingRevision⟩
      | some prior =>
        let updated : StoredScope := ⟨item, prior.sessionsRevision⟩
        return some ⟨t.putScope updated, 0, (updated.canonicalBytes : Int) - prior.canonicalBytes, some resultingRevision⟩

def scopeDelete (scopeId : String) : Except Fault (Option Effect) := do
  match scopesRevision with
  | none => return none
  | some revision =>
    let expected ← increment revision
    if resultingRevision ≠ expected then return none
    else
      match t.scope scopeId with
      | none => return none
      | some prior =>
        let stats := t.sessionStats scopeId
        return some ⟨(t.deleteSessionsForScope scopeId).deleteScope scopeId, -(2 + stats.1),
          -(prior.canonicalBytes + stats.2), some resultingRevision⟩

def sessionUpsert (item : SessionItem) : Except Fault (Option Effect) := do
  match t.scope item.scopeId with
  | none => return none
  | some owning =>
    let expected ← increment owning.sessionsRevision
    if resultingRevision ≠ expected then return none
    else
      let updated : StoredSession := ⟨item⟩
      let updatedScope : StoredScope := ⟨owning.item, resultingRevision⟩
      let moved : Int := (updatedScope.canonicalBytes : Int) - owning.canonicalBytes
      let rows := (t.putSession updated).putScope updatedScope
      match t.session item.scopeId item.sessionId with
      | none => return some ⟨rows, 1, updated.canonicalBytes + moved, scopesRevision⟩
      | some prior => return some ⟨rows, 0, (updated.canonicalBytes : Int) - prior.canonicalBytes + moved, scopesRevision⟩

def sessionDelete (scopeId sessionId : String) : Except Fault (Option Effect) := do
  match t.scope scopeId with
  | none => return none
  | some owning =>
    let expected ← increment owning.sessionsRevision
    if resultingRevision ≠ expected then return none
    else
      match t.session scopeId sessionId with
      | none => return none
      | some prior =>
        let updatedScope : StoredScope := ⟨owning.item, resultingRevision⟩
        let moved : Int := (updatedScope.canonicalBytes : Int) - owning.canonicalBytes
        return some ⟨(t.deleteSession scopeId sessionId).putScope updatedScope, -1, moved - prior.canonicalBytes,
          scopesRevision⟩

def applyChange : Change → Except Fault (Option Effect)
  | .scopeUpsert item => t.scopeUpsert scopesRevision resultingRevision item
  | .scopeDelete scopeId => t.scopeDelete scopesRevision resultingRevision scopeId
  | .sessionUpsert item => t.sessionUpsert scopesRevision resultingRevision item
  | .sessionDelete scopeId sessionId => t.sessionDelete scopesRevision resultingRevision scopeId sessionId

end Tables

/-- `applyLiveEvent`: nothing when the event is not the next one, does not fit the rows, or breaks a limit. -/
def applyLiveEvent (s : Store) (a : Authority) (e : Event) : Except Fault (Option (Store × Authority)) := do
  match a.cursorEventSeq with
  | none => return none
  | some cursor =>
    let next ← increment cursor
    if e.eventSeq ≠ next then return none
    else
      let effect ← (s.tables e.namespace).applyChange a.scopesRevision e.resultingRevision e.change
      match effect with
      | none => return none
      | some effect =>
        let recordCount := a.cacheRecordCount + effect.records
        let jsonBytes := canonicalJsonBytesFromArray a.cacheCanonicalBytes a.cacheRecordCount + effect.bytes
        let totalCanonicalBytes := canonicalArrayBytes recordCount jsonBytes
        if recordCount < 0 || (maxSnapshotRecords : Int) < recordCount ||
            (maxSnapshotCanonicalBytes : Int) < totalCanonicalBytes then return none
        else
          return some (s.onTables e.namespace fun _ => effect.rows,
            { a with cursorEventSeq := some e.eventSeq, scopesRevision := effect.scopesRevision
                     cacheRecordCount := recordCount, cacheCanonicalBytes := totalCanonicalBytes })

/-! ## The buffer -/

/-- The buffer has no room for one more event. -/
def bufferFull (s : Store) (e : Event) : Bool :=
  maxBufferedStateEvents < s.bufferedEventCount e.namespace + 1 ||
    maxBufferedStateEventBytes < s.bufferedEventRawBytes e.namespace + e.rawUtf8Bytes

def bufferEventWhileReleasePending (s : Store) (a : Authority) (e : Event) : Except Fault (Store × Result) := do
  let n := e.namespace
  let pending ← a.validatedPendingRelease
  let release ← present pending .releaseLost
  let updated := { a with phase := .resyncing, afterReleasePhase := some .restartSnapshot }
  let s ← s.putAuthority updated
  match s.bufferedEvent n e.eventSeq with
  | some existing =>
    if existing.canonicalJson = e.canonicalJson then return (s, .duplicateEvent)
    else return (s.deleteBufferedEvents n, .releasePending n release .restartSnapshot)
  | none =>
    if bufferFull s e then return (s.deleteBufferedEvents n, .releasePending n release .restartSnapshot)
    else
      let r ← eventBuffered n e.eventSeq updated.cursorEventSeq updated.requiredThroughEventSeq .continueCurrent
      return (s.putBufferedEvent e, r)

/-- The answer when an event ends the staging. -/
def restartAnswer (a : Authority) (e : Event) (reason : ResyncReason) (release : Option Obligation) :
    Except Fault Result :=
  resyncRequired
    { «namespace» := e.namespace, reason := reason, release := release, afterReleasePhase := afterOf release
      durableCursorEventSeq := a.cursorEventSeq, requiredThroughEventSeq := some a.requiredThroughEventSeq
      supersedesQueryCompletion := a.phase = .live }

def bufferEventOrRestart (s : Store) (a : Authority) (e : Event) (reason : ResyncReason) :
    Except Fault (Store × Result) := do
  let n := e.namespace
  match s.bufferedEvent n e.eventSeq with
  | some existing =>
    if existing.canonicalJson = e.canonicalJson then return (s, .duplicateEvent)
    else
      let (s, release) ← giveUpStaged s a .eventRevisionConflict
      let r ← restartAnswer a e .eventRevisionConflict release
      return (s, r)
  | none =>
    if bufferFull s e then
      let (s, release) ← giveUpStaged s a .eventBufferOverflow
      let s ← s.putAuthority
        { a with phase := .resyncing, pendingRelease := release, afterReleasePhase := afterOf release }
      let r ← restartAnswer a e .eventBufferOverflow release
      return (s, r)
    else
      let s := s.putBufferedEvent e
      if reason = .eventGap then
        let r ← eventBuffered n e.eventSeq a.cursorEventSeq a.requiredThroughEventSeq
          (if a.phase = .live then .supersedeQueryCompletion else .continueCurrent)
        return (s, r)
      else
        let r ← resyncRequired { «namespace» := n, reason := reason, durableCursorEventSeq := a.cursorEventSeq }
        return (s, r)

/-! ## An event arrives -/

/-- The authority with the event's number as its watermark. -/
def Authority.raised (a : Authority) (eventSeq : Nat) : Authority :=
  let required := max a.requiredThroughEventSeq eventSeq
  { a with
    requiredThroughEventSeq := required
    afterReleasePhase := a.pendingRelease.map fun pending =>
      if a.afterReleasePhase = some .queryPendingCommands && pending.durableCursorEventSeq.any (required ≤ ·) then
        .queryPendingCommands
      else .restartSnapshot
    phase := if a.pendingRelease.isSome then .resyncing else a.phase }

/-- The event that a cursor waits for. -/
def nextEvent : Option Nat → Except Fault (Option Nat)
  | none => .ok none
  | some cursor => (increment cursor).map some

/-- **`applyStateEventUnderApplyLease`**. -/
def applyStateEvent (s : Store) (e : Event) : Except Fault (Store × Result) := do
  let n := e.namespace
  match s.authority n with
  | none => return (s, unknownEpoch n)
  | some stored =>
    if stored.cursorEventSeq.any (e.eventSeq ≤ ·) then return (s, .duplicateEvent)
    else
      let a := stored.raised e.eventSeq
      let s ← s.putAuthority a
      if a.pendingRelease.isSome then bufferEventWhileReleasePending s a e
      else if a.phase = .live then
        let next ← nextEvent a.cursorEventSeq
        if next = some e.eventSeq then
          let applied ← applyLiveEvent s a e
          match applied with
          | some (s, applied) =>
            let s ← s.putAuthority applied
            return (s, .live n e.eventSeq)
          | none =>
            let s ← s.putAuthority { a with phase := .resyncing }
            bufferEventOrRestart s a e .eventRevisionConflict
        else
          let s ← s.putAuthority { a with phase := .resyncing }
          bufferEventOrRestart s a e .eventGap
      else bufferEventOrRestart s a e .eventGap

end Sync
end TmuxWorktree
