import TmuxWorktree.Sync.Events
/-!
# Snapshot — a cut is staged, checked and committed (`RelayV2StateSyncRepositoryCore.kt`)

The chunks of a cut are staged in the order of its records.  A complete staging is committed at once with the buffered
events after it, or the snapshot is given up.
-/
namespace TmuxWorktree
namespace Sync

/-! ## Chunks -/

structure ChunkFields where
  «namespace» : Namespace
  snapshotRequestId : String
  snapshotId : String
  snapshotCreatedAtMs : Nat
  snapshotLeaseExpiresAtMs : Nat
  snapshotAbsoluteExpiresAtMs : Nat
  chunkIndex : Nat
  requestedCursor : Option String
  isLast : Bool
  nextCursor : Option String
  throughEventSeq : Nat
  scopesRevision : Nat
  totalRecords : Nat
  totalCanonicalBytes : Nat
  cutDigest : String
  records : List Record
  rawUtf8Bytes : Nat
  deriving DecidableEq, Repr

/-- What `init` of `RelayV2SnapshotChunk` asks. -/
def ChunkFields.valid (c : ChunkFields) : Bool :=
  c.snapshotCreatedAtMs ≤ c.snapshotLeaseExpiresAtMs && c.snapshotLeaseExpiresAtMs ≤ c.snapshotAbsoluteExpiresAtMs &&
    c.snapshotAbsoluteExpiresAtMs ≤ maxJsonInteger && c.chunkIndex ≤ maxJsonInteger &&
    (c.chunkIndex = 0) = c.requestedCursor.isNone &&
    c.requestedCursor.all (fun t => t.utf8ByteSize ≤ maxCursorUtf8Bytes) && c.isLast = c.nextCursor.isNone &&
    c.nextCursor.all (fun t => t.utf8ByteSize ≤ maxCursorUtf8Bytes) &&
    c.throughEventSeq ≤ unsignedCounterMax && c.scopesRevision ≤ unsignedCounterMax &&
    c.totalRecords ≤ maxSnapshotRecords && c.totalCanonicalBytes ≤ maxSnapshotCanonicalBytes &&
    c.records.length ≤ maxSnapshotChunkRecords && 1 ≤ c.rawUtf8Bytes && c.rawUtf8Bytes ≤ maxPublicFrameBytes

/-- `RelayV2SnapshotChunk`. -/
structure Chunk extends ChunkFields where
  ok : toChunkFields.valid = true

def ChunkFields.releaseDirective (c : ChunkFields) : Directive := ⟨c.namespace, c.snapshotRequestId, c.snapshotId⟩

def StoredSnapshot.matchesFixedBinding (s : StoredSnapshot) (c : ChunkFields) : Bool :=
  s.snapshotRequestId = c.snapshotRequestId && s.snapshotId = c.snapshotId &&
    s.snapshotCreatedAtMs = c.snapshotCreatedAtMs && s.snapshotAbsoluteExpiresAtMs = c.snapshotAbsoluteExpiresAtMs &&
    s.throughEventSeq = c.throughEventSeq && s.scopesRevision = c.scopesRevision && s.totalRecords = c.totalRecords &&
    s.totalCanonicalBytes = c.totalCanonicalBytes && s.cutDigest = c.cutDigest

/-! ## The order of the records -/

def compareUtf8 (left right : String) : Ordering := compareOfLessAndEq left.toUTF8.data.toList right.toUTF8.data.toList

structure SnapshotOrder where
  scopeId : Option String
  recordKind : Option RecordKind
  sessionId : Option String
  deriving DecidableEq, Repr

def SnapshotOrder.advance (o : SnapshotOrder) : Record → Option SnapshotOrder
  | .scope item =>
    if o.scopeId.any fun scopeId => o.recordKind = some .scope || (compareUtf8 item.scopeId scopeId).isLE then none
    else some ⟨some item.scopeId, some .scope, none⟩
  | .sessionsScope scopeId _ =>
    if o.scopeId ≠ some scopeId || o.recordKind ≠ some .scope then none
    else some ⟨o.scopeId, some .sessionsScope, none⟩
  | .session item =>
    if o.scopeId ≠ some item.scopeId || (o.recordKind ≠ some .sessionsScope && o.recordKind ≠ some .session) ||
        o.sessionId.any (fun sessionId => (compareUtf8 item.sessionId sessionId).isLE) then none
    else some ⟨o.scopeId, some .session, some item.sessionId⟩

/-- The order after some records. -/
def SnapshotOrder.through : SnapshotOrder → List Record → Option SnapshotOrder
  | o, [] => some o
  | o, r :: rs => (o.advance r).bind fun o => o.through rs

/-! ## Staging -/

def Record.bytesOf (rs : List Record) : Nat := (rs.map Record.bytes).sum

/-- The snapshot is given up: `reject`, and the early returns of the commit. -/
def reject (s : Store) (a : Authority) (directive : Directive) (reason : ResyncReason) :
    Except Fault (Store × Result) := do
  let name ← reason.releaseReason
  let (s, release) ← giveUp s a directive name .restartSnapshot
  let r ← resyncRequired
    { «namespace» := a.namespace, reason := reason, release := some release, afterReleasePhase := some .restartSnapshot }
  return (s, r)

/-- The staging that a first chunk starts. -/
def ChunkFields.base (c : ChunkFields) : StoredSnapshot :=
  { snapshotRequestId := c.snapshotRequestId, snapshotId := c.snapshotId, snapshotCreatedAtMs := c.snapshotCreatedAtMs
    snapshotLeaseExpiresAtMs := c.snapshotLeaseExpiresAtMs
    snapshotAbsoluteExpiresAtMs := c.snapshotAbsoluteExpiresAtMs, throughEventSeq := c.throughEventSeq
    scopesRevision := c.scopesRevision, totalRecords := c.totalRecords, totalCanonicalBytes := c.totalCanonicalBytes
    cutDigest := c.cutDigest, nextChunkIndex := 0, nextCursor := none, receivedRecords := 0
    receivedRecordCanonicalBytes := 0, receivedRawUtf8Bytes := 0, lastScopeId := none, lastRecordKind := none
    lastSessionId := none, complete := false }

/-- The staging that a chunk goes on from, or why it does not. -/
def ChunkFields.continues (c : ChunkFields) : Option StoredSnapshot → Except ResyncReason StoredSnapshot
  | none => if c.chunkIndex ≠ 0 then .error .snapshotOrderConflict else .ok c.base
  | some existing =>
    if !existing.matchesFixedBinding c || c.snapshotLeaseExpiresAtMs < existing.snapshotLeaseExpiresAtMs ||
        c.chunkIndex ≠ existing.nextChunkIndex || c.requestedCursor ≠ existing.nextCursor || existing.complete then
      .error .snapshotIdentityConflict
    else .ok existing

def ChunkFields.tooLarge (c : ChunkFields) : Bool :=
  (maxSnapshotChunkCanonicalBytes : Int) < canonicalArrayBytes c.records.length (Record.bytesOf c.records) ||
    maxSnapshotChunkRecords < c.records.length || maxSnapshotRecords < c.totalRecords ||
    maxSnapshotCanonicalBytes < c.totalCanonicalBytes

/-- The staging after a chunk of it. -/
def StoredSnapshot.after (base : StoredSnapshot) (c : ChunkFields) (order : SnapshotOrder) : StoredSnapshot :=
  { base with
    snapshotLeaseExpiresAtMs := c.snapshotLeaseExpiresAtMs
    nextChunkIndex := c.chunkIndex + 1
    nextCursor := c.nextCursor
    receivedRecords := base.receivedRecords + c.records.length
    receivedRecordCanonicalBytes := base.receivedRecordCanonicalBytes + Record.bytesOf c.records
    receivedRawUtf8Bytes := base.receivedRawUtf8Bytes + c.rawUtf8Bytes
    lastScopeId := order.scopeId
    lastRecordKind := order.recordKind
    lastSessionId := order.sessionId
    complete := c.isLast }

/-- A staging holds more than its snapshot says, or than a snapshot may. -/
def StoredSnapshot.overfull (s : StoredSnapshot) : Bool :=
  s.totalRecords < s.receivedRecords || maxSnapshotRecords < s.receivedRecords ||
    (s.totalCanonicalBytes : Int) < canonicalArrayBytes s.receivedRecords s.receivedRecordCanonicalBytes ||
    (maxSnapshotCanonicalBytes : Int) < canonicalArrayBytes s.receivedRecords s.receivedRecordCanonicalBytes ||
    maxStagedRawUtf8Bytes < s.receivedRawUtf8Bytes

/-- The rows of a chunk's records, from their first index. -/
def ChunkFields.rows (c : ChunkFields) (startIndex : Nat) : List StoredRecord :=
  c.records.mapIdx fun offset record => ⟨c.snapshotId, startIndex + offset, c.chunkIndex, record⟩

/-- The checks of a chunk, in their order: the staging with it, or why it is rejected. -/
def ChunkFields.staged (c : ChunkFields) (existing : Option StoredSnapshot) : Except ResyncReason StoredSnapshot := do
  if c.tooLarge then .error .snapshotLimitExceeded
  else
    let base ← c.continues existing
    match SnapshotOrder.through ⟨base.lastScopeId, base.lastRecordKind, base.lastSessionId⟩ c.records with
    | none => .error .snapshotOrderConflict
    | some order =>
      if c.isLast && order.recordKind = some .scope then .error .snapshotOrderConflict
      else if (base.after c order).overfull then .error .snapshotLimitExceeded
      else return base.after c order

/-- **`stageSnapshotChunkUnderApplyLease`**. -/
def stageSnapshotChunk (s : Store) (c : Chunk) : Except Fault (Store × Result) := do
  let n := c.namespace
  match s.authority n with
  | none => return (s, unknownEpoch n)
  | some a =>
    match a.pendingRelease with
    | some pending =>
      let r ← releasePending n a pending
      return (s, r)
    | none =>
      if a.phase ≠ .resyncing then
        let r ← resyncRequired { «namespace» := n, reason := .snapshotRestartRequired }
        return (s, r)
      else
        let existing := s.snapshot n
        match c.staged existing with
        | .error reason =>
          reject s a (existing.elim c.releaseDirective fun staged => staged.releaseDirective n) reason
        | .ok updated =>
          let startIndex := existing.elim 0 StoredSnapshot.receivedRecords
          return ((s.putSnapshotRecords n (c.rows startIndex)).putSnapshot n updated,
            .snapshotStaged n c.snapshotId updated.nextChunkIndex updated.nextCursor updated.complete)

/-! ## The staged cut -/

structure InspectedCut where
  recordCount : Nat
  totalCanonicalBytes : Nat
  digest : String

def Record.array (rs : List Record) : Json := .arr (rs.map Record.canonical)

def inspectStagedCut (C : Core) (t : Tables) (staged : StoredSnapshot) : Except Fault InspectedCut := do
  let rows := t.staged staged.snapshotId
  check (rows.map StoredRecord.recordIndex = List.range rows.length) .stagingIndex
  let cut := Record.array (rows.map StoredRecord.record)
  return ⟨rows.length, cut.bytes, C.sha256 cut.text⟩

/-! ## The buffered events after the cut -/

structure SnapshotScopeShadow where
  stored : StoredScope
  sessionCount : Int
  sessionBytes : Int

/-- What the events validated so far make of the cut.  A key that a map lacks is read from the staging. -/
structure Shadows where
  lastSeq : Nat
  scopesRevision : Nat
  recordCount : Int
  jsonBytes : Int
  scopes : String → Option (Option SnapshotScopeShadow) := fun _ => none
  sessions : String × String → Option (Option StoredSession) := fun _ => none

namespace Shadows

variable (t : Tables) (snapshotId : String) (v : Shadows)

def loadScope (scopeId : String) : Option SnapshotScopeShadow :=
  match v.scopes scopeId with
  | some known => known
  | none =>
    (t.stagedScope snapshotId scopeId).map fun stored =>
      let stats := t.stagedSessionStats snapshotId scopeId
      ⟨stored, stats.1, stats.2⟩

def loadSession (scopeId sessionId : String) : Option StoredSession :=
  match v.sessions (scopeId, sessionId) with
  | some known => known
  | none => t.stagedSession snapshotId scopeId sessionId

/-- The change of one event, or why the event is not valid. -/
def change (resultingRevision : Nat) : Change → Except Fault (Except ResyncReason Shadows)
  | .scopeUpsert item => do
    let expected ← increment v.scopesRevision
    if resultingRevision ≠ expected then return .error .eventRevisionConflict
    else
      match v.loadScope t snapshotId item.scopeId with
      | none =>
        let updated : StoredScope := ⟨item, 0⟩
        return .ok { v with
          recordCount := v.recordCount + 2
          jsonBytes := v.jsonBytes + updated.canonicalBytes
          scopes := Function.update v.scopes item.scopeId (some (some ⟨updated, 0, 0⟩))
          scopesRevision := resultingRevision }
      | some prior =>
        let updated : StoredScope := ⟨item, prior.stored.sessionsRevision⟩
        return .ok { v with
          jsonBytes := v.jsonBytes + (updated.canonicalBytes - prior.stored.canonicalBytes)
          scopes := Function.update v.scopes item.scopeId (some (some { prior with stored := updated }))
          scopesRevision := resultingRevision }
  | .scopeDelete scopeId => do
    let expected ← increment v.scopesRevision
    if resultingRevision ≠ expected then return .error .eventRevisionConflict
    else
      match v.loadScope t snapshotId scopeId with
      | none => return .error .eventRevisionConflict
      | some prior =>
        return .ok { v with
          recordCount := v.recordCount - (2 + prior.sessionCount)
          jsonBytes := v.jsonBytes - (prior.stored.canonicalBytes + prior.sessionBytes)
          scopes := Function.update v.scopes scopeId (some none)
          sessions := fun key => if key.1 = scopeId then none else v.sessions key
          scopesRevision := resultingRevision }
  | .sessionUpsert item => do
    match v.loadScope t snapshotId item.scopeId with
    | none => return .error .eventRevisionConflict
    | some owning =>
      let expected ← increment owning.stored.sessionsRevision
      if resultingRevision ≠ expected then return .error .eventRevisionConflict
      else
        let prior := v.loadSession t snapshotId item.scopeId item.sessionId
        let updated : StoredSession := ⟨item⟩
        let grown : Int := updated.canonicalBytes - prior.elim 0 fun p => (p.canonicalBytes : Int)
        let added : Int := if prior.isNone then 1 else 0
        let updatedScope : StoredScope := ⟨owning.stored.item, resultingRevision⟩
        return .ok { v with
          recordCount := v.recordCount + added
          jsonBytes := v.jsonBytes + grown + (updatedScope.canonicalBytes - owning.stored.canonicalBytes)
          scopes := Function.update v.scopes item.scopeId
            (some (some ⟨updatedScope, owning.sessionCount + added, owning.sessionBytes + grown⟩))
          sessions := Function.update v.sessions (item.scopeId, item.sessionId) (some (some updated)) }
  | .sessionDelete scopeId sessionId => do
    match v.loadScope t snapshotId scopeId with
    | none => return .error .eventRevisionConflict
    | some owning =>
      let expected ← increment owning.stored.sessionsRevision
      if resultingRevision ≠ expected then return .error .eventRevisionConflict
      else
        match v.loadSession t snapshotId scopeId sessionId with
        | none => return .error .eventRevisionConflict
        | some prior =>
          let updatedScope : StoredScope := ⟨owning.stored.item, resultingRevision⟩
          return .ok { v with
            recordCount := v.recordCount - 1
            jsonBytes := v.jsonBytes - prior.canonicalBytes + (updatedScope.canonicalBytes - owning.stored.canonicalBytes)
            scopes := Function.update v.scopes scopeId
              (some (some ⟨updatedScope, owning.sessionCount - 1, owning.sessionBytes - prior.canonicalBytes⟩))
            sessions := Function.update v.sessions (scopeId, sessionId) (some none) }

def overLimit : Bool :=
  v.recordCount < 0 || (maxSnapshotRecords : Int) < v.recordCount ||
    (maxSnapshotCanonicalBytes : Int) < canonicalArrayBytes v.recordCount v.jsonBytes

end Shadows

structure BufferedValidation where
  lastEventSeq : Nat
  failure : Option ResyncReason

def validateFrom (t : Tables) (snapshotId : String) : Shadows → List Event → Except Fault BufferedValidation
  | v, [] => .ok ⟨v.lastSeq, none⟩
  | v, e :: rest => do
    let next ← increment v.lastSeq
    if e.eventSeq ≠ next then return ⟨v.lastSeq, some .eventGap⟩
    else
      let changed ← v.change t snapshotId e.resultingRevision e.change
      match changed with
      | .error reason => return ⟨v.lastSeq, some reason⟩
      | .ok changed =>
        if changed.overLimit then return ⟨v.lastSeq, some .snapshotLimitExceeded⟩
        else validateFrom t snapshotId { changed with lastSeq := e.eventSeq } rest

def validateBufferedEvents (t : Tables) (staged : StoredSnapshot) (events : List Event) :
    Except Fault BufferedValidation :=
  validateFrom t staged.snapshotId
    { lastSeq := staged.throughEventSeq, scopesRevision := staged.scopesRevision, recordCount := staged.totalRecords
      jsonBytes := canonicalJsonBytesFromArray staged.totalCanonicalBytes staged.totalRecords } events

/-! ## The commit -/

/-- One record goes into the tables; a scope waits for its sessions_scope. -/
def commitRecord : Tables × Option ScopeItem → Record → Except Fault (Tables × Option ScopeItem)
  | (t, none), .scope item => .ok (t, some item)
  | (_, some _), .scope _ => .error .stagingScopes
  | (_, none), .sessionsScope _ _ => .error .stagingScopes
  | (t, some item), .sessionsScope scopeId revision =>
    if item.scopeId = scopeId then .ok (t.putScope ⟨item, revision⟩, none) else .error .stagingScopes
  | (t, waiting), .session item => .ok (t.putSession ⟨item⟩, waiting)

/-- The records of a cut replace the committed scopes and sessions. -/
def commitRecords (t : Tables) (records : List Record) : Except Fault Tables := do
  let (t, waiting) ← records.foldlM commitRecord ({ t with scopes := [], sessions := [] }, none)
  check waiting.isNone .stagingScopes
  return t

/-- The buffered events of a commit, one after the other. -/
def applyBuffered : Store × Authority → List Event → Except Fault (Store × Authority)
  | sa, [] => .ok sa
  | (s, a), e :: rest => do
    let applied ← applyLiveEvent s a e
    let sa ← present applied .bufferedDiverged
    applyBuffered sa rest

/-- Why a staged snapshot is not committed. -/
def commitFailure (C : Core) (t : Tables) (a : Authority) (staged : StoredSnapshot) (snapshotId : String)
    (buffered : List Event) : Except Fault (Option ResyncReason) := do
  if staged.snapshotId ≠ snapshotId then return some .snapshotIdentityConflict
  else if !staged.complete then return some .snapshotIncomplete
  else
    let actual ← inspectStagedCut C t staged
    if actual.recordCount ≠ staged.totalRecords || actual.totalCanonicalBytes ≠ staged.totalCanonicalBytes then
      return some .snapshotCountMismatch
    else if actual.digest ≠ staged.cutDigest then return some .snapshotDigestMismatch
    else
      let validation ← validateBufferedEvents t staged buffered
      if validation.failure.isSome || validation.lastEventSeq < a.requiredThroughEventSeq then
        return some (validation.failure.getD .eventGap)
      else return none

/-- The cut and the events after it become the cache. -/
def commitCut (s : Store) (a : Authority) (staged : StoredSnapshot) (buffered : List Event) :
    Except Fault (Store × Result) := do
  let n := a.namespace
  let rows ← commitRecords (s.tables n) (((s.tables n).staged staged.snapshotId).map StoredRecord.record)
  let committed :=
    { a with cursorEventSeq := some staged.throughEventSeq, scopesRevision := some staged.scopesRevision
             phase := .resyncing, cacheRecordCount := staged.totalRecords
             cacheCanonicalBytes := staged.totalCanonicalBytes }
  let (s, committed) ← applyBuffered (s.onTables n fun _ => rows, committed) buffered
  let (s, release) ← giveUp s committed (staged.releaseDirective n) .completed .queryPendingCommands
  let cursor ← present committed.cursorEventSeq .missingCursor
  return (s, .snapshotCommitted n cursor release .queryPendingCommands)

/-- **`commitSnapshotUnderApplyLease`**. -/
def commitSnapshot (C : Core) (s : Store) (n : Namespace) (snapshotId : String) : Except Fault (Store × Result) := do
  match s.authority n with
  | none => return (s, unknownEpoch n)
  | some a =>
    match a.pendingRelease with
    | some pending =>
      let r ← releasePending n a pending
      return (s, r)
    | none =>
      match s.snapshot n with
      | none =>
        let r ← resyncRequired
          { «namespace» := n, reason := .snapshotRestartRequired, durableCursorEventSeq := a.cursorEventSeq }
        return (s, r)
      | some staged =>
        let buffered := (s.bufferedEvents n).filter fun e => staged.throughEventSeq < e.eventSeq
        let failure ← commitFailure C (s.tables n) a staged snapshotId buffered
        match failure with
        | some reason => reject s a (staged.releaseDirective n) reason
        | none => commitCut s a staged buffered

/-! ## The end of a snapshot -/

def discardSnapshot (s : Store) (n : Namespace) : Except Fault (Store × Option Obligation) := do
  match s.authority n with
  | none => return (s, none)
  | some a =>
    match a.pendingRelease with
    | some pending => return (s, some pending)
    | none => giveUpStaged s a .snapshotRestartRequired

def PostReleasePhase.next : PostReleasePhase → Phase
  | .restartSnapshot => .resyncing
  | .queryPendingCommands => .live

/-- **`completeSnapshotReleaseUnderApplyLease`**. -/
def completeSnapshotRelease (s : Store) (expected : Obligation) : Except Fault (Store × Option Completion) := do
  match s.authority expected.namespace with
  | none => return (s, none)
  | some a =>
    let pending ← a.validatedPendingRelease
    if pending ≠ some expected then return (s, none)
    else
      let afterRelease ← present a.afterReleasePhase .missingAfterRelease
      let s ← s.putAuthority
        { a with pendingRelease := none, afterReleasePhase := none, phase := afterRelease.next }
      return (s, some ⟨expected, afterRelease⟩)

def expireSnapshotContinuation (s : Store) (n : Namespace) (snapshotRequestId snapshotId : String) :
    Except Fault (Store × Result) := do
  match s.authority n with
  | none => return (s, unknownEpoch n)
  | some a =>
    match a.pendingRelease with
    | some pending =>
      let r ← releasePending n a pending
      return (s, r)
    | none =>
      match s.snapshot n with
      | none =>
        let r ← resyncRequired
          { «namespace» := n, reason := .snapshotRestartRequired, durableCursorEventSeq := a.cursorEventSeq }
        return (s, r)
      | some staged =>
        if staged.snapshotRequestId ≠ snapshotRequestId || staged.snapshotId ≠ snapshotId then
          return (s, unknownEpoch n)
        else
          let s ← s.putAuthority { a with phase := .resyncing }
          return ((s.deleteSnapshot n).deleteBufferedEvents n,
            .snapshotExpired n snapshotRequestId snapshotId a.cursorEventSeq)

/-! ## Operations -/

inductive Op where
  | hello (plan : ConnectPlan) (hello : Hello)
  | beginManualResync (n : Namespace)
  | stageSnapshotChunk (c : Chunk)
  | applyStateEvent (e : Event)
  | commitSnapshot (n : Namespace) (snapshotId : String)
  | discardSnapshot (n : Namespace)
  | completeSnapshotRelease (expected : Obligation)
  | expireSnapshotContinuation (n : Namespace) (snapshotRequestId snapshotId : String)
  | clearProfile (profileId : String)

/-- One transaction. -/
def step (C : Core) (s : Store) : Op → Except Fault (Store × Answer)
  | .hello plan hello => (applyHello C s plan hello).map (Prod.map id .result)
  | .beginManualResync n => (Sync.beginManualResync s n).map (Prod.map id .result)
  | .stageSnapshotChunk c => (Sync.stageSnapshotChunk s c).map (Prod.map id .result)
  | .applyStateEvent e => (Sync.applyStateEvent s e).map (Prod.map id .result)
  | .commitSnapshot n snapshotId => (Sync.commitSnapshot C s n snapshotId).map (Prod.map id .result)
  | .discardSnapshot n => (Sync.discardSnapshot s n).map (Prod.map id .obligation)
  | .completeSnapshotRelease expected => (Sync.completeSnapshotRelease s expected).map (Prod.map id .completion)
  | .expireSnapshotContinuation n requestId snapshotId =>
    (Sync.expireSnapshotContinuation s n requestId snapshotId).map (Prod.map id .result)
  | .clearProfile profileId => .ok (s.deleteProfileState profileId, .done)

/-- The store after a transaction, which a fault leaves as it was. -/
def after (C : Core) (s : Store) (op : Op) : Store :=
  match step C s op with
  | .ok (s, _) => s
  | .error _ => s

/-- The store after a run of transactions. -/
def run (C : Core) (ops : List Op) : Store := ops.foldl (after C) Store.empty

end Sync
end TmuxWorktree
