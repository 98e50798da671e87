import TmuxWorktree.Lib.Json
import TmuxWorktree.Lib.Keyed
import Mathlib.Data.List.Sort
/-!
# State — the durable state of the mobile cache (`RelayV2StateModels.kt`, `RelayV2StateStore.kt`)

One authority row per host epoch, and beside it the tables of the epoch: the committed scopes and sessions, the snapshot
that is being staged with its records, and the buffered events.  A counter text is a canonical decimal, so it is its value
here.  The canonical texts that the source stores beside its rows are functions of the rows.
-/
namespace TmuxWorktree
namespace Sync

/-! ## Limits and counters -/

def maxSnapshotChunkCanonicalBytes : Nat := 524288
def maxSnapshotChunkRecords : Nat := 256
def maxSnapshotCanonicalBytes : Nat := 268435456
def maxSnapshotRecords : Nat := 100000
def maxPublicFrameBytes : Nat := 1048576
def maxCursorUtf8Bytes : Nat := 1024
def maxJsonInteger : Nat := 9007199254740991
def maxStagedRawUtf8Bytes : Nat := 536870912
def maxBufferedStateEvents : Nat := 4096
def maxBufferedStateEventBytes : Nat := 16777216
def unsignedCounterMax : Nat := 18446744073709551615

/-- The SHA-256 of a text, in URL-safe base64. -/
structure Core where
  sha256 : String → String

/-! ## Namespaces -/

structure Namespace where
  profileId : String
  principalId : String
  clientInstanceId : String
  hostId : String
  hostEpoch : String
  deriving DecidableEq, Repr

structure Identity where
  profileId : String
  principalId : String
  clientInstanceId : String
  hostId : String
  deriving DecidableEq, Repr

def Namespace.connectIdentity (n : Namespace) : Identity := ⟨n.profileId, n.principalId, n.clientInstanceId, n.hostId⟩

/-- `RelayV2AppliedCursor`. -/
structure Cursor where
  hostEpoch : String
  eventSeq : Nat
  deriving DecidableEq, Repr

/-! ## Resources and records -/

structure Project where
  name : String
  path : String
  branch : Option String
  deriving DecidableEq, Repr

inductive ScopeKind where
  | local | ssh
  deriving DecidableEq, Repr

inductive Reachability where
  | online | unreachable
  deriving DecidableEq, Repr

structure ScopeItem where
  scopeId : String
  displayName : String
  kind : ScopeKind
  reachability : Reachability
  projects : List Project
  deriving DecidableEq, Repr

inductive SessionKind where
  | worktree | terminal
  deriving DecidableEq, Repr

structure SessionItem where
  scopeId : String
  sessionId : String
  kind : SessionKind
  displayName : String
  project : Option String
  label : Option String
  cwd : Option String
  attached : Bool
  windowCount : Nat
  createdAtMs : Nat
  activityAtMs : Nat
  deriving DecidableEq, Repr

def Project.wireMap (p : Project) : Json :=
  .obj ((p.branch.map fun b => ("branch", Json.str b)).toList ++ [("name", .str p.name), ("path", .str p.path)])

def ScopeItem.wireMap (s : ScopeItem) : Json :=
  .obj [("displayName", .str s.displayName), ("kind", .name (match s.kind with | .local => "local" | .ssh => "ssh")),
    ("projects", .arr (s.projects.map Project.wireMap)),
    ("reachability", .name (match s.reachability with | .online => "online" | .unreachable => "unreachable")),
    ("scopeId", .str s.scopeId)]

def SessionItem.wireMap (s : SessionItem) : Json :=
  .obj [("activityAtMs", .int s.activityAtMs), ("attached", .bool s.attached), ("createdAtMs", .int s.createdAtMs),
    ("cwd", .opt .str s.cwd), ("displayName", .str s.displayName),
    ("kind", .name (match s.kind with | .worktree => "worktree" | .terminal => "terminal")), ("label", .opt .str s.label),
    ("project", .opt .str s.project), ("scopeId", .str s.scopeId), ("sessionId", .str s.sessionId),
    ("state", .name "running"), ("windowCount", .int s.windowCount)]

/-- `RelayV2SnapshotRecord`. -/
inductive Record where
  | scope (item : ScopeItem)
  | sessionsScope (scopeId : String) (revision : Nat)
  | session (item : SessionItem)
  deriving DecidableEq, Repr

def Record.canonical : Record → Json
  | .scope item => .obj [("item", item.wireMap), ("recordType", .name "scope")]
  | .sessionsScope scopeId revision =>
    .obj [("completeness", .name "complete"), ("recordType", .name "sessions_scope"), ("revision", .name (toString revision)),
      ("scopeId", .str scopeId)]
  | .session item => .obj [("item", item.wireMap), ("recordType", .name "session"), ("scopeId", .str item.scopeId)]

def Record.bytes (r : Record) : Nat := r.canonical.bytes

def Record.scopeId : Record → String
  | .scope item => item.scopeId
  | .sessionsScope scopeId _ => scopeId
  | .session item => item.scopeId

def canonicalArrayBytes (recordCount recordJsonBytes : Int) : Int := 2 + recordJsonBytes + max 0 (recordCount - 1)

def canonicalJsonBytesFromArray (totalCanonicalBytes recordCount : Int) : Int :=
  totalCanonicalBytes - 2 - max 0 (recordCount - 1)

/-! ## Rows -/

structure StoredScope where
  item : ScopeItem
  sessionsRevision : Nat
  deriving DecidableEq, Repr

def StoredScope.canonicalBytes (s : StoredScope) : Nat :=
  (Record.scope s.item).bytes + (Record.sessionsScope s.item.scopeId s.sessionsRevision).bytes

structure StoredSession where
  item : SessionItem
  deriving DecidableEq, Repr

def StoredSession.canonicalBytes (s : StoredSession) : Nat := (Record.session s.item).bytes

def StoredSession.key (s : StoredSession) : String × String := (s.item.scopeId, s.item.sessionId)

inductive RecordKind where
  | scope | sessionsScope | session
  deriving DecidableEq, Repr

structure StoredSnapshot where
  snapshotRequestId : String
  snapshotId : String
  snapshotCreatedAtMs : Nat
  snapshotLeaseExpiresAtMs : Nat
  snapshotAbsoluteExpiresAtMs : Nat
  throughEventSeq : Nat
  scopesRevision : Nat
  totalRecords : Nat
  totalCanonicalBytes : Nat
  cutDigest : String
  nextChunkIndex : Nat
  nextCursor : Option String
  receivedRecords : Nat
  receivedRecordCanonicalBytes : Nat
  receivedRawUtf8Bytes : Nat
  lastScopeId : Option String
  lastRecordKind : Option RecordKind
  lastSessionId : Option String
  complete : Bool
  deriving DecidableEq, Repr

structure StoredRecord where
  snapshotId : String
  recordIndex : Nat
  chunkIndex : Nat
  record : Record
  deriving DecidableEq, Repr

/-! ## Events -/

inductive Change where
  | scopeUpsert (item : ScopeItem)
  | scopeDelete (scopeId : String)
  | sessionUpsert (item : SessionItem)
  | sessionDelete (scopeId sessionId : String)
  deriving DecidableEq, Repr

def Change.canonical : Change → Json
  | .scopeUpsert item => .obj [("item", item.wireMap), ("type", .name "scope_upsert")]
  | .scopeDelete scopeId => .obj [("scopeId", .str scopeId), ("type", .name "scope_delete")]
  | .sessionUpsert item => .obj [("item", item.wireMap), ("type", .name "session_upsert")]
  | .sessionDelete scopeId sessionId =>
    .obj [("scopeId", .str scopeId), ("sessionId", .str sessionId), ("type", .name "session_delete")]

structure Event where
  «namespace» : Namespace
  eventSeq : Nat
  resultingRevision : Nat
  change : Change
  rawUtf8Bytes : Nat
  deriving DecidableEq, Repr

def Event.canonicalJson (e : Event) : String :=
  (Json.obj [("change", e.change.canonical), ("eventSeq", .name (toString e.eventSeq)),
    ("resultingRevision", .name (toString e.resultingRevision))]).text

/-! ## Release obligations -/

inductive ReleaseReason where
  | completed | snapshotRestartRequired | snapshotIdentityConflict | snapshotOrderConflict | snapshotLimitExceeded
  | snapshotIncomplete | snapshotCountMismatch | snapshotDigestMismatch | eventGap | eventRevisionConflict
  | eventBufferOverflow | fresh
  deriving DecidableEq, Repr

def ReleaseReason.wireName : ReleaseReason → String
  | .completed => "COMPLETED"
  | .snapshotRestartRequired => "SNAPSHOT_RESTART_REQUIRED"
  | .snapshotIdentityConflict => "SNAPSHOT_IDENTITY_CONFLICT"
  | .snapshotOrderConflict => "SNAPSHOT_ORDER_CONFLICT"
  | .snapshotLimitExceeded => "SNAPSHOT_LIMIT_EXCEEDED"
  | .snapshotIncomplete => "SNAPSHOT_INCOMPLETE"
  | .snapshotCountMismatch => "SNAPSHOT_COUNT_MISMATCH"
  | .snapshotDigestMismatch => "SNAPSHOT_DIGEST_MISMATCH"
  | .eventGap => "EVENT_GAP"
  | .eventRevisionConflict => "EVENT_REVISION_CONFLICT"
  | .eventBufferOverflow => "EVENT_BUFFER_OVERFLOW"
  | .fresh => "FRESH"

inductive PostReleasePhase where
  | restartSnapshot | queryPendingCommands
  deriving DecidableEq, Repr

structure Directive where
  «namespace» : Namespace
  snapshotRequestId : String
  snapshotId : String
  deriving DecidableEq, Repr

structure Obligation where
  «namespace» : Namespace
  snapshotRequestId : String
  snapshotId : String
  durableCursorEventSeq : Option Nat
  reason : ReleaseReason
  deriving DecidableEq, Repr

/-- The snapshot that an obligation names. -/
def Obligation.directive (o : Obligation) : Directive := ⟨o.namespace, o.snapshotRequestId, o.snapshotId⟩

/-- `opaqueToken`: the digest of the fields, joined by a character that none of them has. -/
def Core.opaqueToken (C : Core) (o : Obligation) : String :=
  C.sha256 ((String.singleton (Char.ofNat 0)).intercalate
    [o.namespace.profileId, o.namespace.principalId, o.namespace.clientInstanceId, o.namespace.hostId,
      o.namespace.hostEpoch, o.snapshotRequestId, o.snapshotId, (o.durableCursorEventSeq.map toString).getD "",
      o.reason.wireName])

def StoredSnapshot.releaseDirective (s : StoredSnapshot) (n : Namespace) : Directive := ⟨n, s.snapshotRequestId, s.snapshotId⟩

/-! ## Authorities -/

inductive Phase where
  | live | resyncing
  deriving DecidableEq, Repr

structure Authority where
  «namespace» : Namespace
  cursorEventSeq : Option Nat
  requiredThroughEventSeq : Nat
  scopesRevision : Option Nat
  phase : Phase
  cacheRecordCount : Int
  cacheCanonicalBytes : Int
  pendingRelease : Option Obligation := none
  afterReleasePhase : Option PostReleasePhase := none
  deriving DecidableEq, Repr

def newAuthority (n : Namespace) (required : Nat) : Authority :=
  { «namespace» := n, cursorEventSeq := none, requiredThroughEventSeq := required, scopesRevision := none
    phase := .resyncing, cacheRecordCount := 0, cacheCanonicalBytes := 2 }

/-- What an operation throws; its transaction is rolled back. -/
inductive Fault where
  -- the release journal
  | afterReleaseWithoutObligation | releaseWithoutPlan | releaseCrossedNamespace | releaseOutsideResyncing
  | releaseCursorDisagrees | queryWithoutCursor | queryBelowWatermark | queryReason
  | releaseAlreadyPending | releaseLost | missingAfterRelease | unknownReleaseReason
  -- connecting
  | ambiguousResume | resumeCrossedProfile | liveWithoutCursor | liveWithStaging | crossedConnectPlan | staleConnectPlan
  | staleContinuation | missingResume | missingCursor
  -- counters, results and staging
  | counterOverflow | invalidResult | stagingIndex | stagingScopes | bufferedDiverged
  deriving DecidableEq, Repr

/-- `check`, `require`, `checkNotNull`. -/
def check (condition : Bool) (fault : Fault) : Except Fault Unit := if condition then .ok () else .error fault

def present {α : Type} (value : Option α) (fault : Fault) : Except Fault α :=
  match value with
  | some a => .ok a
  | none => .error fault

def increment (counter : Nat) : Except Fault Nat :=
  if counter + 1 ≤ unsignedCounterMax then .ok (counter + 1) else .error .counterOverflow

def Authority.validatedPendingRelease (a : Authority) : Except Fault (Option Obligation) := do
  match a.pendingRelease with
  | none =>
    check a.afterReleasePhase.isNone .afterReleaseWithoutObligation
    return none
  | some pending =>
    let plan ← present a.afterReleasePhase .releaseWithoutPlan
    check (pending.namespace = a.namespace) .releaseCrossedNamespace
    check (a.phase = .resyncing) .releaseOutsideResyncing
    check (pending.durableCursorEventSeq = a.cursorEventSeq) .releaseCursorDisagrees
    if plan = .queryPendingCommands then
      let cursor ← present a.cursorEventSeq .queryWithoutCursor
      check (a.requiredThroughEventSeq ≤ cursor) .queryBelowWatermark
      check (pending.reason = .completed || pending.reason = .snapshotRestartRequired) .queryReason
    return some pending

def Authority.releaseObligation (a : Authority) (directive : Directive) (reason : ReleaseReason) : Except Fault Obligation := do
  check (a.namespace = directive.namespace) .releaseCrossedNamespace
  check a.pendingRelease.isNone .releaseAlreadyPending
  return ⟨a.namespace, directive.snapshotRequestId, directive.snapshotId, a.cursorEventSeq, reason⟩

/-! ## The store -/

/-- The rows of one namespace, less its authority. -/
structure Tables where
  scopes : List StoredScope := []
  sessions : List StoredSession := []
  snapshot : Option StoredSnapshot := none
  records : List StoredRecord := []
  events : List Event := []

/-- **The store**: the authorities, and the tables of each namespace. -/
structure Store where
  authorities : List Authority
  tables : Namespace → Tables

namespace Store

variable (s : Store) (n : Namespace)

def empty : Store := ⟨[], fun _ => {}⟩

def authority : Option Authority := Keyed.find Authority.namespace n s.authorities

def authoritiesOf (i : Identity) : List Authority := s.authorities.filter fun a => a.namespace.connectIdentity = i

def withAuthority (a : Authority) : Store := { s with authorities := Keyed.put Authority.namespace a s.authorities }

/-- `putAuthority`: a row is checked before it is written (`toEntity`), and what is read was written. -/
def putAuthority (a : Authority) : Except Fault Store := do
  let _ ← a.validatedPendingRelease
  return s.withAuthority a

/-- The tables of one namespace go through `f`. -/
def onTables (f : Tables → Tables) : Store := { s with tables := Function.update s.tables n (f (s.tables n)) }

def deleteNamespaceState : Store :=
  { authorities := Keyed.erase Authority.namespace n s.authorities, tables := Function.update s.tables n {} }

def deleteProfileState (profileId : String) : Store :=
  { authorities := s.authorities.filter fun a => a.namespace.profileId ≠ profileId
    tables := fun n => if n.profileId = profileId then {} else s.tables n }

def snapshot : Option StoredSnapshot := (s.tables n).snapshot

def deleteSnapshot : Store := s.onTables n fun t => { t with snapshot := none, records := [] }

def deleteBufferedEvents : Store := s.onTables n fun t => { t with events := [] }

def deleteSessions : Store := s.onTables n fun t => { t with sessions := [] }

def deleteScopes : Store := s.onTables n fun t => { t with scopes := [] }

def putSnapshot (staged : StoredSnapshot) : Store := s.onTables n fun t => { t with snapshot := some staged }

def putSnapshotRecords (rows : List StoredRecord) : Store := s.onTables n fun t => { t with records := t.records ++ rows }

/-- `bufferedEvents`, in the order of their numbers. -/
def bufferedEvents : List Event := (s.tables n).events.insertionSort fun a b => a.eventSeq ≤ b.eventSeq

def bufferedEvent (eventSeq : Nat) : Option Event := Keyed.find Event.eventSeq eventSeq (s.tables n).events

def bufferedEventCount : Nat := (s.tables n).events.length

def bufferedEventRawBytes : Nat := ((s.tables n).events.map Event.rawUtf8Bytes).sum

def putBufferedEvent (e : Event) : Store := s.onTables e.namespace fun t => { t with events := t.events ++ [e] }

end Store

namespace Tables

variable (t : Tables)

def scope (scopeId : String) : Option StoredScope := Keyed.find (fun s : StoredScope => s.item.scopeId) scopeId t.scopes

def putScope (s : StoredScope) : Tables := { t with scopes := Keyed.put (fun s : StoredScope => s.item.scopeId) s t.scopes }

def deleteScope (scopeId : String) : Tables :=
  { t with scopes := Keyed.erase (fun s : StoredScope => s.item.scopeId) scopeId t.scopes }

def session (scopeId sessionId : String) : Option StoredSession := Keyed.find StoredSession.key (scopeId, sessionId) t.sessions

def putSession (s : StoredSession) : Tables := { t with sessions := Keyed.put StoredSession.key s t.sessions }

def deleteSession (scopeId sessionId : String) : Tables :=
  { t with sessions := Keyed.erase StoredSession.key (scopeId, sessionId) t.sessions }

def deleteSessionsForScope (scopeId : String) : Tables :=
  { t with sessions := t.sessions.filter fun s => s.item.scopeId ≠ scopeId }

def sessionsOf (scopeId : String) : List StoredSession := t.sessions.filter fun s => s.item.scopeId = scopeId

/-- `sessionStats`: how many sessions a scope has, and their bytes. -/
def sessionStats (scopeId : String) : Nat × Nat :=
  ((t.sessionsOf scopeId).length, ((t.sessionsOf scopeId).map StoredSession.canonicalBytes).sum)

/-- `visitSnapshotRecords`: the records of a snapshot by their index. -/
def staged (snapshotId : String) : List StoredRecord :=
  (t.records.filter fun r => r.snapshotId = snapshotId).insertionSort fun a b => a.recordIndex ≤ b.recordIndex

/-- `stagedScope`: the scope record and its sessions_scope record. -/
def stagedScope (snapshotId scopeId : String) : Option StoredScope :=
  let rs := (t.records.filter fun r => r.snapshotId = snapshotId).map StoredRecord.record
  match rs.findSome? fun | .scope item => if item.scopeId = scopeId then some item else none | _ => none,
    rs.findSome? fun | .sessionsScope id revision => if id = scopeId then some revision else none | _ => none with
  | some item, some revision => some ⟨item, revision⟩
  | _, _ => none

def stagedSession (snapshotId scopeId sessionId : String) : Option StoredSession :=
  (t.records.filter fun r => r.snapshotId = snapshotId).findSome? fun r =>
    match r.record with
    | .session item => if item.scopeId = scopeId ∧ item.sessionId = sessionId then some ⟨item⟩ else none
    | _ => none

def stagedSessionStats (snapshotId scopeId : String) : Nat × Nat :=
  let rows := (t.records.filter fun r => r.snapshotId = snapshotId).filterMap fun r =>
    match r.record with
    | .session item => if item.scopeId = scopeId then some r.record else none
    | _ => none
  (rows.length, (rows.map Record.bytes).sum)

end Tables

end Sync
end TmuxWorktree
