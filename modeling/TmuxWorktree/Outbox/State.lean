import TmuxWorktree.Lib.Json
/-!
# State — the entries of the mobile outbox (`RelayV2OutboxAuthorityCore.kt`)

An entry is one command that the user asked for.  Every state that the reducer returns has been through `restore`, which
checks each entry by itself, the owners of the attempts and the graph of reissues, and sorts by creation.  SHA-256 is a
parameter; texts are Unicode, as the canonical encoder refuses a lone surrogate before anything is stored.
-/
namespace TmuxWorktree
namespace Outbox

/-! ## Limits -/

def maxEntries : Nat := 4096
def maxAttemptsPerEntry : Nat := 64
def maxQueryItemsPerBatch : Nat := 32
def maxTargetProvenanceSteps : Nat := 64
def maxTargetProvenanceCanonicalBytes : Nat := 65536
def maxArgumentsCanonicalBytes : Nat := 131072
def maxEntryCanonicalBytes : Nat := 262144
def maxStateCanonicalBytes : Nat := 16777216

/-- `RelayV2OutboxCapacity`. -/
structure Capacity where
  maxEntries : Nat := Outbox.maxEntries
  maxAttemptsPerEntry : Nat := Outbox.maxAttemptsPerEntry
  maxTargetProvenanceSteps : Nat := Outbox.maxTargetProvenanceSteps
  maxTargetProvenanceCanonicalBytes : Nat := Outbox.maxTargetProvenanceCanonicalBytes
  maxArgumentsCanonicalBytes : Nat := Outbox.maxArgumentsCanonicalBytes
  maxEntryCanonicalBytes : Nat := Outbox.maxEntryCanonicalBytes
  maxStateCanonicalBytes : Nat := Outbox.maxStateCanonicalBytes

/-- A core: its capacity, and the digest of a canonical text in hex digits. -/
structure Core where
  capacity : Capacity := {}
  sha256Hex : String → String

/-! ## Requests -/

inductive Operation where
  | createWorktree | createTerminal | sendAgentMessage | killSession
  deriving DecidableEq, Repr

def Operation.wireValue : Operation → String
  | .createWorktree => "create_worktree"
  | .createTerminal => "create_terminal"
  | .sendAgentMessage => "send_agent_message"
  | .killSession => "kill_session"

inductive Arguments where
  | createWorktree (project path name branch : Option String) (aiCommand : String)
  | createTerminal (cwd : String) (label : Option String)
  | sendAgentMessage (pane : Nat) (message : String) (submit : Bool)
  | killSession
  deriving DecidableEq, Repr

def Arguments.operation : Arguments → Operation
  | .createWorktree .. => .createWorktree
  | .createTerminal .. => .createTerminal
  | .sendAgentMessage .. => .sendAgentMessage
  | .killSession => .killSession

/-- A field that is left out when it is absent. -/
def present (key : String) (value : Option String) : List (String × Json) := (value.map fun v => (key, Json.str v)).toList

def Arguments.canonicalMap : Arguments → Json
  | .createWorktree project path name branch aiCommand =>
    .obj ([("aiCommand", .str aiCommand)] ++ present "branch" branch ++ present "name" name ++ present "path" path ++
      present "project" project)
  | .createTerminal cwd label => .obj ([("cwd", .str cwd)] ++ present "label" label)
  | .sendAgentMessage pane message submit =>
    .obj [("message", .str message), ("pane", .int pane), ("submit", .bool submit)]
  | .killSession => .obj []

/-- `requireTargetShape`. -/
def targetShape (operation : Operation) (sessionId : Option String) : Bool :=
  match operation with
  | .createWorktree | .createTerminal => sessionId.isNone
  | .sendAgentMessage | .killSession => sessionId.isSome

structure Fingerprint where
  sha256Hex : String
  canonicalRequestByteCount : Nat
  deriving DecidableEq, Repr

def fingerprintRequest (operation : Operation) (dedupeWindowId hostEpoch hostId scopeId : String)
    (sessionId : Option String) (arguments : Arguments) : Json :=
  .obj ([("arguments", arguments.canonicalMap), ("dedupeWindowId", .str dedupeWindowId), ("hostEpoch", .str hostEpoch),
    ("hostId", .str hostId), ("operation", .name operation.wireValue), ("schemaVersion", .int 1),
    ("scopeId", .str scopeId)] ++ present "sessionId" sessionId)

/-- `calculateRequestFingerprint`. -/
def Core.fingerprint (C : Core) (operation : Operation) (dedupeWindowId hostEpoch hostId scopeId : String)
    (sessionId : Option String) (arguments : Arguments) : Fingerprint :=
  let request := fingerprintRequest operation dedupeWindowId hostEpoch hostId scopeId sessionId arguments
  ⟨C.sha256Hex request.text, request.bytes⟩

def Fingerprint.canonicalMap (f : Fingerprint) : Json :=
  .obj [("canonicalRequestByteCount", .int f.canonicalRequestByteCount), ("schemaVersion", .int 1),
    ("sha256Hex", .name f.sha256Hex)]

/-! ## Entries -/

structure EntryId where
  profileId : String
  principalId : String
  hostId : String
  expectedHostEpoch : String
  commandId : String
  deriving DecidableEq, Repr

structure LaneKey where
  profileId : String
  principalId : String
  hostId : String
  expectedHostEpoch : String
  scopeId : String
  sessionId : Option String
  createOperation : Option Operation
  deriving DecidableEq, Repr

inductive StateTag where
  | queued | sending | accepted | confirming | succeeded | failedFinal | ambiguous | reissued
  deriving DecidableEq, Repr

def StateTag.persistedTag : StateTag → Nat
  | .queued => 0
  | .sending => 1
  | .accepted => 2
  | .confirming => 3
  | .succeeded => 4
  | .failedFinal => 5
  | .ambiguous => 6
  | .reissued => 7

inductive AcceptanceEvidence where
  | none | durable
  deriving DecidableEq, Repr

inductive AttemptKind where
  | execute | query
  deriving DecidableEq, Repr

structure Attempt where
  requestId : String
  kind : AttemptKind
  ordinal : Nat
  deriving DecidableEq, Repr

/-- `RelayV2ReissueTargetSnapshot`. -/
structure Target where
  expectedHostEpoch : String
  dedupeWindowId : String
  scopeId : String
  sessionId : Option String
  requestFingerprint : Fingerprint
  deriving DecidableEq, Repr

def Target.canonicalMap (t : Target) : Json :=
  .obj [("dedupeWindowId", .str t.dedupeWindowId), ("expectedHostEpoch", .str t.expectedHostEpoch),
    ("requestFingerprint", t.requestFingerprint.canonicalMap), ("scopeId", .str t.scopeId),
    ("sessionId", .opt .str t.sessionId)]

/-- `RelayV2QueuedTargetRevalidation`. -/
structure Revalidation where
  observedHostEpoch : String
  dedupeWindowId : String
  proposedTarget : Target
  sourceConfirmedTarget : Target
  confirmationOrdinal : Nat
  deriving DecidableEq, Repr

structure ConfirmedStep where
  sourceTarget : Target
  confirmedTarget : Target
  confirmationOrdinal : Nat
  deriving DecidableEq, Repr

structure Provenance where
  initialTarget : Target
  confirmedHistory : List ConfirmedStep
  deriving DecidableEq, Repr

def Provenance.canonicalValue (p : Provenance) : Json :=
  .obj [("confirmedHistory", .arr (p.confirmedHistory.map fun step =>
      .obj [("confirmationOrdinal", .int step.confirmationOrdinal), ("confirmedTarget", step.confirmedTarget.canonicalMap),
        ("sourceTarget", step.sourceTarget.canonicalMap)])),
    ("initialTarget", p.initialTarget.canonicalMap)]

/-- `RelayV2ReissueLineageProof`. -/
structure LineageProof where
  parentProfileId : String
  parentPrincipalId : String
  parentHostId : String
  parentCommandId : String
  parentExpectedHostEpoch : String
  parentDedupeWindowId : String
  parentScopeId : String
  parentSessionId : Option String
  parentRequestFingerprint : Fingerprint
  replacementProfileId : String
  replacementPrincipalId : String
  replacementHostId : String
  replacementCommandId : String
  replacementInitialTarget : Target
  deriving DecidableEq, Repr

def LineageProof.canonicalMap (p : LineageProof) : Json :=
  .obj [("parentCommandId", .str p.parentCommandId), ("parentDedupeWindowId", .str p.parentDedupeWindowId),
    ("parentExpectedHostEpoch", .str p.parentExpectedHostEpoch), ("parentHostId", .str p.parentHostId),
    ("parentPrincipalId", .str p.parentPrincipalId), ("parentProfileId", .str p.parentProfileId),
    ("parentRequestFingerprint", p.parentRequestFingerprint.canonicalMap), ("parentScopeId", .str p.parentScopeId),
    ("parentSessionId", .opt .str p.parentSessionId), ("replacementCommandId", .str p.replacementCommandId),
    ("replacementHostId", .str p.replacementHostId),
    ("replacementInitialTarget", p.replacementInitialTarget.canonicalMap),
    ("replacementPrincipalId", .str p.replacementPrincipalId), ("replacementProfileId", .str p.replacementProfileId)]

structure Entry where
  profileId : String
  principalId : String
  hostId : String
  expectedHostEpoch : String
  dedupeWindowId : String
  commandId : String
  operation : Operation
  scopeId : String
  sessionId : Option String
  arguments : Arguments
  requestFingerprint : Fingerprint
  state : StateTag
  acceptanceEvidence : AcceptanceEvidence
  attempts : List Attempt
  createdOrder : Nat
  createdAtMillis : Nat
  replacementCommandId : Option String := none
  reissuedFromCommandId : Option String := none
  targetRevalidation : Option Revalidation := none
  reissueLineageProof : Option LineageProof := none
  targetProvenance : Provenance
  deriving DecidableEq, Repr

namespace Entry

def id (e : Entry) : EntryId := ⟨e.profileId, e.principalId, e.hostId, e.expectedHostEpoch, e.commandId⟩

def laneKey (e : Entry) : LaneKey :=
  ⟨e.profileId, e.principalId, e.hostId, e.expectedHostEpoch, e.scopeId, e.sessionId,
    if e.sessionId.isNone then some e.operation else none⟩

/-- `reissueTargetSnapshot`. -/
def target (e : Entry) : Target := ⟨e.expectedHostEpoch, e.dedupeWindowId, e.scopeId, e.sessionId, e.requestFingerprint⟩

def canonicalJson (e : Entry) : Json :=
  .obj [("acceptanceEvidence", .int (if e.acceptanceEvidence = .none then 0 else 1)),
    ("arguments", e.arguments.canonicalMap),
    ("attempts", .arr (e.attempts.map fun a =>
      .obj [("kind", .int (if a.kind = .execute then 0 else 1)), ("ordinal", .int a.ordinal),
        ("requestId", .str a.requestId)])),
    ("commandId", .str e.commandId), ("createdAtMillis", .int e.createdAtMillis),
    ("createdOrder", .int e.createdOrder), ("dedupeWindowId", .str e.dedupeWindowId),
    ("expectedHostEpoch", .str e.expectedHostEpoch), ("hostId", .str e.hostId),
    ("operation", .name e.operation.wireValue), ("principalId", .str e.principalId), ("profileId", .str e.profileId),
    ("reissueLineageProof", .opt LineageProof.canonicalMap e.reissueLineageProof),
    ("reissuedFromCommandId", .opt .str e.reissuedFromCommandId),
    ("replacementCommandId", .opt .str e.replacementCommandId),
    ("requestFingerprint", .name e.requestFingerprint.sha256Hex), ("requestFingerprintSchemaVersion", .int 1),
    ("scopeId", .str e.scopeId), ("sessionId", .opt .str e.sessionId), ("state", .int e.state.persistedTag),
    ("targetProvenance", e.targetProvenance.canonicalValue),
    ("targetRevalidation", .opt (fun r => .obj [("confirmationOrdinal", .int r.confirmationOrdinal),
      ("dedupeWindowId", .str r.dedupeWindowId), ("observedHostEpoch", .str r.observedHostEpoch),
      ("proposedTarget", r.proposedTarget.canonicalMap),
      ("sourceConfirmedTarget", r.sourceConfirmedTarget.canonicalMap)]) e.targetRevalidation)]

def canonicalByteCount (e : Entry) : Nat := e.canonicalJson.bytes

/-- `queryAuthority`, and the key of `hasReplacementFor` without its command. -/
def queryAuthority (e : Entry) : String × String × String × String :=
  (e.profileId, e.principalId, e.hostId, e.expectedHostEpoch)

/-- `reissueLineageKey`, of a command of the same profile, principal and host. -/
def lineageKey (e : Entry) (commandId : String) : String × String × String × String :=
  (e.profileId, e.principalId, e.hostId, commandId)

end Entry

end Outbox
end TmuxWorktree
