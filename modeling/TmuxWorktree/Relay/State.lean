import TmuxWorktree.Lib.Keyed
/-!
# State — the broker's state, its environment and its trace (`brokerCore.ts`)

`RelayV2BrokerCore` is synchronous: every public method runs to its end, so a method is a function on the broker's state.
What it reads from outside (the clock, and whether an injected callback throws) comes from `Broker.replies`, one reply
for each reading.  The injected callbacks do not re-enter the broker: `outputReadyPort` must not by its contract, and the
close owner of `onLiveAuthorizationClose` defers to a microtask.

Objects are told apart as the source tells them apart.  A carrier object has a serial number and is in the map
`carriers` while `attached`; route objects, and the client made with each, are named by the route's `randomUUID`.  Fresh
names come from a counter.  Identities that are only compared are numbers, and a byte string is its length with a number
for what it says.

`trace` is not in the source: it lists what crossed the broker's border, newest first.
-/
namespace TmuxWorktree
namespace Relay

/-! ## Limits -/

/-- `RELAY_V2_BROKER_LIMITS` and the constants beside it. -/
def maxFrameBytes : Nat := 1048576
def routeBufferedBytesPerDirection : Nat := 1048576
def routeLowWaterBytesPerDirection : Nat := 524288
def routeLowWaterFramesPerDirection : Nat := 64
def carrierBufferedBytes : Nat := 16777216
def carrierLowWaterBytes : Nat := 8388608
def maxQueuedRouteFrames : Nat := 128
def maxInFlightRequestsPerRoute : Nat := 64
def maxRoutesPerCarrier : Nat := 256
def carrierControlReserveBytes : Nat := 65536
def backpressureCloseMs : Nat := 5000
def maxCommittedInvalidations : Nat := 8192
def authExpiringWarningLeadMs : Nat := 60000
def maxUint64 : Nat := 18446744073709551615
def maxSafeInteger : Nat := 9007199254740991

/-! ## Authorizations -/

inductive Role where
  | client | host
  deriving DecidableEq, Repr

/-- `RelayV2BrokerConnectionAuthorization`. -/
structure Authorization where
  role : Role
  hostId : Nat
  principalId : Nat
  grantId : Nat
  clientInstanceId : Option Nat
  jti : Nat
  kid : Nat
  expiresAtMs : Nat
  authorizationRevision : Nat
  authorizationFence : Nat
  deriving DecidableEq, Repr

/-- What `cloneClosedConnectionAuthorization` checks beyond the types. -/
def Authorization.closed (a : Authorization) : Bool :=
  a.expiresAtMs ≤ maxSafeInteger && a.authorizationRevision ≤ maxUint64 &&
    (match a.role with
      | .client => a.clientInstanceId.isSome
      | .host => a.clientInstanceId.isNone)

/-- `RelayV2LiveAuthorizationCommitReceipt`. -/
structure Receipt where
  authorizationRevision : Nat
  authorizationFence : Nat
  deriving DecidableEq, Repr

def Authorization.receipt (a : Authorization) : Receipt := ⟨a.authorizationRevision, a.authorizationFence⟩

def Authorization.atReceipt (a : Authorization) : Option Receipt → Authorization
  | none => a
  | some r => { a with authorizationRevision := r.authorizationRevision, authorizationFence := r.authorizationFence }

/-- `RelayV2LiveAuthorizationInvalidation`. -/
inductive Invalidation where
  | accessExpired (role : Role) (hostId jti : Nat)
  | grantRevoked (role : Role) (hostId grantId : Nat)
  | kidRemoved (role : Option Role) (hostId : Option Nat) (kid : Nat)
  deriving DecidableEq, Repr

/-- `authMatchesLiveAuthorizationInvalidation`. -/
def Invalidation.hits (i : Invalidation) (a : Authorization) : Bool :=
  match i with
  | .kidRemoved role hostId kid =>
    a.kid = kid && (role.isNone || role = some a.role) && (hostId.isNone || hostId = some a.hostId)
  | .grantRevoked role hostId grantId => a.role = role && a.hostId = hostId && a.grantId = grantId
  | .accessExpired role hostId jti => a.role = role && a.hostId = hostId && a.jti = jti

/-- `RelayV2LiveAuthorizationCloseReason`. -/
inductive CloseReason where
  | accessExpired | grantRevoked | kidRemoved | credentialAuthorityUnavailable | hostAuthorizationFenced
  deriving DecidableEq, Repr

def Invalidation.reason : Invalidation → CloseReason
  | .accessExpired .. => .accessExpired
  | .grantRevoked .. => .grantRevoked
  | .kidRemoved .. => .kidRemoved

/-- A pending invalidation; `settled` ones are off the list. -/
structure PendingInvalidation where
  id : Nat
  invalidation : Invalidation
  deriving DecidableEq, Repr

structure CommittedInvalidation where
  invalidation : Invalidation
  receipt : Receipt
  deriving DecidableEq, Repr

inductive AuthorizationState where
  | active | fenced
  deriving DecidableEq, Repr

inductive CleanupState where
  | idle | applying | complete
  deriving DecidableEq, Repr

/-- `authExpiringWarning`. -/
structure Warning where
  jti : Nat
  expiresAtMs : Nat
  emitted : Bool
  deriving DecidableEq, Repr

/-! ## Frames -/

structure Bytes where
  content : Nat
  byteLength : Nat
  deriving DecidableEq, Repr

/-- The four registered optional extensions, `RELAY_V2_BROKER_AGENT_EXTENSIONS`. -/
inductive Extension where
  | transcriptLifecycle | chat | chatRuntimeSettings | larkBindings
  deriving DecidableEq, Repr

def Extension.all : List Extension := [.transcriptLifecycle, .chat, .chatRuntimeSettings, .larkBindings]

inductive Capability where
  | required (index : Fin 6)
  | optional (extension : Extension)
  | unknown (name : Nat)
  deriving DecidableEq, Repr

def requiredCapabilities : List Capability := (List.finRange 6).map .required

inductive PublicKind where
  | request | response | event
  deriving DecidableEq, Repr

/-- The `type` of a public frame. -/
inductive PublicType where
  | hostsSnapshotGet | clientHello | commandExecute | commandQuery | scopesSnapshotGet | sessionsSnapshotGet
  | stateSnapshotGet | stateSnapshotRelease | terminalOpen | terminalOutputAck | terminalReplayRequest | terminalInput
  | terminalResize | terminalClose
  | hostWelcome | error | commandStatus | commandResult | commandStatuses | scopesSnapshot | sessionsSnapshot
  | stateSnapshotChunk | stateSnapshotReleased | scopesChanged | sessionsChanged | terminalOpened | terminalOutput
  | terminalReplayStarted | terminalResetRequired | terminalInputAck | terminalInputError | terminalResizeAck
  | terminalResizeError | terminalClosed
  | timelineStatusGet | timelineSnapshotGet | timelineReplayGet | timelineStatus | timelineSnapshotPage
  | timelineReplayPage | timelineEvent | timelineReset
  | chatSend | chatHistory | chatImageGet | chatSent | chatEvent | chatHistoryResult | chatImageChunk
  | larkBindingsGet | larkReplyModeUpdate | larkUnlink | larkBindingsResult | larkUpdated | larkUnlinked
  | other (name : Nat)
  deriving DecidableEq, Repr

def clientToHostPublicTypes : List PublicType :=
  [.hostsSnapshotGet, .clientHello, .commandExecute, .commandQuery, .scopesSnapshotGet, .sessionsSnapshotGet,
    .stateSnapshotGet, .stateSnapshotRelease, .terminalOpen, .terminalOutputAck, .terminalReplayRequest,
    .terminalInput, .terminalResize, .terminalClose]

def hostToClientPublicTypes : List PublicType :=
  [.hostWelcome, .error, .commandStatus, .commandResult, .commandStatuses, .scopesSnapshot, .sessionsSnapshot,
    .stateSnapshotChunk, .stateSnapshotReleased, .scopesChanged, .sessionsChanged, .terminalOpened, .terminalOutput,
    .terminalReplayStarted, .terminalResetRequired, .terminalInputAck, .terminalInputError, .terminalResizeAck,
    .terminalResizeError, .terminalClosed]

def Extension.clientToHostTypes : Extension → List PublicType
  | .transcriptLifecycle => [.timelineStatusGet, .timelineSnapshotGet, .timelineReplayGet]
  | .chat => [.chatSend, .chatHistory, .chatImageGet]
  | .chatRuntimeSettings => []
  | .larkBindings => [.larkBindingsGet, .larkReplyModeUpdate, .larkUnlink]

def Extension.hostToClientTypes : Extension → List PublicType
  | .transcriptLifecycle =>
    [.timelineStatus, .timelineSnapshotPage, .timelineReplayPage, .timelineEvent, .timelineReset, .error]
  | .chat => [.chatSent, .chatEvent, .chatHistoryResult, .chatImageChunk, .error]
  | .chatRuntimeSettings => []
  | .larkBindings => [.larkBindingsResult, .larkUpdated, .larkUnlinked, .error]

/-- `BrokerDecodedPublicFrame`: `lane` is the extension whose codec took the frame, `none` for the base lane.  Identity
fields are `none` where the frame does not have them; `capabilities` is of `client.hello` and `host.welcome`, and
`settings` says that the payload has that member. -/
structure PublicFrame where
  lane : Option Extension
  kind : PublicKind
  type : PublicType
  requestId : Option Nat := none
  hostId : Option Nat := none
  expectedHostEpoch : Option Nat := none
  hostEpoch : Option Nat := none
  hostInstanceId : Option Nat := none
  clientInstanceId : Option Nat := none
  capabilities : List Capability := []
  settings : Bool := false
  deriving DecidableEq, Repr

/-- Public frames that the broker makes, and `host.welcome` with capabilities taken out. -/
inductive BrokerMade where
  | relayWelcome (connectionId principalId : Nat) (capabilities : List Capability)
  | hostsSnapshot (hostId requestId revision : Nat)
  | unavailable (extension : Extension) (requestId : Option Nat) (hostId hostEpoch : Nat)
  | authExpiring (grantId expiresAtMs : Nat)
  | stripped (welcome : Bytes) (capabilities : List Extension)
  deriving DecidableEq, Repr

/-- `reason` of a `route.unbind`. -/
inductive UnbindReason where
  | clientClosed | clientReplaced | authExpired | authRevoked | slowConsumer | protocolError | brokerShutdown
  deriving DecidableEq, Repr

/-- The carrier frames that the broker queues for a host. -/
inductive ToHost where
  | routeOpen (routeId routeFence requestId maxFrameBytes : Nat)
  | routeData (routeId routeFence seq : Nat) (data : Bytes)
  | routeUnbind (routeId routeFence : Nat) (reason : UnbindReason) (lastClientToHostSeq : Nat)
  | authControl (requestId : Nat) (ok : Bool)
  | hostAuthExpiring (grantId expiresAtMs : Nat)
  deriving DecidableEq, Repr

/-- What is decided outside the broker's text: the codecs.  `decodePublic` is `decodeBrokerPublicFrame`, `wireBytes` the
length of `encodeCarrier`, `encode` the public encoding of a frame the broker makes. -/
structure Codec where
  decodePublic : Bytes → Option PublicFrame
  wireBytes : ToHost → Nat
  encode : BrokerMade → Bytes

/-- What a broker is constructed with. -/
structure Config where
  codec : Codec
  outputReadyPort : Bool
  onLiveAuthorizationClose : Bool
  authControlAuthority : Bool
  baseCapabilityReadiness : Bool

/-! ## Carriers, routes and clients -/

/-- `HostHello`; `uuids` says that the epoch and the instance id are UUIDs. -/
structure HostHello where
  requestId : Nat
  hostId : Nat
  hostEpoch : Nat
  hostInstanceId : Nat
  uuids : Bool
  speaksV2 : Bool
  capabilities : List Capability
  maxFrameBytes : Nat
  terminalMaxFrameBytes : Nat
  deriving DecidableEq, Repr

structure QueuedCarrierFrame where
  frame : ToHost
  wireBytes : Nat
  route : Option Nat
  rawBytes : Nat
  routeSeq : Option Nat
  deriving DecidableEq, Repr

structure InFlightCarrierFrame extends QueuedCarrierFrame where
  deliveryId : Nat
  deriving DecidableEq, Repr

structure DataQueue where
  routeId : Nat
  entries : List QueuedCarrierFrame
  deriving DecidableEq, Repr

inductive CarrierStatus where
  | pending | registering | active | superseded | closed
  deriving DecidableEq, Repr

structure Registration where
  deliveryId : Nat
  baseDirectoryRevision : Nat
  previousTransportId : Option Nat
  deriving DecidableEq, Repr

/-- **`CarrierState`**. -/
structure Carrier where
  serial : Nat
  attached : Bool
  transportId : Nat
  connectionIncarnation : Nat
  outputReadyEpoch : Nat := 0
  authContext : Authorization
  authorizationState : AuthorizationState := .active
  authorizationCloseSignalled : Bool := false
  authorizationCleanupState : CleanupState := .idle
  status : CarrierStatus := .pending
  connectorId : Option Nat := none
  hello : Option HostHello := none
  registration : Option Registration := none
  authExpiringWarning : Option Warning := none
  controlQueue : List QueuedCarrierFrame := []
  dataQueues : List DataQueue := []
  routeIds : List Nat := []
  dataOrder : List Nat := []
  dataCursor : Nat := 0
  queuedBytes : Int := 0
  inFlightBytes : Int := 0
  hostToClientBufferedBytes : Int := 0
  inFlight : List InFlightCarrierFrame := []
  deriving DecidableEq, Repr

inductive RouteStatus where
  | opening | opened | closing
  deriving DecidableEq, Repr

inductive FirstFrame where
  | pending | welcome | unavailable
  deriving DecidableEq, Repr

inductive Disposition where
  | unselected | selected | withdrawn
  deriving DecidableEq, Repr

/-- **`RouteState`**, while the route is in `routes`; the status `"closed"` is that of a route which is not. -/
structure Route where
  routeId : Nat
  connectionId : Nat
  connectionIncarnation : Nat
  routeFence : Nat
  openRequestId : Nat
  connectorId : Nat
  carrierTransportId : Nat
  carrierConnectionIncarnation : Nat
  authContext : Authorization
  status : RouteStatus := .opening
  firstApplicationFrame : FirstFrame := .pending
  maxFrameBytes : Nat
  nextClientToHostSeq : Nat := 1
  lastClientToHostDispatchedSeq : Nat := 0
  expectedHostToClientSeq : Nat := 1
  clientToHostBufferedBytes : Int := 0
  clientToHostFrames : Int := 0
  hostToClientBufferedBytes : Int := 0
  hostToClientFrames : Int := 0
  inFlightRequestIds : List Nat := []
  clientToHostPressureSinceMs : Option Nat := none
  hostToClientPressureSinceMs : Option Nat := none
  clientReadPaused : Bool := false
  hostReadPaused : Bool := false
  agentExtensionDispositions : Extension → Option Disposition := fun _ => none
  clientOfferedAgentExtensions : List Extension := []

structure QueuedClientFrame where
  bytes : Bytes
  route : Nat
  carrierAccounted : Bool
  deriving DecidableEq, Repr

structure InFlightClientFrame extends QueuedClientFrame where
  deliveryId : Nat
  deriving DecidableEq, Repr

/-- **`ClientState`**. -/
structure Client where
  connectionId : Nat
  connectionIncarnation : Nat
  outputReadyEpoch : Nat := 0
  authContext : Authorization
  authorizationState : AuthorizationState := .active
  authorizationCloseSignalled : Bool := false
  authorizationCleanupState : CleanupState := .idle
  authExpiringWarning : Option Warning := none
  routeId : Nat
  queue : List QueuedClientFrame := []
  inFlight : List InFlightClientFrame := []
  deriving DecidableEq, Repr

inductive PresenceReason where
  | connected | reconnected | superseded | disconnected
  deriving DecidableEq, Repr

/-- `DirectoryRecord`; `online` is the state. -/
structure DirectoryRecord where
  hostId : Nat
  online : Bool
  revision : Nat
  hostEpoch : Option Nat
  hostInstanceId : Option Nat
  connectorId : Option Nat
  speaksV2 : Bool
  capabilities : List Capability
  observedAtMs : Nat
  presenceReason : PresenceReason
  previousHostInstanceId : Option Nat
  deriving DecidableEq, Repr

/-! ## Results -/

/-- `RelayV2StructuredError["code"]`. -/
inductive ErrorCode where
  | busy | authInvalid | capabilityUnavailable | duplicateConnector | grantNotFound | hostDialectUnavailable
  | hostOffline | hostSuperseded | idempotencyConflict | internal | invalidEnvelope | permissionDenied | roleMismatch
  | slowConsumer
  deriving DecidableEq, Repr

/-- `RelayV2StructuredError`, without the retry hints that follow from code and place. -/
structure StructuredError where
  code : ErrorCode
  message : String
  deriving DecidableEq, Repr

/-- The carrier frames that go out as an action and not through a queue. -/
inductive Direct where
  | registered (requestId connectorId hostsRevision : Nat) (superseded : Option Nat)
  | superseded (losingConnectorId winningConnectorId : Nat)
  | helloError (requestId : Nat) (error : StructuredError)
  deriving DecidableEq, Repr

/-- `RelayV2BrokerAction`, the wakes of the output-ready port apart. -/
inductive Action where
  | sendHost (transportId connectionIncarnation : Nat) (frame : Direct) (deliveryId : Option Nat)
  | closeHost (transportId : Nat) (connectionIncarnation : Option Nat) (closeCode : Nat) (reason : String)
  | routeOpened (connectionId connectionIncarnation routeId routeFence : Nat) (capabilities : List Capability)
  | routeUnavailable (connectionId connectionIncarnation hostId closeCode : Nat) (error : StructuredError)
  | closeClient (connectionId connectionIncarnation closeCode : Nat) (reason : String)
  | pauseClient (connectionId connectionIncarnation : Nat)
  | resumeClient (connectionId connectionIncarnation : Nat)
  | pauseHostRoute (transportId connectionIncarnation routeId : Nat)
  | resumeHostRoute (transportId connectionIncarnation routeId : Nat)
  deriving DecidableEq, Repr

/-- `RelayV2BrokerResult`. -/
structure Result where
  accepted : Bool
  actions : List Action := []
  error : Option StructuredError := none
  deriving DecidableEq, Repr

def failure (code : ErrorCode) (message : String) (actions : List Action := []) : Result :=
  ⟨false, actions, some ⟨code, message⟩⟩

/-! ## The trace -/

/-- The two directions of a route. -/
inductive Direction where
  | clientToHost | hostToClient
  deriving DecidableEq, Repr

/-- **What crossed the broker's border.** -/
inductive Event where
  /-- A route was made for a connection. -/
  | created (route connectionId routeFence : Nat)
  /-- `route.open`, `route.data` or `route.unbind` moved to in-flight by `drainHostCarrier` of a carrier. -/
  | dispatched (carrier : Nat) (frame : ToHost)
  /-- A client frame admitted to a route, with the number it was given. -/
  | forwarded (route seq : Nat) (bytes : Bytes)
  /-- A host frame admitted on a route; `outbound` is what was queued for the client. -/
  | admitted (route seq : Nat) (bytes : Bytes) (outbound : Option Bytes)
  /-- A frame that the broker itself queued for a client. -/
  | made (route : Nat) (frame : BrokerMade)
  /-- A frame handed out by `drainClient`. -/
  | handed (connectionId route : Nat) (bytes : Bytes)
  | paused (route : Nat) (direction : Direction)
  | resumed (route : Nat) (direction : Direction)
  /-- `protocolViolation` of a carrier. -/
  | violated (carrier : Nat)
  deriving DecidableEq, Repr

/-! ## The broker -/

/-- One answer from outside: the time, or whether the callback that asked threw. -/
structure Reply where
  time : Nat := 0
  throws : Bool := false
  deriving DecidableEq, Repr

/-- An auth-control request handed to its authority and not yet decided. -/
structure AuthRequest where
  id : Nat
  serial : Nat
  connectorId : Nat
  requestId : Nat
  reauthenticate : Bool
  jti : Nat
  deriving DecidableEq, Repr

inductive GlobalFence where
  | idle | applying | applied
  deriving DecidableEq, Repr

/-- **The broker's state.**  `active` and `registering` are the maps from a host id to a carrier object. -/
structure Broker where
  carriers : List Carrier := []
  active : List (Nat × Nat) := []
  registering : List (Nat × Nat) := []
  directory : List DirectoryRecord := []
  routes : List Route := []
  clients : List Client := []
  pendingInvalidations : List PendingInvalidation := []
  committedInvalidations : List CommittedInvalidation := []
  liveAuthLatched : Bool := false
  outputReadyLatched : Bool := false
  globalFence : GlobalFence := .idle
  authorizationHighWater : Option Receipt := none
  optionalReady : List Extension := []
  authRequests : List AuthRequest := []
  fresh : Nat := 0
  tick : Nat := 0
  replies : Nat → Reply
  trace : List Event := []

namespace Broker

/-- The carrier object `serial`. -/
def carrierOf (b : Broker) (serial : Nat) : Option Carrier := Keyed.find Carrier.serial serial b.carriers

/-- `carriers.get(transportId)`. -/
def carrierAt (b : Broker) (transportId : Nat) : Option Carrier :=
  b.carriers.find? fun c => c.attached && c.transportId == transportId

/-- `activeCarriers.get(hostId)`. -/
def activeAt (b : Broker) (hostId : Nat) : Option Carrier := (b.active.lookup hostId).bind b.carrierOf

/-- `registeringCarriers.get(hostId)`. -/
def registeringAt (b : Broker) (hostId : Nat) : Option Carrier := (b.registering.lookup hostId).bind b.carrierOf

def routeOf (b : Broker) (routeId : Nat) : Option Route := Keyed.find Route.routeId routeId b.routes

def clientAt (b : Broker) (connectionId : Nat) : Option Client := Keyed.find Client.connectionId connectionId b.clients

def recordOf (b : Broker) (hostId : Nat) : Option DirectoryRecord :=
  Keyed.find DirectoryRecord.hostId hostId b.directory

def setCarrier (b : Broker) (serial : Nat) (f : Carrier → Carrier) : Broker :=
  { b with carriers := Keyed.update Carrier.serial serial f b.carriers }

def setRoute (b : Broker) (routeId : Nat) (f : Route → Route) : Broker :=
  { b with routes := Keyed.update Route.routeId routeId f b.routes }

def setClient (b : Broker) (connectionId : Nat) (f : Client → Client) : Broker :=
  { b with clients := Keyed.update Client.connectionId connectionId f b.clients }

def emit (b : Broker) (e : Event) : Broker := { b with trace := e :: b.trace }

/-- What the next reading from outside gives. -/
def reply (b : Broker) : Reply := b.replies b.tick

/-- The state after a reading from outside. -/
def read (b : Broker) : Broker := { b with tick := b.tick + 1 }

/-- A fresh name was taken. -/
def named (b : Broker) : Broker := { b with fresh := b.fresh + 1 }

end Broker

end Relay
end TmuxWorktree
