import TmuxWorktree.Relay.Owners
/-!
# Frames — what the broker does with a frame of a client or of a host (`brokerCore.ts`)
-/
namespace TmuxWorktree
namespace Relay

/-- A carrier frame from a host.  `toClient` is `direction === "host_to_client"`. -/
inductive FromHost where
  | hello (hello : HostHello)
  | routeOpened (connectorId routeId routeFence requestId maxFrameBytes : Nat)
  | routeRejected (connectorId routeId routeFence requestId : Nat) (error : StructuredError)
  | routeData (connectorId routeId routeFence : Nat) (toClient : Bool) (seq : Nat) (data : Bytes)
  | routeUnbound (connectorId routeId routeFence lastClientToHostSeq lastHostToClientSeq : Nat)
  | routeClose (connectorId routeId routeFence closeCode : Nat) (reason : String)
  | authControl (connectorId requestId : Nat) (reauthenticate : Bool)
  | other (connectorId : Nat)
  deriving DecidableEq, Repr

def FromHost.connectorId : FromHost → Option Nat
  | .hello _ => none
  | .routeOpened k .. => some k
  | .routeRejected k .. => some k
  | .routeData k .. => some k
  | .routeUnbound k .. => some k
  | .routeClose k .. => some k
  | .authControl k .. => some k
  | .other k => some k

/-- What the authority of carrier auth controls decides.  `valid` says that the response is well formed and names the
request; `ack` that its payload names the replacement. -/
inductive AuthDecision where
  | reject (error : StructuredError)
  | success (valid replayed ack : Bool) (next : Option Authorization)
  | failed
  deriving DecidableEq, Repr

namespace Broker

/-! ## Agent extensions -/

/-- `agentExtensionAvailableForRoute`. -/
def extensionAvailable (r : Route) (e : Extension) (b : Broker) : Bool :=
  e ∈ b.optionalReady &&
    ((b.carrierAt r.carrierTransportId).bind Carrier.hello).any fun h => Capability.optional e ∈ h.capabilities

/-- `agentExtensionNegotiatedForRoute`. -/
def extensionNegotiated (r : Route) (e : Extension) (b : Broker) : Bool :=
  r.agentExtensionDispositions e = some .selected && e ∈ r.clientOfferedAgentExtensions && b.extensionAvailable r e

/-- `withdrawOptionalCapability`, of a registered extension. -/
def withdrawOptionalCapability (e : Extension) (b : Broker) : Broker :=
  if e ∉ b.optionalReady then b
  else
    let time := b.reply.time
    { b.read with
      optionalReady := b.optionalReady.filter (· ≠ e)
      directory := b.directory.map fun d =>
        if Capability.optional e ∈ d.capabilities then
          { d with
            revision := d.revision + 1
            capabilities := d.capabilities.filter (· ≠ .optional e)
            observedAtMs := time }
        else d
      routes := b.routes.map fun r =>
        if r.agentExtensionDispositions e = some .selected then
          { r with agentExtensionDispositions := fun x =>
              if x = e then some .withdrawn else r.agentExtensionDispositions x }
        else r }

def enqueueAgentExtensionUnavailable (C : Config) (c : Carrier) (r : Route) (f : PublicFrame) (e : Extension)
    (b : Broker) : Result × Broker :=
  let made := BrokerMade.unavailable e f.requestId r.authContext.hostId ((c.hello.map HostHello.hostEpoch).getD 0)
  let bytes := C.codec.encode made
  if hostToClientFull c r bytes then
    let (actions, b) := b.beginRouteUnbind C r .slowConsumer
    (⟨false, actions ++ [.closeClient r.connectionId r.connectionIncarnation 1013 "slow_consumer"],
      some ⟨.slowConsumer, "Client extension route cannot drain"⟩⟩, b)
  else (⟨true, [], none⟩, (b.pushClient C c.serial r bytes true).emit (.made r.routeId made))

/-! ## Frames of a client -/

/-- `isClientPublicFrameAuthorized` and `isClientAgentExtensionFrameAuthorized`. -/
def clientFrameAuthorized (r : Route) (f : PublicFrame) (b : Broker) : Bool :=
  match (b.carrierAt r.carrierTransportId).bind Carrier.hello with
  | none => false
  | some hello =>
    match f.lane with
    | none =>
      f.type ∈ clientToHostPublicTypes && f.hostId.all (· = r.authContext.hostId) &&
        f.expectedHostEpoch.all (· = hello.hostEpoch) &&
        (f.type ≠ .clientHello || f.clientInstanceId = r.authContext.clientInstanceId)
    | some e =>
      f.kind = .request && f.type ∈ e.clientToHostTypes && f.hostId = some r.authContext.hostId &&
        f.expectedHostEpoch = some hello.hostEpoch

/-- The route is unbound and its client closed, for a frame that is not answered. -/
def rejectClient (C : Config) (r : Route) (reason : UnbindReason) (closeCode : Nat) (text : String)
    (error : StructuredError) (b : Broker) : Result × Broker :=
  let (actions, b) := b.beginRouteUnbind C r reason
  (⟨false, actions ++ [.closeClient r.connectionId r.connectionIncarnation closeCode text], some error⟩, b)

/-- A `hosts.snapshot.get`, answered from the directory (`readHostsSnapshot`). -/
def answerSnapshot (C : Config) (c : Carrier) (r : Route) (f : PublicFrame) (b : Broker) : Result × Broker :=
  let a := r.authContext
  let readable := a.role = .client && a.clientInstanceId.isSome && !b.expired a && (b.invalidationFor a).isNone &&
    !b.liveAuthLatched
  let record := b.recordOf a.hostId
  let b := b.read
  match (if readable then record else none) with
  | none => (failure .hostOffline "Authorized host directory is unavailable", b)
  | some d =>
    let made := BrokerMade.hostsSnapshot d.hostId (f.requestId.getD 0) d.revision
    let bytes := C.codec.encode made
    if hostToClientFull c r bytes then
      b.rejectClient C r .slowConsumer 1013 "slow_consumer" ⟨.slowConsumer, "Client directory route cannot drain"⟩
    else (⟨true, [], none⟩, (b.pushClient C c.serial r bytes true).emit (.made r.routeId made))

/-- The offers of a `client.hello` are noted. -/
def noteOffers (f : PublicFrame) (r : Route) : Route :=
  let offered := Extension.all.filter fun e => Capability.optional e ∈ f.capabilities
  { r with
    clientOfferedAgentExtensions := offered
    agentExtensionDispositions := fun e =>
      if e ∈ offered ∧ r.agentExtensionDispositions e ≠ some .withdrawn then some .unselected
      else r.agentExtensionDispositions e }

/-- The last part of `forwardClientFrame`: the frame goes on the route. -/
def forwardAdmitted (C : Config) (c : Carrier) (r : Route) (f : PublicFrame) (bytes : Bytes) (b : Broker) :
    Result × Broker :=
  match b.enqueueCarrierData C c r bytes with
  | (false, b) =>
    let (actions, b) := b.markClientPressure r.routeId
    (⟨false, actions, some ⟨.slowConsumer, "Route cannot admit more client data"⟩⟩, b)
  | (true, b) =>
    let b := if f.kind = .request then
        b.setRoute r.routeId fun r => { r with inFlightRequestIds := f.requestId.toList ++ r.inFlightRequestIds }
      else b
    let b := if f.type = .clientHello then b.setRoute r.routeId (noteOffers f) else b
    match b.carrierOf c.serial, b.routeOf r.routeId with
    | some c, some r =>
      if clientToHostAtHighWater c r then
        let (actions, b) := b.markClientPressure r.routeId
        (⟨true, actions, none⟩, b)
      else (⟨true, [], none⟩, b)
    | _, _ => (⟨true, [], none⟩, b)

/-- The checks of `forwardClientFrame` on a decoded frame. -/
def forwardDecoded (C : Config) (c : Carrier) (r : Route) (f : PublicFrame) (bytes : Bytes) (b : Broker) :
    Result × Broker :=
  if bytes.byteLength > r.maxFrameBytes || !b.clientFrameAuthorized r f then
    b.rejectClient C r .protocolError 4400 "invalid_public_identity"
      ⟨.invalidEnvelope, "Client public identity is not authorized"⟩
  else if f.type = .hostsSnapshotGet then b.answerSnapshot C c r f
  else if f.kind = .request && f.requestId.any (· ∈ r.inFlightRequestIds) then
    (failure .idempotencyConflict "Request ID is already in flight on this route", b)
  else if f.kind = .request && r.inFlightRequestIds.length ≥ maxInFlightRequestsPerRoute then
    (failure .busy "Route has too many in-flight requests", b)
  else
    match f.lane with
    | some e =>
      if b.extensionNegotiated r e then
        if f.type = .chatSend && f.settings && !b.extensionNegotiated r .chatRuntimeSettings then
          (failure .invalidEnvelope "Agent chat runtime settings capability was not negotiated", b)
        else b.forwardAdmitted C c r f bytes
      else if r.agentExtensionDispositions e = some .withdrawn then b.enqueueAgentExtensionUnavailable C c r f e
      else
        b.rejectClient C r .protocolError 4400 "unnegotiated_agent_extension"
          ⟨.invalidEnvelope, "Relay Agent extension was not negotiated"⟩
    | none => b.forwardAdmitted C c r f bytes

/-- **`forwardClientFrame`**. -/
def forwardClientFrame (C : Config) (connectionId : Nat) (bytes : Bytes) (b : Broker) : Result × Broker :=
  match b.clientAt connectionId with
  | none => (failure .invalidEnvelope "Client route is not open", b)
  | some client =>
    match b.routeOf client.routeId with
    | none => (failure .invalidEnvelope "Client route is not open", b)
    | some r =>
      if r.status ≠ .opened then (failure .invalidEnvelope "Client route is not open", b)
      else
        let (ok, b) := b.isClientAuthorizationActive C client
        if !ok then (failure .authInvalid "Client authorization is being fenced", b)
        else
          let owner := (b.ownCarrier r).filter fun c => b.active.lookup r.authContext.hostId = some c.serial
          match owner with
          | none =>
            (failure .hostOffline "Host is not connected"
              [.closeClient connectionId r.connectionIncarnation 1013 "host_offline"], b.dropRoute r)
          | some c =>
            let (ok, b) := b.isCarrierAuthorizationActive C c
            if !ok then (failure .authInvalid "Host authorization is being fenced", b)
            else
              match C.codec.decodePublic bytes with
              | none =>
                b.rejectClient C r .protocolError 4400 "invalid_public_frame"
                  ⟨.invalidEnvelope, "Client frame is not a valid public envelope"⟩
              | some f => b.forwardDecoded C c r f bytes

/-! ## Frames of a host -/

def currentRouteForFrame (c : Carrier) (routeId routeFence : Nat) (b : Broker) : Option Route :=
  (b.routeOf routeId).filter fun r =>
    r.carrierTransportId = c.transportId ∧ c.connectorId = some r.connectorId ∧ r.routeFence = routeFence

/-- `enqueueClientAuthExpiringWarning`: the outcome is `emitted` when the flag is true. -/
def enqueueClientAuthExpiringWarning (C : Config) (client : Client) (r : Route) (jti expiresAtMs : Nat) (b : Broker) :
    Bool × List Action × Broker :=
  let made := BrokerMade.authExpiring client.authContext.grantId expiresAtMs
  let bytes := C.codec.encode made
  if bytes.byteLength > maxFrameBytes || r.hostToClientFrames + 1 > maxQueuedRouteFrames ||
      r.hostToClientBufferedBytes + bytes.byteLength > routeBufferedBytesPerDirection then
    let (actions, b) := b.beginRouteUnbind C r .slowConsumer
    (false, actions ++ [.closeClient client.connectionId client.connectionIncarnation 1013 "slow_consumer"], b)
  else
    let serial := ((b.carrierAt r.carrierTransportId).map Carrier.serial).getD 0
    let b := (b.pushClient C serial r bytes false).emit (.made r.routeId made)
    (true, [], b.setClient client.connectionId fun c => { c with authExpiringWarning := some ⟨jti, expiresAtMs, true⟩ })

def flushDeferredClientAuthExpiringWarning (C : Config) (connectionId routeId : Nat) (b : Broker) :
    List Action × Broker :=
  match b.clientAt connectionId, b.routeOf routeId with
  | some client, some r =>
    match client.authExpiringWarning with
    | none => ([], b)
    | some w =>
      let forget := fun (b : Broker) => b.setClient connectionId fun c => { c with authExpiringWarning := none }
      if w.emitted then ([], b)
      else if client.authorizationState ≠ .active || client.authContext.jti ≠ w.jti ||
          client.authContext.expiresAtMs ≠ w.expiresAtMs then ([], forget b)
      else if b.expired client.authContext then ([], forget b.read)
      else
        let (ok, actions, b) := b.read.enqueueClientAuthExpiringWarning C client r w.jti w.expiresAtMs
        if ok then ([], b) else (actions, forget b)
  | _, _ => ([], b)

/-- The route opens and its client gets the welcome. -/
def welcome (C : Config) (c : Carrier) (r : Route) (hello : HostHello) (openedMaxFrameBytes : Nat) (b : Broker) :
    Result × Broker :=
  let capabilities := b.advertisedCapabilities C hello
  let made := BrokerMade.relayWelcome r.connectionId r.authContext.principalId capabilities
  let bytes := C.codec.encode made
  if bytes.byteLength > maxFrameBytes || bytes.byteLength > routeBufferedBytesPerDirection then
    b.protocolViolation C c "route_welcome_capacity_unavailable"
  else
    let b := b.setRoute r.routeId fun r =>
      { r with maxFrameBytes := openedMaxFrameBytes, status := .opened, firstApplicationFrame := .welcome }
    let b := (b.pushClient C c.serial r bytes false).emit (.made r.routeId made)
    let (late, b) := b.flushDeferredClientAuthExpiringWarning C r.connectionId r.routeId
    (⟨true, .routeOpened r.connectionId r.connectionIncarnation r.routeId r.routeFence capabilities :: late, none⟩, b)

/-- The checks of `routeOpened` past the authorization of the client. -/
def routeOpenedChecked (C : Config) (c : Carrier) (route : Option Route) (requestId openedMaxFrameBytes : Nat)
    (b : Broker) : Result × Broker :=
  match route with
  | none => b.protocolViolation C c "stale_route_opened"
  | some r =>
    let badLimit := openedMaxFrameBytes = 0 || openedMaxFrameBytes > r.maxFrameBytes
    if r.status = .closing && r.firstApplicationFrame = .unavailable && requestId = r.openRequestId then
      if badLimit then b.protocolViolation C c "invalid_route_frame_limit" else (⟨true, [], none⟩, b)
    else if r.status ≠ .opening || r.firstApplicationFrame ≠ .pending || requestId ≠ r.openRequestId then
      b.protocolViolation C c "stale_route_opened"
    else if badLimit then b.protocolViolation C c "invalid_route_frame_limit"
    else
      match b.clientAt r.connectionId, c.hello with
      | some client, some hello =>
        if client.routeId ≠ r.routeId || client.connectionIncarnation ≠ r.connectionIncarnation ||
            !client.queue.isEmpty || !client.inFlight.isEmpty || r.hostToClientFrames ≠ 0 ||
            r.hostToClientBufferedBytes ≠ 0 then b.protocolViolation C c "route_welcome_state_conflict"
        else if !advertisesBase C hello then b.protocolViolation C c "route_capability_readiness_withdrawn"
        else b.welcome C c r hello openedMaxFrameBytes
      | _, _ => b.protocolViolation C c "route_welcome_state_conflict"

/-- **`routeOpened`**. -/
def routeOpened (C : Config) (c : Carrier) (routeId routeFence requestId openedMaxFrameBytes : Nat) (b : Broker) :
    Result × Broker :=
  let route := b.currentRouteForFrame c routeId routeFence
  match route.bind fun r => b.clientAt r.connectionId with
  | some client =>
    let (ok, b) := b.isClientAuthorizationActive C client
    if !ok then (failure .authInvalid "Client authorization is fenced", b)
    else b.routeOpenedChecked C c (b.currentRouteForFrame c routeId routeFence) requestId openedMaxFrameBytes
  | none => b.routeOpenedChecked C c route requestId openedMaxFrameBytes

/-- **`routeRejected`**. -/
def routeRejected (C : Config) (c : Carrier) (routeId routeFence requestId : Nat) (error : StructuredError) (b : Broker) :
    Result × Broker :=
  let allowed : List ErrorCode := [.busy, .permissionDenied, .internal, .capabilityUnavailable, .hostDialectUnavailable]
  if error.code ∉ allowed then b.protocolViolation C c "invalid_route_rejection_code"
  else
    match b.currentRouteForFrame c routeId routeFence with
    | none => b.protocolViolation C c "stale_route_rejected"
    | some r =>
      if r.status = .closing && r.firstApplicationFrame = .unavailable && requestId = r.openRequestId then
        (⟨true, [], none⟩, b.dropRoute r)
      else if r.status ≠ .opening || r.firstApplicationFrame ≠ .pending || requestId ≠ r.openRequestId then
        b.protocolViolation C c "stale_route_rejected"
      else
        let closeCode := match error.code with
          | .permissionDenied => 4403
          | .capabilityUnavailable => 4406
          | .hostDialectUnavailable => 4406
          | _ => 1013
        (routeUnavailable r.connectionId r.connectionIncarnation r.authContext.hostId closeCode error, b.dropRoute r)

/-- `isHostPublicFrameAuthorized` and `isHostAgentExtensionFrameAuthorized`. -/
def hostFrameAuthorized (c : Carrier) (r : Route) (f : PublicFrame) : Bool :=
  match c.hello with
  | none => false
  | some hello =>
    match f.lane with
    | none =>
      f.type ∈ hostToClientPublicTypes && f.hostId.all (· = r.authContext.hostId) &&
        f.hostEpoch.all (· = hello.hostEpoch) && f.hostInstanceId.all (· = hello.hostInstanceId)
    | some e =>
      f.kind ≠ .request && f.type ∈ e.hostToClientTypes && f.hostId = some r.authContext.hostId &&
        f.hostEpoch = some hello.hostEpoch

/-- A frame of a host is consumed: its number is taken, and a response takes its request off the list. -/
def consumeHostFrame (routeId : Nat) (f : PublicFrame) (b : Broker) : Broker :=
  b.setRoute routeId fun r =>
    { r with
      expectedHostToClientSeq := r.expectedHostToClientSeq + 1
      inFlightRequestIds := if f.kind = .response then r.inFlightRequestIds.filter (fun id => some id ≠ f.requestId)
        else r.inFlightRequestIds }

/-- The extensions that a `host.welcome` selects and the broker does not. -/
def strippedBy (r : Route) (f : PublicFrame) (b : Broker) : List Extension :=
  Extension.all.filter fun e =>
    Capability.optional e ∈ f.capabilities && !(e ∈ r.clientOfferedAgentExtensions && b.extensionAvailable r e)

/-- The selection that a `host.welcome` makes, and the bytes that go to the client. -/
def selectExtensions (C : Config) (r : Route) (f : PublicFrame) (bytes : Bytes) (b : Broker) : Bytes × Broker :=
  if f.type ≠ .hostWelcome then (bytes, b)
  else
    let stripped := b.strippedBy r f
    let selects := fun e =>
      Capability.optional e ∈ f.capabilities && e ∈ r.clientOfferedAgentExtensions && b.extensionAvailable r e
    let b := b.setRoute r.routeId fun r =>
      { r with agentExtensionDispositions := fun e => if selects e then some .selected else some .unselected }
    (if stripped.isEmpty then bytes else C.codec.encode (.stripped bytes stripped), b)

/-- The last part of `routeDataFromHost`: the frame is queued for the client, or refused for want of room. -/
def admitHostFrame (C : Config) (c : Carrier) (r : Route) (f : PublicFrame) (seq : Nat) (bytes outbound : Bytes)
    (b : Broker) : Result × Broker :=
  if hostToClientFull c r outbound then
    let (actions, b) := b.markHostPressure r.routeId
    (⟨false, actions, some ⟨.slowConsumer, "Client route cannot drain"⟩⟩, b)
  else
    let b := ((b.consumeHostFrame r.routeId f).pushClient C c.serial r outbound true).emit
      (.admitted r.routeId seq bytes (some outbound))
    match b.carrierOf c.serial, b.routeOf r.routeId with
    | some c, some r =>
      if hostToClientAtHighWater c r then
        let (actions, b) := b.markHostPressure r.routeId
        (⟨true, actions, none⟩, b)
      else (⟨true, [], none⟩, b)
    | _, _ => (⟨true, [], none⟩, b)

/-- The part of `routeDataFromHost` for a frame that may go to the client. -/
def deliverHostFrame (C : Config) (c : Carrier) (r : Route) (f : PublicFrame) (seq : Nat) (bytes : Bytes) (b : Broker) :
    Result × Broker :=
  let (outbound, b) := b.selectExtensions C r f bytes
  match f.lane with
  | some e =>
    if b.extensionNegotiated r e then b.admitHostFrame C c r f seq bytes outbound
    else if r.agentExtensionDispositions e ≠ some .withdrawn then b.protocolViolation C c "unnegotiated_agent_extension"
    else
      -- the extension was withdrawn: the frame is consumed here, and a response is answered in the host's place
      let b := (b.consumeHostFrame r.routeId f).emit (.admitted r.routeId seq bytes none)
      if f.kind = .response then
        match b.routeOf r.routeId with
        | some r => b.enqueueAgentExtensionUnavailable C c r f e
        | none => (⟨true, [], none⟩, b)
      else (⟨true, [], none⟩, b)
  | none => b.admitHostFrame C c r f seq bytes outbound

/-- The checks of `routeDataFromHost` past the authorization of the client. -/
def routeDataChecked (C : Config) (c : Carrier) (r : Route) (seq : Nat) (bytes : Bytes) (b : Broker) : Result × Broker :=
  if seq ≠ r.expectedHostToClientSeq then b.protocolViolation C c "non_contiguous_route_sequence"
  else
    match C.codec.decodePublic bytes with
    | none => b.protocolViolation C c "invalid_public_envelope"
    | some f =>
      if bytes.byteLength > r.maxFrameBytes || !hostFrameAuthorized c r f then
        b.protocolViolation C c "forged_public_identity"
      else if f.kind = .response && !f.requestId.any (· ∈ r.inFlightRequestIds) then
        b.protocolViolation C c "uncorrelated_public_response"
      else if r.status = .closing then
        if f.lane.any fun e =>
            !b.extensionNegotiated r e && r.agentExtensionDispositions e ≠ some .withdrawn then
          b.protocolViolation C c "unnegotiated_agent_extension"
        else (⟨true, [], none⟩, (b.consumeHostFrame r.routeId f).emit (.admitted r.routeId seq bytes none))
      else b.deliverHostFrame C c r f seq bytes

/-- **`routeDataFromHost`**. -/
def routeDataFromHost (C : Config) (c : Carrier) (routeId routeFence : Nat) (toClient : Bool) (seq : Nat) (bytes : Bytes)
    (b : Broker) : Result × Broker :=
  match b.currentRouteForFrame c routeId routeFence with
  | none => b.protocolViolation C c "stale_route_data"
  | some r =>
    if (r.status ≠ .opened && r.status ≠ .closing) || !toClient then b.protocolViolation C c "stale_route_data"
    else if r.status = .closing then b.routeDataChecked C c r seq bytes
    else
      match b.clientAt r.connectionId with
      | none => (failure .authInvalid "Client authorization is fenced", b)
      | some client =>
        let (ok, b) := b.isClientAuthorizationActive C client
        if !ok then (failure .authInvalid "Client authorization is fenced", b)
        else b.routeDataChecked C c r seq bytes

/-- **`routeUnbound`**. -/
def routeUnbound (C : Config) (c : Carrier) (routeId routeFence lastClientToHostSeq lastHostToClientSeq : Nat)
    (b : Broker) : Result × Broker :=
  match b.currentRouteForFrame c routeId routeFence with
  | none => b.protocolViolation C c "stale_route_unbound"
  | some r =>
    if r.status ≠ .closing then b.protocolViolation C c "stale_route_unbound"
    else if lastClientToHostSeq ≠ r.lastClientToHostDispatchedSeq ||
        lastHostToClientSeq + 1 ≠ r.expectedHostToClientSeq then
      b.protocolViolation C c "route_unbound_watermark_mismatch"
    else (⟨true, [], none⟩, b.dropRoute r)

/-- **`routeClosedByHost`**. -/
def routeClosedByHost (C : Config) (c : Carrier) (routeId routeFence closeCode : Nat) (reason : String) (b : Broker) :
    Result × Broker :=
  match b.currentRouteForFrame c routeId routeFence with
  | none => b.protocolViolation C c "stale_route_close"
  | some r =>
    if r.status ≠ .opened then b.protocolViolation C c "stale_route_close"
    else
      let unbind := if reason = "slow_consumer" then UnbindReason.slowConsumer
        else if reason = "host_shutdown" then .brokerShutdown else .protocolError
      let (actions, b) := b.beginRouteUnbind C r unbind
      (⟨true, actions ++ [.closeClient r.connectionId r.connectionIncarnation closeCode reason], none⟩, b)

/-! ## Auth controls -/

def enqueueAuthControlResponse (C : Config) (c : Carrier) (requestId : Nat) (ok : Bool) (b : Broker) :
    List Action × Broker :=
  let (queued, b) := b.enqueueCarrierControl C c.serial (.authControl requestId ok) none
  (if queued then [] else [controlBackpressure c], b)

/-- The first part of `handleAuthControl`: the request goes to its authority. -/
def beginAuthControl (C : Config) (c : Carrier) (connectorId requestId : Nat) (reauthenticate : Bool) (b : Broker) :
    Result × Broker :=
  if !C.authControlAuthority then
    let (actions, b) := b.enqueueAuthControlResponse C c requestId false
    (⟨false, actions, some ⟨.capabilityUnavailable, "Persistent carrier auth-control authority is not configured"⟩⟩, b)
  else
    let request : AuthRequest := ⟨b.fresh, c.serial, connectorId, requestId, reauthenticate, c.authContext.jti⟩
    (⟨true, [], none⟩, { b.named with authRequests := b.authRequests ++ [request] })

/-- What `handleAuthControl` asks of a replacement before it is admitted. -/
def replaces (c : Carrier) (n : Authorization) : Bool :=
  n.closed && n.role = .host && n.hostId = c.authContext.hostId && n.principalId = c.authContext.principalId &&
    n.grantId = c.authContext.grantId

/-- What it asks afterwards: the acknowledgement names the replacement, and the token is the one the request replaces. -/
def replacesToken (q : AuthRequest) (c : Carrier) (replayed ack : Bool) (n : Authorization) : Bool :=
  ack && (replayed || n.jti ≠ c.authContext.jti) && (replayed || c.authContext.jti = q.jti) &&
    (!replayed || c.authContext.jti = q.jti || c.authContext.jti = n.jti)

/-- The answer to an auth control that came to nothing. -/
def refuseAuthControl (C : Config) (q : AuthRequest) (c : Carrier) (error : StructuredError) (b : Broker) :
    Result × Broker :=
  let (actions, b) := b.enqueueAuthControlResponse C c q.requestId false
  (⟨false, actions, some error⟩, b)

def failAuthControl (C : Config) (q : AuthRequest) (c : Carrier) (b : Broker) : Result × Broker :=
  b.refuseAuthControl C q c ⟨.internal, "Carrier auth-control authority failed"⟩

def acceptAuthControl (C : Config) (q : AuthRequest) (c : Carrier) (b : Broker) : Result × Broker :=
  let (actions, b) := b.enqueueAuthControlResponse C c q.requestId true
  (⟨true, actions, none⟩, b)

/-- A decision on a request of a carrier that is still its own. -/
def decideAuthControl (C : Config) (q : AuthRequest) (c : Carrier) (decision : AuthDecision) (b : Broker) :
    Result × Broker :=
  match decision with
  | .reject error => b.refuseAuthControl C q c error
  | .failed => b.failAuthControl C q c
  | .success valid replayed ack next =>
    if !valid then b.failAuthControl C q c
    else if !q.reauthenticate then
      if next.isSome then b.failAuthControl C q c else b.acceptAuthControl C q c
    else
      match next with
      | none => b.failAuthControl C q c
      | some n =>
        if !replaces c n then b.failAuthControl C q c
        else
          let (ok, b) := b.admitReplacementAuthorization c.authContext n
          if !ok || !replacesToken q c replayed ack n then b.failAuthControl C q c
          else (b.setCarrier c.serial fun c => { c with authContext := n }).acceptAuthControl C q c

/-- The second part of `handleAuthControl`, when the authority has decided.  A failure of the authority is answered
whatever became of the carrier in the meantime. -/
def settleAuthControl (C : Config) (id : Nat) (decision : AuthDecision) (b : Broker) : Result × Broker :=
  match b.authRequests.find? fun q => q.id = id with
  | none => (failure .internal "no such request", b)
  | some q =>
    let b := { b with authRequests := b.authRequests.filter fun q => q.id ≠ id }
    match b.carrierOf q.serial with
    | none => (failure .hostSuperseded "Carrier changed during auth control", b)
    | some c =>
      if decision = .failed then b.failAuthControl C q c
      else if !c.attached || c.status ≠ .active || c.connectorId ≠ some q.connectorId then
        (failure .hostSuperseded "Carrier changed during auth control", b)
      else
        let (ok, b) := b.isCarrierAuthorizationActive C c
        if !ok then (failure .authInvalid "Carrier authorization changed during auth control", b)
        else b.decideAuthControl C q c decision

/-! ## Receiving -/

/-- **`receiveHostFrame`**; `none` is a frame that does not decode. -/
def receiveHostFrame (C : Config) (transportId : Nat) (frame : Option FromHost) (b : Broker) : Result × Broker :=
  let superseded := fun (incarnation : Option Nat) => failure .hostSuperseded "Carrier is no longer registered"
    [.closeHost transportId incarnation 4409 "host_superseded"]
  match b.carrierAt transportId with
  | none => (superseded none, b)
  | some c =>
    if c.status = .closed then (superseded (some c.connectionIncarnation), b)
    else
      let (ok, b) := b.isCarrierAuthorizationActive C c
      if !ok then (failure .authInvalid "Carrier authorization is being fenced", b)
      else
        match frame with
        | none => b.protocolViolation C c "invalid_carrier_frame"
        | some f =>
          match c.status, f with
          | .pending, .hello hello => b.registerHost c hello
          | .pending, _ => b.protocolViolation C c "host_hello_required"
          | .registering, _ => b.protocolViolation C c "host_registration_uncommitted"
          | .superseded, _ =>
            (failure .hostSuperseded "Carrier was superseded"
              [.closeHost transportId (some c.connectionIncarnation) 4409 "host_superseded"], b)
          | .closed, _ => (superseded (some c.connectionIncarnation), b)
          | .active, f =>
            if c.connectorId.isNone || f.connectorId ≠ c.connectorId then
              b.protocolViolation C c (match f with
                | .hello _ => "duplicate_host_hello"
                | _ => "stale_connector")
            else
              match f with
              | .hello _ => b.protocolViolation C c "duplicate_host_hello"
              | .routeOpened _ routeId fence requestId limit => b.routeOpened C c routeId fence requestId limit
              | .routeRejected _ routeId fence requestId error => b.routeRejected C c routeId fence requestId error
              | .routeData _ routeId fence toClient seq data => b.routeDataFromHost C c routeId fence toClient seq data
              | .routeUnbound _ routeId fence last lastHost => b.routeUnbound C c routeId fence last lastHost
              | .routeClose _ routeId fence closeCode reason => b.routeClosedByHost C c routeId fence closeCode reason
              | .authControl connectorId requestId reauthenticate =>
                b.beginAuthControl C c connectorId requestId reauthenticate
              | .other _ => b.protocolViolation C c "unsupported_carrier_control"

end Broker

end Relay
end TmuxWorktree
