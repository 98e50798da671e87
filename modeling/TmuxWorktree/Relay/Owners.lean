import TmuxWorktree.Relay.Fences
/-!
# Owners — registration, replacement and loss of host carriers, and the opening of routes (`brokerCore.ts`)
-/
namespace TmuxWorktree
namespace Relay

namespace Broker

/-! ## The end of a carrier -/

/-- A carrier is closed, its queues are discarded and it leaves `carriers`. -/
def buryCarrier (serial : Nat) (b : Broker) : Broker :=
  ((b.setCarrier serial fun c => { c with status := .closed }).discardCarrier serial).setCarrier serial fun c =>
    { c with attached := false }

/-- One turn of the loop of `invalidateConnectorRoutes`. -/
def invalidateRoute (serial : Nat) (superseded : Bool) (routeId : Nat) (b : Broker) : List Action × Broker :=
  match b.carrierOf serial, b.routeOf routeId with
  | some c, some r =>
    if r.carrierTransportId ≠ c.transportId then
      ([], b.setCarrier serial fun c => { c with routeIds := c.routeIds.erase routeId })
    else
      let action := if r.status = .opening ∧ r.firstApplicationFrame = .pending then
          Action.routeUnavailable r.connectionId r.connectionIncarnation r.authContext.hostId 1013
            ⟨.hostOffline, "Host became unavailable before route opened"⟩
        else
          Action.closeClient r.connectionId r.connectionIncarnation 1013
            (if superseded then "host_superseded" else "host_offline")
      ([action], b.dropRoute r)
  | _, _ => ([], b.setCarrier serial fun c => { c with routeIds := c.routeIds.erase routeId })

def invalidateRoutes (serial : Nat) (superseded : Bool) : List Nat → Broker → List Action × Broker
  | [], b => ([], b)
  | routeId :: rest, b =>
    let (first, b) := b.invalidateRoute serial superseded routeId
    let (more, b) := invalidateRoutes serial superseded rest b
    (first ++ more, b)

def invalidateConnectorRoutes (serial : Nat) (superseded : Bool) (b : Broker) : List Action × Broker :=
  b.invalidateRoutes serial superseded (((b.carrierOf serial).map Carrier.routeIds).getD [])

/-- An active owner goes offline: it leaves `activeCarriers`, the directory says so, and its routes are dropped. -/
def goOffline (C : Config) (c : Carrier) (b : Broker) : List Action × Broker :=
  if c.status = .active ∧ b.active.lookup c.authContext.hostId = some c.serial then
    let b := { b with active := b.active.filter fun x => x.1 ≠ c.authContext.hostId }
    (b.publishDirectory C c false .disconnected none).invalidateConnectorRoutes c.serial false
  else ([], b)

/-- The registration of a carrier that was registering is forgotten. -/
def forgetRegistration (c : Carrier) (b : Broker) : Broker :=
  if c.status = .registering then
    { b with registering := b.registering.filter fun x => x.1 ≠ c.authContext.hostId }.setCarrier c.serial fun c =>
      { c with registration := none }
  else b

/-- **`protocolViolation`**. -/
def protocolViolation (C : Config) (c : Carrier) (reason : String) (b : Broker) : Result × Broker :=
  let close := Action.closeHost c.transportId (some c.connectionIncarnation) 4400 reason
  let (actions, b) := (b.emit (.violated c.serial)).goOffline C c
  let b := (b.forgetRegistration c).buryCarrier c.serial
  (failure .invalidEnvelope "Carrier protocol violation" (close :: actions), b)

/-- A registration whose previous owner has just gone offline is based on the directory as it is now. -/
def rebaseRegistration (c : Carrier) (b : Broker) : Broker :=
  match b.registeringAt c.authContext.hostId with
  | none => b
  | some p =>
    match p.registration with
    | none => b
    | some g =>
      if g.previousTransportId = some c.transportId then
        let revision := ((b.recordOf c.authContext.hostId).map DirectoryRecord.revision).getD 0
        b.setCarrier p.serial fun p =>
          { p with registration := some { g with previousTransportId := none, baseDirectoryRevision := revision } }
      else b

/-- **`disconnectHost`**. -/
def disconnectHost (C : Config) (transportId : Nat) (b : Broker) : Result × Broker :=
  match b.carrierAt transportId with
  | none => (⟨true, [], none⟩, b)
  | some c =>
    let b := b.forgetRegistration c
    let owner := c.status = .active ∧ c.connectorId.isSome ∧ b.active.lookup c.authContext.hostId = some c.serial
    let (actions, b) := if owner then
        let (actions, b) := b.goOffline C c
        (actions, b.rebaseRegistration c)
      else ([], b)
    (⟨true, actions, none⟩, b.buryCarrier c.serial)

/-! ## Registration -/

/-- **`attachHostCarrier`**; `false` is a throw. -/
def attachHostCarrier (transportId : Nat) (a : Authorization) (connectionIncarnation : Nat) (b : Broker) :
    Bool × Broker :=
  if b.latched || (b.carrierAt transportId).isSome || !a.closed || a.role ≠ .host then (false, b)
  else
    let (ok, b) := b.admitNewConnectionAuthorization a
    if !ok then (false, b)
    else
      let c : Carrier :=
        { serial := b.fresh, attached := true, transportId := transportId
          connectionIncarnation := connectionIncarnation, authContext := a }
      (true, { b.named with carriers := b.carriers ++ [c] })

/-- A `host.hello` that is turned down. -/
def refuseHello (c : Carrier) (hello : HostHello) (error : StructuredError) (closeCode : Nat) (reason : String)
    (b : Broker) : Result × Broker :=
  (⟨false, [.sendHost c.transportId c.connectionIncarnation (.helloError hello.requestId error) none,
    .closeHost c.transportId (some c.connectionIncarnation) closeCode reason], some error⟩, b.buryCarrier c.serial)

/-- The carrier is registering: its `host.registered` is on the way. -/
def enroll (c : Carrier) (hello : HostHello) (connectorId : Nat) (g : Registration) (b : Broker) : Broker :=
  let b := b.setCarrier c.serial fun c =>
    { c with connectorId := some connectorId, hello := some hello, status := .registering, registration := some g }
  { b with registering := (hello.hostId, c.serial) :: b.registering.filter fun x => x.1 ≠ hello.hostId }

/-- **`registerHost`**. -/
def registerHost (c : Carrier) (hello : HostHello) (b : Broker) : Result × Broker :=
  let previous := b.activeAt hello.hostId
  let registering := b.registeringAt hello.hostId
  let sameInstance := fun (o : Option Carrier) =>
    (o.bind Carrier.hello).any fun h => h.hostInstanceId = hello.hostInstanceId
  if hello.hostId ≠ c.authContext.hostId || !hello.uuids || hello.maxFrameBytes = 0 || hello.terminalMaxFrameBytes = 0 ||
      hello.terminalMaxFrameBytes > hello.maxFrameBytes then
    b.refuseHello c hello ⟨.permissionDenied, "Host hello does not match authorization"⟩ 4403 "host_identity_mismatch"
  else if sameInstance previous || sameInstance registering then
    b.refuseHello c hello ⟨.duplicateConnector, "Host process already has an active connector"⟩ 4411
      "duplicate_connector"
  else if registering.isSome then
    b.refuseHello c hello ⟨.busy, "Host registration is already being committed"⟩ 1013 "registration_busy"
  else
    let connectorId := b.fresh
    let deliveryId := b.fresh + 1
    let base := ((b.recordOf hello.hostId).map DirectoryRecord.revision).getD 0
    let b := b.named.named.enroll c hello connectorId ⟨deliveryId, base, previous.map Carrier.transportId⟩
    (⟨true, [.sendHost c.transportId c.connectionIncarnation
      (.registered hello.requestId connectorId (base + 1) ((previous.bind Carrier.hello).map HostHello.hostInstanceId))
      (some deliveryId)], none⟩, b)

def cancelRegistration (c : Carrier) (b : Broker) : Broker :=
  let b := if b.registering.lookup c.authContext.hostId = some c.serial then
      { b with registering := b.registering.filter fun x => x.1 ≠ c.authContext.hostId }
    else b
  (b.setCarrier c.serial fun c => { c with registration := none }).buryCarrier c.serial

def enqueueHostAuthExpiringWarning (C : Config) (c : Carrier) (jti expiresAtMs : Nat) (b : Broker) : Bool × Broker :=
  if c.connectorId.isNone then (false, b)
  else
    let (ok, b) := b.enqueueCarrierControl C c.serial (.hostAuthExpiring c.authContext.grantId expiresAtMs) none
    if !ok then (false, b)
    else (true, b.setCarrier c.serial fun c => { c with authExpiringWarning := some ⟨jti, expiresAtMs, true⟩ })

def controlBackpressure (c : Carrier) : Action :=
  .closeHost c.transportId (some c.connectionIncarnation) 1013 "carrier_control_backpressure"

def flushDeferredHostAuthExpiringWarning (C : Config) (serial : Nat) (b : Broker) : List Action × Broker :=
  match b.carrierOf serial with
  | none => ([], b)
  | some c =>
    match c.authExpiringWarning with
    | none => ([], b)
    | some w =>
      if w.emitted then ([], b)
      else if c.authorizationState ≠ .active || c.authContext.jti ≠ w.jti || c.authContext.expiresAtMs ≠ w.expiresAtMs then
        ([], b.setCarrier serial fun c => { c with authExpiringWarning := none })
      else if b.expired c.authContext then
        ([], b.read.setCarrier serial fun c => { c with authExpiringWarning := none })
      else
        let (ok, b) := b.read.enqueueHostAuthExpiringWarning C c w.jti w.expiresAtMs
        if ok then ([], b)
        else ([controlBackpressure c], b.setCarrier serial fun c => { c with authExpiringWarning := none })

/-- The winner becomes the active owner and the directory says so. -/
def activate (C : Config) (c : Carrier) (hello : HostHello) (previous : Option Carrier) (b : Broker) : Broker :=
  let host := c.authContext.hostId
  let b :=
    { b with
      registering := b.registering.filter fun x => x.1 ≠ host
      active := (host, c.serial) :: b.active.filter fun x => x.1 ≠ host }
  let b := b.setCarrier c.serial fun c => { c with registration := none, status := .active }
  let before := b.recordOf host
  let reconnected := before.any fun d => !d.online && d.hostEpoch == some hello.hostEpoch
  let c := { c with registration := none, status := .active }
  match previous with
  | some p => b.publishDirectory C c true .superseded (p.hello.map HostHello.hostInstanceId)
  | none =>
    if reconnected then b.publishDirectory C c true .reconnected (before.bind DirectoryRecord.hostInstanceId)
    else b.publishDirectory C c true .connected none

/-- The carrier that lost to a newer one. -/
def supersede (p winner : Carrier) (b : Broker) : List Action × Broker :=
  match p.connectorId, winner.connectorId, p.hello with
  | some losing, some winning, some _ =>
    let (actions, b) := (b.setCarrier p.serial fun p => { p with status := .superseded }).invalidateConnectorRoutes
      p.serial true
    let b := (b.discardCarrier p.serial).setCarrier p.serial fun p => { p with attached := false }
    (actions ++ [.sendHost p.transportId p.connectionIncarnation (.superseded losing winning) none,
      .closeHost p.transportId (some p.connectionIncarnation) 4409 "host_superseded"], b)
  | _, _, _ => ([], b)

/-- **`acknowledgeHostControlDelivery`**. -/
def acknowledgeHostControlDelivery (C : Config) (transportId deliveryId : Nat) (b : Broker) : Result × Broker :=
  match b.carrierAt transportId with
  | none => (failure .invalidEnvelope "Host control delivery fence is stale", b)
  | some c =>
    match c.hello, c.registration with
    | some hello, some g =>
      if c.status ≠ .registering || c.connectorId.isNone || g.deliveryId ≠ deliveryId ||
          b.registering.lookup c.authContext.hostId ≠ some c.serial then
        (failure .invalidEnvelope "Host control delivery fence is stale", b)
      else
        let (ok, b) := b.isCarrierAuthorizationActive C c
        if !ok then
          (failure (if b.liveAuthLatched then .capabilityUnavailable else .authInvalid)
            "Host authorization cannot commit registration", b)
        else
          let revision := ((b.recordOf c.authContext.hostId).map DirectoryRecord.revision).getD 0
          let previous := g.previousTransportId.bind b.carrierAt
          if revision ≠ g.baseDirectoryRevision ||
              (g.previousTransportId.isSome && !previous.any fun p => p.status = .active) then
            (failure .busy "Host registration changed before delivery commit"
              [.closeHost transportId (some c.connectionIncarnation) 1013 "registration_commit_race"],
              b.cancelRegistration c)
          else
            let b := b.activate C c hello previous
            let (lost, b) := match previous with
              | some p => b.supersede p c
              | none => ([], b)
            let (late, b) := b.flushDeferredHostAuthExpiringWarning C c.serial
            (⟨true, lost ++ late, none⟩, b)
    | _, _ => (failure .invalidEnvelope "Host control delivery fence is stale", b)

def rejectHostControlDelivery (transportId deliveryId : Nat) (b : Broker) : Result × Broker :=
  match b.carrierAt transportId with
  | none => (failure .invalidEnvelope "Host control delivery fence is stale", b)
  | some c =>
    if c.status ≠ .registering || c.registration.all fun g => g.deliveryId ≠ deliveryId then
      (failure .invalidEnvelope "Host control delivery fence is stale", b)
    else (⟨true, [], none⟩, b.cancelRegistration c)

/-! ## Routes -/

/-- `inspectClosedClientAdmission`: the active carrier, or the HTTP status and error of a rejection. -/
def inspectClientAdmission (C : Config) (a : Authorization) (b : Broker) :
    Except (Nat × StructuredError) (Carrier × HostHello × Nat) × Broker :=
  if b.latched then (.error (503, ⟨.capabilityUnavailable, "Broker composition is latched fail-closed"⟩), b)
  else
    let fence := b.invalidationFor a
    let isExpired := b.expired a
    let b := b.read
    let (ok, b) := if isExpired then (false, b) else b.observeAuthorizationHighWater a.receipt
    if !ok || fence.isSome then
      let status := if isExpired || fence.any (fun i => i.reason = .accessExpired) then 401 else 403
      (.error (status, ⟨.authInvalid, "Client authorization is fenced"⟩), b)
    else
      let offline : Nat × StructuredError := (503, ⟨.hostOffline, "Host is not connected"⟩)
      match b.activeAt a.hostId with
      | none => (.error offline, b)
      | some c =>
        match c.hello, c.connectorId with
        | some hello, some connectorId =>
          if c.status ≠ .active then (.error offline, b)
          else
            let (ok, b) := b.isCarrierAuthorizationActive C c
            if !ok then (.error offline, b)
            else if !hello.speaksV2 then
              (.error (426, ⟨.hostDialectUnavailable, "Requested client dialect is unavailable"⟩), b)
            else if !advertisesBase C hello then
              (.error (426, ⟨.capabilityUnavailable, "Required Relay v2 capabilities are unavailable"⟩), b)
            else (.ok (c, hello, connectorId), b)
        | _, _ => (.error offline, b)

def routeUnavailable (connectionId connectionIncarnation hostId closeCode : Nat) (error : StructuredError) : Result :=
  ⟨false, [.routeUnavailable connectionId connectionIncarnation hostId closeCode error], some error⟩

/-- The route and the client of an admitted connection. -/
def addRoute (c : Carrier) (r : Route) (b : Broker) : Broker :=
  let client : Client :=
    { connectionId := r.connectionId, connectionIncarnation := r.connectionIncarnation, authContext := r.authContext
      routeId := r.routeId }
  let b := { b with routes := b.routes ++ [r], clients := b.clients ++ [client] }
  (b.setCarrier c.serial fun c => { c with routeIds := c.routeIds ++ [r.routeId] }).emit
    (.created r.routeId r.connectionId r.routeFence)

/-- The route of a new connection; its names are the next three fresh ones. -/
def newRoute (c : Carrier) (connectionId : Nat) (a : Authorization) (connectionIncarnation connectorId : Nat) (b : Broker) :
    Route :=
  { routeId := b.fresh, routeFence := b.fresh + 1, openRequestId := b.fresh + 2, connectionId := connectionId
    connectionIncarnation := connectionIncarnation, connectorId := connectorId, carrierTransportId := c.transportId
    carrierConnectionIncarnation := c.connectionIncarnation, authContext := a
    maxFrameBytes := min maxFrameBytes ((c.hello.map HostHello.maxFrameBytes).getD 0) }

/-- **`openClientRoute`**. -/
def openClientRoute (C : Config) (connectionId : Nat) (a : Authorization) (connectionIncarnation : Nat) (b : Broker) :
    Result × Broker :=
  if (b.clientAt connectionId).isSome then (failure .invalidEnvelope "Client connection ID is invalid", b)
  else if !a.closed || a.role ≠ .client then (failure .permissionDenied "Client authorization is not valid", b)
  else
    match b.inspectClientAdmission C a with
    | (.error (status, error), b) =>
      let closeCode := if status = 426 then 4406 else if status = 401 then 4401 else if status = 403 then 4403 else 1013
      (routeUnavailable connectionId connectionIncarnation a.hostId closeCode error, b)
    | (.ok (_, _, connectorId), b) =>
      match b.activeAt a.hostId with
      | none =>
        (routeUnavailable connectionId connectionIncarnation a.hostId 1013
          ⟨.hostOffline, "Host authorization is not active"⟩, b)
      | some c =>
        let (ok, b) := b.isCarrierAuthorizationActive C c
        if !ok then
          (routeUnavailable connectionId connectionIncarnation a.hostId 1013
            ⟨.hostOffline, "Host authorization is not active"⟩, b)
        else if c.routeIds.length ≥ maxRoutesPerCarrier then
          (routeUnavailable connectionId connectionIncarnation a.hostId 1013
            ⟨.busy, "Host carrier route capacity is exhausted"⟩, b)
        else if c.bufferedBytes ≥ carrierBufferedBytes - carrierControlReserveBytes then
          (routeUnavailable connectionId connectionIncarnation a.hostId 1013
            ⟨.busy, "Host carrier is under backpressure"⟩, b)
        else
          let r := b.newRoute c connectionId a connectionIncarnation connectorId
          let (ok, b) := b.named.named.named.enqueueCarrierControl C c.serial r.openFrame (some r.routeId)
          if !ok then
            (routeUnavailable connectionId connectionIncarnation a.hostId 1013
              ⟨.busy, "Host carrier cannot admit route control"⟩, b)
          else (⟨true, [], none⟩, b.addRoute c r)

/-- **`beginRouteUnbind`**. -/
def beginRouteUnbind (C : Config) (r : Route) (reason : UnbindReason) (b : Broker) : List Action × Broker :=
  if r.status = .closing then ([], b)
  else
    let (resumes, b) := if r.clientReadPaused then
        ([Action.resumeClient r.connectionId r.connectionIncarnation],
          (b.setRoute r.routeId fun r => { r with clientReadPaused := false, clientToHostPressureSinceMs := none }).emit
            (.resumed r.routeId .clientToHost))
      else ([], b)
    match b.ownCarrier r with
    | none => (resumes, b.dropRoute r)
    | some c =>
      let b := b.closeRoute c r false
      let (ok, b) := b.enqueueCarrierControl C c.serial (r.unbindFrame reason) (some r.routeId)
      (resumes ++ (if ok then [] else [controlBackpressure c]), b)

def unbindClient (C : Config) (connectionId : Nat) (reason : UnbindReason) (b : Broker) : Result × Broker :=
  match (b.clientAt connectionId).bind fun client => b.routeOf client.routeId with
  | none => (⟨true, [], none⟩, b)
  | some r =>
    let (actions, b) := b.beginRouteUnbind C r reason
    (⟨true, actions, none⟩, b)

end Broker

end Relay
end TmuxWorktree
