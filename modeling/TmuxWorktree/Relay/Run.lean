import TmuxWorktree.Relay.Frames
/-!
# Run — drains, acknowledgements, sweeps, and runs of the broker (`brokerCore.ts`)
-/
namespace TmuxWorktree
namespace Relay

/-- The first entry of a route's data queue is taken off; a route without data leaves the order, and otherwise the
cursor goes on. -/
def Carrier.popData (c : Carrier) (routeId : Nat) (rest : List QueuedCarrierFrame) : Carrier :=
  if rest.isEmpty then
    Carrier.invalidateIfEmpty
      { c with
        dataQueues := Keyed.erase DataQueue.routeId routeId c.dataQueues
        dataOrder := c.dataOrder.eraseIdx c.dataCursor }
  else
    { c with
      dataQueues := Keyed.update DataQueue.routeId routeId (fun q => { q with entries := rest }) c.dataQueues
      dataCursor := (c.dataCursor + 1) % c.dataOrder.length }

def Carrier.wrapped (c : Carrier) : Carrier := if c.dataCursor ≥ c.dataOrder.length then { c with dataCursor := 0 } else c

/-- Turns of the data loop: each takes a frame or an empty queue off, or is one of a round of blocked ones. -/
def Carrier.drainFuel (c : Carrier) : Nat :=
  ((c.dataQueues.map fun q => q.entries.length).sum + c.dataOrder.length + 1) * (c.dataOrder.length + 1)

/-- Since when a route has been under pressure, in either direction. -/
def Route.pressureSince (r : Route) : Option Nat :=
  match r.clientToHostPressureSinceMs, r.hostToClientPressureSinceMs with
  | some a, some b => some (min a b)
  | some a, none => some a
  | none, o => o

namespace Broker

/-! ## Draining a carrier -/

/-- What a drain has handed out so far. -/
structure Drained where
  frames : Nat := 0
  bytes : Nat := 0
  deriving DecidableEq, Repr

inductive DeliverOutcome where
  | delivered | blocked | fenced
  deriving DecidableEq, Repr

/-- `isCurrentCarrierOwner`, and the authorization of the carrier. -/
def carrierMayDrain (C : Config) (serial : Nat) (b : Broker) : Option Carrier × Broker :=
  match b.carrierOf serial with
  | none => (none, b)
  | some c =>
    if !c.attached || c.status ≠ .active || c.connectorId.isNone || b.active.lookup c.authContext.hostId ≠ some serial then
      (none, b)
    else
      let (ok, b) := b.isCarrierAuthorizationActive C c
      (if ok then some c else none, b)

/-- The gate of `deliver` for `route.open` and `route.data`: the route is the carrier's and its client authorized. -/
def entryMayGo (C : Config) (c : Carrier) (e : QueuedCarrierFrame) (b : Broker) : Bool × Broker :=
  match e.frame, e.route with
  | .routeUnbind .., _ => (true, b)
  | .authControl .., _ => (true, b)
  | .hostAuthExpiring .., _ => (true, b)
  | _, none => (true, b)
  | _, some routeId =>
    match b.routeOf routeId with
    | none => (false, b)
    | some r =>
      match b.clientAt r.connectionId with
      | none => (false, b)
      | some client =>
        if client.routeId ≠ routeId || r.carrierTransportId ≠ c.transportId || c.connectorId ≠ some r.connectorId ||
            routeId ∉ c.routeIds then (false, b)
        else b.isClientAuthorizationActive C client

/-- An entry is moved to in-flight. -/
def dispatch (serial : Nat) (e : QueuedCarrierFrame) (b : Broker) : Broker :=
  let b := b.setCarrier serial fun c =>
    { c with
      queuedBytes := c.queuedBytes - e.wireBytes
      inFlightBytes := c.inFlightBytes + e.wireBytes
      inFlight := c.inFlight ++ [⟨e, b.fresh⟩] }
  let b := match e.route, e.routeSeq with
    | some routeId, some seq => b.setRoute routeId fun r => { r with lastClientToHostDispatchedSeq := seq }
    | _, _ => b
  b.named.emit (.dispatched serial e.frame)

/-- `deliver`: the entry is the head of its queue. -/
def deliver (C : Config) (serial maxFrames maxBytes : Nat) (d : Drained) (e : QueuedCarrierFrame) (b : Broker) :
    DeliverOutcome × Drained × Broker :=
  match b.carrierMayDrain C serial with
  | (none, b) => (.fenced, d, b)
  | (some c, b) =>
    let (ok, b) := b.entryMayGo C c e
    if !ok then (.fenced, d, b)
    else if d.frames ≥ maxFrames || d.bytes + e.wireBytes > maxBytes then (.blocked, d, b)
    else (.delivered, ⟨d.frames + 1, d.bytes + e.wireBytes⟩, b.dispatch serial e)

/-- The loop over the control queue: `false` says that the drain ends here. -/
def drainControl (C : Config) (serial maxFrames maxBytes : Nat) : Nat → Drained → Broker → Bool × Drained × Broker
  | 0, d, b => (true, d, b)
  | fuel + 1, d, b =>
    match (b.carrierOf serial).bind fun c => c.controlQueue.head? with
    | none => (true, d, b)
    | some e =>
      match b.deliver C serial maxFrames maxBytes d e with
      | (.delivered, d, b) =>
        let b := b.setCarrier serial fun c => Carrier.invalidateIfEmpty { c with controlQueue := c.controlQueue.tail }
        drainControl C serial maxFrames maxBytes fuel d b
      | (_, d, b) => (false, d, b)

/-- The loop over the data queues; `scans` counts the turns without a delivery. -/
def drainData (C : Config) (serial maxFrames maxBytes : Nat) : Nat → Nat → Drained → Broker → Drained × Broker
  | 0, _, d, b => (d, b)
  | fuel + 1, scans, d, b =>
    match b.carrierOf serial with
    | none => (d, b)
    | some c =>
      if c.dataOrder.isEmpty || d.frames ≥ maxFrames then (d, b)
      else
        let b := b.setCarrier serial Carrier.wrapped
        let c := Carrier.wrapped c
        match c.dataOrder[c.dataCursor]? with
        | none => (d, b)
        | some routeId =>
          match (c.dataQueue routeId).map DataQueue.entries with
          | none | some [] =>
            let b := b.setCarrier serial fun c => Carrier.invalidateIfEmpty
              { c with
                dataQueues := Keyed.erase DataQueue.routeId routeId c.dataQueues
                dataOrder := c.dataOrder.eraseIdx c.dataCursor }
            drainData C serial maxFrames maxBytes fuel 0 d b
          | some (e :: rest) =>
            match b.deliver C serial maxFrames maxBytes d e with
            | (.fenced, d, b) => (d, b)
            | (.blocked, d, b) =>
              let b := b.setCarrier serial fun c => { c with dataCursor := (c.dataCursor + 1) % c.dataOrder.length }
              if scans + 1 ≥ c.dataOrder.length then (d, b)
              else drainData C serial maxFrames maxBytes fuel (scans + 1) d b
            | (.delivered, d, b) =>
              drainData C serial maxFrames maxBytes fuel 0 d (b.setCarrier serial fun c => c.popData routeId rest)

/-- **`drainHostCarrier`**: what was handed out is in the trace. -/
def drainHostCarrier (C : Config) (transportId maxFrames maxBytes : Nat) (controlOnly : Bool) (b : Broker) : Broker :=
  match b.carrierAt transportId with
  | none => b
  | some c =>
    match b.carrierMayDrain C c.serial with
    | (none, b) => b
    | (some c, b) =>
      match b.drainControl C c.serial maxFrames maxBytes (c.controlQueue.length + 1) {} with
      | (false, _, b) => b
      | (true, d, b) =>
        if controlOnly then b
        else
          match b.carrierOf c.serial with
          | none => b
          | some c => (b.drainData C c.serial maxFrames maxBytes c.drainFuel 0 d).2

/-- **`acknowledgeHostDelivery`**. -/
def acknowledgeHostDelivery (C : Config) (transportId deliveryId : Nat) (b : Broker) : Result × Broker :=
  match b.carrierAt transportId with
  | none => (failure .invalidEnvelope "Carrier delivery acknowledgement is stale", b)
  | some c =>
    match c.inFlight.find? fun e => e.deliveryId = deliveryId with
    | none => (failure .invalidEnvelope "Carrier delivery acknowledgement is stale", b)
    | some e =>
      let b := b.setCarrier c.serial fun c =>
        { c with
          inFlight := c.inFlight.filter fun e => e.deliveryId ≠ deliveryId
          inFlightBytes := c.inFlightBytes - e.wireBytes }
      let b := match e.route, e.routeSeq with
        | some routeId, some _ => b.setRoute routeId fun r =>
          { r with
            clientToHostBufferedBytes := r.clientToHostBufferedBytes - e.rawBytes
            clientToHostFrames := r.clientToHostFrames - 1 }
        | _, _ => b
      let b := if c.outputQueueEmpty then b else b.signalCarrierOutputReady C c.serial false
      let (actions, b) := b.collectCarrierResumes c.serial
      (⟨true, actions, none⟩, b)

/-! ## Draining a client -/

/-- The gate of `drainClient` for one entry: the client is authorized and the route and its carrier are its own. -/
def clientMayDrain (C : Config) (connectionId : Nat) (e : QueuedClientFrame) (b : Broker) : Bool × Broker :=
  match b.clientAt connectionId with
  | none => (false, b)
  | some client =>
    let (ok, b) := b.isClientAuthorizationActive C client
    if !ok then (false, b)
    else
      match b.routeOf e.route with
      | none => (false, b)
      | some r =>
        let owner := (b.ownCarrier r).filter fun c => b.active.lookup r.authContext.hostId = some c.serial
        match owner with
        | none => (false, b)
        | some c =>
          if r.connectionId ≠ connectionId || client.routeId ≠ e.route || r.status ≠ .opened then (false, b)
          else b.isCarrierAuthorizationActive C c

def drainClientLoop (C : Config) (connectionId maxFrames maxBytes : Nat) : Nat → Drained → Broker → Broker
  | 0, _, b => b
  | fuel + 1, d, b =>
    match (b.clientAt connectionId).bind fun c => c.queue.head? with
    | none => b
    | some e =>
      if d.frames ≥ maxFrames then b
      else
        let (ok, b) := b.clientMayDrain C connectionId e
        if !ok then b
        else if d.bytes + e.bytes.byteLength > maxBytes then b
        else
          let b := b.setClient connectionId fun c =>
            { c with
              queue := c.queue.tail
              outputReadyEpoch := if c.queue.tail.isEmpty then c.outputReadyEpoch + 1 else c.outputReadyEpoch
              inFlight := c.inFlight ++ [⟨e, b.fresh⟩] }
          let b := b.named.emit (.handed connectionId e.route e.bytes)
          drainClientLoop C connectionId maxFrames maxBytes fuel ⟨d.frames + 1, d.bytes + e.bytes.byteLength⟩ b

/-- **`drainClient`**. -/
def drainClient (C : Config) (connectionId maxFrames maxBytes : Nat) (b : Broker) : Broker :=
  match b.clientAt connectionId with
  | none => b
  | some client =>
    if b.liveAuthLatched then b
    else
      let (ok, b) := b.isClientAuthorizationActive C client
      if !ok then b else b.drainClientLoop C connectionId maxFrames maxBytes client.queue.length {}

/-- **`acknowledgeClientDelivery`**. -/
def acknowledgeClientDelivery (connectionId deliveryId : Nat) (b : Broker) : Result × Broker :=
  match b.clientAt connectionId with
  | none => (failure .invalidEnvelope "Client delivery acknowledgement is stale", b)
  | some client =>
    match client.inFlight.find? fun e => e.deliveryId = deliveryId with
    | none => (failure .invalidEnvelope "Client delivery acknowledgement is stale", b)
    | some e =>
      let b := b.setClient connectionId fun c => { c with inFlight := c.inFlight.filter fun e => e.deliveryId ≠ deliveryId }
      match b.routeOf e.route with
      | none => (⟨true, [], none⟩, b)
      | some r =>
        let b := b.releaseHostToClient r [e.toQueuedClientFrame]
        match b.carrierAt r.carrierTransportId with
        | none => (⟨true, [], none⟩, b)
        | some c =>
          let (actions, b) := b.collectCarrierResumes c.serial
          (⟨true, actions, none⟩, b)

/-! ## Sweeps and rechecks -/

/-- One turn of the loop of `sweepBackpressure`. -/
def sweepRoute (C : Config) (serial time routeId : Nat) (b : Broker) : List Action × Broker :=
  match b.carrierOf serial, b.routeOf routeId with
  | some c, some r =>
    if r.carrierTransportId ≠ c.transportId then
      ([], b.setCarrier serial fun c => { c with routeIds := c.routeIds.erase routeId })
    else if r.status ≠ .opened then ([], b)
    else
      match Route.pressureSince r with
      | none => ([], b)
      | some since =>
        if (time : Int) - since < backpressureCloseMs then ([], b)
        else
          let (actions, b) := b.beginRouteUnbind C r .slowConsumer
          (actions ++ [.closeClient r.connectionId r.connectionIncarnation 1013 "sustained_backpressure"], b)
  | _, _ => ([], b.setCarrier serial fun c => { c with routeIds := c.routeIds.erase routeId })

def sweepRoutes (C : Config) (serial time : Nat) : List Nat → Broker → List Action × Broker
  | [], b => ([], b)
  | routeId :: rest, b =>
    let (first, b) := b.sweepRoute C serial time routeId
    let (more, b) := sweepRoutes C serial time rest b
    (first ++ more, b)

/-- One terminal close of the carrier is kept, at the end. -/
def closeHostLast (actions : List Action) : List Action :=
  let closes := fun (a : Action) => match a with
    | .closeHost .. => true
    | _ => false
  actions.filter (fun a => !closes a) ++ (actions.find? closes).toList

/-- **`sweepBackpressure`**. -/
def sweepBackpressure (C : Config) (transportId : Nat) (b : Broker) : Result × Broker :=
  match b.carrierAt transportId with
  | none => (⟨true, [], none⟩, b)
  | some c =>
    if c.status ≠ .active then (⟨true, [], none⟩, b)
    else
      let time := b.reply.time
      let (actions, b) := b.read.sweepRoutes C c.serial time c.routeIds
      (⟨true, closeHostLast actions, none⟩, b)

/-- `recheckConnectionAccessExpiry` of a client. -/
def recheckClientExpiry (C : Config) (connectionId connectionIncarnation : Nat) (b : Broker) : Broker :=
  match b.clientAt connectionId with
  | none => b
  | some client =>
    if b.liveAuthLatched || client.connectionIncarnation ≠ connectionIncarnation ||
        client.authorizationState ≠ .active then b
    else if b.expired client.authContext then b.read.fenceClient C connectionId .accessExpired none false
    else b.read

/-- `recheckConnectionAccessExpiry` of a host. -/
def recheckHostExpiry (C : Config) (transportId connectionIncarnation : Nat) (b : Broker) : Broker :=
  match b.carrierAt transportId with
  | none => b
  | some c =>
    if b.liveAuthLatched || c.connectionIncarnation ≠ connectionIncarnation || c.authorizationState ≠ .active then b
    else if b.expired c.authContext then b.read.fenceHost C c.serial none
    else b.read

def recheckHostWarning (C : Config) (transportId connectionIncarnation jti expiresAtMs : Nat) (b : Broker) :
    List Action × Broker :=
  match b.carrierAt transportId with
  | none => ([], b)
  | some c =>
    if b.liveAuthLatched || c.connectionIncarnation ≠ connectionIncarnation || c.authorizationState ≠ .active ||
        c.authContext.jti ≠ jti || c.authContext.expiresAtMs ≠ expiresAtMs then ([], b)
    else if b.expired c.authContext then ([], b.read)
    else
      let b := b.read
      let early := (b.reply.time : Int) < (expiresAtMs : Int) - authExpiringWarningLeadMs
      let b := b.read
      if early || c.authExpiringWarning = some ⟨jti, expiresAtMs, true⟩ then ([], b)
      else if c.status ≠ .active || c.connectorId.isNone then
        ([], b.setCarrier c.serial fun c => { c with authExpiringWarning := some ⟨jti, expiresAtMs, false⟩ })
      else
        let (ok, b) := b.enqueueHostAuthExpiringWarning C c jti expiresAtMs
        (if ok then [] else [controlBackpressure c], b)

def recheckClientWarning (C : Config) (connectionId connectionIncarnation jti expiresAtMs : Nat) (b : Broker) :
    List Action × Broker :=
  match b.clientAt connectionId with
  | none => ([], b)
  | some client =>
    if b.liveAuthLatched || client.connectionIncarnation ≠ connectionIncarnation ||
        client.authorizationState ≠ .active || client.authContext.jti ≠ jti ||
        client.authContext.expiresAtMs ≠ expiresAtMs then ([], b)
    else if b.expired client.authContext then ([], b.read)
    else
      let b := b.read
      let early := (b.reply.time : Int) < (expiresAtMs : Int) - authExpiringWarningLeadMs
      let b := b.read
      if early || client.authExpiringWarning = some ⟨jti, expiresAtMs, true⟩ then ([], b)
      else
        match (b.routeOf client.routeId).filter fun r => r.status = .opened with
        | none =>
          ([], b.setClient connectionId fun c => { c with authExpiringWarning := some ⟨jti, expiresAtMs, false⟩ })
        | some r =>
          let (_, actions, b) := b.enqueueClientAuthExpiringWarning C client r jti expiresAtMs
          (actions, b)

end Broker

/-! ## Runs -/

/-- The operations of the broker, as its adapters and the credential authority call them. -/
inductive Op where
  | attach (transportId : Nat) (a : Authorization) (connectionIncarnation : Nat)
  | receive (transportId : Nat) (frame : Option FromHost)
  | authDecision (id : Nat) (decision : AuthDecision)
  | controlDelivered (transportId deliveryId : Nat)
  | controlRejected (transportId deliveryId : Nat)
  | disconnect (transportId : Nat)
  | drainHost (transportId maxFrames maxBytes : Nat) (controlOnly : Bool)
  | ackHost (transportId deliveryId : Nat)
  | sweep (transportId : Nat)
  | open (connectionId : Nat) (a : Authorization) (connectionIncarnation : Nat)
  | forward (connectionId : Nat) (bytes : Bytes)
  | unbind (connectionId : Nat) (reason : UnbindReason)
  | drainClient (connectionId maxFrames maxBytes : Nat)
  | ackClient (connectionId deliveryId : Nat)
  | inspectClient (a : Authorization)
  | inspectHost (a : Authorization)
  | recheckClient (connectionId connectionIncarnation : Nat)
  | recheckHost (transportId connectionIncarnation : Nat)
  | warnClient (connectionId connectionIncarnation jti expiresAtMs : Nat)
  | warnHost (transportId connectionIncarnation jti expiresAtMs : Nat)
  | withdraw (e : Extension)
  | begin (i : Invalidation)
  | commit (id : Nat) (receipt : Option Receipt)
  | cancel (id : Nat)
  | fail (id : Nat)
  | failClosed
  deriving DecidableEq, Repr

/-- `inspectHostAdmission`: whether the authorization is admitted. -/
def Broker.inspectHostAdmission (a : Authorization) (b : Broker) : Bool × Broker :=
  if !a.closed || a.role ≠ .host || b.latched then (false, b)
  else
    let fence := b.invalidationFor a
    let isExpired := b.expired a
    let b := b.read
    let (ok, b) := if isExpired then (false, b) else b.observeAuthorizationHighWater a.receipt
    (ok && fence.isNone, b)

def Op.run (C : Config) (op : Op) (b : Broker) : Broker :=
  match op with
  | .attach t a i => (b.attachHostCarrier t a i).2
  | .receive t f => (b.receiveHostFrame C t f).2
  | .authDecision id d => (b.settleAuthControl C id d).2
  | .controlDelivered t d => (b.acknowledgeHostControlDelivery C t d).2
  | .controlRejected t d => (b.rejectHostControlDelivery t d).2
  | .disconnect t => (b.disconnectHost C t).2
  | .drainHost t n k o => b.drainHostCarrier C t n k o
  | .ackHost t d => (b.acknowledgeHostDelivery C t d).2
  | .sweep t => (b.sweepBackpressure C t).2
  | .open id a i => (b.openClientRoute C id a i).2
  | .forward id bytes => (b.forwardClientFrame C id bytes).2
  | .unbind id reason => (b.unbindClient C id reason).2
  | .drainClient id n k => b.drainClient C id n k
  | .ackClient id d => (b.acknowledgeClientDelivery id d).2
  | .inspectClient a => if a.closed && a.role = .client then (b.inspectClientAdmission C a).2 else b
  | .inspectHost a => (b.inspectHostAdmission a).2
  | .recheckClient id i => b.recheckClientExpiry C id i
  | .recheckHost t i => b.recheckHostExpiry C t i
  | .warnClient id i j e => (b.recheckClientWarning C id i j e).2
  | .warnHost t i j e => (b.recheckHostWarning C t i j e).2
  | .withdraw e => b.withdrawOptionalCapability e
  | .begin i => (b.beginLiveAuthorizationInvalidation C i).2
  | .commit id r => b.commitInvalidation C id r
  | .cancel id => b.cancelInvalidation id
  | .fail id => b.failInvalidation C id
  | .failClosed => b.latchCredentialAuthorityUnavailable C

/-- The broker of a new process. -/
def Broker.start (optionalReady : List Extension) (replies : Nat → Reply) : Broker :=
  { optionalReady := optionalReady, replies := replies }

/-- The state after a list of operations. -/
def run (C : Config) (ops : List Op) (b : Broker) : Broker := ops.foldl (fun b op => op.run C b) b

end Relay
end TmuxWorktree
