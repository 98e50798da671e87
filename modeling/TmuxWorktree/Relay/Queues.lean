import Mathlib.Algebra.Order.Ring.Int
import TmuxWorktree.Relay.State
/-!
# Queues — the bounded queues of the broker and their accounting (`brokerCore.ts`)

The control queue and the per-route data queues of a carrier, the queue of a client, the byte and frame counters charged
for them, and the pressure flags that follow the counters.
-/
namespace TmuxWorktree
namespace Relay

/-! ## Counters -/

/-- Amounts taken off a counter one after the other, never below zero: the `Math.max(0, …)` of a release. -/
def release (total : Int) (amounts : List Nat) : Int := amounts.foldl (fun (t : Int) (n : Nat) => max 0 (t - n)) total

def wireSum (entries : List QueuedCarrierFrame) : Int := (entries.map fun e => (e.wireBytes : Int)).sum

def rawSum (entries : List QueuedCarrierFrame) : Int := (entries.map fun e => (e.rawBytes : Int)).sum

def Carrier.bufferedBytes (c : Carrier) : Int := c.queuedBytes + c.inFlightBytes + c.hostToClientBufferedBytes

def Carrier.outputQueueEmpty (c : Carrier) : Bool := c.controlQueue.isEmpty && c.dataQueues.isEmpty

def Carrier.dataQueue (c : Carrier) (routeId : Nat) : Option DataQueue := Keyed.find DataQueue.routeId routeId c.dataQueues

def Carrier.invalidateIfEmpty (c : Carrier) : Carrier :=
  if c.outputQueueEmpty then { c with outputReadyEpoch := c.outputReadyEpoch + 1 } else c

/-- The data queue of a route is taken off: `discardQueuedRouteData`, on the carrier's side. -/
def Carrier.withoutData (c : Carrier) (routeId : Nat) : Carrier :=
  match c.dataQueue routeId with
  | none => c
  | some q =>
    let index := c.dataOrder.idxOf routeId
    let order := c.dataOrder.erase routeId
    let shifted := if index < c.dataCursor then c.dataCursor - 1 else c.dataCursor
    let cursor := if routeId ∈ c.dataOrder then (if shifted ≥ order.length then 0 else shifted) else c.dataCursor
    Carrier.invalidateIfEmpty
      { c with
        queuedBytes := c.queuedBytes - wireSum q.entries
        dataQueues := Keyed.erase DataQueue.routeId routeId c.dataQueues
        dataOrder := order
        dataCursor := cursor }

/-- `discardQueuedRouteControl`. -/
def Carrier.withoutControl (c : Carrier) (routeId : Nat) : Carrier :=
  Carrier.invalidateIfEmpty
    { c with
      queuedBytes := c.queuedBytes - wireSum (c.controlQueue.filter fun e => e.route == some routeId)
      controlQueue := c.controlQueue.filter fun e => e.route != some routeId }

/-- A data entry is put on the queue of its route. -/
def Carrier.pushData (c : Carrier) (routeId : Nat) (e : QueuedCarrierFrame) : Carrier :=
  match c.dataQueue routeId with
  | none =>
    { c with
      dataQueues := c.dataQueues ++ [⟨routeId, [e]⟩]
      dataOrder := c.dataOrder ++ [routeId]
      queuedBytes := c.queuedBytes + e.wireBytes }
  | some _ =>
    { c with
      dataQueues := Keyed.update DataQueue.routeId routeId (fun q => { q with entries := q.entries ++ [e] }) c.dataQueues
      queuedBytes := c.queuedBytes + e.wireBytes }

/-- `discardCarrier`, on the carrier's side. -/
def Carrier.discarded (c : Carrier) : Carrier :=
  { c with
    controlQueue := []
    dataQueues := []
    routeIds := []
    dataOrder := []
    dataCursor := 0
    outputReadyEpoch := c.outputReadyEpoch + 1
    queuedBytes := 0
    inFlight := []
    inFlightBytes := 0
    hostToClientBufferedBytes := 0 }

/-- Entries leave the host-to-client side of a route. -/
def Route.releasing (r : Route) (entries : List QueuedClientFrame) : Route :=
  { r with
    hostToClientBufferedBytes := release r.hostToClientBufferedBytes (entries.map fun e => e.bytes.byteLength)
    hostToClientFrames := release r.hostToClientFrames (entries.map fun _ => 1) }

def Carrier.releasing (c : Carrier) (entries : List QueuedClientFrame) : Carrier :=
  { c with
    hostToClientBufferedBytes := release c.hostToClientBufferedBytes
      ((entries.filter QueuedClientFrame.carrierAccounted).map fun e => e.bytes.byteLength) }

namespace Broker

/-! ## Ready signals -/

/-- A call of the output-ready port: a throw latches the broker. -/
def callReady (b : Broker) : Broker := { b.read with outputReadyLatched := b.outputReadyLatched || b.reply.throws }

def signalCarrierOutputReady (C : Config) (serial : Nat) (newQueueEpoch : Bool) (b : Broker) : Broker :=
  let b := if newQueueEpoch then b.setCarrier serial fun c => { c with outputReadyEpoch := c.outputReadyEpoch + 1 } else b
  if !C.outputReadyPort || b.outputReadyLatched || (b.carrierOf serial).all Carrier.outputQueueEmpty then b
  else b.callReady

def signalClientOutputReady (C : Config) (connectionId : Nat) (b : Broker) : Broker :=
  let b := b.setClient connectionId fun c => { c with outputReadyEpoch := c.outputReadyEpoch + 1 }
  if !C.outputReadyPort || b.outputReadyLatched || (b.clientAt connectionId).all (fun c => c.queue.isEmpty) then b
  else b.callReady

/-! ## Admission to the queues -/

/-- A control entry is put on the queue. -/
def pushControl (serial : Nat) (e : QueuedCarrierFrame) (b : Broker) : Broker :=
  b.setCarrier serial fun c =>
    { c with controlQueue := c.controlQueue ++ [e], queuedBytes := c.queuedBytes + e.wireBytes }

def controlEntry (C : Config) (frame : ToHost) (route : Option Nat) : QueuedCarrierFrame :=
  ⟨frame, C.codec.wireBytes frame, route, 0, none⟩

def enqueueCarrierControl (C : Config) (serial : Nat) (frame : ToHost) (route : Option Nat) (b : Broker) : Bool × Broker :=
  match b.carrierOf serial with
  | none => (false, b)
  | some c =>
    let entry := controlEntry C frame route
    if c.bufferedBytes + entry.wireBytes > carrierBufferedBytes then (false, b)
    else
      let b := b.pushControl serial entry
      (true, if c.outputQueueEmpty then b.signalCarrierOutputReady C serial true else b)

/-- A client frame is put on its route: the queue, the charges, and the number it takes. -/
def pushEntry (serial : Nat) (r : Route) (e : QueuedCarrierFrame) (bytes : Bytes) (b : Broker) : Broker :=
  let b := b.setCarrier serial fun c => c.pushData r.routeId e
  let b := b.setRoute r.routeId fun r =>
    { r with
      clientToHostBufferedBytes := r.clientToHostBufferedBytes + bytes.byteLength
      clientToHostFrames := r.clientToHostFrames + 1
      nextClientToHostSeq := r.nextClientToHostSeq + 1 }
  b.emit (.forwarded r.routeId r.nextClientToHostSeq bytes)

def dataEntry (C : Config) (r : Route) (bytes : Bytes) : QueuedCarrierFrame :=
  let frame := ToHost.routeData r.routeId r.routeFence r.nextClientToHostSeq bytes
  ⟨frame, C.codec.wireBytes frame, some r.routeId, bytes.byteLength, some r.nextClientToHostSeq⟩

/-- `enqueueCarrierData` and, when it took the frame, the advance of `nextClientToHostSeq`. -/
def enqueueCarrierData (C : Config) (c : Carrier) (r : Route) (bytes : Bytes) (b : Broker) : Bool × Broker :=
  let entry := dataEntry C r bytes
  if r.clientToHostFrames + 1 > maxQueuedRouteFrames ||
      r.clientToHostBufferedBytes + bytes.byteLength > routeBufferedBytesPerDirection ||
      c.bufferedBytes + entry.wireBytes > carrierBufferedBytes - carrierControlReserveBytes then (false, b)
  else
    let b := b.pushEntry c.serial r entry bytes
    (true, if c.outputQueueEmpty then b.signalCarrierOutputReady C c.serial true else b)

/-- The test before a frame is queued for a client at the charge of the carrier. -/
def hostToClientFull (c : Carrier) (r : Route) (bytes : Bytes) : Bool :=
  r.hostToClientFrames + 1 > maxQueuedRouteFrames ||
    r.hostToClientBufferedBytes + bytes.byteLength > routeBufferedBytesPerDirection ||
    c.bufferedBytes + bytes.byteLength > carrierBufferedBytes - carrierControlReserveBytes

/-- A frame is put on the queue of a route's client; `charged` says that the carrier accounts for it. -/
def pushFrame (serial : Nat) (r : Route) (bytes : Bytes) (charged : Bool) (b : Broker) : Broker :=
  let b := b.setRoute r.routeId fun r =>
    { r with
      hostToClientFrames := r.hostToClientFrames + 1
      hostToClientBufferedBytes := r.hostToClientBufferedBytes + bytes.byteLength }
  let b := b.setCarrier serial fun c =>
    { c with hostToClientBufferedBytes := c.hostToClientBufferedBytes + if charged then bytes.byteLength else 0 }
  b.setClient r.connectionId fun c => { c with queue := c.queue ++ [⟨bytes, r.routeId, charged⟩] }

/-- `pushFrame` and the signal of a queue that was empty. -/
def pushClient (C : Config) (serial : Nat) (r : Route) (bytes : Bytes) (charged : Bool) (b : Broker) : Broker :=
  let wasEmpty := (b.clientAt r.connectionId).all fun c => c.queue.isEmpty
  let b := b.pushFrame serial r bytes charged
  if wasEmpty then b.signalClientOutputReady C r.connectionId else b

/-! ## Discards -/

/-- `releaseHostToClientBytes`, for a list of frames. -/
def releaseHostToClient (r : Route) (entries : List QueuedClientFrame) (b : Broker) : Broker :=
  let b := b.setRoute r.routeId fun r => r.releasing entries
  match b.carrierAt r.carrierTransportId with
  | none => b
  | some c => b.setCarrier c.serial fun c => c.releasing entries

def discardQueuedRouteData (c : Carrier) (routeId : Nat) (b : Broker) : Broker :=
  match c.dataQueue routeId with
  | none => b
  | some q =>
    (b.setCarrier c.serial fun c => c.withoutData routeId).setRoute routeId fun r =>
      { r with
        clientToHostBufferedBytes := r.clientToHostBufferedBytes - rawSum q.entries
        clientToHostFrames := r.clientToHostFrames - q.entries.length }

def discardQueuedRouteControl (serial routeId : Nat) (b : Broker) : Broker :=
  b.setCarrier serial fun c => c.withoutControl routeId

def discardQueuedClientData (r : Route) (b : Broker) : Broker :=
  match b.clientAt r.connectionId with
  | none => b
  | some client =>
    (b.releaseHostToClient r client.queue).setClient r.connectionId fun c =>
      { c with queue := [], outputReadyEpoch := c.outputReadyEpoch + 1 }

/-- The part of `dropRoute` that frees what the carrier holds of the route. -/
def dropFromCarrier (r : Route) (b : Broker) : Broker :=
  match b.carrierAt r.carrierTransportId with
  | none => b
  | some c =>
    ((b.discardQueuedRouteData c r.routeId).discardQueuedRouteControl c.serial r.routeId).setCarrier c.serial fun c =>
      { c with routeIds := c.routeIds.erase r.routeId }

/-- The part of `dropRoute` that frees what the client holds, and the client. -/
def dropFromClient (r : Route) (b : Broker) : Broker :=
  match b.clientAt r.connectionId with
  | none => b
  | some client =>
    let b := b.releaseHostToClient r (client.queue ++ client.inFlight.map InFlightClientFrame.toQueuedClientFrame)
    { b with clients := Keyed.erase Client.connectionId r.connectionId b.clients }

/-- **`dropRoute`**, of a route that is in `routes`. -/
def dropRoute (r : Route) (b : Broker) : Broker :=
  let b := dropFromClient r (dropFromCarrier r b)
  { b with routes := Keyed.erase Route.routeId r.routeId b.routes }

/-- `discardCarrier`, with what its in-flight frames had charged to their routes. -/
def discardCarrier (serial : Nat) (b : Broker) : Broker :=
  match b.carrierOf serial with
  | none => b
  | some c =>
    let b := c.inFlight.foldl (fun b e =>
      match e.route, e.routeSeq with
      | some routeId, some _ => b.setRoute routeId fun r =>
        { r with
          clientToHostBufferedBytes := max 0 (r.clientToHostBufferedBytes - e.rawBytes)
          clientToHostFrames := max 0 (r.clientToHostFrames - 1) }
      | _, _ => b) b
    b.setCarrier serial Carrier.discarded

/-! ## Pressure -/

def clientToHostAtHighWater (c : Carrier) (r : Route) : Bool :=
  r.clientToHostFrames ≥ maxQueuedRouteFrames || r.clientToHostBufferedBytes ≥ routeBufferedBytesPerDirection ||
    c.bufferedBytes ≥ carrierBufferedBytes - carrierControlReserveBytes

def hostToClientAtHighWater (c : Carrier) (r : Route) : Bool :=
  r.hostToClientFrames ≥ maxQueuedRouteFrames || r.hostToClientBufferedBytes ≥ routeBufferedBytesPerDirection ||
    c.bufferedBytes ≥ carrierBufferedBytes - carrierControlReserveBytes

def markClientPressure (routeId : Nat) (b : Broker) : List Action × Broker :=
  match b.routeOf routeId with
  | none => ([], b)
  | some r =>
    let time := b.reply.time
    let b := if r.clientToHostPressureSinceMs.isNone then
        b.read.setRoute routeId fun r => { r with clientToHostPressureSinceMs := some time }
      else b
    if r.clientReadPaused then ([], b)
    else
      ([.pauseClient r.connectionId r.connectionIncarnation],
        (b.setRoute routeId fun r => { r with clientReadPaused := true }).emit (.paused routeId .clientToHost))

def markHostPressure (routeId : Nat) (b : Broker) : List Action × Broker :=
  match b.routeOf routeId with
  | none => ([], b)
  | some r =>
    let time := b.reply.time
    let b := if r.hostToClientPressureSinceMs.isNone then
        b.read.setRoute routeId fun r => { r with hostToClientPressureSinceMs := some time }
      else b
    if r.hostReadPaused then ([], b)
    else
      ([.pauseHostRoute r.carrierTransportId r.carrierConnectionIncarnation routeId],
        (b.setRoute routeId fun r => { r with hostReadPaused := true }).emit (.paused routeId .hostToClient))

def maybeResumeClientPressure (c : Carrier) (r : Route) (b : Broker) : List Action × Broker :=
  if r.status ≠ .opened || !r.clientReadPaused || r.clientToHostBufferedBytes ≥ routeLowWaterBytesPerDirection ||
      r.clientToHostFrames ≥ routeLowWaterFramesPerDirection || c.bufferedBytes ≥ carrierLowWaterBytes then ([], b)
  else
    ([.resumeClient r.connectionId r.connectionIncarnation],
      (b.setRoute r.routeId fun r => { r with clientReadPaused := false, clientToHostPressureSinceMs := none }).emit
        (.resumed r.routeId .clientToHost))

def maybeResumeHostPressure (r : Route) (b : Broker) : List Action × Broker :=
  match b.carrierAt r.carrierTransportId with
  | none => ([], b)
  | some c =>
    if r.status ≠ .opened || !r.hostReadPaused || r.hostToClientBufferedBytes ≥ routeLowWaterBytesPerDirection ||
        r.hostToClientFrames ≥ routeLowWaterFramesPerDirection || c.bufferedBytes ≥ carrierLowWaterBytes then ([], b)
    else
      ([.resumeHostRoute r.carrierTransportId r.carrierConnectionIncarnation r.routeId],
        (b.setRoute r.routeId fun r => { r with hostReadPaused := false, hostToClientPressureSinceMs := none }).emit
          (.resumed r.routeId .hostToClient))

/-- One turn of the loop of `collectCarrierResumes`: a route id without a route of this carrier is taken off. -/
def resumeRoute (serial routeId : Nat) (b : Broker) : List Action × Broker :=
  match b.carrierOf serial, b.routeOf routeId with
  | some c, some r =>
    if r.carrierTransportId ≠ c.transportId then
      ([], b.setCarrier serial fun c => { c with routeIds := c.routeIds.erase routeId })
    else
      let (first, b) := b.maybeResumeClientPressure c r
      let (second, b) := b.maybeResumeHostPressure r
      (first ++ second, b)
  | _, _ => ([], b.setCarrier serial fun c => { c with routeIds := c.routeIds.erase routeId })

def resumeRoutes (serial : Nat) : List Nat → Broker → List Action × Broker
  | [], b => ([], b)
  | routeId :: rest, b =>
    let (first, b) := b.resumeRoute serial routeId
    let (more, b) := resumeRoutes serial rest b
    (first ++ more, b)

def collectCarrierResumes (serial : Nat) (b : Broker) : List Action × Broker :=
  b.resumeRoutes serial (((b.carrierOf serial).map Carrier.routeIds).getD [])

end Broker

end Relay
end TmuxWorktree
