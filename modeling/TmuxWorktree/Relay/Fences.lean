import TmuxWorktree.Relay.Queues
/-!
# Fences — the authorization fences of the broker (`brokerCore.ts`)

A live authorization is checked lazily: each operation asks whether a client or a carrier is still authorized, and the
question itself fences one whose token has expired or whose revocation was committed.  A fence may call the injected
close owner; if that throws, the broker latches and fences everything.  `latchCredentialAuthorityUnavailable` runs once:
within it, and after it, a throw only finds the latch set, which is why the fences take the reaction to a throw as a
parameter.
-/
namespace TmuxWorktree
namespace Relay

/-- `completeBaseReadiness` with the broker's own receipt. -/
def advertisesBase (C : Config) (hello : HostHello) : Bool :=
  C.baseCapabilityReadiness && hello.speaksV2 && requiredCapabilities.all fun c => c ∈ hello.capabilities

/-- The `route.open` of a route. -/
def Route.openFrame (r : Route) : ToHost := .routeOpen r.routeId r.routeFence r.openRequestId r.maxFrameBytes

/-- The `route.unbind` of a route. -/
def Route.unbindFrame (r : Route) (reason : UnbindReason) : ToHost :=
  .routeUnbind r.routeId r.routeFence reason r.lastClientToHostDispatchedSeq

def Client.gateClosed (c : Client) : Client := { c with authorizationState := .fenced }

/-- The gate of a carrier in `carriers` closes. -/
def Carrier.gateClosed (c : Carrier) : Carrier := if c.attached then { c with authorizationState := .fenced } else c

/-- The route is closing; one fenced before it was opened never gets its welcome. -/
def Route.fenced (r : Route) : Route :=
  { r with
    firstApplicationFrame :=
      if r.status = .opening ∧ r.firstApplicationFrame = .pending then .unavailable else r.firstApplicationFrame
    status := .closing }

namespace Broker

def advertisedCapabilities (C : Config) (hello : HostHello) (b : Broker) : List Capability :=
  if advertisesBase C hello then
    requiredCapabilities ++
      (Extension.all.filter fun e => e ∈ b.optionalReady && Capability.optional e ∈ hello.capabilities).map .optional
  else []

def publishDirectory (C : Config) (c : Carrier) (online : Bool) (reason : PresenceReason)
    (previousHostInstanceId : Option Nat) (b : Broker) : Broker :=
  let previous := b.recordOf c.authContext.hostId
  let record : DirectoryRecord :=
    { hostId := c.authContext.hostId
      online := online
      revision := (previous.map DirectoryRecord.revision).getD 0 + 1
      hostEpoch := (c.hello.map HostHello.hostEpoch).or (previous.bind DirectoryRecord.hostEpoch)
      hostInstanceId := (c.hello.map HostHello.hostInstanceId).or (previous.bind DirectoryRecord.hostInstanceId)
      connectorId := if online then c.connectorId else none
      speaksV2 := ((c.hello.map HostHello.speaksV2).or (previous.map DirectoryRecord.speaksV2)).getD false
      capabilities := match c.hello with
        | some hello => b.advertisedCapabilities C hello
        | none => (previous.map DirectoryRecord.capabilities).getD []
      observedAtMs := b.reply.time
      presenceReason := reason
      previousHostInstanceId := previousHostInstanceId }
  { b.read with directory := Keyed.put DirectoryRecord.hostId record b.directory }

/-! ## Questions -/

def observeAuthorizationHighWater (r : Receipt) (b : Broker) : Bool × Broker :=
  if r.authorizationRevision > maxUint64 then (false, b)
  else
    match b.authorizationHighWater with
    | none => (true, { b with authorizationHighWater := some r })
    | some current =>
      if r.authorizationRevision > current.authorizationRevision then (true, { b with authorizationHighWater := some r })
      else if r.authorizationRevision = current.authorizationRevision then
        (r.authorizationFence = current.authorizationFence, b)
      else (true, b)

/-- `isAuthorizationExpired` reads the clock once. -/
def expired (a : Authorization) (b : Broker) : Bool := a.expiresAtMs ≤ b.reply.time

def committedFor (a : Authorization) (b : Broker) : Option CommittedInvalidation :=
  b.committedInvalidations.find? fun x => x.invalidation.hits a

/-- `liveAuthorizationInvalidationFor`. -/
def invalidationFor (a : Authorization) (b : Broker) : Option Invalidation :=
  match b.pendingInvalidations.find? fun x => x.invalidation.hits a with
  | some p => some p.invalidation
  | none => (b.committedFor a).map CommittedInvalidation.invalidation

/-- The two process-lifetime latches. -/
def latched (b : Broker) : Bool := b.liveAuthLatched || b.outputReadyLatched

/-! ## The end of a route -/

/-- What `beginRouteUnbind` and `fenceRouteForAuthorization` do to a route whose carrier is its own: the queued data (and
for a fence the queued control) goes, and the route is closing. -/
def closeRoute (c : Carrier) (r : Route) (withControl : Bool) (b : Broker) : Broker :=
  let b := b.discardQueuedRouteData c r.routeId
  let b := if withControl then b.discardQueuedRouteControl c.serial r.routeId else b
  let b := b.discardQueuedClientData r
  b.setRoute r.routeId Route.fenced

/-- The carrier of a route, if it is active and the one the route was opened on. -/
def ownCarrier (r : Route) (b : Broker) : Option Carrier :=
  (b.carrierAt r.carrierTransportId).filter fun c => c.status = .active ∧ c.connectorId = some r.connectorId

def fenceRouteForAuthorization (C : Config) (r : Route) (reason : CloseReason) (b : Broker) : Broker :=
  if r.status = .closing then b
  else
    match b.ownCarrier r with
    | none => b.dropRoute r
    | some c =>
      let unbind := r.unbindFrame (if reason = .accessExpired then .authExpired else .authRevoked)
      ((b.closeRoute c r true).enqueueCarrierControl C c.serial unbind (some r.routeId)).2

/-! ## Fences -/

/-- A call of the close owner: a throw is answered with `latch`. -/
def callClose (C : Config) (latch : Broker → Broker) (b : Broker) : Broker :=
  if C.onLiveAuthorizationClose then (if b.reply.throws then latch b.read else b.read) else b

def signalClientAuthorizationClose (C : Config) (latch : Broker → Broker) (connectionId : Nat) (b : Broker) : Broker :=
  match b.clientAt connectionId with
  | none => b
  | some client =>
    if client.authorizationCloseSignalled then b
    else (b.setClient connectionId fun c => { c with authorizationCloseSignalled := true }).callClose C latch

def signalHostAuthorizationClose (C : Config) (latch : Broker → Broker) (serial : Nat) (b : Broker) : Broker :=
  match b.carrierOf serial with
  | none => b
  | some c =>
    if c.authorizationCloseSignalled then b
    else (b.setCarrier serial fun c => { c with authorizationCloseSignalled := true }).callClose C latch

def cleanupFencedClientAuthorization (C : Config) (latch : Broker → Broker) (connectionId : Nat) (reason : CloseReason)
    (unbind : Bool) (b : Broker) : Broker :=
  match b.clientAt connectionId with
  | none => b
  | some client =>
    if client.authorizationCleanupState ≠ .idle then b
    else
      let b := b.setClient connectionId fun c => { c with authorizationCleanupState := .applying }
      let b := match b.routeOf client.routeId with
        | some r => if unbind then b.fenceRouteForAuthorization C r reason else b
        | none => b
      let b := b.setClient connectionId fun c => { c with authorizationCleanupState := .complete }
      b.signalClientAuthorizationClose C latch connectionId

def fenceClientAuthorization (C : Config) (latch : Broker → Broker) (connectionId : Nat) (reason : CloseReason)
    (receipt : Option Receipt) (unbind : Bool) (b : Broker) : Broker :=
  match b.clientAt connectionId with
  | none => b
  | some client =>
    if client.authorizationState = .fenced then b
    else
      let auth := client.authContext.atReceipt receipt
      let b := b.setClient connectionId fun c => { c with authorizationState := .fenced, authContext := auth }
      let b := b.setRoute client.routeId fun r => { r with authContext := auth }
      b.cleanupFencedClientAuthorization C latch connectionId reason unbind

def fenceHostRoute (C : Config) (latch : Broker → Broker) (routeId : Nat) (b : Broker) : Broker :=
  match b.routeOf routeId with
  | none => b
  | some r =>
    let b := b.fenceClientAuthorization C latch r.connectionId .hostAuthorizationFenced none false
    -- the close owner may have thrown, so the route is looked up again
    match b.routeOf routeId with
    | none => b
    | some r => b.dropRoute r

/-- The carrier leaves the maps of owners. -/
def disown (C : Config) (c : Carrier) (b : Broker) : Broker :=
  let host := c.authContext.hostId
  let b := if b.active.lookup host = some c.serial then
      let b := { b with active := b.active.filter fun x => x.1 ≠ host }
      if c.hello.isSome && c.connectorId.isSome then b.publishDirectory C c false .disconnected none else b
    else b
  let b := if b.registering.lookup host = some c.serial then
      { b with registering := b.registering.filter fun x => x.1 ≠ host }
    else b
  b.setCarrier c.serial fun c => { c with registration := none }

def cleanupFencedHostAuthorization (C : Config) (latch : Broker → Broker) (serial : Nat) (b : Broker) : Broker :=
  match b.carrierOf serial with
  | none => b
  | some c =>
    if c.authorizationCleanupState ≠ .idle then b
    else
      let b := b.setCarrier serial fun c => { c with authorizationCleanupState := .applying }
      let b := b.disown C c
      let b := c.routeIds.foldl (fun b routeId => b.fenceHostRoute C latch routeId) b
      let b := (b.setCarrier serial fun c => { c with status := .closed }).discardCarrier serial
      let b := b.setCarrier serial fun c => { c with authorizationCleanupState := .complete }
      let b := b.signalHostAuthorizationClose C latch serial
      b.setCarrier serial fun c => { c with attached := false }

/-- `fenceHostAuthorization`; the reason goes to the close owner only. -/
def fenceHostAuthorization (C : Config) (latch : Broker → Broker) (serial : Nat) (receipt : Option Receipt) (b : Broker) :
    Broker :=
  match b.carrierOf serial with
  | none => b
  | some c =>
    if c.authorizationState = .fenced then b
    else
      let b := b.setCarrier serial fun c =>
        { c with authorizationState := .fenced, authContext := c.authContext.atReceipt receipt }
      b.cleanupFencedHostAuthorization C latch serial

/-- The latch while the global fence is applying or applied. -/
def setLatch (b : Broker) : Broker := { b with liveAuthLatched := true }

/-- **`latchCredentialAuthorityUnavailable`**: first every gate closes, then each connection is cleaned up. -/
def latchCredentialAuthorityUnavailable (C : Config) (b : Broker) : Broker :=
  let b := b.setLatch
  if b.globalFence ≠ .idle then b
  else
    let clients := b.clients.map Client.connectionId
    let carriers := (b.carriers.filter Carrier.attached).map Carrier.serial
    let b :=
      { b with
        globalFence := .applying
        clients := b.clients.map Client.gateClosed
        carriers := b.carriers.map Carrier.gateClosed }
    let b := clients.foldl (fun b id =>
      b.cleanupFencedClientAuthorization C setLatch id .credentialAuthorityUnavailable true) b
    let b := carriers.foldl (fun b serial => b.cleanupFencedHostAuthorization C setLatch serial) b
    { b with globalFence := .applied }

/-- `fenceClientAuthorization` as the broker calls it. -/
def fenceClient (C : Config) (connectionId : Nat) (reason : CloseReason) (receipt : Option Receipt) (unbind : Bool)
    (b : Broker) : Broker :=
  b.fenceClientAuthorization C (latchCredentialAuthorityUnavailable C) connectionId reason receipt unbind

/-- `fenceHostAuthorization` as the broker calls it. -/
def fenceHost (C : Config) (serial : Nat) (receipt : Option Receipt) (b : Broker) : Broker :=
  b.fenceHostAuthorization C (latchCredentialAuthorityUnavailable C) serial receipt

/-- **`isCarrierAuthorizationActive`**. -/
def isCarrierAuthorizationActive (C : Config) (c : Carrier) (b : Broker) : Bool × Broker :=
  if c.authorizationState = .fenced || b.latched then (false, b)
  else if b.expired c.authContext then (false, b.read.fenceHost C c.serial none)
  else
    let b := b.read
    match b.committedFor c.authContext with
    | some x => (false, b.fenceHost C c.serial (some x.receipt))
    | none => ((b.invalidationFor c.authContext).isNone, b)

/-- **`isClientAuthorizationActive`**. -/
def isClientAuthorizationActive (C : Config) (client : Client) (b : Broker) : Bool × Broker :=
  if client.authorizationState = .fenced || b.latched then (false, b)
  else if b.expired client.authContext then
    (false, b.read.fenceClient C client.connectionId .accessExpired none true)
  else
    let b := b.read
    match b.committedFor client.authContext with
    | some x => (false, b.fenceClient C client.connectionId x.invalidation.reason (some x.receipt) true)
    | none => ((b.invalidationFor client.authContext).isNone, b)

def admitNewConnectionAuthorization (a : Authorization) (b : Broker) : Bool × Broker :=
  let isExpired := b.expired a
  let b := b.read
  if isExpired || b.latched || (b.invalidationFor a).isSome then (false, b)
  else b.observeAuthorizationHighWater a.receipt

def admitReplacementAuthorization (current replacement : Authorization) (b : Broker) : Bool × Broker :=
  let isExpired := b.expired replacement
  let b := b.read
  if isExpired || b.latched || (b.invalidationFor replacement).isSome then (false, b)
  else if replacement.authorizationRevision < current.authorizationRevision then (false, b)
  else b.observeAuthorizationHighWater replacement.receipt

/-! ## The commit barrier -/

/-- `begin` of `liveAuthorizationFencePort`: the barrier's id, or `none` for a throw. -/
def beginLiveAuthorizationInvalidation (C : Config) (i : Invalidation) (b : Broker) : Option Nat × Broker :=
  if !C.onLiveAuthorizationClose || b.liveAuthLatched then (none, b)
  else
    (some b.fresh, { b.named with pendingInvalidations := b.pendingInvalidations ++ [⟨b.fresh, i⟩] })

def settle (id : Nat) (b : Broker) : Broker :=
  { b with pendingInvalidations := b.pendingInvalidations.filter fun p => p.id ≠ id }

def applyCommitted (C : Config) (x : CommittedInvalidation) (b : Broker) : Broker :=
  let directClients := (b.clients.filter fun c => x.invalidation.hits c.authContext).map Client.connectionId
  let directCarriers := (b.carriers.filter fun c => c.attached && x.invalidation.hits c.authContext).map Carrier.serial
  let b := directClients.foldl (fun b id => b.fenceClient C id x.invalidation.reason (some x.receipt) true) b
  directCarriers.foldl (fun b serial => b.fenceHost C serial (some x.receipt)) b

/-- `committed(receipt)` of a barrier; a malformed receipt is `none`. -/
def commitInvalidation (C : Config) (id : Nat) (receipt : Option Receipt) (b : Broker) : Broker :=
  match b.pendingInvalidations.find? fun p => p.id = id with
  | none => b
  | some p =>
    match receipt with
    | none => (b.settle id).latchCredentialAuthorityUnavailable C
    | some r =>
      let (ok, b) := b.observeAuthorizationHighWater r
      if !ok || b.committedInvalidations.length ≥ maxCommittedInvalidations then
        (b.settle id).latchCredentialAuthorityUnavailable C
      else
        let x : CommittedInvalidation := ⟨p.invalidation, r⟩
        (settle id { b with committedInvalidations := b.committedInvalidations ++ [x] }).applyCommitted C x

/-- `cancelled()` of a barrier. -/
def cancelInvalidation (id : Nat) (b : Broker) : Broker := b.settle id

/-- `failClosed()` of a barrier. -/
def failInvalidation (C : Config) (id : Nat) (b : Broker) : Broker :=
  match b.pendingInvalidations.find? fun p => p.id = id with
  | none => b
  | some _ => (b.settle id).latchCredentialAuthorityUnavailable C

end Broker

end Relay
end TmuxWorktree
