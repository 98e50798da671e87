import TmuxWorktree.Relay.Run
import Mathlib.Logic.Relation
/-!
# Moves — what the operations of the broker do to its state

`Move` lists the changes an operation is made of, each with what the code has checked when it makes the change, so that an
invariant is a fact about moves and an operation is walked only once, to show that it makes moves.

A carrier is torn down in several steps, and a close owner that throws in between has everything else torn down as well.
A walk therefore goes over pairs: beside the broker, the serial numbers of the carriers whose teardown has begun, about
which an invariant may say less.  Every operation begins and ends with none.

`bare` forgets what no queue, counter, route or owner depends on: authorizations beyond the host they are for, ready
epochs, warnings, negotiated extensions.  A stretch that keeps the bare state is `Quiet`.
-/
namespace TmuxWorktree
namespace Relay

/-! ## The bare state -/

def Authorization.bare (a : Authorization) : Authorization := ⟨.host, a.hostId, 0, 0, none, 0, 0, 0, 0, 0⟩

def Carrier.bare (c : Carrier) : Carrier :=
  { c with
    outputReadyEpoch := 0
    authContext := c.authContext.bare
    authorizationState := .active
    authorizationCloseSignalled := false
    authorizationCleanupState := .idle
    authExpiringWarning := none
    dataCursor := 0 }

def Route.bare (r : Route) : Route :=
  { r with
    authContext := r.authContext.bare
    maxFrameBytes := 0
    agentExtensionDispositions := fun _ => none
    clientOfferedAgentExtensions := [] }

def Client.bare (c : Client) : Client :=
  { c with
    outputReadyEpoch := 0
    authContext := c.authContext.bare
    authorizationState := .active
    authorizationCloseSignalled := false
    authorizationCleanupState := .idle
    authExpiringWarning := none }

theorem bare_field {ν α : Type} (bare : ν → ν) (f : ν → α) (hf : ∀ v, f (bare v) = f v) {v v' : ν}
    (h : bare v' = bare v) : f v' = f v := by rw [← hf v', h, hf]

/-- **Nothing that matters to queues, routes and owners has changed.** -/
structure Quiet (b b' : Broker) : Prop where
  carriers : b'.carriers.map Carrier.bare = b.carriers.map Carrier.bare
  routes : b'.routes.map Route.bare = b.routes.map Route.bare
  clients : b'.clients.map Client.bare = b.clients.map Client.bare
  active : b'.active = b.active
  registering : b'.registering = b.registering
  directory : b'.directory = b.directory
  trace : b'.trace = b.trace
  fresh : b.fresh ≤ b'.fresh

theorem Quiet.refl (b : Broker) : Quiet b b := ⟨rfl, rfl, rfl, rfl, rfl, rfl, rfl, Nat.le_refl _⟩

theorem Quiet.trans {b b' b'' : Broker} (h : Quiet b b') (h' : Quiet b' b'') : Quiet b b'' :=
  ⟨h'.carriers.trans h.carriers, h'.routes.trans h.routes, h'.clients.trans h.clients, h'.active.trans h.active,
    h'.registering.trans h.registering, h'.directory.trans h.directory, h'.trace.trans h.trace,
    Nat.le_trans h.fresh h'.fresh⟩

/-! ## Reading the state -/

section
variable {b : Broker} {serial serial' : Nat} {f : Carrier → Carrier}

theorem carrierOf_setCarrier_self (hf : ∀ c, (f c).serial = c.serial) :
    (b.setCarrier serial f).carrierOf serial = (b.carrierOf serial).map f :=
  Keyed.find_update_self fun c hc => (hf c).trans hc

theorem carrierOf_setCarrier_at {c : Carrier} (hc : b.carrierOf serial = some c) (hf : ∀ c, (f c).serial = c.serial) :
    (b.setCarrier serial f).carrierOf serial = some (f c) := by
  rw [carrierOf_setCarrier_self hf, hc, Option.map_some]

theorem carrierOf_setCarrier_ne (hf : ∀ c, (f c).serial = c.serial) (h : serial' ≠ serial) :
    (b.setCarrier serial f).carrierOf serial' = b.carrierOf serial' :=
  Keyed.find_update_ne (fun c hc => (hf c).trans hc) h

theorem serial_of_carrierOf {c : Carrier} (h : b.carrierOf serial = some c) : c.serial = serial := Keyed.key_of_find h

theorem carrierOf_setCarrier_cases {c : Carrier} (h : (b.setCarrier serial f).carrierOf serial' = some c)
    (hf : ∀ c, (f c).serial = c.serial) :
    (serial' ≠ serial ∧ b.carrierOf serial' = some c) ∨
      (serial' = serial ∧ ∃ c₀, b.carrierOf serial = some c₀ ∧ f c₀ = c) := by
  by_cases hs : serial' = serial
  · subst hs
    rw [carrierOf_setCarrier_self hf] at h
    exact .inr ⟨rfl, Option.map_eq_some_iff.mp h⟩
  · rw [carrierOf_setCarrier_ne hf hs] at h
    exact .inl ⟨hs, h⟩

theorem carrierAt_setCarrier (t : Nat) (ht : ∀ c, (f c).transportId = c.transportId ∧ (f c).attached = c.attached) :
    (b.setCarrier serial f).carrierAt t = (b.carrierAt t).map fun c => if c.serial = serial then f c else c := by
  unfold Broker.setCarrier Broker.carrierAt Keyed.update
  rw [List.find?_map]
  congr 2
  funext c
  simp only [Function.comp]
  split
  · rw [(ht c).1, (ht c).2]
  · rfl

theorem carrierAt_spec {t : Nat} {c : Carrier} (h : b.carrierAt t = some c) :
    c ∈ b.carriers ∧ c.attached = true ∧ c.transportId = t := by
  have hp := List.find?_some h
  simp only [Bool.and_eq_true, beq_iff_eq] at hp
  exact ⟨List.mem_of_find?_eq_some h, hp.1, hp.2⟩

variable {id id' : Nat} {g : Route → Route}

theorem routeOf_setRoute_self (hg : ∀ r, (g r).routeId = r.routeId) :
    (b.setRoute id g).routeOf id = (b.routeOf id).map g :=
  Keyed.find_update_self fun r hr => (hg r).trans hr

theorem routeOf_setRoute_at {r : Route} (hr : b.routeOf id = some r) (hg : ∀ r, (g r).routeId = r.routeId) :
    (b.setRoute id g).routeOf id = some (g r) := by
  rw [routeOf_setRoute_self hg, hr, Option.map_some]

theorem routeOf_setRoute_ne (hg : ∀ r, (g r).routeId = r.routeId) (h : id' ≠ id) :
    (b.setRoute id g).routeOf id' = b.routeOf id' :=
  Keyed.find_update_ne (fun r hr => (hg r).trans hr) h

theorem id_of_routeOf {r : Route} (h : b.routeOf id = some r) : r.routeId = id := Keyed.key_of_find h

theorem routeOf_setRoute_cases {r : Route} (h : (b.setRoute id g).routeOf id' = some r)
    (hg : ∀ r, (g r).routeId = r.routeId) :
    (id' ≠ id ∧ b.routeOf id' = some r) ∨ (id' = id ∧ ∃ r₀, b.routeOf id = some r₀ ∧ g r₀ = r) := by
  by_cases hs : id' = id
  · subst hs
    rw [routeOf_setRoute_self hg] at h
    exact .inr ⟨rfl, Option.map_eq_some_iff.mp h⟩
  · rw [routeOf_setRoute_ne hg hs] at h
    exact .inl ⟨hs, h⟩

variable {k : Client → Client}

theorem clientAt_setClient_self (hk : ∀ c, (k c).connectionId = c.connectionId) :
    (b.setClient id k).clientAt id = (b.clientAt id).map k :=
  Keyed.find_update_self fun c hc => (hk c).trans hc

theorem clientAt_setClient_at {c : Client} (hc : b.clientAt id = some c) (hk : ∀ c, (k c).connectionId = c.connectionId) :
    (b.setClient id k).clientAt id = some (k c) := by
  rw [clientAt_setClient_self hk, hc, Option.map_some]

theorem clientAt_setClient_ne (hk : ∀ c, (k c).connectionId = c.connectionId) (h : id' ≠ id) :
    (b.setClient id k).clientAt id' = b.clientAt id' :=
  Keyed.find_update_ne (fun c hc => (hk c).trans hc) h

theorem id_of_clientAt {c : Client} (h : b.clientAt id = some c) : c.connectionId = id := Keyed.key_of_find h

theorem clientAt_setClient_cases {c : Client} (h : (b.setClient id k).clientAt id' = some c)
    (hk : ∀ c, (k c).connectionId = c.connectionId) :
    (id' ≠ id ∧ b.clientAt id' = some c) ∨ (id' = id ∧ ∃ c₀, b.clientAt id = some c₀ ∧ k c₀ = c) := by
  by_cases hs : id' = id
  · subst hs
    rw [clientAt_setClient_self hk] at h
    exact .inr ⟨rfl, Option.map_eq_some_iff.mp h⟩
  · rw [clientAt_setClient_ne hk hs] at h
    exact .inl ⟨hs, h⟩

end

/-! ## Quiet changes -/

section
variable {b b' : Broker}

theorem map_update_bare {ν : Type} {key : ν → Nat} {bare f : ν → ν} (hf : ∀ v, bare (f v) = bare v) (k : Nat) (l : List ν) :
    (Keyed.update key k f l).map bare = l.map bare := by
  unfold Keyed.update
  rw [List.map_map]
  refine List.map_congr_left fun v _ => ?_
  simp only [Function.comp]
  split
  · exact hf v
  · rfl

theorem Quiet.setCarrier {f : Carrier → Carrier} (serial : Nat) (hf : ∀ c, (f c).bare = c.bare) :
    Quiet b (b.setCarrier serial f) := ⟨map_update_bare hf serial _, rfl, rfl, rfl, rfl, rfl, rfl, Nat.le_refl _⟩

theorem Quiet.setRoute {g : Route → Route} (id : Nat) (hg : ∀ r, (g r).bare = r.bare) : Quiet b (b.setRoute id g) :=
  ⟨rfl, map_update_bare hg id _, rfl, rfl, rfl, rfl, rfl, Nat.le_refl _⟩

theorem Quiet.setClient {k : Client → Client} (id : Nat) (hk : ∀ c, (k c).bare = c.bare) : Quiet b (b.setClient id k) :=
  ⟨rfl, rfl, map_update_bare hk id _, rfl, rfl, rfl, rfl, Nat.le_refl _⟩

theorem map_update_at {ν : Type} {key : ν → Nat} {bare f : ν → ν} {l : List ν} (hn : (l.map key).Nodup) (k : Nat)
    (hf : ∀ v, Keyed.find key k l = some v → bare (f v) = bare v) : (Keyed.update key k f l).map bare = l.map bare := by
  unfold Keyed.update
  rw [List.map_map]
  refine List.map_congr_left fun v hv => ?_
  simp only [Function.comp]
  split
  · next hk => exact hf v (hk ▸ Keyed.find_of_mem hn hv)
  · rfl

theorem Quiet.setRoute_at {g : Route → Route} {id : Nat} (hn : (b.routes.map Route.routeId).Nodup)
    (hg : ∀ r, b.routeOf id = some r → (g r).bare = r.bare) : Quiet b (b.setRoute id g) :=
  ⟨rfl, map_update_at hn id hg, rfl, rfl, rfl, rfl, rfl, Nat.le_refl _⟩

theorem Quiet.setClient_at {k : Client → Client} {id : Nat} {c : Client} (hn : (b.clients.map Client.connectionId).Nodup)
    (hc : b.clientAt id = some c) (hk : (k c).bare = c.bare) : Quiet b (b.setClient id k) :=
  ⟨rfl, rfl, map_update_at hn id fun v hv => by rw [Option.some.inj (hv.symm.trans hc)]; exact hk, rfl, rfl, rfl, rfl,
    Nat.le_refl _⟩

theorem Quiet.read (b : Broker) : Quiet b b.read := ⟨rfl, rfl, rfl, rfl, rfl, rfl, rfl, Nat.le_refl _⟩

theorem Quiet.named (b : Broker) : Quiet b b.named := ⟨rfl, rfl, rfl, rfl, rfl, rfl, rfl, Nat.le_succ _⟩

theorem Quiet.callReady (b : Broker) : Quiet b b.callReady := ⟨rfl, rfl, rfl, rfl, rfl, rfl, rfl, Nat.le_refl _⟩

theorem Quiet.ite {p : Prop} [Decidable p] {x y : Broker} (hx : Quiet b x) (hy : Quiet b y) :
    Quiet b (if p then x else y) := by
  split
  · exact hx
  · exact hy

theorem Quiet.signalCarrier (C : Config) (serial : Nat) (fresh : Bool) (b : Broker) :
    Quiet b (b.signalCarrierOutputReady C serial fresh) := by
  have hepoch : Quiet b (if fresh then b.setCarrier serial fun c => { c with outputReadyEpoch := c.outputReadyEpoch + 1 }
      else b) := .ite (.setCarrier serial fun _ => rfl) (.refl b)
  exact .ite hepoch (hepoch.trans (.callReady _))

theorem Quiet.signalClient (C : Config) (id : Nat) (b : Broker) : Quiet b (b.signalClientOutputReady C id) := by
  have hepoch : Quiet b (b.setClient id fun c => { c with outputReadyEpoch := c.outputReadyEpoch + 1 }) :=
    .setClient id fun _ => rfl
  exact .ite hepoch (hepoch.trans (.callReady _))

theorem find_of_map_bare {ν : Type} {key : ν → Nat} {bare : ν → ν} {l l' : List ν} (h : l'.map bare = l.map bare)
    (hkey : ∀ v, key (bare v) = key v) {k : Nat} {v' : ν} (hv : Keyed.find key k l' = some v') :
    ∃ v, Keyed.find key k l = some v ∧ bare v = bare v' := by
  have hcomm : ∀ l : List ν, (Keyed.find key k l).map bare = Keyed.find key k (l.map bare) := by
    intro l
    unfold Keyed.find
    rw [List.find?_map]
    congr 2
    funext v
    simp [hkey]
  have hmap := hcomm l'
  rw [h, ← hcomm l, hv, Option.map_some] at hmap
  obtain ⟨v, hv, hb⟩ := Option.map_eq_some_iff.mp hmap.symm
  exact ⟨v, hv, hb⟩

theorem Quiet.carrierOf (h : Quiet b b') {serial : Nat} {c' : Carrier} (hc : b'.carrierOf serial = some c') :
    ∃ c, b.carrierOf serial = some c ∧ c.bare = c'.bare := find_of_map_bare h.carriers (fun _ => rfl) hc

end

/-! ## Moves -/

/-- A carrier holds nothing. -/
structure Carrier.Empty (c : Carrier) : Prop where
  control : c.controlQueue = []
  data : c.dataQueues = []
  order : c.dataOrder = []
  inFlight : c.inFlight = []
  queuedBytes : c.queuedBytes = 0
  inFlightBytes : c.inFlightBytes = 0
  hostToClient : c.hostToClientBufferedBytes = 0

/-- No routes, and nothing queued or in flight. -/
structure Carrier.Vacant (c : Carrier) : Prop where
  routeIds : c.routeIds = []
  empty : c.Empty

def Carrier.HasRoom (c : Carrier) (bytes : Nat) : Prop := c.bufferedBytes + bytes ≤ carrierBufferedBytes

/-- There is room for data, and the control reserve stays free. -/
def Carrier.DataRoom (c : Carrier) (bytes : Nat) : Prop :=
  c.bufferedBytes + bytes ≤ carrierBufferedBytes - carrierControlReserveBytes

def Route.SendRoom (r : Route) (bytes : Bytes) : Prop :=
  r.clientToHostFrames + 1 ≤ maxQueuedRouteFrames ∧
    r.clientToHostBufferedBytes + bytes.byteLength ≤ routeBufferedBytesPerDirection

def Route.ReceiveRoom (r : Route) (bytes : Bytes) : Prop :=
  r.hostToClientFrames + 1 ≤ maxQueuedRouteFrames ∧
    r.hostToClientBufferedBytes + bytes.byteLength ≤ routeBufferedBytesPerDirection

/-- The route lives on the carrier, which owns its host. -/
structure On (b : Broker) (c : Carrier) (r : Route) : Prop where
  carrier : b.carrierOf c.serial = some c
  route : b.routeOf r.routeId = some r
  attached : c.attached = true
  active : c.status = .active
  transport : c.transportId = r.carrierTransportId
  connector : c.connectorId = some r.connectorId

def Route.pausedIn : Direction → Route → Bool
  | .clientToHost, r => r.clientReadPaused
  | .hostToClient, r => r.hostReadPaused

def Route.since : Direction → Route → Option Nat
  | .clientToHost, r => r.clientToHostPressureSinceMs
  | .hostToClient, r => r.hostToClientPressureSinceMs

def Route.clocked (time : Nat) : Direction → Route → Route
  | .clientToHost, r => { r with clientToHostPressureSinceMs := some time }
  | .hostToClient, r => { r with hostToClientPressureSinceMs := some time }

def Route.halted : Direction → Route → Route
  | .clientToHost, r => { r with clientReadPaused := true }
  | .hostToClient, r => { r with hostReadPaused := true }

def Route.released : Direction → Route → Route
  | .clientToHost, r => { r with clientReadPaused := false, clientToHostPressureSinceMs := none }
  | .hostToClient, r => { r with hostReadPaused := false, hostToClientPressureSinceMs := none }

def Broker.noteRequest (routeId : Nat) (f : PublicFrame) (b : Broker) : Broker :=
  if f.kind = .request then
    b.setRoute routeId fun r => { r with inFlightRequestIds := f.requestId.toList ++ r.inFlightRequestIds }
  else b

theorem noteRequest_eq (routeId : Nat) (f : PublicFrame) (b : Broker) :
    ∃ g : Route → Route, b.noteRequest routeId f = b.setRoute routeId g ∧
      ∀ r, g r = { r with inFlightRequestIds := (g r).inFlightRequestIds } := by
  unfold Broker.noteRequest
  split
  · exact ⟨_, rfl, fun _ => rfl⟩
  · refine ⟨id, ?_, fun _ => rfl⟩
    show b = { b with routes := _ }
    rw [show Keyed.update Route.routeId routeId id b.routes = b.routes from
      (List.map_congr_left fun r _ => by dsimp only [id]; split <;> rfl).trans (List.map_id _)]

/-- An in-flight delivery of a carrier is acknowledged. -/
def Broker.acknowledge (serial : Nat) (e : InFlightCarrierFrame) (b : Broker) : Broker :=
  let b := b.setCarrier serial fun c =>
    { c with
      inFlight := c.inFlight.filter fun x => x.deliveryId ≠ e.deliveryId
      inFlightBytes := c.inFlightBytes - e.wireBytes }
  match e.route, e.routeSeq with
  | some routeId, some _ => b.setRoute routeId fun r =>
    { r with
      clientToHostBufferedBytes := r.clientToHostBufferedBytes - e.rawBytes
      clientToHostFrames := r.clientToHostFrames - 1 }
  | _, _ => b

/-- What the moves of a stretch may include. -/
structure Permits where
  /-- An answer to an auth control is queued on a carrier that is no longer active. -/
  late : Prop
  /-- A carrier is attached, or takes a step to become an owner, or a route is made. -/
  grow : Prop
  /-- The candidate of a host is based on the directory as it is now. -/
  rebase : Nat → Prop
  /-- A frame of a client or of a host is taken. -/
  data : Prop

variable (C : Config) (P : Permits)

/-- **The changes that operations are made of**, from a state with teardowns `D` to one with teardowns `D'`. -/
inductive Move : List Nat → Broker → List Nat → Broker → Prop
  | quiet {D b b'} (h : Quiet b b') : Move D b D b'
  | mark {D b} (s : Nat) : Move D b (s :: D) b
  | unmark {D b s c} (hc : b.carrierOf s = some c) (retired : c.status = .superseded ∨ c.status = .closed)
      (hroutes : c.routeIds = []) (empty : c.Empty) : Move (s :: D) b D b
  | attach {D b} (t : Nat) (a : Authorization) (i : Nat) (grow : P.grow) (free : b.carrierAt t = none) :
      Move D b D { b.named with carriers := b.carriers ++
        [{ serial := b.fresh, attached := true, transportId := t, connectionIncarnation := i, authContext := a }] }
  | enroll {D b c} (hello : HostHello) (k : Nat) (g : Registration) (grow : P.grow) (hc : b.carrierOf c.serial = some c)
      (attached : c.attached = true) (pending : c.status = .pending) (live : c.serial ∉ D)
      (host : hello.hostId = c.authContext.hostId) (free : b.registering.lookup hello.hostId = none)
      (base : g.baseDirectoryRevision = ((b.recordOf hello.hostId).map DirectoryRecord.revision).getD 0)
      (previous : g.previousTransportId = (b.activeAt hello.hostId).map Carrier.transportId) :
      Move D b D (b.enroll c hello k g)
  | rebase {D b c} (g : Registration) (allowed : P.rebase c.authContext.hostId) (pending : c.registration.isSome)
      (hc : b.carrierOf c.serial = some c) (registering : c.status = .registering)
      (free : b.active.lookup c.authContext.hostId = none)
      (base : g.baseDirectoryRevision = ((b.recordOf c.authContext.hostId).map DirectoryRecord.revision).getD 0)
      (previous : g.previousTransportId = none) :
      Move D b D (b.setCarrier c.serial fun c => { c with registration := some g })
  | activate {D b c} (hello : HostHello) (previous : Option Carrier) (grow : P.grow) (hc : b.carrierOf c.serial = some c)
      (live : c.serial ∉ D) (registering : b.registering.lookup c.authContext.hostId = some c.serial)
      (replaced : ∀ x, b.active.lookup c.authContext.hostId = some x → x ∈ D) :
      Move D b D (b.activate C c hello previous)
  | offline {D b c} (hc : b.carrierOf c.serial = some c) (owner : b.active.lookup c.authContext.hostId = some c.serial)
      (marked : c.serial ∈ D) :
      Move D b D ({ b with active := b.active.filter fun x => x.1 ≠ c.authContext.hostId }.publishDirectory C c false
        .disconnected none)
  | unregister {D b} (host : Nat) (marked : ∀ x, b.registering.lookup host = some x → x ∈ D) :
      Move D b D { b with registering := b.registering.filter fun x => x.1 ≠ host }
  | forget {D b c} (hc : b.carrierOf c.serial = some c) (marked : c.serial ∈ D) :
      Move D b D (b.setCarrier c.serial fun c => { c with registration := none })
  | retire {D b c} (st : CarrierStatus) (hc : b.carrierOf c.serial = some c) (marked : c.serial ∈ D)
      (retired : st = .superseded ∨ st = .closed) (notOwner : ∀ host, b.active.lookup host ≠ some c.serial)
      (notCandidate : ∀ host, b.registering.lookup host ≠ some c.serial) :
      Move D b D (b.setCarrier c.serial fun c => { c with status := st })
  | discard {D b c} (hc : b.carrierOf c.serial = some c) (marked : c.serial ∈ D) (hroutes : c.routeIds = []) :
      Move D b D (b.discardCarrier c.serial)
  | detach {D b c} (hc : b.carrierOf c.serial = some c) (marked : c.serial ∈ D) (hroutes : c.routeIds = [])
      (retired : c.status = .superseded ∨ c.status = .closed) :
      Move D b D (b.setCarrier c.serial fun c => { c with attached := false })
  | openRoute {D b c} (connectionId : Nat) (a : Authorization) (i connectorId : Nat) (grow : P.grow)
      (hc : b.carrierOf c.serial = some c) (attached : c.attached = true) (active : c.status = .active)
      (connector : c.connectorId = some connectorId) (host : a.hostId = c.authContext.hostId)
      (free : b.clientAt connectionId = none)
      (fits : c.bufferedBytes < (carrierBufferedBytes : Int) - carrierControlReserveBytes)
      (room : c.HasRoom (C.codec.wireBytes (b.newRoute c connectionId a i connectorId).openFrame)) :
      Move D b D (((b.named.named.named.pushControl c.serial (Broker.controlEntry C
        (b.newRoute c connectionId a i connectorId).openFrame (some b.fresh))).addRoute c
          (b.newRoute c connectionId a i connectorId)))
  | drop {D b r} (hr : b.routeOf r.routeId = some r) : Move D b D (b.dropRoute r)
  | welcome {D b c r} (h : On b c r) (opening : r.status = .opening) (pending : r.firstApplicationFrame = .pending)
      (limit : Nat) :
      Move D b D (b.setRoute r.routeId fun r =>
        { r with maxFrameBytes := limit, status := .opened, firstApplicationFrame := .welcome })
  | close {D b c r} (withControl : Bool) (h : On b c r) (notClosing : r.status ≠ .closing)
      (notPaused : withControl = false → r.clientReadPaused = false) :
      Move D b D (b.closeRoute c r withControl)
  | unbind {D b c r} (reason : UnbindReason) (h : On b c r) (closing : r.status = .closing)
      (room : c.HasRoom (C.codec.wireBytes (r.unbindFrame reason))) :
      Move D b D (b.pushControl c.serial (Broker.controlEntry C (r.unbindFrame reason) (some r.routeId)))
  | control {D b c} (frame : ToHost) (hc : b.carrierOf c.serial = some c)
      (active : c.status = .active ∨ P.late)
      (kind : (∃ id ok, frame = .authControl id ok) ∨ ∃ g x, frame = .hostAuthExpiring g x)
      (room : c.HasRoom (C.codec.wireBytes frame)) :
      Move D b D (b.pushControl c.serial (Broker.controlEntry C frame none))
  | forward {D b c r} (f : PublicFrame) (bytes : Bytes) (data : P.data) (h : On b c r) (opened : r.status = .opened)
      (decoded : C.codec.decodePublic bytes = some f)
      (admitted : f.kind = .request → f.requestId.any (· ∈ r.inFlightRequestIds) = false ∧
        r.inFlightRequestIds.length < maxInFlightRequestsPerRoute)
      (fits : r.SendRoom bytes) (room : c.DataRoom (Broker.dataEntry C r bytes).wireBytes) :
      Move D b D ((b.pushEntry c.serial r (Broker.dataEntry C r bytes) bytes).noteRequest r.routeId f)
  | make {D b c r} (made : BrokerMade) (charged : Bool) (h : On b c r) (opened : r.status = .opened)
      (fits : r.ReceiveRoom (C.codec.encode made)) (room : charged = true → c.DataRoom (C.codec.encode made).byteLength) :
      Move D b D ((b.pushFrame c.serial r (C.codec.encode made) charged).emit (.made r.routeId made))
  | accept {D b c r} (f : PublicFrame) (bytes out : Bytes) (data : P.data) (h : On b c r) (opened : r.status = .opened)
      (faithful : out = bytes ∨ (f.type = .hostWelcome ∧ ∃ stripped, out = C.codec.encode (.stripped bytes stripped)))
      (decoded : C.codec.decodePublic bytes = some f)
      (correlated : f.kind = .response → f.requestId.any (· ∈ r.inFlightRequestIds) = true)
      (fits : r.ReceiveRoom out) (room : c.DataRoom out.byteLength) :
      Move D b D (((b.consumeHostFrame r.routeId f).pushFrame c.serial r out true).emit
        (.admitted r.routeId r.expectedHostToClientSeq bytes (some out)))
  | consume {D b c r} (f : PublicFrame) (bytes : Bytes) (data : P.data) (h : On b c r)
      (when : r.status = .closing ∨ (r.status = .opened ∧ ∃ e, f.lane = some e ∧
        r.agentExtensionDispositions e = some .withdrawn)) (decoded : C.codec.decodePublic bytes = some f)
      (correlated : f.kind = .response → f.requestId.any (· ∈ r.inFlightRequestIds) = true) :
      Move D b D ((b.consumeHostFrame r.routeId f).emit (.admitted r.routeId r.expectedHostToClientSeq bytes none))
  | dispatchControl {D b c} (e : QueuedCarrierFrame) (rest : List QueuedCarrierFrame)
      (hc : b.carrierOf c.serial = some c) (active : c.status = .active) (head : c.controlQueue = e :: rest) :
      Move D b D ((b.dispatch c.serial e).setCarrier c.serial fun c =>
        Carrier.invalidateIfEmpty { c with controlQueue := c.controlQueue.tail })
  | dispatchData {D b c} (routeId : Nat) (e : QueuedCarrierFrame) (rest : List QueuedCarrierFrame)
      (hc : b.carrierOf c.serial = some c) (active : c.status = .active)
      (turn : c.dataOrder[c.dataCursor]? = some routeId) (head : (c.dataQueue routeId).map DataQueue.entries = some (e :: rest)) :
      Move D b D ((b.dispatch c.serial e).setCarrier c.serial fun c => c.popData routeId rest)
  | skip {D b c} (routeId : Nat) (hc : b.carrierOf c.serial = some c)
      (turn : c.dataOrder[c.dataCursor]? = some routeId)
      (none' : (c.dataQueue routeId).map DataQueue.entries = none ∨ (c.dataQueue routeId).map DataQueue.entries = some []) :
      Move D b D (b.setCarrier c.serial fun c => Carrier.invalidateIfEmpty
        { c with
          dataQueues := Keyed.erase DataQueue.routeId routeId c.dataQueues
          dataOrder := c.dataOrder.eraseIdx c.dataCursor })
  | acknowledge {D b c} (e : InFlightCarrierFrame) (hc : b.carrierOf c.serial = some c) (he : e ∈ c.inFlight) :
      Move D b D (b.acknowledge c.serial e)
  | hand {D b client r} (e : QueuedClientFrame) (rest : List QueuedClientFrame)
      (hclient : b.clientAt client.connectionId = some client) (head : client.queue = e :: rest)
      (hr : b.routeOf e.route = some r) (opened : r.status = .opened) (own : r.connectionId = client.connectionId)
      (named : client.routeId = e.route) :
      Move D b D ((b.setClient client.connectionId fun c =>
        { c with
          queue := c.queue.tail
          outputReadyEpoch := if c.queue.tail.isEmpty then c.outputReadyEpoch + 1 else c.outputReadyEpoch
          inFlight := c.inFlight ++ [⟨e, b.fresh⟩] }).named.emit (.handed client.connectionId e.route e.bytes))
  | received {D b client r} (e : InFlightClientFrame) (hclient : b.clientAt client.connectionId = some client)
      (he : e ∈ client.inFlight) (hr : b.routeOf e.route = some r) :
      Move D b D ((b.setClient client.connectionId fun c =>
        { c with inFlight := c.inFlight.filter fun x => x.deliveryId ≠ e.deliveryId }).releaseHostToClient r
          [e.toQueuedClientFrame])
  | lost {D b client} (e : InFlightClientFrame) (hclient : b.clientAt client.connectionId = some client)
      (he : e ∈ client.inFlight) (hr : b.routeOf e.route = none) :
      Move D b D (b.setClient client.connectionId fun c =>
        { c with inFlight := c.inFlight.filter fun x => x.deliveryId ≠ e.deliveryId })
  | clock {D b c r} (d : Direction) (time : Nat) (h : On b c r) (opened : r.status = .opened) (idle : r.since d = none) :
      Move D b D (b.setRoute r.routeId (Route.clocked time d))
  | pause {D b c r} (d : Direction) (h : On b c r) (opened : r.status = .opened) (reading : r.pausedIn d = false) :
      Move D b D ((b.setRoute r.routeId (Route.halted d)).emit (.paused r.routeId d))
  | resume {D b c r} (d : Direction) (h : On b c r) (paused : r.pausedIn d = true) :
      Move D b D ((b.setRoute r.routeId (Route.released d)).emit (.resumed r.routeId d))
  | withdraw {D b} (e : Extension) : Move D b D (b.withdrawOptionalCapability e)
  | violate {D b} (serial : Nat) : Move D b D (b.emit (.violated serial))

/-- **A stretch of an operation.** -/
inductive Path : List Nat → Broker → List Nat → Broker → Prop
  | refl {D b} : Path D b D b
  | step {D b D' b' D'' b''} (first : Move C P D b D' b') (rest : Path D' b' D'' b'') : Path D b D'' b''

end Relay
end TmuxWorktree
