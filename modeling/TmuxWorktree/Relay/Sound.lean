import TmuxWorktree.Relay.Moves
import TmuxWorktree.Relay.Ownership
/-!
# Sound — the broker's maps refine the machine of owners

`Broker.ownership` reads the machine of `Ownership` off the broker's maps; `Sound` says that its invariant holds there
and that the maps have one value for each key.  Most moves leave the faces alone (`Kept`); each of the others is a
transition of the machine.
-/
namespace TmuxWorktree
namespace Relay

/-! ## Faces -/

def Carrier.face (c : Carrier) : CarrierFace :=
  ⟨c.attached, c.transportId, c.authContext.hostId, c.status, c.connectorId, c.hello.isSome, c.registration, c.routeIds⟩

def Route.face (r : Route) : RouteFace := ⟨r.connectionId, r.connectorId, r.carrierTransportId, r.authContext.hostId⟩

def Client.face (c : Client) : Nat × Nat := (c.routeId, c.authContext.hostId)

def DirectoryRecord.face (d : DirectoryRecord) : RecordFace := ⟨d.online, d.revision, d.connectorId⟩

/-- **The owners, as the maps of the broker have them.** -/
def Broker.ownership (b : Broker) : Ownership where
  carrier s := (b.carrierOf s).map Carrier.face
  active host := b.active.lookup host
  registering host := b.registering.lookup host
  record host := (b.recordOf host).map DirectoryRecord.face
  route id := (b.routeOf id).map Route.face
  client id := (b.clientAt id).map Client.routeId

/-- **The maps have one value for each key, every name is an old one, and owners are as they should be.** -/
structure Sound (D : List Nat) (b : Broker) : Prop where
  serials : (b.carriers.map Carrier.serial).Nodup
  routeIds : (b.routes.map Route.routeId).Nodup
  connections : (b.clients.map Client.connectionId).Nodup
  oldSerials : ∀ c ∈ b.carriers, c.serial < b.fresh
  oldRoutes : ∀ r ∈ b.routes, r.routeId < b.fresh
  /-- A route and its client are for the same host. -/
  hosts : ∀ k ∈ b.clients.map Client.face, ∀ r ∈ b.routes.map (fun r => (r.routeId, r.face)), r.1 = k.1 → r.2.hostId = k.2
  owned : Owned D b.ownership

/-- **Faces, keys and maps of owners are kept.** -/
structure Kept (b b' : Broker) : Prop where
  carriers : b'.carriers.map (fun c => (c.serial, c.face)) = b.carriers.map fun c => (c.serial, c.face)
  routes : b'.routes.map (fun r => (r.routeId, r.face)) = b.routes.map fun r => (r.routeId, r.face)
  clients : b'.clients.map (fun c => (c.connectionId, c.face)) = b.clients.map fun c => (c.connectionId, c.face)
  active : b'.active = b.active
  registering : b'.registering = b.registering
  directory : b'.directory = b.directory
  fresh : b.fresh ≤ b'.fresh

namespace Kept

variable {b b' b'' : Broker}

theorem refl (b : Broker) : Kept b b := ⟨rfl, rfl, rfl, rfl, rfl, rfl, Nat.le_refl _⟩

theorem trans (h : Kept b b') (h' : Kept b' b'') : Kept b b'' :=
  ⟨h'.carriers.trans h.carriers, h'.routes.trans h.routes, h'.clients.trans h.clients, h'.active.trans h.active,
    h'.registering.trans h.registering, h'.directory.trans h.directory, Nat.le_trans h.fresh h'.fresh⟩

theorem map_update {ν φ : Type} {key : ν → Nat} {face : ν → φ} {f : ν → ν}
    (hf : ∀ v, face (f v) = face v) (k : Nat) (l : List ν) :
    (Keyed.update key k f l).map face = l.map face := by
  unfold Keyed.update
  rw [List.map_map]
  refine List.map_congr_left fun v _ => ?_
  simp only [Function.comp]
  split
  · exact hf v
  · rfl

theorem setCarrier {f : Carrier → Carrier} (b : Broker) (s : Nat) (hf : ∀ c, (f c).serial = c.serial ∧ (f c).face = c.face) :
    Kept b (b.setCarrier s f) :=
  { refl b with carriers := map_update (fun c => by rw [(hf c).1, (hf c).2]) s b.carriers }

theorem setRoute {g : Route → Route} (b : Broker) (id : Nat)
    (hg : ∀ r, (g r).routeId = r.routeId ∧ (g r).face = r.face) : Kept b (b.setRoute id g) :=
  { refl b with routes := map_update (fun r => by rw [(hg r).1, (hg r).2]) id b.routes }

theorem setClient {k : Client → Client} (b : Broker) (id : Nat)
    (hk : ∀ c, (k c).connectionId = c.connectionId ∧ (k c).face = c.face) : Kept b (b.setClient id k) :=
  { refl b with clients := map_update (fun c => by rw [(hk c).1, (hk c).2]) id b.clients }

theorem emit (b : Broker) (e : Event) : Kept b (b.emit e) := { refl b with }

theorem named (b : Broker) : Kept b b.named := { refl b with fresh := Nat.le_succ _ }

theorem noteRequest (routeId : Nat) (f : PublicFrame) (b : Broker) : Kept b (b.noteRequest routeId f) := by
  obtain ⟨g, heq, hg⟩ := noteRequest_eq routeId f b
  rw [heq]
  exact .setRoute b _ fun r => ⟨by rw [hg r], by rw [hg r]; rfl⟩

theorem of_quiet (h : Quiet b b') : Kept b b' := by
  have hc : ∀ l : List Carrier, (l.map Carrier.bare).map (fun c => (c.serial, c.face)) = l.map fun c => (c.serial, c.face) :=
    fun l => by rw [List.map_map]; rfl
  have hr : ∀ l : List Route, (l.map Route.bare).map (fun r => (r.routeId, r.face)) = l.map fun r => (r.routeId, r.face) :=
    fun l => by rw [List.map_map]; rfl
  have hk : ∀ l : List Client, (l.map Client.bare).map (fun c => (c.connectionId, c.face)) =
      l.map fun c => (c.connectionId, c.face) := fun l => by rw [List.map_map]; rfl
  refine ⟨?_, ?_, ?_, h.active, h.registering, h.directory, h.fresh⟩
  · rw [← hc, h.carriers, hc]
  · rw [← hr, h.routes, hr]
  · rw [← hk, h.clients, hk]

theorem find_face {ν φ : Type} {key : ν → Nat} {face : ν → φ} {l l' : List ν}
    (h : l'.map (fun v => (key v, face v)) = l.map fun v => (key v, face v)) (k : Nat) :
    (Keyed.find key k l').map face = (Keyed.find key k l).map face := by
  have hcomm : ∀ l : List ν, (Keyed.find key k l).map face =
      (Keyed.find Prod.fst k (l.map fun v => (key v, face v))).map Prod.snd := by
    intro l
    unfold Keyed.find
    rw [List.find?_map, Option.map_map]
    rfl
  rw [hcomm, hcomm, h]

theorem ownership (h : Kept b b') : b'.ownership = b.ownership := by
  unfold Broker.ownership
  congr 1
  · funext s
    exact find_face h.carriers s
  · rw [h.active]
  · rw [h.registering]
  · unfold Broker.recordOf
    rw [h.directory]
  · funext id
    exact find_face h.routes id
  · funext id
    have hface : (b'.clientAt id).map Client.face = (b.clientAt id).map Client.face := find_face h.clients id
    have hfst := congrArg (Option.map Prod.fst) hface
    rw [Option.map_map, Option.map_map] at hfst
    exact hfst

theorem keys {ν φ : Type} {key : ν → Nat} {face : ν → φ} {l l' : List ν}
    (h : l'.map (fun v => (key v, face v)) = l.map fun v => (key v, face v)) : l'.map key = l.map key := by
  have := congrArg (List.map Prod.fst) h
  simpa [List.map_map, Function.comp_def] using this

theorem old {ν φ : Type} {key : ν → Nat} {face : ν → φ} {l l' : List ν} {n n' : Nat}
    (h : l'.map (fun v => (key v, face v)) = l.map fun v => (key v, face v)) (hn : n ≤ n') (hold : ∀ v ∈ l, key v < n) :
    ∀ v ∈ l', key v < n' := by
  intro v hv
  have hmem : key v ∈ l'.map key := List.mem_map_of_mem hv
  rw [keys h] at hmem
  obtain ⟨u, hu, heq⟩ := List.mem_map.mp hmem
  exact heq ▸ Nat.lt_of_lt_of_le (hold u hu) hn

theorem faces {ν φ : Type} {key : ν → Nat} {face : ν → φ} {l l' : List ν}
    (h : l'.map (fun v => (key v, face v)) = l.map fun v => (key v, face v)) : l'.map face = l.map face := by
  have := congrArg (List.map Prod.snd) h
  simpa [List.map_map, Function.comp_def] using this

theorem sound {D : List Nat} (h : Kept b b') (hs : Sound D b) : Sound D b' where
  serials := keys h.carriers ▸ hs.serials
  routeIds := keys h.routes ▸ hs.routeIds
  connections := keys h.clients ▸ hs.connections
  oldSerials := old h.carriers h.fresh hs.oldSerials
  oldRoutes := old h.routes h.fresh hs.oldRoutes
  hosts := by rw [faces h.clients, h.routes]; exact hs.hosts
  owned := h.ownership ▸ hs.owned

end Kept

/-! ## The machine's transitions -/

section
variable {D : List Nat} {b : Broker}

theorem lookup_filter (l : List (Nat × Nat)) (k k' : Nat) :
    (l.filter fun x => x.1 ≠ k).lookup k' = if k' = k then none else l.lookup k' := by
  induction l with
  | nil => simp
  | cons x l ih =>
    obtain ⟨a, v⟩ := x
    by_cases ha : a = k
    · subst ha
      by_cases hk : k' = a
      · subst hk
        simpa using ih
      · rw [List.filter_cons_of_neg (by simp), ih, List.lookup_cons, beq_false_of_ne hk]
    · rw [List.filter_cons_of_pos (by simpa using ha), List.lookup_cons, List.lookup_cons, ih]
      by_cases hk : k' = a
      · subst hk
        simp [ha]
      · simp [beq_false_of_ne hk]

theorem carrierAt_eq_none (h : b.carrierAt t = none) {c : Carrier} (hc : c ∈ b.carriers) (ha : c.attached = true) :
    c.transportId ≠ t := by
  have := List.find?_eq_none.mp h c hc
  simpa [ha] using this

theorem ownership_setCarrier {s : Nat} {c : Carrier} {f : Carrier → Carrier} (hc : b.carrierOf s = some c)
    (hf : ∀ c, (f c).serial = c.serial) : (b.setCarrier s f).ownership = b.ownership.setCarrier s (f c).face := by
  unfold Broker.ownership Ownership.setCarrier
  congr 1
  funext x
  by_cases hx : x = s
  · subst hx
    rw [carrierOf_setCarrier_self hf, hc, Function.update_self]
    rfl
  · rw [carrierOf_setCarrier_ne hf hx, Function.update_of_ne hx]

theorem ownership_carrier {s : Nat} {c : Carrier} (hc : b.carrierOf s = some c) : b.ownership.carrier s = some c.face := by
  show (b.carrierOf s).map _ = _
  rw [hc]
  rfl

theorem ownership_revision (host : Nat) :
    b.ownership.revision host = ((b.recordOf host).map DirectoryRecord.revision).getD 0 := by
  show (((b.recordOf host).map _).map _).getD 0 = _
  rw [Option.map_map]
  rfl

theorem ownership_ownerTransport (host : Nat) :
    b.ownership.ownerTransport host = (b.activeAt host).map Carrier.transportId := by
  show ((b.active.lookup host).bind fun s => ((b.carrierOf s).map _).map _) = _
  unfold Broker.activeAt
  cases b.active.lookup host with
  | none => rfl
  | some x =>
    simp only [Option.bind_some, Option.map_map]
    rfl

theorem publishDirectory_spec (C : Config) (c : Carrier) (online : Bool) (reason : PresenceReason) (p : Option Nat)
    (b : Broker) : ∃ d : DirectoryRecord, b.publishDirectory C c online reason p =
      { b.read with directory := Keyed.put DirectoryRecord.hostId d b.directory } ∧ d.hostId = c.authContext.hostId ∧
      d.face = ⟨online, ((b.recordOf c.authContext.hostId).map DirectoryRecord.revision).getD 0 + 1,
        if online then c.connectorId else none⟩ := ⟨_, rfl, rfl, rfl⟩

theorem ownership_publish (C : Config) (c : Carrier) (online : Bool) (reason : PresenceReason) (p : Option Nat) :
    (b.publishDirectory C c online reason p).ownership =
      b.ownership.publish c.authContext.hostId online (if online then c.connectorId else none) := by
  obtain ⟨d, hd, hhost, hface⟩ := publishDirectory_spec C c online reason p b
  rw [hd, ← ownership_revision] at *
  unfold Ownership.publish
  ext1
  case record =>
    funext host
    show (Keyed.find DirectoryRecord.hostId host (Keyed.put DirectoryRecord.hostId d b.directory)).map _ = _
    simp only [Function.update_apply]
    by_cases hh : host = c.authContext.hostId
    · rw [if_pos hh, hh, ← hhost, Keyed.find_put_self, Option.map_some, hface, hhost]
    · rw [if_neg hh, Keyed.find_put_ne (hhost ▸ hh)]
      rfl
  all_goals rfl

theorem Sound.of_setCarrier {D' : List Nat} {s : Nat} {f : Carrier → Carrier} (h : Sound D b)
    (hf : ∀ c, (f c).serial = c.serial) (ho : Owned D' (b.setCarrier s f).ownership) : Sound D' (b.setCarrier s f) where
  serials := by
    show ((Keyed.update Carrier.serial s f b.carriers).map Carrier.serial).Nodup
    rw [Keyed.keys_update fun c hc => (hf c).trans hc]
    exact h.serials
  routeIds := h.routeIds
  connections := h.connections
  oldSerials := fun c hc => by
    rcases Keyed.mem_update_iff.mp hc with ⟨c₀, h₀, _, rfl⟩ | ⟨hc, _⟩
    · exact (hf c₀).symm ▸ h.oldSerials c₀ h₀
    · exact h.oldSerials c hc
  oldRoutes := h.oldRoutes
  hosts := h.hosts
  owned := ho

theorem Sound.of_owners {b' : Broker} {D' : List Nat} (h : Sound D b) (hc : b'.carriers = b.carriers)
    (hr : b'.routes = b.routes) (hk : b'.clients = b.clients) (hn : b'.fresh = b.fresh) (ho : Owned D' b'.ownership) :
    Sound D' b' := by
  refine ⟨?_, ?_, ?_, ?_, ?_, ?_, ho⟩
  · rw [hc]; exact h.serials
  · rw [hr]; exact h.routeIds
  · rw [hk]; exact h.connections
  · rw [hc, hn]; exact h.oldSerials
  · rw [hr, hn]; exact h.oldRoutes
  · rw [hk, hr]; exact h.hosts

theorem Sound.carrierOf_mem (h : Sound D b) {c : Carrier} (hc : c ∈ b.carriers) : b.carrierOf c.serial = some c :=
  Keyed.find_of_mem h.serials hc

theorem Sound.carrierAt_iff (h : Sound D b) {t : Nat} {c : Carrier} :
    b.carrierAt t = some c ↔ b.carrierOf c.serial = some c ∧ c.attached = true ∧ c.transportId = t := by
  constructor
  · intro hc
    obtain ⟨hm, ha, ht⟩ := carrierAt_spec hc
    exact ⟨h.carrierOf_mem hm, ha, ht⟩
  · rintro ⟨hc, ha, ht⟩
    cases hat : b.carrierAt t with
    | none => exact absurd ht (carrierAt_eq_none hat (Keyed.mem_of_find hc) ha)
    | some c' =>
      obtain ⟨hm, ha', ht'⟩ := carrierAt_spec hat
      have hc' := h.carrierOf_mem hm
      have heq := h.owned.transports c.serial c.face c'.serial c'.face (ownership_carrier hc) (ownership_carrier hc')
        ha ha' (ht.trans ht'.symm)
      rw [heq, hc'] at hc
      exact hc

theorem Sound.attach (h : Sound D b) {t : Nat} (a : Authorization) (i : Nat) (free : b.carrierAt t = none) :
    Sound D { b.named with carriers := b.carriers ++
      [{ serial := b.fresh, attached := true, transportId := t, connectionIncarnation := i, authContext := a }] } := by
  have hnew : b.carrierOf b.fresh = none := by
    cases hc : b.carrierOf b.fresh with
    | none => rfl
    | some c =>
      have := h.oldSerials c (Keyed.mem_of_find hc)
      have := serial_of_carrierOf hc
      omega
  have ho := h.owned.attach (t := t) (g := a.hostId) (s := b.fresh) (by show (b.carrierOf b.fresh).map _ = none; rw [hnew]; rfl)
    (fun s' c' hc' ha' => by
      obtain ⟨c, hc, rfl⟩ := Option.map_eq_some_iff.mp hc'
      exact carrierAt_eq_none free (Keyed.mem_of_find hc) ha')
  refine ⟨?_, h.routeIds, h.connections, ?_, fun r hr => Nat.lt_succ_of_lt (h.oldRoutes r hr), h.hosts, ?_⟩
  · simp only [List.map_append, List.map_cons, List.map_nil]
    refine List.nodup_append.mpr ⟨h.serials, List.nodup_singleton _, fun x hx y hy => ?_⟩
    obtain ⟨c, hc, rfl⟩ := List.mem_map.mp hx
    rw [List.mem_singleton.mp hy]
    exact Nat.ne_of_lt (h.oldSerials c hc)
  · intro c hc
    rcases List.mem_append.mp hc with hc | hc
    · exact Nat.lt_succ_of_lt (h.oldSerials c hc)
    · rw [List.mem_singleton.mp hc]
      exact Nat.lt_succ_self _
  · convert ho using 1
    ext1
    case carrier =>
      funext s
      simp only [Broker.ownership, Broker.carrierOf, Ownership.attach, Ownership.setCarrier, Function.update_apply]
      rw [Keyed.find_append_single]
      by_cases hs : s = b.fresh
      · unfold Broker.carrierOf at hnew
        rw [if_pos hs, hs, hnew]
        simp [Carrier.face]
      · simp [hs, Ne.symm hs]
    all_goals rfl

theorem Sound.enroll (h : Sound D b) {c : Carrier} {hello : HostHello} {k : Nat} {g : Registration}
    (hc : b.carrierOf c.serial = some c) (attached : c.attached = true) (pending : c.status = .pending) (live : c.serial ∉ D)
    (host : hello.hostId = c.authContext.hostId) (free : b.registering.lookup hello.hostId = none)
    (base : g.baseDirectoryRevision = ((b.recordOf hello.hostId).map DirectoryRecord.revision).getD 0)
    (previous : g.previousTransportId = (b.activeAt hello.hostId).map Carrier.transportId) :
    Sound D (b.enroll c hello k g) := by
  rw [host] at free base previous
  have ho := h.owned.enroll (k := k) (g := g) (ownership_carrier hc) attached pending live free
    (base.trans (ownership_revision _).symm) (previous.trans (ownership_ownerTransport _).symm)
  have hset := ownership_setCarrier (b := b) (f := fun c =>
    { c with connectorId := some k, hello := some hello, status := .registering, registration := some g }) hc fun _ => rfl
  refine ⟨?_, h.routeIds, h.connections, ?_, h.oldRoutes, h.hosts, ?_⟩
  · show ((Keyed.update Carrier.serial c.serial _ b.carriers).map Carrier.serial).Nodup
    rw [Keyed.keys_update (by intro u hu; exact hu)]
    exact h.serials
  · intro x hx
    rcases Keyed.mem_update_iff.mp hx with ⟨c₀, h₀, _, rfl⟩ | ⟨hx, _⟩
    · exact h.oldSerials c₀ h₀
    · exact h.oldSerials x hx
  · convert ho using 1
    ext1
    case carrier => exact funext fun x => congrFun (congrArg Ownership.carrier hset) x
    case registering =>
      funext x
      simp only [Broker.ownership, Broker.enroll, Ownership.enroll, Function.update_apply]
      rw [List.lookup_cons, lookup_filter, show c.face.hostId = hello.hostId from host.symm]
      by_cases hx : x = hello.hostId
      · simp [hx]
      · simp [hx, beq_false_of_ne hx, Broker.setCarrier]
    all_goals rfl

theorem Sound.activate (C : Config) (h : Sound D b) {c : Carrier} (hello : HostHello) (previous : Option Carrier)
    (hc : b.carrierOf c.serial = some c) (live : c.serial ∉ D)
    (registering : b.registering.lookup c.authContext.hostId = some c.serial)
    (replaced : ∀ x, b.active.lookup c.authContext.hostId = some x → x ∈ D) : Sound D (b.activate C c hello previous) := by
  have ho := h.owned.activate (ownership_carrier hc) live registering replaced
  -- the three ways to publish differ in the reason only
  obtain ⟨b₁, reason, p, rfl, hact⟩ : ∃ (b₁ : Broker) (reason : PresenceReason) (p : Option Nat),
      b₁ = { b with
        registering := b.registering.filter fun x => x.1 ≠ c.authContext.hostId
        active := (c.authContext.hostId, c.serial) :: b.active.filter fun x => x.1 ≠ c.authContext.hostId }.setCarrier
          c.serial (fun c => { c with registration := none, status := .active }) ∧
      b.activate C c hello previous = b₁.publishDirectory C { c with registration := none, status := .active } true
        reason p := by
    unfold Broker.activate
    cases previous with
    | some p => exact ⟨_, _, _, rfl, rfl⟩
    | none =>
      dsimp only
      split
      · exact ⟨_, _, _, rfl, rfl⟩
      · exact ⟨_, _, _, rfl, rfl⟩
  have hset := ownership_setCarrier (b := b) (f := fun c => { c with registration := none, status := .active }) hc
    fun _ => rfl
  rw [hact]
  refine ⟨?_, h.routeIds, h.connections, ?_, h.oldRoutes, h.hosts, ?_⟩
  · show ((Keyed.update Carrier.serial c.serial _ b.carriers).map Carrier.serial).Nodup
    rw [Keyed.keys_update (by intro u hu; exact hu)]
    exact h.serials
  · intro x hx
    rcases Keyed.mem_update_iff.mp hx with ⟨c₀, h₀, _, rfl⟩ | ⟨hx, _⟩
    · exact h.oldSerials c₀ h₀
    · exact h.oldSerials x hx
  · rw [ownership_publish]
    convert ho using 1
    ext1
    case carrier => exact funext fun x => congrFun (congrArg Ownership.carrier hset) x
    case registering =>
      funext x
      simp only [Broker.ownership, Broker.setCarrier, Ownership.publish, Ownership.activate, Function.update_apply]
      rw [lookup_filter]
      rfl
    case active =>
      funext x
      simp only [Broker.ownership, Broker.setCarrier, Ownership.publish, Ownership.activate, Function.update_apply]
      rw [List.lookup_cons, lookup_filter]
      by_cases hx : x = c.authContext.hostId
      · simp [hx, Carrier.face]
      · simp [hx, beq_false_of_ne hx, Carrier.face]
    all_goals rfl

theorem Sound.offline (C : Config) (h : Sound D b) {c : Carrier} (hc : b.carrierOf c.serial = some c)
    (owner : b.active.lookup c.authContext.hostId = some c.serial) (marked : c.serial ∈ D) :
    Sound D ({ b with active := b.active.filter fun x => x.1 ≠ c.authContext.hostId }.publishDirectory C c false
      .disconnected none) := by
  have ho := h.owned.offline owner marked
  refine h.of_owners rfl rfl rfl rfl ?_
  rw [ownership_publish]
  convert ho using 1
  ext1
  case active =>
    funext x
    simp only [Broker.ownership, Ownership.publish, Ownership.offline, Function.update_apply]
    rw [lookup_filter]
  all_goals rfl

theorem Sound.unregister (h : Sound D b) {host : Nat} (marked : ∀ x, b.registering.lookup host = some x → x ∈ D) :
    Sound D { b with registering := b.registering.filter fun x => x.1 ≠ host } := by
  refine h.of_owners rfl rfl rfl rfl ?_
  convert h.owned.unregister marked using 1
  ext1
  case registering =>
    funext x
    simp only [Broker.ownership, Ownership.unregister, Function.update_apply]
    rw [lookup_filter]
  all_goals rfl

theorem Sound.openRoute (C : Config) (h : Sound D b) {c : Carrier} {connectionId : Nat} {a : Authorization} {i connectorId : Nat}
    (hc : b.carrierOf c.serial = some c) (attached : c.attached = true) (active : c.status = .active)
    (connector : c.connectorId = some connectorId) (host : a.hostId = c.authContext.hostId)
    (free : b.clientAt connectionId = none) :
    Sound D ((b.named.named.named.pushControl c.serial (Broker.controlEntry C
      (b.newRoute c connectionId a i connectorId).openFrame (some b.fresh))).addRoute c
        (b.newRoute c connectionId a i connectorId)) := by
  generalize hr : b.newRoute c connectionId a i connectorId = r
  have hid : r.routeId = b.fresh := hr ▸ rfl
  have hconn : r.connectionId = connectionId := hr ▸ rfl
  generalize he : Broker.controlEntry C r.openFrame (some b.fresh) = e
  have hnone : b.routeOf b.fresh = none := by
    cases hr' : b.routeOf b.fresh with
    | none => rfl
    | some r' =>
      have := h.oldRoutes r' (Keyed.mem_of_find hr')
      have := id_of_routeOf hr'
      omega
  have hkept : Kept b (b.named.named.named.pushControl c.serial e) :=
    (((Kept.named b).trans (Kept.named _)).trans (Kept.named _)).trans (Kept.setCarrier _ _ fun _ => ⟨rfl, rfl⟩)
  have hs := hkept.sound h
  generalize hb' : b.named.named.named.pushControl c.serial e = b' at hkept hs
  have hfresh : b'.fresh = b.fresh + 3 := by rw [← hb']; rfl
  have hroute' : b'.routeOf r.routeId = none := by rw [← hb', hid]; exact hnone
  have hclient' : b'.clientAt r.connectionId = none := by rw [← hb', hconn]; exact free
  have hc' : ∃ c', b'.carrierOf c.serial = some c' ∧ c'.face = c.face := by
    have hmap : (b'.carrierOf c.serial).map Carrier.face = (b.carrierOf c.serial).map Carrier.face :=
      Kept.find_face hkept.carriers c.serial
    rw [hc, Option.map_some] at hmap
    obtain ⟨c', hc', hface⟩ := Option.map_eq_some_iff.mp hmap
    exact ⟨c', hc', hface⟩
  obtain ⟨c', hc', hface⟩ := hc'
  have ho := hs.owned.addRoute (s := c.serial) (c := c.face) (i := r.routeId) (r := r.face)
    (by rw [← hface]; exact ownership_carrier hc') attached active
    (by show (b'.routeOf r.routeId).map _ = none; rw [hroute']; rfl)
    (by show (b'.clientAt r.connectionId).map _ = none; rw [hclient']; rfl)
    (hr ▸ rfl) (by rw [← hr]; exact connector) (by rw [← hr]; exact host.symm)
  refine ⟨?_, ?_, ?_, ?_, ?_, ?_, ?_⟩
  · show ((Keyed.update Carrier.serial c.serial _ b'.carriers).map Carrier.serial).Nodup
    rw [Keyed.keys_update (by intro u hu; exact hu)]
    exact hs.serials
  · show ((b'.routes ++ [r]).map Route.routeId).Nodup
    rw [List.map_append, List.map_singleton]
    refine List.nodup_append.mpr ⟨hs.routeIds, List.nodup_singleton _, fun x hx y hy => ?_⟩
    obtain ⟨r', hr', rfl⟩ := List.mem_map.mp hx
    rw [List.mem_singleton.mp hy]
    intro heq
    exact absurd (Keyed.find_of_mem hs.routeIds hr') (by rw [heq]; show b'.routeOf r.routeId ≠ _; rw [hroute']; simp)
  · show ((b'.clients ++ [_]).map Client.connectionId).Nodup
    rw [List.map_append, List.map_singleton]
    refine List.nodup_append.mpr ⟨hs.connections, List.nodup_singleton _, fun x hx y hy => ?_⟩
    obtain ⟨k, hk, rfl⟩ := List.mem_map.mp hx
    rw [List.mem_singleton.mp hy]
    intro heq
    exact absurd (Keyed.find_of_mem hs.connections hk)
      (by rw [heq]; show b'.clientAt r.connectionId ≠ _; rw [hclient']; simp)
  · intro x hx
    rcases Keyed.mem_update_iff.mp hx with ⟨c₀, h₀, _, rfl⟩ | ⟨hx, _⟩
    · exact hs.oldSerials c₀ h₀
    · exact hs.oldSerials x hx
  · intro x hx
    rcases List.mem_append.mp hx with hx | hx
    · exact hs.oldRoutes x hx
    · rw [List.mem_singleton.mp hx, hid]
      show b.fresh < b'.fresh
      omega
  · -- no client names the new route yet
    intro k hk x hx heq
    have hroutes : (Broker.addRoute c r b').routes = b'.routes ++ [r] := rfl
    have hclients : (Broker.addRoute c r b').clients = b'.clients ++
      [{ connectionId := r.connectionId, connectionIncarnation := r.connectionIncarnation, authContext := r.authContext,
         routeId := r.routeId }] := rfl
    rw [hclients, List.map_append, List.mem_append, List.map_singleton, List.mem_singleton] at hk
    rw [hroutes, List.map_append, List.mem_append, List.map_singleton, List.mem_singleton] at hx
    rcases hk with hk | rfl <;> rcases hx with hx | rfl
    · exact hs.hosts k hk x hx heq
    · obtain ⟨client, hclient, rfl⟩ := List.mem_map.mp hk
      have hnamed : b'.ownership.client client.connectionId = some client.routeId := by
        show (b'.clientAt client.connectionId).map _ = _
        rw [show b'.clientAt client.connectionId = some client from Keyed.find_of_mem hs.connections hclient]
        rfl
      obtain ⟨r', hr', _⟩ := hs.owned.routeOf _ _ hnamed
      have hsame : r.routeId = client.routeId := heq
      rw [← hsame] at hr'
      have hnone : b'.ownership.route r.routeId = none := by
        show (b'.routeOf r.routeId).map _ = none
        rw [hroute']
        rfl
      rw [hnone] at hr'
      cases hr'
    · obtain ⟨r', hr', rfl⟩ := List.mem_map.mp hx
      have hold := Keyed.find_of_mem hs.routeIds hr'
      have hsame : r'.routeId = r.routeId := heq
      rw [hsame] at hold
      have hmiss : Keyed.find Route.routeId r.routeId b'.routes = none := hroute'
      rw [hmiss] at hold
      cases hold
    · rfl
  · have hset := ownership_setCarrier (f := fun c => { c with routeIds := c.routeIds ++ [r.routeId] }) hc' fun _ => rfl
    have hf₁ : ({ c' with routeIds := c'.routeIds ++ [r.routeId] } : Carrier).face =
        { c.face with routeIds := c.face.routeIds ++ [r.routeId] } := by rw [← hface]; rfl
    rw [hf₁] at hset
    convert ho using 1
    ext1
    case carrier => exact funext fun x => congrFun (congrArg Ownership.carrier hset) x
    case route =>
      funext x
      simp only [Broker.ownership, Ownership.addRoute, Function.update_apply]
      show (Keyed.find Route.routeId x (b'.routes ++ [r])).map Route.face = _
      rw [Keyed.find_append_single]
      by_cases hx : x = r.routeId
      · unfold Broker.routeOf at hroute'
        rw [if_pos hx, hx, hroute']
        simp
      · simp only [hx, Ne.symm hx, if_false, Option.or_none]
        rfl
    case client =>
      funext x
      simp only [Broker.ownership, Ownership.addRoute, Function.update_apply]
      show (Keyed.find Client.connectionId x (b'.clients ++ [_])).map Client.routeId = _
      rw [Keyed.find_append_single]
      by_cases hx : x = r.connectionId
      · unfold Broker.clientAt at hclient'
        rw [show r.face.connectionId = r.connectionId from rfl, if_pos hx, hx, hclient']
        simp
      · rw [show r.face.connectionId = r.connectionId from rfl]
        simp only [hx, Ne.symm hx, if_false, Option.or_none]
        rfl
    all_goals rfl

/-! ## Discards -/

theorem Carrier.face_invalidateIfEmpty (c : Carrier) :
    c.invalidateIfEmpty.serial = c.serial ∧ c.invalidateIfEmpty.face = c.face := by
  unfold Carrier.invalidateIfEmpty
  split <;> exact ⟨rfl, rfl⟩

theorem Carrier.face_withoutData (c : Carrier) (id : Nat) :
    (c.withoutData id).serial = c.serial ∧ (c.withoutData id).face = c.face := by
  unfold Carrier.withoutData
  split
  · exact ⟨rfl, rfl⟩
  · exact face_invalidateIfEmpty _

theorem Carrier.face_withoutControl (c : Carrier) (id : Nat) :
    (c.withoutControl id).serial = c.serial ∧ (c.withoutControl id).face = c.face := face_invalidateIfEmpty _

theorem Carrier.face_pushData (c : Carrier) (id : Nat) (e : QueuedCarrierFrame) :
    (c.pushData id e).serial = c.serial ∧ (c.pushData id e).face = c.face := by
  unfold Carrier.pushData
  split <;> exact ⟨rfl, rfl⟩

theorem Carrier.face_popData (c : Carrier) (id : Nat) (rest : List QueuedCarrierFrame) :
    (c.popData id rest).serial = c.serial ∧ (c.popData id rest).face = c.face := by
  unfold Carrier.popData
  split
  · exact face_invalidateIfEmpty _
  · exact ⟨rfl, rfl⟩

theorem Kept.discardQueuedRouteData (c : Carrier) (id : Nat) (b : Broker) : Kept b (b.discardQueuedRouteData c id) := by
  unfold Broker.discardQueuedRouteData
  split
  · exact .refl b
  · exact (Kept.setCarrier b _ fun c => c.face_withoutData id).trans (.setRoute _ _ fun _ => ⟨rfl, rfl⟩)

theorem Kept.discardQueuedRouteControl (s id : Nat) (b : Broker) : Kept b (b.discardQueuedRouteControl s id) :=
  .setCarrier b s fun c => c.face_withoutControl id

theorem Kept.releaseHostToClient (r : Route) (entries : List QueuedClientFrame) (b : Broker) :
    Kept b (b.releaseHostToClient r entries) := by
  have hr : Kept b (b.setRoute r.routeId fun r => r.releasing entries) := .setRoute b _ fun _ => ⟨rfl, rfl⟩
  unfold Broker.releaseHostToClient
  dsimp only
  split
  · exact hr
  · exact hr.trans (.setCarrier _ _ fun _ => ⟨rfl, rfl⟩)

theorem Kept.discardQueuedClientData (r : Route) (b : Broker) : Kept b (b.discardQueuedClientData r) := by
  unfold Broker.discardQueuedClientData
  split
  · exact .refl b
  · exact (Kept.releaseHostToClient r _ b).trans (.setClient _ _ fun _ => ⟨rfl, rfl⟩)

theorem Kept.closeRoute (c : Carrier) (r : Route) (withControl : Bool) (b : Broker) :
    Kept b (b.closeRoute c r withControl) := by
  have hdata := Kept.discardQueuedRouteData c r.routeId b
  have hcontrol : Kept b (if withControl then
      (b.discardQueuedRouteData c r.routeId).discardQueuedRouteControl c.serial r.routeId
      else b.discardQueuedRouteData c r.routeId) := by
    split
    · exact hdata.trans (.discardQueuedRouteControl _ _ _)
    · exact hdata
  exact (hcontrol.trans (.discardQueuedClientData r _)).trans (.setRoute _ _ fun _ => ⟨rfl, rfl⟩)

theorem Sound.ownership_dropRoute (h : Sound D b) (r : Route) :
    (b.dropRoute r).ownership = b.ownership.dropRoute r.routeId r.face := by
  -- first the carrier, which is the only one with the transport
  have hcarrier : (Broker.dropFromCarrier r b).ownership =
      { b.ownership with carrier := (b.ownership.dropRoute r.routeId r.face).carrier } := by
    have hmiss : ∀ {x c}, b.carrierOf x = some c → ¬ (c.attached = true ∧ c.transportId = r.carrierTransportId) →
        (b.ownership.dropRoute r.routeId r.face).carrier x = some c.face := by
      intro x c hc hne
      show (b.ownership.carrier x).map _ = _
      rw [ownership_carrier hc, Option.map_some]
      exact congrArg some (if_neg hne)
    unfold Broker.dropFromCarrier
    split
    · next hnone =>
      ext1
      case carrier =>
        funext x
        show (b.carrierOf x).map _ = _
        cases hc : b.carrierOf x with
        | none =>
          show none = ((b.carrierOf x).map _).map _
          rw [hc]
          rfl
        | some c =>
          refine (hmiss hc ?_).symm
          rintro ⟨ha, ht⟩
          exact carrierAt_eq_none hnone (Keyed.mem_of_find hc) ha ht
      all_goals rfl
    · next c hc =>
      obtain ⟨hof, ha, ht⟩ := h.carrierAt_iff.mp hc
      have hkept := (Kept.discardQueuedRouteData c r.routeId b).trans (.discardQueuedRouteControl c.serial r.routeId _)
      have hown := hkept.ownership
      generalize (b.discardQueuedRouteData c r.routeId).discardQueuedRouteControl c.serial r.routeId = b₁ at hown ⊢
      have hface : (b₁.carrierOf c.serial).map Carrier.face = some c.face := by
        have := congrFun (congrArg Ownership.carrier hown) c.serial
        exact this.trans (ownership_carrier hof)
      obtain ⟨c₁, hc₁, hf₁⟩ := Option.map_eq_some_iff.mp hface
      rw [ownership_setCarrier (f := fun c => { c with routeIds := c.routeIds.erase r.routeId }) hc₁ fun _ => rfl, hown]
      have hf₂ : ({ c₁ with routeIds := c₁.routeIds.erase r.routeId } : Carrier).face =
          { c.face with routeIds := c.face.routeIds.erase r.routeId } := by rw [← hf₁]; rfl
      rw [hf₂]
      ext1
      case carrier =>
        funext x
        simp only [Ownership.setCarrier, Function.update_apply]
        by_cases hx : x = c.serial
        · rw [if_pos hx, hx]
          show _ = (b.ownership.carrier c.serial).map _
          rw [ownership_carrier hof, Option.map_some, if_pos ⟨ha, ht⟩]
        · rw [if_neg hx]
          show (b.carrierOf x).map _ = _
          cases hcx : b.carrierOf x with
          | none =>
            show none = ((b.carrierOf x).map _).map _
            rw [hcx]
            rfl
          | some cx =>
            refine (hmiss hcx ?_).symm
            rintro ⟨hax, htx⟩
            exact hx (h.owned.transports x cx.face c.serial c.face (ownership_carrier hcx) (ownership_carrier hof) hax ha
              (htx.trans ht.symm))
      all_goals rfl
  -- then the client
  have hclient : ∀ b₀ : Broker, (Broker.dropFromClient r b₀).ownership =
      { b₀.ownership with client := Function.update b₀.ownership.client r.connectionId none } := by
    intro b₀
    unfold Broker.dropFromClient
    split
    · next hnone =>
      ext1
      case client =>
        have hcl : b₀.ownership.client r.connectionId = none := by
          show (b₀.clientAt r.connectionId).map _ = none
          rw [hnone]
          rfl
        exact (Function.update_eq_self_iff.mpr hcl.symm).symm
      all_goals rfl
    · next client hsome =>
      dsimp only
      have hown := (Kept.releaseHostToClient r
        (client.queue ++ client.inFlight.map InFlightClientFrame.toQueuedClientFrame) b₀).ownership
      generalize b₀.releaseHostToClient r _ = b₁ at hown ⊢
      rw [← hown]
      ext1
      case client =>
        funext x
        simp only [Function.update_apply]
        show (Keyed.find Client.connectionId x (Keyed.erase Client.connectionId r.connectionId b₁.clients)).map _ = _
        by_cases hx : x = r.connectionId
        · rw [if_pos hx, hx, Keyed.find_erase_self]
          rfl
        · rw [if_neg hx, Keyed.find_erase_ne hx]
          rfl
      all_goals rfl
  have h₂ := hclient (Broker.dropFromCarrier r b)
  rw [hcarrier] at h₂
  unfold Broker.dropRoute
  dsimp only
  generalize Broker.dropFromClient r (Broker.dropFromCarrier r b) = b₂ at h₂ ⊢
  have hcarriers := congrArg Ownership.carrier h₂
  have hactive := congrArg Ownership.active h₂
  have hregistering := congrArg Ownership.registering h₂
  have hrecord := congrArg Ownership.record h₂
  have hclients := congrArg Ownership.client h₂
  ext1
  case carrier => exact hcarriers
  case active => exact hactive
  case registering => exact hregistering
  case record => exact hrecord
  case client => exact hclients
  case route =>
    funext x
    simp only [Ownership.dropRoute, Function.update_apply]
    show (Keyed.find Route.routeId x (Keyed.erase Route.routeId r.routeId b₂.routes)).map _ = _
    by_cases hx : x = r.routeId
    · rw [if_pos hx, hx, Keyed.find_erase_self]
      rfl
    · rw [if_neg hx, Keyed.find_erase_ne hx]
      have hroutes := congrFun (congrArg Ownership.route h₂) x
      exact hroutes

theorem dropRoute_keys (r : Route) (b : Broker) :
    (b.dropRoute r).carriers.map Carrier.serial = b.carriers.map Carrier.serial ∧
      ((b.dropRoute r).routes.map fun r => (r.routeId, r.face)).Sublist (b.routes.map fun r => (r.routeId, r.face)) ∧
      ((b.dropRoute r).clients.map fun c => (c.connectionId, c.face)).Sublist
        (b.clients.map fun c => (c.connectionId, c.face)) ∧
      (b.dropRoute r).fresh = b.fresh := by
  have hcarrier : ∃ b₁, Kept b b₁ ∧ b₁.fresh = b.fresh ∧ (Broker.dropFromCarrier r b).carriers.map Carrier.serial =
      b₁.carriers.map Carrier.serial ∧ (Broker.dropFromCarrier r b).routes = b₁.routes ∧
      (Broker.dropFromCarrier r b).clients = b₁.clients ∧ (Broker.dropFromCarrier r b).fresh = b₁.fresh := by
    unfold Broker.dropFromCarrier
    split
    · exact ⟨b, .refl b, rfl, rfl, rfl, rfl, rfl⟩
    · next c _ =>
      refine ⟨(b.discardQueuedRouteData c r.routeId).discardQueuedRouteControl c.serial r.routeId,
        (Kept.discardQueuedRouteData c r.routeId b).trans (.discardQueuedRouteControl c.serial r.routeId _), ?_,
        Keyed.keys_update fun _ hc => hc, rfl, rfl, rfl⟩
      show (b.discardQueuedRouteData c r.routeId).fresh = b.fresh
      unfold Broker.discardQueuedRouteData
      split <;> rfl
  obtain ⟨b₁, hk₁, hf₁, hs, hro, hcl, hfr⟩ := hcarrier
  have hclient : ∀ b₀ : Broker, (Broker.dropFromClient r b₀).carriers.map Carrier.serial = b₀.carriers.map Carrier.serial ∧
      (Broker.dropFromClient r b₀).routes.map (fun r => (r.routeId, r.face)) = b₀.routes.map (fun r => (r.routeId, r.face)) ∧
      ((Broker.dropFromClient r b₀).clients.map fun c => (c.connectionId, c.face)).Sublist
        (b₀.clients.map fun c => (c.connectionId, c.face)) ∧
      (Broker.dropFromClient r b₀).fresh = b₀.fresh := by
    intro b₀
    unfold Broker.dropFromClient
    split
    · exact ⟨rfl, rfl, List.Sublist.refl _, rfl⟩
    · next client _ =>
      have hk := Kept.releaseHostToClient r (client.queue ++ client.inFlight.map InFlightClientFrame.toQueuedClientFrame) b₀
      refine ⟨Kept.keys hk.carriers, hk.routes, ?_, ?_⟩
      · rw [← hk.clients]
        exact List.filter_sublist.map _
      · dsimp only
        unfold Broker.releaseHostToClient
        dsimp only
        split <;> rfl
  obtain ⟨c1, c2, c3, c4⟩ := hclient (Broker.dropFromCarrier r b)
  refine ⟨c1.trans (hs.trans (Kept.keys hk₁.carriers)), ?_, ?_, c4.trans (hfr.trans hf₁)⟩
  · have hsub : ((b.dropRoute r).routes.map fun r => (r.routeId, r.face)).Sublist
        ((Broker.dropFromClient r (Broker.dropFromCarrier r b)).routes.map fun r => (r.routeId, r.face)) :=
      List.filter_sublist.map _
    rw [c2, hro, hk₁.routes] at hsub
    exact hsub
  · rw [hcl, hk₁.clients] at c3
    exact c3

theorem dropRoute_directory (r : Route) (b : Broker) : (b.dropRoute r).directory = b.directory := by
  have hcarrier : (Broker.dropFromCarrier r b).directory = b.directory := by
    unfold Broker.dropFromCarrier
    split
    · rfl
    · next c _ =>
      exact ((Kept.discardQueuedRouteData c r.routeId b).trans (.discardQueuedRouteControl c.serial r.routeId _)).directory
  refine Eq.trans ?_ hcarrier
  show (Broker.dropFromClient r (Broker.dropFromCarrier r b)).directory = _
  unfold Broker.dropFromClient
  split
  · rfl
  · exact (Kept.releaseHostToClient r _ _).directory

theorem Sound.drop (h : Sound D b) {r : Route} (hr : b.routeOf r.routeId = some r) : Sound D (b.dropRoute r) := by
  obtain ⟨hs, hro, hcl, hfr⟩ := dropRoute_keys r b
  have hkeys : ∀ {ν φ : Type} {key : ν → Nat} {face : ν → φ} {l l' : List ν},
      (l'.map fun v => (key v, face v)).Sublist (l.map fun v => (key v, face v)) → (l'.map key).Sublist (l.map key) := by
    intro ν φ key face l l' hsub
    have := hsub.map Prod.fst
    simpa [List.map_map, Function.comp_def] using this
  refine ⟨hs ▸ h.serials, h.routeIds.sublist (hkeys hro), h.connections.sublist (hkeys hcl), fun c hc => ?_,
    fun x hx => ?_, fun k hk x hx => ?_, ?_⟩
  · have hmem : c.serial ∈ (b.dropRoute r).carriers.map Carrier.serial := List.mem_map_of_mem hc
    rw [hs] at hmem
    obtain ⟨c₀, h₀, heq⟩ := List.mem_map.mp hmem
    rw [hfr, ← heq]
    exact h.oldSerials c₀ h₀
  · obtain ⟨r₀, h₀, heq⟩ := List.mem_map.mp ((hkeys hro).subset (List.mem_map_of_mem hx))
    rw [hfr, ← heq]
    exact h.oldRoutes r₀ h₀
  · have hface : k ∈ b.clients.map Client.face := by
      have hsub := hcl.map Prod.snd
      rw [List.map_map, List.map_map] at hsub
      exact hsub.subset hk
    exact h.hosts k hface x (hro.subset hx)
  · rw [h.ownership_dropRoute]
    exact h.owned.dropRoute (by show (b.routeOf r.routeId).map _ = _; rw [hr]; rfl)

theorem Sound.withdraw (h : Sound D b) (e : Extension) : Sound D (b.withdrawOptionalCapability e) := by
  unfold Broker.withdrawOptionalCapability
  split
  · exact h
  · dsimp only
    generalize b.reply.time = time
    let revised : DirectoryRecord → DirectoryRecord := fun d =>
      if Capability.optional e ∈ d.capabilities then
        { d with
          revision := d.revision + 1
          capabilities := d.capabilities.filter (· ≠ .optional e)
          observedAtMs := time }
      else d
    let withdrawn : Route → Route := fun r =>
      if r.agentExtensionDispositions e = some .selected then
        { r with agentExtensionDispositions := fun x =>
            if x = e then some .withdrawn else r.agentExtensionDispositions x }
      else r
    have hid : ∀ r, (withdrawn r).routeId = r.routeId ∧ (withdrawn r).face = r.face := by
      intro r
      simp only [withdrawn]
      split <;> exact ⟨rfl, rfl⟩
    have hhost : ∀ d, (revised d).hostId = d.hostId := by
      intro d
      simp only [revised]
      split <;> rfl
    refine ⟨h.serials, ?_, h.connections, h.oldSerials, ?_, ?_, ?_⟩
    · show ((b.routes.map withdrawn).map Route.routeId).Nodup
      rw [List.map_map, show Route.routeId ∘ withdrawn = Route.routeId from funext fun r => (hid r).1]
      exact h.routeIds
    · intro r hr
      obtain ⟨r₀, h₀, rfl⟩ := List.mem_map.mp hr
      rw [(hid r₀).1]
      exact h.oldRoutes r₀ h₀
    · show ∀ k ∈ _, ∀ r ∈ (b.routes.map withdrawn).map _, _
      rw [List.map_map, show (fun r : Route => (r.routeId, r.face)) ∘ withdrawn = fun r => (r.routeId, r.face) from
        funext fun r => Prod.ext (hid r).1 (hid r).2]
      exact h.hosts
    · convert h.owned.revise (w := fun k => ((b.recordOf k).map revised).map DirectoryRecord.face) ?_ ?_ using 1
      · ext1
        case record =>
          funext k
          show (Keyed.find DirectoryRecord.hostId k (b.directory.map revised)).map _ = _
          rw [Keyed.find_map hhost]
          rfl
        case route =>
          funext k
          show (Keyed.find Route.routeId k (b.routes.map withdrawn)).map _ = (b.routeOf k).map _
          rw [Keyed.find_map fun r => (hid r).1, Option.map_map, show Route.face ∘ withdrawn = Route.face from funext fun r => (hid r).2]
          rfl
        all_goals rfl
      · intro k
        show (((b.recordOf k).map revised).map _).map _ = ((b.recordOf k).map _).map _
        cases b.recordOf k with
        | none => rfl
        | some d =>
          simp only [Option.map_some, Option.some.injEq, revised, DirectoryRecord.face]
          split <;> rfl
      · intro k
        show (((b.recordOf k).map _).map _).getD 0 ≤ ((((b.recordOf k).map revised).map _).map _).getD 0
        cases b.recordOf k with
        | none => exact Nat.le_refl _
        | some d =>
          simp only [Option.map_some, Option.getD_some, revised, DirectoryRecord.face]
          split
          · exact Nat.le_succ _
          · exact Nat.le_refl _

/-! ## Every move -/

theorem Kept.pushFrame (s : Nat) (r : Route) (bytes : Bytes) (charged : Bool) (b : Broker) :
    Kept b (b.pushFrame s r bytes charged) :=
  ((Kept.setRoute b _ (by exact fun _ => ⟨rfl, rfl⟩)).trans (.setCarrier _ _ (by exact fun _ => ⟨rfl, rfl⟩))).trans
    (.setClient _ _ (by exact fun _ => ⟨rfl, rfl⟩))

theorem Kept.dispatch (s : Nat) (e : QueuedCarrierFrame) (b : Broker) : Kept b (b.dispatch s e) := by
  have hc : Kept b (b.setCarrier s fun c =>
      { c with
        queuedBytes := c.queuedBytes - e.wireBytes
        inFlightBytes := c.inFlightBytes + e.wireBytes
        inFlight := c.inFlight ++ [⟨e, b.fresh⟩] }) := .setCarrier b s (by exact fun _ => ⟨rfl, rfl⟩)
  unfold Broker.dispatch
  dsimp only
  refine Kept.trans ?_ ((Kept.named _).trans (.emit _ _))
  split
  · exact hc.trans (.setRoute _ _ (by exact fun _ => ⟨rfl, rfl⟩))
  · exact hc

theorem Kept.acknowledge (s : Nat) (e : InFlightCarrierFrame) (b : Broker) : Kept b (b.acknowledge s e) := by
  unfold Broker.acknowledge
  dsimp only
  have hc : Kept b (b.setCarrier s fun c =>
      { c with
        inFlight := c.inFlight.filter fun x => x.deliveryId ≠ e.deliveryId
        inFlightBytes := c.inFlightBytes - e.wireBytes }) := .setCarrier b s (by exact fun _ => ⟨rfl, rfl⟩)
  split
  · exact hc.trans (.setRoute _ _ (by exact fun _ => ⟨rfl, rfl⟩))
  · exact hc

theorem Route.face_direction (d : Direction) (time : Nat) (r : Route) :
    ((r.clocked time d).routeId = r.routeId ∧ (r.clocked time d).face = r.face) ∧
      ((r.halted d).routeId = r.routeId ∧ (r.halted d).face = r.face) ∧
      ((r.released d).routeId = r.routeId ∧ (r.released d).face = r.face) := by
  cases d <;> exact ⟨⟨rfl, rfl⟩, ⟨rfl, rfl⟩, rfl, rfl⟩

theorem Sound.setCarrier_same (h : Sound D b) {s : Nat} {c : Carrier} {f : Carrier → Carrier} (hc : b.carrierOf s = some c)
    (hf : ∀ c, (f c).serial = c.serial) (hface : (f c).face = c.face) : Sound D (b.setCarrier s f) := by
  refine h.of_setCarrier hf ?_
  have hsame : b.ownership.setCarrier s c.face = b.ownership := by
    unfold Ownership.setCarrier
    rw [Function.update_eq_self_iff.mpr (ownership_carrier hc).symm]
  rw [ownership_setCarrier hc hf, hface, hsame]
  exact h.owned

theorem Sound.of_face {D' : List Nat} {s : Nat} {c : Carrier} {f : Carrier → Carrier} (h : Sound D b)
    (hc : b.carrierOf s = some c) (hf : ∀ c, (f c).serial = c.serial)
    (ho : Owned D' (b.ownership.setCarrier s (f c).face)) : Sound D' (b.setCarrier s f) := by
  refine h.of_setCarrier hf ?_
  rw [ownership_setCarrier hc hf]
  exact ho

/-- **Nothing came**: routes and owners are those there were, and carriers keep their transport and host. -/
structure Fewer (b b' : Broker) : Prop where
  route : ∀ id r, b'.ownership.route id = some r → b.ownership.route id = some r
  transport : ∀ s, (b'.ownership.carrier s).map (fun c => (c.transportId, c.hostId)) =
    (b.ownership.carrier s).map fun c => (c.transportId, c.hostId)
  attached : ∀ s c c', b.ownership.carrier s = some c → b'.ownership.carrier s = some c' → c'.attached = true →
    c.attached = true
  active : ∀ host s, b'.active.lookup host = some s → b.active.lookup host = some s
  registering : ∀ host s, b'.registering.lookup host = some s → b.registering.lookup host = some s

namespace Fewer

variable {b' b'' : Broker}

theorem refl (b : Broker) : Fewer b b :=
  ⟨fun _ _ h => h, fun _ => rfl, fun _ _ _ h h' ha => (Option.some.inj (h.symm.trans h')) ▸ ha, fun _ _ h => h,
    fun _ _ h => h⟩

theorem trans (h : Fewer b b') (h' : Fewer b' b'') : Fewer b b'' := by
  refine ⟨fun id r hr => h.route id r (h'.route id r hr), fun s => (h'.transport s).trans (h.transport s), ?_,
    fun host s hs => h.active host s (h'.active host s hs), fun host s hs => h.registering host s (h'.registering host s hs)⟩
  intro s c c'' hc hc'' ha
  have ht := h.transport s
  rw [hc] at ht
  obtain ⟨c', hc', _⟩ := Option.map_eq_some_iff.mp ht
  exact h.attached s c c' hc hc' (h'.attached s c' c'' hc' hc'' ha)

theorem of_ownership (h : b'.ownership = b.ownership) : Fewer b b' := by
  have href := refl b
  exact ⟨fun id r hr => by rwa [h] at hr, fun s => by rw [h], fun s c c' hc hc' => href.attached s c c' hc (h ▸ hc'),
    fun host s hs => (congrFun (congrArg Ownership.active h) host).symm.trans hs,
    fun host s hs => (congrFun (congrArg Ownership.registering h) host).symm.trans hs⟩

theorem of_update {s : Nat} {f : Carrier → Carrier} (hr : b'.routes = b.routes) (ha : b'.active = b.active)
    (hg : b'.registering = b.registering) (hc : b'.carriers = Keyed.update Carrier.serial s f b.carriers)
    (hf : ∀ c, (f c).serial = c.serial ∧ (f c).transportId = c.transportId ∧
      (f c).authContext.hostId = c.authContext.hostId ∧ ((f c).attached = true → c.attached = true)) : Fewer b b' := by
  have hfind : ∀ x, b'.carrierOf x = if x = s then (b.carrierOf x).map f else b.carrierOf x := by
    intro x
    have hset : b'.carrierOf x = (b.setCarrier s f).carrierOf x := by
      unfold Broker.carrierOf Broker.setCarrier
      rw [hc]
    rw [hset]
    split
    · next heq => rw [heq, carrierOf_setCarrier_self fun c => (hf c).1]
    · next hne => rw [carrierOf_setCarrier_ne (fun c => (hf c).1) hne]
  refine ⟨fun id r h => ?_, fun x => ?_, fun x c c' h h' ha => ?_, fun _ _ h => ha ▸ h, fun _ _ h => hg ▸ h⟩
  · show (b.routeOf id).map _ = _
    unfold Broker.routeOf
    rw [← hr]
    exact h
  · show ((b'.carrierOf x).map _).map _ = ((b.carrierOf x).map _).map _
    rw [hfind]
    split
    · cases b.carrierOf x with
      | none => rfl
      | some c => simp [Carrier.face, (hf c).2.1, (hf c).2.2.1]
    · rfl
  · obtain ⟨c₀, h₀, rfl⟩ := Option.map_eq_some_iff.mp h
    obtain ⟨c₁, h₁, rfl⟩ := Option.map_eq_some_iff.mp h'
    rw [hfind, h₀] at h₁
    split at h₁
    · obtain rfl := Option.some.inj h₁
      exact (hf c₀).2.2.2 ha
    · obtain rfl := Option.some.inj h₁
      exact ha

theorem of_owners (hr : b'.routes = b.routes) (hc : b'.carriers = b.carriers)
    (ha : ∀ host s, b'.active.lookup host = some s → b.active.lookup host = some s)
    (hg : ∀ host s, b'.registering.lookup host = some s → b.registering.lookup host = some s) : Fewer b b' := by
  have hroute : b'.ownership.route = b.ownership.route := by
    funext id
    show (Keyed.find Route.routeId id b'.routes).map _ = _
    rw [hr]
    rfl
  have hcarrier : b'.ownership.carrier = b.ownership.carrier := by
    funext s
    show (Keyed.find Carrier.serial s b'.carriers).map _ = _
    rw [hc]
    rfl
  have href := refl b
  exact ⟨fun id r h => by rwa [hroute] at h, fun s => by rw [hcarrier], fun s c c' h h' =>
    href.attached s c c' h (by rwa [hcarrier] at h'), ha, hg⟩

theorem lookup_of_filter {l : List (Nat × Nat)} {k k' x : Nat} (h : (l.filter fun y => y.1 ≠ k).lookup k' = some x) :
    l.lookup k' = some x := by
  rw [lookup_filter] at h
  split at h
  · cases h
  · exact h

end Fewer

theorem Sound.fewer_dropRoute (h : Sound D b) (r : Route) : Fewer b (b.dropRoute r) := by
  have ho := h.ownership_dropRoute r
  refine ⟨fun id f hf => ?_, fun s => ?_, fun s c c' hc hc' ha => ?_,
    fun host s hs => (congrFun (congrArg Ownership.active ho) host).symm.trans hs,
    fun host s hs => (congrFun (congrArg Ownership.registering ho) host).symm.trans hs⟩
  · rw [ho] at hf
    by_cases hid : id = r.routeId
    · simp [Ownership.dropRoute, hid] at hf
    · simpa [Ownership.dropRoute, hid] using hf
  · rw [ho]
    show ((b.ownership.carrier s).map _).map _ = _
    rw [Option.map_map]
    congr 1
    funext c
    simp only [Function.comp]
    split <;> rfl
  · rw [ho] at hc'
    have hc'' : (b.ownership.carrier s).map _ = some c' := hc'
    rw [hc, Option.map_some] at hc''
    obtain rfl := Option.some.inj hc''
    split at ha <;> exact ha

theorem fewer_withdraw (e : Extension) (b : Broker) : Fewer b (b.withdrawOptionalCapability e) := by
  unfold Broker.withdrawOptionalCapability
  split
  · exact .refl b
  · have hroute : ∀ id, (Keyed.find Route.routeId id (b.routes.map fun r =>
        if r.agentExtensionDispositions e = some .selected then
          { r with agentExtensionDispositions := fun x =>
              if x = e then some .withdrawn else r.agentExtensionDispositions x }
        else r)).map Route.face = (Keyed.find Route.routeId id b.routes).map Route.face := by
      intro id
      unfold Keyed.find
      rw [List.find?_map, Option.map_map]
      congr 1
      · funext r
        simp only [Function.comp]
        split <;> rfl
      · congr 1
        funext r
        simp only [Function.comp]
        split <;> rfl
    have href := Fewer.refl b
    exact ⟨fun id r h => (hroute id).symm.trans h, href.transport, href.attached, href.active, href.registering⟩

theorem Kept.discardCarrier_routes (l : List InFlightCarrierFrame) (b : Broker) :
    Kept b (l.foldl (fun b e =>
      match e.route, e.routeSeq with
      | some routeId, some _ => b.setRoute routeId fun r =>
        { r with
          clientToHostBufferedBytes := max 0 (r.clientToHostBufferedBytes - e.rawBytes)
          clientToHostFrames := max 0 (r.clientToHostFrames - 1) }
      | _, _ => b) b) := by
  induction l generalizing b with
  | nil => exact .refl b
  | cons e l ih =>
    rw [List.foldl_cons]
    refine Kept.trans ?_ (ih _)
    split
    · exact .setRoute b _ fun _ => ⟨rfl, rfl⟩
    · exact .refl b

theorem discardCarrier_carriers (l : List InFlightCarrierFrame) (b : Broker) :
    (l.foldl (fun b e =>
      match e.route, e.routeSeq with
      | some routeId, some _ => b.setRoute routeId fun r =>
        { r with
          clientToHostBufferedBytes := max 0 (r.clientToHostBufferedBytes - e.rawBytes)
          clientToHostFrames := max 0 (r.clientToHostFrames - 1) }
      | _, _ => b) b).carriers = b.carriers := by
  induction l generalizing b with
  | nil => rfl
  | cons e l ih =>
    rw [List.foldl_cons, ih]
    split <;> rfl

theorem Sound.discardCarrier (h : Sound D b) {c : Carrier} (hc : b.carrierOf c.serial = some c) (hroutes : c.routeIds = []) :
    Sound D (b.discardCarrier c.serial) ∧ Fewer b (b.discardCarrier c.serial) := by
  unfold Broker.discardCarrier
  rw [hc]
  dsimp only
  have hk := Kept.discardCarrier_routes c.inFlight b
  generalize hb : c.inFlight.foldl _ b = b₁ at hk
  have hcar : b₁.carriers = b.carriers := by rw [← hb, discardCarrier_carriers]
  have hc₁ : b₁.carrierOf c.serial = some c := by
    unfold Broker.carrierOf
    rw [hcar]
    exact hc
  refine ⟨(hk.sound h).setCarrier_same hc₁ (fun _ => rfl) (by unfold Carrier.face Carrier.discarded; rw [hroutes]), ?_⟩
  exact (Fewer.of_ownership hk.ownership).trans (.of_update rfl rfl rfl rfl fun _ => ⟨rfl, rfl, rfl, id⟩)

/-- **A record that is published anew has a larger revision.** -/
def Advances (b b' : Broker) : Prop :=
  ∀ host d, b.recordOf host = some d → ∃ d', b'.recordOf host = some d' ∧ (d' = d ∨ d.revision < d'.revision)

namespace Advances

variable {b' b'' : Broker}

theorem of_directory (h : b'.directory = b.directory) : Advances b b' := by
  intro host d hd
  refine ⟨d, ?_, .inl rfl⟩
  unfold Broker.recordOf at *
  rw [h, hd]

theorem trans (h : Advances b b') (h' : Advances b' b'') : Advances b b'' := by
  intro host d hd
  obtain ⟨d₁, h₁, c₁⟩ := h host d hd
  obtain ⟨d₂, h₂, c₂⟩ := h' host d₁ h₁
  refine ⟨d₂, h₂, ?_⟩
  rcases c₁ with rfl | c₁
  · exact c₂
  · rcases c₂ with rfl | c₂
    · exact .inr c₁
    · exact .inr (Nat.lt_trans c₁ c₂)

theorem publish (C : Config) (c : Carrier) (online : Bool) (reason : PresenceReason) (p : Option Nat) (b : Broker) :
    Advances b (b.publishDirectory C c online reason p) := by
  obtain ⟨new, hnew, hhost, hface⟩ := publishDirectory_spec C c online reason p b
  intro host d hd
  rw [hnew]
  show ∃ d', Keyed.find DirectoryRecord.hostId host (Keyed.put DirectoryRecord.hostId new b.directory) = some d' ∧ _
  by_cases hh : host = c.authContext.hostId
  · refine ⟨new, by rw [hh, ← hhost, Keyed.find_put_self], .inr ?_⟩
    have hrev : new.revision = ((b.recordOf host).map DirectoryRecord.revision).getD 0 + 1 :=
      hh ▸ congrArg RecordFace.revision hface
    rw [hrev, hd]
    exact Nat.lt_succ_self _
  · exact ⟨d, by rw [Keyed.find_put_ne (hhost ▸ hh)]; exact hd, .inl rfl⟩

theorem activate (C : Config) (c : Carrier) (hello : HostHello) (previous : Option Carrier) (b : Broker) :
    Advances b (b.activate C c hello previous) := by
  unfold Broker.activate
  dsimp only
  split
  · exact (of_directory rfl).trans (publish C c _ _ _ _)
  · split <;> exact (of_directory rfl).trans (publish C c _ _ _ _)

theorem withdraw (e : Extension) (b : Broker) : Advances b (b.withdrawOptionalCapability e) := by
  intro host d hd
  unfold Broker.withdrawOptionalCapability
  split
  · exact ⟨d, hd, .inl rfl⟩
  · refine ⟨_, (Keyed.find_map (fun d => ?_)).trans (congrArg (Option.map _) hd), ?_⟩
    · split <;> rfl
    · dsimp only
      split
      · exact .inr (Nat.lt_succ_self _)
      · exact .inl rfl

end Advances

/-- Where the carriers come from: a new one is vacant, and an active one stays so or is being torn down. -/
def Origin (D : List Nat) (b b' : Broker) : Prop :=
  ∀ s c', b'.carrierOf s = some c' → (b.carrierOf s = none ∧ c'.Vacant) ∨
    ∃ c, b.carrierOf s = some c ∧ (c.status = .active → c'.status = .active ∨ s ∈ D)

namespace Origin

variable {b' : Broker}

theorem of_carriers (h : b'.carriers = b.carriers) : Origin D b b' := by
  intro s c hc
  unfold Broker.carrierOf at *
  rw [h] at hc
  exact .inr ⟨c, hc, .inl⟩

theorem of_ownership (h : ∀ s, (b'.ownership.carrier s).map CarrierFace.status = (b.ownership.carrier s).map CarrierFace.status) :
    Origin D b b' := by
  intro s c' hc'
  have hs := h s
  rw [ownership_carrier hc'] at hs
  obtain ⟨f, hf, hst⟩ := Option.map_eq_some_iff.mp hs.symm
  obtain ⟨c, hc, rfl⟩ := Option.map_eq_some_iff.mp hf
  exact .inr ⟨c, hc, fun ha => .inl (hst.symm.trans ha)⟩

theorem of_update {s : Nat} {f : Carrier → Carrier} (hc : b'.carriers = Keyed.update Carrier.serial s f b.carriers)
    (hf : ∀ c, (f c).serial = c.serial)
    (hst : ∀ c, b.carrierOf s = some c → c.status = .active → (f c).status = .active ∨ s ∈ D) : Origin D b b' := by
  intro x c' hx
  have hset : (b.setCarrier s f).carrierOf x = some c' := by
    unfold Broker.carrierOf Broker.setCarrier at *
    rwa [← hc]
  rcases carrierOf_setCarrier_cases hset hf with ⟨_, h'⟩ | ⟨rfl, c, h', rfl⟩
  · exact .inr ⟨c', h', .inl⟩
  · exact .inr ⟨c, h', hst c h'⟩

end Origin

variable {C : Config} {P : Permits} {D' : List Nat} {b' : Broker}

theorem activate_carriers (C : Config) (c : Carrier) (hello : HostHello) (previous : Option Carrier) (b : Broker) :
    (b.activate C c hello previous).carriers = Keyed.update Carrier.serial c.serial
      (fun c => { c with registration := none, status := .active }) b.carriers := by
  unfold Broker.activate
  cases previous with
  | some p => rfl
  | none => dsimp only; split <;> rfl

theorem Kept.carrierOf (h : Kept b b') {s : Nat} {c : Carrier} (hc : b.carrierOf s = some c) :
    ∃ c', b'.carrierOf s = some c' ∧ c'.face = c.face := by
  have hface : (b'.carrierOf s).map Carrier.face = some c.face :=
    (Kept.find_face h.carriers s).trans (by show (b.carrierOf s).map _ = _; rw [hc]; rfl)
  exact Option.map_eq_some_iff.mp hface

/-- The revision of the directory record of a host, `0` before there is one. -/
def Broker.revisionOf (b : Broker) (host : Nat) : Nat := ((b.recordOf host).map DirectoryRecord.revision).getD 0

theorem Advances.revision {b b' : Broker} (h : Advances b b') (host : Nat) : b.revisionOf host ≤ b'.revisionOf host := by
  unfold Broker.revisionOf
  cases hd : b.recordOf host with
  | none => exact Nat.zero_le _
  | some d =>
    obtain ⟨d', hd', heq⟩ := h host d hd
    rw [hd']
    rcases heq with rfl | hlt
    · exact Nat.le_refl _
    · exact Nat.le_of_lt hlt

/-- **What becomes of a carrier that has said hello**: while it is registering its registration stays, unless candidates of
its host may be based anew. -/
structure Follows (P : Permits) (D D' : List Nat) (s : Nat) (c c' : Carrier) : Prop where
  greeted : c'.status ≠ .pending
  host : c'.authContext.hostId = c.authContext.hostId
  transport : c'.transportId = c.transportId
  connector : c'.connectorId = c.connectorId
  waiting : c'.status = .registering → s ∉ D' →
    c.status = .registering ∧ s ∉ D ∧ (c'.registration = c.registration ∨ P.rebase c.authContext.hostId)

namespace Follows

variable {P : Permits} {D D' D'' : List Nat} {s : Nat} {c c' c'' : Carrier}

theorem of_face (hst : c.status ≠ .pending) (h : { c'.face with routeIds := [] } = { c.face with routeIds := [] }) :
    Follows P D D s c c' := by
  simp only [Carrier.face, CarrierFace.mk.injEq] at h
  obtain ⟨_, ht, hh, hs, hk, _, hg, _⟩ := h
  exact ⟨hs ▸ hst, hh, ht, hk, fun hr hD => ⟨hs ▸ hr, hD, .inl hg⟩⟩

theorem refl (hst : c.status ≠ .pending) : Follows P D D s c c := of_face hst rfl

theorem past (hst : c'.status ≠ .pending) (hD : c'.status = .registering → s ∈ D')
    (h : c'.authContext.hostId = c.authContext.hostId ∧ c'.transportId = c.transportId ∧ c'.connectorId = c.connectorId) :
    Follows P D D' s c c' := ⟨hst, h.1, h.2.1, h.2.2, fun hr hn => absurd (hD hr) hn⟩

theorem trans (h : Follows P D D' s c c') (h' : Follows P D' D'' s c' c'') : Follows P D D'' s c c'' := by
  refine ⟨h'.greeted, h'.host.trans h.host, h'.transport.trans h.transport, h'.connector.trans h.connector, fun hr hD => ?_⟩
  obtain ⟨hr', hD', hg'⟩ := h'.waiting hr hD
  obtain ⟨hr₀, hD₀, hg⟩ := h.waiting hr' hD'
  refine ⟨hr₀, hD₀, ?_⟩
  rcases hg' with hg' | hb
  · exact hg.imp_left hg'.trans
  · exact .inr (h.host ▸ hb)

end Follows

structure Moved (P : Permits) (D : List Nat) (b : Broker) (D' : List Nat) (b' : Broker) : Prop where
  sound : Sound D' b'
  fewer : P.grow ∨ Fewer b b'
  advances : Advances b b'
  origin : Origin D' b b'
  owner : ∀ host, b'.active.lookup host = b.active.lookup host ∨ b.revisionOf host < b'.revisionOf host
  follows : ∀ s c, b.carrierOf s = some c → c.status ≠ .pending →
    ∃ c', b'.carrierOf s = some c' ∧ Follows P D D' s c c'

theorem Moved.keep (h : Sound D b) (hk : Kept b b') : Moved P D b D b' :=
  ⟨hk.sound h, .inr (.of_ownership hk.ownership), .of_directory hk.directory, .of_ownership fun s => by rw [hk.ownership],
    fun host => .inl (by rw [hk.active]), fun s c hc hst => by
      obtain ⟨c', hc', hface⟩ := hk.carrierOf hc
      exact ⟨c', hc', .of_face hst (by rw [hface])⟩⟩

theorem follows_update {s : Nat} {c : Carrier} {f : Carrier → Carrier} (hc : b.carrierOf s = some c)
    (hcar : b'.carriers = Keyed.update Carrier.serial s f b.carriers) (hf : ∀ c, (f c).serial = c.serial)
    (hfol : c.status ≠ .pending → Follows P D D s c (f c)) :
    ∀ x cx, b.carrierOf x = some cx → cx.status ≠ .pending → ∃ c', b'.carrierOf x = some c' ∧ Follows P D D x cx c' := by
  intro x cx hx hst
  have hof : b'.carrierOf x = (b.setCarrier s f).carrierOf x := by
    unfold Broker.carrierOf Broker.setCarrier
    rw [hcar]
  by_cases hxs : x = s
  · subst hxs
    obtain rfl := Option.some.inj (hc.symm.trans hx)
    exact ⟨f c, hof.trans (carrierOf_setCarrier_at hc hf), hfol hst⟩
  · exact ⟨cx, hof.trans ((carrierOf_setCarrier_ne hf hxs).trans hx), .refl hst⟩

theorem Moved.update {c : Carrier} {f : Carrier → Carrier} (hc : b.carrierOf c.serial = some c)
    (hs : Sound D (b.setCarrier c.serial f))
    (hf : ∀ c, (f c).serial = c.serial ∧ (f c).transportId = c.transportId ∧
      (f c).authContext.hostId = c.authContext.hostId ∧ ((f c).attached = true → c.attached = true))
    (hst : c.status = .active → (f c).status = .active ∨ c.serial ∈ D)
    (hfol : c.status ≠ .pending → Follows P D D c.serial c (f c)) : Moved P D b D (b.setCarrier c.serial f) :=
  ⟨hs, .inr (.of_update rfl rfl rfl rfl hf), .of_directory rfl, .of_update rfl (fun c => (hf c).1) fun _ hc' =>
    Option.some.inj (hc.symm.trans hc') ▸ hst, fun _ => .inl rfl, follows_update hc rfl (fun c => (hf c).1) hfol⟩

theorem revisionOf_publish (C : Config) (c : Carrier) (online : Bool) (reason : PresenceReason) (p : Option Nat)
    (b : Broker) : (b.publishDirectory C c online reason p).revisionOf c.authContext.hostId =
      b.revisionOf c.authContext.hostId + 1 := by
  have h := congrArg (·.revision c.authContext.hostId) (ownership_publish (b := b) C c online reason p)
  rw [ownership_revision] at h
  refine h.trans ?_
  show ((Function.update b.ownership.record _ _ _).map RecordFace.revision).getD 0 = _
  rw [Function.update_self, Option.map_some, Option.getD_some]
  show b.ownership.revision _ + 1 = _
  rw [ownership_revision]
  rfl

theorem activate_owner (C : Config) (c : Carrier) (hello : HostHello) (previous : Option Carrier) (b : Broker) :
    (b.activate C c hello previous).active =
        (c.authContext.hostId, c.serial) :: b.active.filter (fun x => x.1 ≠ c.authContext.hostId) ∧
      (b.activate C c hello previous).revisionOf c.authContext.hostId = b.revisionOf c.authContext.hostId + 1 := by
  unfold Broker.activate
  dsimp only
  split
  · exact ⟨rfl, revisionOf_publish C { c with registration := none, status := .active } _ _ _ _⟩
  · split <;> exact ⟨rfl, revisionOf_publish C { c with registration := none, status := .active } _ _ _ _⟩

/-- **Every move keeps the maps in order**, and none but an attach and an open adds to them. -/
theorem Move.moved (h : Sound D b) (m : Move C P D b D' b') : Moved P D b D' b' := by
  have keep : ∀ {b' : Broker}, Kept b b' → Moved P D b D b' := Moved.keep h
  cases m with
  | quiet hq => exact keep (Kept.of_quiet hq)
  | mark s =>
    refine ⟨{ h with owned := h.owned.mark s }, .inr (.refl b), .of_directory rfl, .of_carriers rfl, fun _ => .inl rfl,
      fun x c hc hst => ⟨c, hc, hst, rfl, rfl, rfl, fun hr hD => ⟨hr, fun hm => hD (List.mem_cons_of_mem s hm), .inl rfl⟩⟩⟩
  | @unmark _ _ x c hc retired hroutes _ =>
    refine ⟨{ h with owned := h.owned.unmark (ownership_carrier hc) retired hroutes }, .inr (.refl b), .of_directory rfl,
      .of_carriers rfl, fun _ => .inl rfl, fun y cy hy hst => ⟨cy, hy, hst, rfl, rfl, rfl, fun hr hD => ⟨hr, ?_, .inl rfl⟩⟩⟩
    rintro (_ | ⟨_, hm⟩)
    · obtain rfl := Option.some.inj (hc.symm.trans hy)
      rw [hr] at retired
      rcases retired with hx | hx <;> cases hx
    · exact hD hm
  | attach t a i grow free =>
    refine ⟨h.attach a i free, .inl grow, .of_directory rfl, fun s c' hc' => ?_, fun _ => .inl rfl, fun s c hc hst =>
      ⟨c, Keyed.find_append_single.trans ?_, .refl hst⟩⟩
    rotate_left
    · unfold Broker.carrierOf at hc
      rw [hc, Option.some_or]
    have hfind := Keyed.find_append_single.symm.trans hc'
    cases hc : b.carrierOf s with
    | some c =>
      unfold Broker.carrierOf at hc
      rw [hc] at hfind
      obtain rfl := Option.some.inj hfind
      exact .inr ⟨c, rfl, .inl⟩
    | none =>
      unfold Broker.carrierOf at hc
      rw [hc, Option.none_or] at hfind
      split at hfind
      · obtain rfl := Option.some.inj hfind
        exact .inl ⟨rfl, rfl, rfl, rfl, rfl, rfl, rfl, rfl, rfl⟩
      · cases hfind
  | enroll hello k g grow hc attached pending live host free base previous =>
    refine ⟨h.enroll hc attached pending live host free base previous, .inl grow, .of_directory rfl,
      .of_update rfl (by exact fun _ => rfl) fun c' hc' ha => ?_, fun _ => .inl rfl,
      follows_update hc rfl (by exact fun _ => rfl) fun hst => absurd pending hst⟩
    obtain rfl := Option.some.inj (hc.symm.trans hc')
    rw [pending] at ha
    cases ha
  | rebase g allowed _ hc registering free base previous =>
    refine .update hc (h.of_face hc (fun _ => rfl) ?_) (by exact fun _ => ⟨rfl, rfl, rfl, id⟩) .inl
      fun hst => ⟨hst, rfl, rfl, rfl, fun hr hD => ⟨hr, hD, .inr allowed⟩⟩
    exact h.owned.rebase (ownership_carrier hc) registering free (base.trans (ownership_revision _).symm) previous
  | @activate _ _ c hello previous grow hc live registering replaced =>
    refine ⟨h.activate C hello previous hc live registering replaced, .inl grow, .activate C c hello previous b,
      .of_update (activate_carriers C c hello previous b) (by exact fun _ => rfl) fun _ _ _ => .inl rfl, fun host => ?_,
      follows_update hc (activate_carriers C c hello previous b) (by exact fun _ => rfl) fun _ =>
        .past (by simp) (fun hr => by cases hr) ⟨rfl, rfl, rfl⟩⟩
    obtain ⟨hmap, hrev⟩ := activate_owner C c hello previous b
    rw [hmap]
    by_cases hh : host = c.authContext.hostId
    · rw [hh, hrev]
      exact .inr (Nat.lt_succ_self _)
    · refine .inl ?_
      rw [List.lookup_cons, beq_eq_false_iff_ne.mpr hh, lookup_filter, if_neg hh]
  | @offline _ _ c hc owner marked =>
    refine ⟨h.offline C hc owner marked, .inr (.of_owners rfl rfl (fun _ _ => Fewer.lookup_of_filter) fun _ _ h => h),
      (Advances.of_directory rfl).trans (.publish C _ _ _ _ _), .of_carriers rfl, fun host => ?_,
      fun s c hc hst => ⟨c, hc, .refl hst⟩⟩
    by_cases hh : host = c.authContext.hostId
    · rw [hh, revisionOf_publish]
      exact .inr (Nat.lt_succ_self _)
    · refine .inl ?_
      show (b.active.filter _).lookup host = _
      rw [lookup_filter, if_neg hh]
  | unregister host marked =>
    exact ⟨h.unregister marked, .inr (.of_owners rfl rfl (fun _ _ h => h) fun _ _ => Fewer.lookup_of_filter),
      .of_directory rfl, .of_carriers rfl, fun _ => .inl rfl, fun s c hc hst => ⟨c, hc, .refl hst⟩⟩
  | @forget _ _ c hc marked =>
    refine .update hc (h.of_face hc (fun _ => rfl) ?_) (by exact fun _ => ⟨rfl, rfl, rfl, id⟩) .inl
      fun hst => .past hst (fun _ => marked) ⟨rfl, rfl, rfl⟩
    refine h.owned.wither (z := c.status) (j := none) (ownership_carrier hc) marked (fun host hs => ?_) (fun host hs => ?_)
      (h.owned.gone c.serial _ (ownership_carrier hc))
    · obtain ⟨c', hc', _, _, hst, _⟩ := h.owned.active host c.serial hs
      rw [ownership_carrier hc] at hc'
      obtain rfl := Option.some.inj hc'
      exact hst
    · obtain ⟨c', hc', _, _, hst, _⟩ := h.owned.registering host c.serial hs
      rw [ownership_carrier hc] at hc'
      obtain rfl := Option.some.inj hc'
      exact hst
  | @retire _ _ c st hc marked retired notOwner notCandidate =>
    refine .update hc (h.of_face hc (fun _ => rfl) ?_) (by exact fun _ => ⟨rfl, rfl, rfl, id⟩) (fun _ => .inr marked)
      fun _ => .past (by rcases retired with rfl | rfl <;> simp) (fun _ => marked) ⟨rfl, rfl, rfl⟩
    exact h.owned.wither (z := st) (j := c.registration) (ownership_carrier hc) marked
      (fun host hs => absurd hs (notOwner host)) (fun host hs => absurd hs (notCandidate host)) fun _ => retired
  | @discard _ _ c hc marked hroutes =>
    obtain ⟨hs, hf⟩ := h.discardCarrier hc hroutes
    have hlists : (b.discardCarrier c.serial).directory = b.directory ∧ (b.discardCarrier c.serial).active = b.active ∧
        (b.discardCarrier c.serial).carriers = Keyed.update Carrier.serial c.serial Carrier.discarded b.carriers := by
      unfold Broker.discardCarrier
      rw [hc]
      dsimp only
      exact ⟨(Kept.discardCarrier_routes c.inFlight b).directory, (Kept.discardCarrier_routes c.inFlight b).active,
        congrArg (Keyed.update Carrier.serial c.serial Carrier.discarded) (discardCarrier_carriers c.inFlight b)⟩
    exact ⟨hs, .inr hf, .of_directory hlists.1, .of_update hlists.2.2 (by exact fun _ => rfl) fun _ _ ha => .inl ha,
      fun _ => .inl (by rw [hlists.2.1]), follows_update hc hlists.2.2 (by exact fun _ => rfl) fun hst => .of_face hst rfl⟩
  | detach hc marked hroutes retired =>
    refine .update hc (h.of_face hc (fun _ => rfl) ?_) (by exact fun _ => ⟨rfl, rfl, rfl, (nomatch ·)⟩) .inl
      fun hst => ⟨hst, rfl, rfl, rfl, fun hr hD => ⟨hr, hD, .inl rfl⟩⟩
    exact h.owned.detach (ownership_carrier hc) marked hroutes retired
  | @openRoute _ _ c connectionId a i connectorId grow hc attached active connector host free _ _ =>
    refine ⟨h.openRoute C hc attached active connector host free, .inl grow, .of_directory rfl, fun s c' hc' => ?_,
      fun _ => .inl rfl, fun s c₀ hc₀ hst => ?_⟩
    rotate_left
    · obtain ⟨b₁, hb₁⟩ : ∃ b₁, b₁ = b.named.named.named.pushControl c.serial
        (Broker.controlEntry C (b.newRoute c connectionId a i connectorId).openFrame (some b.fresh)) := ⟨_, rfl⟩
      have hfollow₁ : ∀ x cx, b.carrierOf x = some cx → cx.status ≠ .pending →
          ∃ c', b₁.carrierOf x = some c' ∧ Follows P D D x cx c' := by
        rw [hb₁]
        exact follows_update hc rfl (by exact fun _ => rfl) fun hst => .of_face hst rfl
      obtain ⟨cx, hcx⟩ : ∃ cx, b₁.carrierOf c.serial = some cx := by
        rw [hb₁]
        exact ⟨_, carrierOf_setCarrier_at (show b.named.named.named.carrierOf c.serial = some c from hc) (by exact fun _ => rfl)⟩
      have hfollow₂ : ∀ x cx, b₁.carrierOf x = some cx → cx.status ≠ .pending →
          ∃ c', (Broker.addRoute c (b.newRoute c connectionId a i connectorId) b₁).carrierOf x = some c' ∧
            Follows P D D x cx c' := follows_update hcx rfl (by exact fun _ => rfl) fun hst => .of_face hst rfl
      obtain ⟨c₁, hc₁, hf₁⟩ := hfollow₁ s c₀ hc₀ hst
      obtain ⟨c₂, hc₂, hf₂⟩ := hfollow₂ s c₁ hc₁ hf₁.greeted
      rw [hb₁] at hc₂
      exact ⟨c₂, hc₂, hf₁.trans hf₂⟩
    rcases carrierOf_setCarrier_cases hc' (by exact fun _ => rfl) with ⟨_, h'⟩ | ⟨rfl, c₁, h', rfl⟩
    · rcases carrierOf_setCarrier_cases h' (by exact fun _ => rfl) with ⟨_, h''⟩ | ⟨rfl, c₂, h'', rfl⟩
      · exact .inr ⟨c', h'', .inl⟩
      · exact .inr ⟨c₂, h'', .inl⟩
    · rcases carrierOf_setCarrier_cases h' (by exact fun _ => rfl) with ⟨_, h''⟩ | ⟨_, c₂, h'', rfl⟩
      · exact .inr ⟨c₁, h'', .inl⟩
      · exact .inr ⟨c₂, h'', .inl⟩
  | @drop _ _ r hr =>
    refine ⟨h.drop hr, .inr (h.fewer_dropRoute _), .of_directory (dropRoute_directory r b), .of_ownership fun s => ?_,
      fun host => .inl (congrFun (congrArg Ownership.active (h.ownership_dropRoute r)) host), fun s c hc hst => ?_⟩
    rotate_left
    · have hface := congrFun (congrArg Ownership.carrier (h.ownership_dropRoute r)) s
      have hc₀ : (b.ownership.dropRoute r.routeId r.face).carrier s = some _ :=
        congrArg (Option.map _) (ownership_carrier hc)
      obtain ⟨c', hc', heq⟩ := Option.map_eq_some_iff.mp (hface.trans hc₀)
      refine ⟨c', hc', .of_face hst ?_⟩
      rw [heq]
      dsimp only
      split <;> rfl
    rw [h.ownership_dropRoute]
    show ((b.ownership.carrier s).map _).map _ = _
    rw [Option.map_map]
    congr 1
    funext c
    simp only [Function.comp]
    split <;> rfl
  | welcome => exact keep (Kept.setRoute b _ (by exact fun _ => ⟨rfl, rfl⟩))
  | close => exact keep (Kept.closeRoute _ _ _ b)
  | unbind => exact keep (Kept.setCarrier b _ (by exact fun _ => ⟨rfl, rfl⟩))
  | control => exact keep (Kept.setCarrier b _ (by exact fun _ => ⟨rfl, rfl⟩))
  | forward f =>
    exact keep ((((Kept.setCarrier b _ fun c => c.face_pushData _ _).trans (.setRoute _ _ (by exact fun _ => ⟨rfl, rfl⟩))).trans
      (.emit _ _)).trans (.noteRequest _ f _))
  | make => exact keep ((Kept.pushFrame _ _ _ _ b).trans (.emit _ _))
  | accept f bytes out ho =>
    exact keep (((Kept.setRoute b _ (by exact fun _ => ⟨rfl, rfl⟩)).trans (.pushFrame _ _ _ _ _)).trans (.emit _ _))
  | consume => exact keep ((Kept.setRoute b _ (by exact fun _ => ⟨rfl, rfl⟩)).trans (.emit _ _))
  | dispatchControl e rest hc active head =>
    exact keep ((Kept.dispatch _ e b).trans (.setCarrier _ _ (by exact fun c => Carrier.face_invalidateIfEmpty _)))
  | dispatchData routeId e rest hc active turn head =>
    exact keep ((Kept.dispatch _ e b).trans (.setCarrier _ _ fun c => c.face_popData routeId rest))
  | skip => exact keep (Kept.setCarrier b _ (by exact fun c => Carrier.face_invalidateIfEmpty _))
  | acknowledge e => exact keep (Kept.acknowledge _ e b)
  | hand =>
    exact keep (((Kept.setClient b _ (by exact fun _ => ⟨rfl, rfl⟩)).trans (.named _)).trans (.emit _ _))
  | received => exact keep ((Kept.setClient b _ (by exact fun _ => ⟨rfl, rfl⟩)).trans (.releaseHostToClient _ _ _))
  | lost => exact keep (Kept.setClient b _ (by exact fun _ => ⟨rfl, rfl⟩))
  | clock d time => exact keep (Kept.setRoute b _ fun r => (r.face_direction d time).1)
  | pause d => exact keep ((Kept.setRoute b _ fun r => (r.face_direction d 0).2.1).trans (.emit _ _))
  | resume d => exact keep ((Kept.setRoute b _ fun r => (r.face_direction d 0).2.2).trans (.emit _ _))
  | withdraw e =>
    have hrest : (b.withdrawOptionalCapability e).carriers = b.carriers ∧
        (b.withdrawOptionalCapability e).active = b.active := by
      unfold Broker.withdrawOptionalCapability
      split <;> exact ⟨rfl, rfl⟩
    refine ⟨h.withdraw e, .inr (fewer_withdraw e b), .withdraw e b, .of_carriers hrest.1, fun _ => .inl (by rw [hrest.2]),
      fun s c hc hst => ⟨c, ?_, .refl hst⟩⟩
    unfold Broker.carrierOf at *
    rw [hrest.1]
    exact hc
  | violate => exact keep (Kept.emit b _)

theorem Move.sound (h : Sound D b) (m : Move C P D b D' b') : Sound D' b' := (m.moved h).sound

theorem Path.sound (p : Path C P D b D' b') (h : Sound D b) : Sound D' b' := by
  induction p with
  | refl => exact h
  | step first _ ih => exact ih (first.sound h)

theorem Path.owner (p : Path C P D b D' b') (h : Sound D b) (host : Nat) :
    b.revisionOf host ≤ b'.revisionOf host ∧
      (b'.active.lookup host = b.active.lookup host ∨ b.revisionOf host < b'.revisionOf host) := by
  induction p with
  | refl => exact ⟨Nat.le_refl _, .inl rfl⟩
  | step first _ ih =>
    have hm := first.moved h
    have hle := hm.advances.revision host
    obtain ⟨hle', hor⟩ := ih hm.sound
    refine ⟨Nat.le_trans hle hle', ?_⟩
    rcases hm.owner host with heq | hlt
    · rcases hor with heq' | hlt'
      · exact .inl (heq'.trans heq)
      · exact .inr (Nat.lt_of_le_of_lt hle hlt')
    · exact .inr (Nat.lt_of_lt_of_le hlt hle')

theorem Path.follows (p : Path C P D b D' b') (h : Sound D b) {s : Nat} {c : Carrier} (hc : b.carrierOf s = some c)
    (hst : c.status ≠ .pending) : ∃ c', b'.carrierOf s = some c' ∧ Follows P D D' s c c' := by
  induction p generalizing c with
  | refl => exact ⟨c, hc, .refl hst⟩
  | step first _ ih =>
    have hm := first.moved h
    obtain ⟨c₁, hc₁, hf₁⟩ := hm.follows s c hc hst
    obtain ⟨c₂, hc₂, hf₂⟩ := ih hm.sound hc₁ hf₁.greeted
    exact ⟨c₂, hc₂, hf₁.trans hf₂⟩

theorem Path.fewer (p : Path C P D b D' b') (h : Sound D b) (hg : ¬ P.grow) : Fewer b b' := by
  induction p with
  | refl => exact .refl _
  | step first _ ih =>
    have hm := first.moved h
    exact (hm.fewer.resolve_left hg).trans (ih hm.sound)

end

end Relay
end TmuxWorktree
