import TmuxWorktree.Relay.Lossless
/-!
# Isolated — nothing crosses from one host to another

A route stands between one client and one carrier, and all three are of one host.  What waits on a carrier is of routes of
that carrier, what waits for a client is of the client's own route, and a host frame is taken only on a route of the
carrier that it came from.
-/
namespace TmuxWorktree
namespace Relay

/-- **A route with its two ends**, which are of its host. -/
structure Between (b : Broker) (k : Client) (r : Route) (c : Carrier) : Prop where
  route : b.routeOf r.routeId = some r
  client : b.clientAt r.connectionId = some k
  carrier : b.carrierAt r.carrierTransportId = some c
  own : k.routeId = r.routeId
  listed : r.routeId ∈ c.routeIds
  active : c.status = .active
  connector : c.connectorId = some r.connectorId
  clientHost : k.authContext.hostId = r.authContext.hostId
  carrierHost : c.authContext.hostId = r.authContext.hostId

/-- **The clients and the carriers of different hosts never meet.** -/
structure Isolated (C : Config) (b : Broker) : Prop where
  routes : ∀ r ∈ b.routes, ∃ k c, Between b k r c
  clients : ∀ k ∈ b.clients, ∃ r c, Between b k r c
  /-- A carrier lists its routes, each once, and no others. -/
  lists : ∀ c ∈ b.carriers, c.routeIds.Nodup ∧ ∀ id ∈ c.routeIds, ∃ k r, r.routeId = id ∧ Between b k r c
  upward : ∀ c ∈ b.carriers, ∀ id, ∀ e ∈ c.entries id, ∃ k r seq bytes, r.routeId = id ∧ Between b k r c ∧
    e.frame = .routeData id r.routeFence seq bytes
  downward : ∀ k ∈ b.clients, ∀ e ∈ k.queue, ∃ r c, e.route = r.routeId ∧ Between b k r c
  taken : ∀ t j id fence toClient seq bytes,
    (b.receiveHostFrame C t (some (.routeData j id fence toClient seq bytes))).1.accepted = true →
      ∃ k r c, r.routeId = id ∧ Between b k r c ∧ c.transportId = t ∧ c.connectorId = some j ∧ r.routeFence = fence

section
variable {C : Config} {b : Broker}

theorem Sound.between (hs : Sound [] b) {id : Nat} {r : Route} (hr : b.routeOf id = some r) : ∃ k c, Between b k r c := by
  obtain rfl := id_of_routeOf hr
  obtain ⟨k, hk, hown⟩ := hs.route_client hr
  have hroute : b.ownership.route r.routeId = some r.face := by
    show (b.routeOf r.routeId).map _ = _
    rw [hr]
    rfl
  obtain ⟨s, f, hf, hatt, ht, hconnector, hhost, hlisted, hst⟩ := hs.owned.routed _ _ hroute
  obtain ⟨c, hc, rfl⟩ := Option.map_eq_some_iff.mp hf
  have hat : b.carrierAt r.carrierTransportId = some c :=
    hs.carrierAt_iff.mpr ⟨hs.carrierOf_mem (Keyed.mem_of_find hc), hatt, ht⟩
  have hclientHost : r.authContext.hostId = k.authContext.hostId :=
    hs.hosts k.face (List.mem_map_of_mem (Keyed.mem_of_find hk)) (r.routeId, r.face)
      (List.mem_map.mpr ⟨r, Keyed.mem_of_find hr, rfl⟩) hown.symm
  exact ⟨k, c, hr, hk, hat, hown, hlisted, hst.resolve_right List.not_mem_nil, hconnector, hclientHost.symm, hhost⟩

theorem Sound.between_client (hs : Sound [] b) {k : Client} (hk : k ∈ b.clients) : ∃ r c, Between b k r c := by
  have hat : b.clientAt k.connectionId = some k := Keyed.find_of_mem hs.connections hk
  have hclient : b.ownership.client k.connectionId = some k.routeId := by
    show (b.clientAt k.connectionId).map _ = _
    rw [hat]
    rfl
  obtain ⟨f, hf, hconnection⟩ := hs.owned.routeOf _ _ hclient
  obtain ⟨r, hr, rfl⟩ := Option.map_eq_some_iff.mp hf
  obtain ⟨k', c, hb⟩ := hs.between hr
  have hsame : k' = k := by
    have hat' := hb.client
    rw [show r.connectionId = k.connectionId from hconnection, hat] at hat'
    exact (Option.some.inj hat').symm
  exact ⟨r, c, hsame ▸ hb⟩

/-- The carrier of a route is the attached one with its transport. -/
theorem Sound.between_carrier (hs : Sound [] b) {c : Carrier} {id : Nat} {r : Route} (hc : c ∈ b.carriers)
    (hatt : c.attached = true) (hr : b.routeOf id = some r) (ht : c.transportId = r.carrierTransportId) :
    ∃ k, Between b k r c := by
  obtain ⟨k, c', hb⟩ := hs.between hr
  have hat : b.carrierAt r.carrierTransportId = some c := hs.carrierAt_iff.mpr ⟨hs.carrierOf_mem hc, hatt, ht⟩
  obtain rfl := Option.some.inj (hb.carrier.symm.trans hat)
  exact ⟨k, hb⟩

/-- A `route.data` that is accepted came over the transport of its route. -/
theorem receiveHostFrame_from (hs : Sound [] b) {t j id fence seq : Nat} {toClient : Bool} {bytes : Bytes}
    (h : (b.receiveHostFrame C t (some (.routeData j id fence toClient seq bytes))).1.accepted = true) :
    ∃ c r, b.carrierAt t = some c ∧ c.connectorId = some j ∧ b.currentRouteForFrame c id fence = some r := by
  unfold Broker.receiveHostFrame at h
  cases hc : b.carrierAt t with
  | none =>
    rw [hc] at h
    cases h
  | some c =>
    rw [hc] at h
    dsimp only at h
    split at h
    · cases h
    rcases isCarrierAuthorizationActive_spec (C := C) hs c with ⟨b₁, heq, rfl⟩ | ⟨b₁, heq, _⟩
    case inr =>
      rw [heq] at h
      cases h
    rw [heq] at h
    dsimp only at h
    rw [if_neg (by decide)] at h
    cases hst : c.status with
    | active =>
      rw [hst] at h
      dsimp only at h
      split at h
      · cases h
      rename_i hconnector
      simp only [Bool.or_eq_true, not_or, Bool.not_eq_true, decide_eq_true_eq, not_not] at hconnector
      have hcurrent : b.read.currentRouteForFrame c id fence = b.currentRouteForFrame c id fence := rfl
      unfold Broker.routeDataFromHost at h
      rw [hcurrent] at h
      cases hr : b.currentRouteForFrame c id fence with
      | none =>
        rw [hr] at h
        cases h
      | some r => exact ⟨c, r, rfl, hconnector.2.symm, hr⟩
    | _ =>
      rw [hst] at h
      cases h

theorem Piped.isolated (h : Piped C b) (hs : Sound [] b) : Isolated C b where
  routes r hr := hs.between (Keyed.find_of_mem hs.routeIds hr)
  clients k hk := hs.between_client hk
  lists c hc := by
    have hface := ownership_carrier (hs.carrierOf_mem hc)
    refine ⟨hs.owned.once _ _ hface, fun id hid => ?_⟩
    obtain ⟨hatt, f, hf, ht⟩ := hs.owned.listed _ _ id hface hid
    obtain ⟨r, hr, rfl⟩ := Option.map_eq_some_iff.mp hf
    obtain ⟨k, hb⟩ := hs.between_carrier hc hatt hr ht.symm
    exact ⟨k, r, id_of_routeOf hr, hb⟩
  upward c hc id e he := by
    obtain ⟨r, seq, bytes, hr, -, hatt, ht, hframe⟩ := (h.up.at_ id).data c.serial c e (hs.carrierOf_mem hc) he
    obtain ⟨k, hb⟩ := hs.between_carrier hc hatt hr ht
    exact ⟨k, r, seq, bytes, id_of_routeOf hr, hb, hframe⟩
  downward k hk e he := by
    obtain ⟨r, c, hb⟩ := hs.between_client hk
    obtain ⟨hroute, -⟩ := h.down.queue k.connectionId k e (Keyed.find_of_mem hs.connections hk) he
    exact ⟨r, c, hroute.trans hb.own, hb⟩
  taken t j id fence toClient seq bytes accepted := by
    obtain ⟨c, r, hc, hj, hcurrent⟩ := receiveHostFrame_from hs accepted
    obtain ⟨hr, hkeep⟩ := Option.filter_eq_some_iff.mp hcurrent
    obtain ⟨hmem, hatt, ht⟩ := carrierAt_spec hc
    simp only [decide_eq_true_eq] at hkeep
    obtain ⟨k, hb⟩ := hs.between_carrier hmem hatt hr hkeep.1.symm
    exact ⟨k, r, c, id_of_routeOf hr, hb, ht, hj, hkeep.2.2⟩

end

end Relay
end TmuxWorktree
