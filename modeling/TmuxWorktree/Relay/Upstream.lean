import TmuxWorktree.Relay.Pipes
/-!
# Upstream — the way from the clients to the host

A client frame that the broker takes gets the next number of its route and waits in the data queue of the route; drains
take the queues in turn.  Whatever the turns, what left the queue of a route and what is still in it are together what
went in.
-/
namespace TmuxWorktree
namespace Relay

/-! ## The way to the host -/

/-- What the way to the host depends on of a carrier and of a route. -/
def Carrier.up (c : Carrier) : Bool × Nat × (Nat → List QueuedCarrierFrame) := (c.attached, c.transportId, c.entries)

def Route.up (r : Route) : (Nat × Nat) × RouteStatus × Nat :=
  ((r.routeFence, r.carrierTransportId), r.status, r.nextClientToHostSeq)

def Event.upward : Event → Bool
  | .forwarded .. => true
  | .dispatched _ (.routeData ..) => true
  | _ => false

theorem Event.not_upward {e : Event} (h : e.upward = false) (id : Nat) : e.forwardOn id = none ∧ e.dispatchOn id = none := by
  cases e with
  | forwarded => cases h
  | dispatched s frame => cases frame <;> first | exact ⟨rfl, rfl⟩ | cases h
  | _ => exact ⟨rfl, rfl⟩

theorem Grown.upward {t u : List Event} (h : Grown Event.upward t u) (id : Nat) :
    forwards id u = forwards id t ∧ dispatches id u = dispatches id t := by
  rcases h with rfl | ⟨e, he, rfl⟩
  · exact ⟨rfl, rfl⟩
  · obtain ⟨h1, h2⟩ := Event.not_upward he id
    unfold forwards dispatches
    rw [picked_cons, picked_cons, h1, h2]
    simp

/-- The way to the host of one route: what its client sent is with the host or in the queue, numbered from one. -/
structure UpstreamAt (b : Broker) (id : Nat) : Prop where
  data : ∀ s c e, b.carrierOf s = some c → e ∈ c.entries id → ∃ r seq bytes, b.routeOf id = some r ∧
    r.status = .opened ∧ c.attached = true ∧ c.transportId = r.carrierTransportId ∧
    e.frame = .routeData id r.routeFence seq bytes
  pipe : ∀ s c r, b.carrierOf s = some c → b.routeOf id = some r → r.status = .opened → c.attached = true →
    c.transportId = r.carrierTransportId →
    forwards id b.trace = dispatches id b.trace ++ (c.entries id).filterMap QueuedCarrierFrame.payload
  sent : dispatches id b.trace <+: forwards id b.trace
  numbered : (forwards id b.trace).map Prod.fst = List.range' 1 (forwards id b.trace).length
  next : ∀ r, b.routeOf id = some r → r.nextClientToHostSeq = (forwards id b.trace).length + 1
  unopened : ∀ r, b.routeOf id = some r → r.status = .opening → forwards id b.trace = []

/-- **What clients sent is with the host or in the queues.** -/
structure Upstream (b : Broker) : Prop where
  at_ : ∀ id, UpstreamAt b id
  control : ∀ s c e, b.carrierOf s = some c → e ∈ c.controlQueue → e.payload = none
  fenced : ∀ s id f seq bytes, .dispatched s (.routeData id f seq bytes) ∈ b.trace → ∃ k, .created id k f ∈ b.trace

section
variable {b b' : Broker} {id : Nat}

/-- A change that the way to the host of a route does not see: each carrier is as before, or it holds nothing of the route
and is not the route's. -/
theorem UpstreamAt.keep (h : UpstreamAt b id)
    (hc : ∀ s c', b'.carrierOf s = some c' → (∃ c, b.carrierOf s = some c ∧
      (c.attached, c.transportId, c.entries id) = (c'.attached, c'.transportId, c'.entries id)) ∨
      (c'.entries id = [] ∧ ∀ r, b.routeOf id = some r → c'.attached = true → c'.transportId ≠ r.carrierTransportId))
    (hr : (b'.routeOf id).map Route.up = (b.routeOf id).map Route.up)
    (ht : forwards id b'.trace = forwards id b.trace ∧ dispatches id b'.trace = dispatches id b.trace) : UpstreamAt b' id := by
  have hback : ∀ r', b'.routeOf id = some r' → ∃ r, b.routeOf id = some r ∧ r.up = r'.up := by
    intro r' hr'
    rw [hr', Option.map_some] at hr
    exact Option.map_eq_some_iff.mp hr.symm
  refine ⟨fun s c' e hc' he => ?_, fun s c' r' hc' hr' hst hatt htr => ?_, ?_, ?_, fun r' hr' => ?_, fun r' hr' hst => ?_⟩
  · rcases hc s c' hc' with ⟨c, hcof, heq⟩ | ⟨hnil, _⟩
    case inr =>
      rw [hnil] at he
      cases he
    simp only [Prod.mk.injEq] at heq
    obtain ⟨r, seq, bytes, hrof, hst, hatt, htr, hf⟩ := h.data s c e hcof (heq.2.2 ▸ he)
    rw [hrof, Option.map_some] at hr
    obtain ⟨r', hr', heq'⟩ := Option.map_eq_some_iff.mp hr
    simp only [Route.up, Prod.mk.injEq] at heq'
    exact ⟨r', seq, bytes, hr', heq'.2.1.trans hst, heq.1 ▸ hatt, by rw [← heq.2.1, htr, heq'.1.2], by rw [hf, heq'.1.1]⟩
  · obtain ⟨r, hrof, heq'⟩ := hback r' hr'
    simp only [Route.up, Prod.mk.injEq] at heq'
    rcases hc s c' hc' with ⟨c, hcof, heq⟩ | ⟨_, hnot⟩
    case inr => exact absurd (htr.trans heq'.1.2.symm) (hnot r hrof hatt)
    simp only [Prod.mk.injEq] at heq
    rw [ht.1, ht.2, ← heq.2.2]
    exact h.pipe s c r hcof hrof (heq'.2.1.trans hst) (heq.1.trans hatt) (heq.2.1.trans (htr.trans heq'.1.2.symm))
  · rw [ht.1, ht.2]
    exact h.sent
  · rw [ht.1]
    exact h.numbered
  · obtain ⟨r, hrof, heq'⟩ := hback r' hr'
    simp only [Route.up, Prod.mk.injEq] at heq'
    rw [ht.1, ← heq'.2.2]
    exact h.next r hrof
  · obtain ⟨r, hrof, heq'⟩ := hback r' hr'
    simp only [Route.up, Prod.mk.injEq] at heq'
    rw [ht.1]
    exact h.unopened r hrof (heq'.2.1.trans hst)

theorem Upstream.keep (h : Upstream b) (hc : Looks Carrier.up b.carrierOf b'.carrierOf)
    (hr : Looks Route.up b.routeOf b'.routeOf) (ht : Grown Event.upward b.trace b'.trace)
    (hcontrol : ∀ s c' e, b'.carrierOf s = some c' → e ∈ c'.controlQueue →
      e.payload = none ∨ ∃ c, b.carrierOf s = some c ∧ e ∈ c.controlQueue) : Upstream b' where
  at_ id := (h.at_ id).keep (fun _ _ hc' => .inl ((hc.comp fun x => (x.1, x.2.1, x.2.2 id)).get hc')) (hr id) (ht.upward id)
  control s c' e hc' he := (hcontrol s c' e hc' he).elim id fun ⟨c, hc, he⟩ => h.control s c e hc he
  fenced s id f seq bytes he := by
    obtain ⟨k, hk⟩ := h.fenced s id f seq bytes (ht.mem_of he rfl)
    exact ⟨k, ht.mem hk⟩

theorem Upstream.pushed (h : Upstream b) (hc : Looks Carrier.pipe b.carrierOf b'.carrierOf)
    (hr : Looks Route.up b.routeOf b'.routeOf) (ht : Grown Event.upward b.trace b'.trace) : Upstream b' := by
  refine h.keep ?_ hr ht fun s c' e hc' he => ?_
  · exact hc.comp fun x => (x.1, x.2.1, fun id => ((Keyed.find DataQueue.routeId id x.2.2.1).map DataQueue.entries).getD [])
  · obtain ⟨c, hcof, heq⟩ := hc.get hc'
    simp only [Carrier.pipe, Prod.mk.injEq] at heq
    exact .inr ⟨c, hcof, heq.2.2.2 ▸ he⟩

theorem Upstream.alike (h : Upstream b) (ha : Alike b b') (ht : Grown Event.upward b.trace b'.trace) : Upstream b' :=
  h.pushed ha.carrier (ha.route.comp fun x => ((x.1.2.1, x.1.2.2), x.2.1, x.2.2.1)) ht

theorem Upstream.entries_nil {D : List Nat} (h : Upstream b) (hs : Sound D b) {s : Nat} {c : Carrier} (hc : b.carrierOf s = some c)
    (hroutes : c.routeIds = []) (id : Nat) : c.entries id = [] := by
  refine List.eq_nil_iff_forall_not_mem.mpr fun e he => ?_
  obtain ⟨r, _, _, hr, _, hatt, htr, _⟩ := (h.at_ id).data s c e hc he
  have hroute : b.ownership.route id = some r.face := by
    show (b.routeOf id).map _ = _
    rw [hr]
    rfl
  obtain ⟨s', f, hf, hatt', htr', _, _, hid, _⟩ := hs.owned.routed _ _ hroute
  obtain ⟨c', hc', rfl⟩ := Option.map_eq_some_iff.mp hf
  obtain ⟨_, rfl⟩ := hs.same_carrier hc hc' hatt hatt' (htr.trans htr'.symm)
  have hin : id ∈ c.routeIds := hid
  rw [hroutes] at hin
  cases hin

/-! ## Moves on the way to the host -/

theorem forwards_forwarded (id route seq : Nat) (bytes : Bytes) (t : List Event) :
    forwards id (.forwarded route seq bytes :: t) = forwards id t ++ (if route = id then [(seq, bytes)] else []) := by
  unfold forwards
  rw [picked_cons]
  simp only [Event.forwardOn]
  split <;> rfl

theorem dispatches_forwarded (id route seq : Nat) (bytes : Bytes) (t : List Event) :
    dispatches id (.forwarded route seq bytes :: t) = dispatches id t := by
  unfold dispatches
  rw [picked_cons]
  exact List.append_nil _

theorem Upstream.forward (C : Config) {D : List Nat} (h : Upstream b) (hs : Sound D b) {c : Carrier} {r : Route} (bytes : Bytes) (hon : On b c r)
    (opened : r.status = .opened) : Upstream (b.pushEntry c.serial r (Broker.dataEntry C r bytes) bytes) := by
  have hface : ∀ x : Carrier, (x.pushData r.routeId (Broker.dataEntry C r bytes)).attached = x.attached ∧
      (x.pushData r.routeId (Broker.dataEntry C r bytes)).transportId = x.transportId := fun x =>
    ⟨congrArg CarrierFace.attached (x.face_pushData _ _).2, congrArg CarrierFace.transportId (x.face_pushData _ _).2⟩
  have hroute := routeOf_setRoute_at hon.route (g := fun r =>
    { r with
      clientToHostBufferedBytes := r.clientToHostBufferedBytes + bytes.byteLength
      clientToHostFrames := r.clientToHostFrames + 1
      nextClientToHostSeq := r.nextClientToHostSeq + 1 }) fun _ => rfl
  have hat := h.at_ r.routeId
  have hnext := hat.next r hon.route
  refine ⟨fun id => ?_, fun s c' e hc' he => ?_, fun s id f seq data he => ?_⟩
  · by_cases hid : id = r.routeId
    · subst hid
      have hf : forwards r.routeId (b.pushEntry c.serial r (Broker.dataEntry C r bytes) bytes).trace =
          forwards r.routeId b.trace ++ [(r.nextClientToHostSeq, bytes)] := by
        show forwards _ (_ :: b.trace) = _
        rw [forwards_forwarded, if_pos rfl]
      have hd : dispatches r.routeId (b.pushEntry c.serial r (Broker.dataEntry C r bytes) bytes).trace =
          dispatches r.routeId b.trace := dispatches_forwarded ..
      refine ⟨fun s c' e hc' he => ?_, fun s c' r' hc' hr' hst hatt htr => ?_, ?_, ?_, fun r' hr' => ?_, fun r' hr' hst => ?_⟩
      · rcases carrierOf_setCarrier_cases hc' (fun x => (x.face_pushData _ _).1) with ⟨_, hc₀⟩ | ⟨rfl, c₀, hc₀, rfl⟩
        · obtain ⟨r₀, seq, data, hr₀, hst, hatt, htr, hf⟩ := hat.data s c' e hc₀ he
          obtain rfl := Option.some.inj (hon.route.symm.trans hr₀)
          exact ⟨_, seq, data, hroute, hst, hatt, htr, hf⟩
        · obtain rfl := Option.some.inj (hon.carrier.symm.trans hc₀)
          rw [Carrier.entries_pushData, if_pos rfl] at he
          rcases List.mem_append.mp he with he | he
          · obtain ⟨r₀, seq, data, hr₀, hst, hatt, htr, hf⟩ := hat.data _ _ e hc₀ he
            obtain rfl := Option.some.inj (hon.route.symm.trans hr₀)
            exact ⟨_, seq, data, hroute, hst, (hface c).1.trans hatt, (hface c).2.trans htr, hf⟩
          · rw [List.mem_singleton.mp he]
            exact ⟨_, _, _, hroute, opened, (hface c).1.trans hon.attached, (hface c).2.trans hon.transport, rfl⟩
      · obtain rfl := Option.some.inj (hroute.symm.trans hr')
        rw [hf, hd]
        rcases carrierOf_setCarrier_cases hc' (fun x => (x.face_pushData _ _).1) with ⟨hne, hc₀⟩ | ⟨rfl, c₀, hc₀, rfl⟩
        · exact absurd (hs.same_carrier hc₀ hon.carrier hatt hon.attached (htr.trans hon.transport.symm)).1 hne
        · obtain rfl := Option.some.inj (hon.carrier.symm.trans hc₀)
          rw [Carrier.entries_pushData, if_pos rfl, List.filterMap_append,
            hat.pipe _ c r hon.carrier hon.route opened hon.attached hon.transport, List.append_assoc]
          rfl
      · rw [hf, hd]
        exact hat.sent.trans (List.prefix_append _ _)
      · rw [hf, List.map_append, hat.numbered, List.length_append, List.length_singleton, hnext, List.range'_concat]
        simp [Nat.add_comm]
      · obtain rfl := Option.some.inj (hroute.symm.trans hr')
        rw [hf, List.length_append, List.length_singleton]
        exact congrArg (· + 1) hnext
      · obtain rfl := Option.some.inj (hroute.symm.trans hr')
        exact absurd (opened.symm.trans hst) (by decide)
    · refine (h.at_ id).keep (fun s c' hc' => ?_) ?_ ⟨?_, dispatches_forwarded ..⟩
      · rcases carrierOf_setCarrier_cases hc' (fun x => (x.face_pushData _ _).1) with ⟨_, hc₀⟩ | ⟨rfl, c₀, hc₀, rfl⟩
        · exact .inl ⟨c', hc₀, rfl⟩
        · refine .inl ⟨c₀, hc₀, ?_⟩
          rw [(hface c₀).1, (hface c₀).2, Carrier.entries_pushData, if_neg hid]
      · rw [show (b.pushEntry c.serial r (Broker.dataEntry C r bytes) bytes).routeOf id = _ from
          routeOf_setRoute_ne (fun _ => rfl) hid]
        rfl
      · show forwards _ (_ :: b.trace) = _
        rw [forwards_forwarded, if_neg (Ne.symm hid), List.append_nil]
  · have hq : ∀ x : Carrier, (x.pushData r.routeId (Broker.dataEntry C r bytes)).controlQueue = x.controlQueue := by
      intro x
      unfold Carrier.pushData
      split <;> rfl
    rcases carrierOf_setCarrier_cases hc' (fun x => (x.face_pushData _ _).1) with ⟨_, hc₀⟩ | ⟨_, c₀, hc₀, rfl⟩
    · exact h.control s c' e hc₀ he
    · exact h.control _ c₀ e hc₀ (hq c₀ ▸ he)
  · rcases List.mem_cons.mp he with he | he
    · cases he
    · obtain ⟨k, hk⟩ := h.fenced s id f seq data he
      exact ⟨k, List.mem_cons_of_mem _ hk⟩

theorem dispatches_dispatched (id s route fence seq : Nat) (bytes : Bytes) (t : List Event) :
    dispatches id (.dispatched s (.routeData route fence seq bytes) :: t) =
      dispatches id t ++ (if route = id then [(seq, bytes)] else []) := by
  unfold dispatches
  rw [picked_cons]
  simp only [Event.dispatchOn]
  split <;> rfl

theorem forwards_dispatched (id s : Nat) (frame : ToHost) (t : List Event) :
    forwards id (.dispatched s frame :: t) = forwards id t := by
  unfold forwards
  rw [picked_cons]
  exact List.append_nil _

theorem dispatch_trace (s : Nat) (e : QueuedCarrierFrame) (b : Broker) :
    (b.dispatch s e).trace = .dispatched s e.frame :: b.trace := by
  unfold Broker.dispatch
  dsimp only
  split <;> rfl

theorem Upstream.dispatchData {D : List Nat} (h : Upstream b) (hs : Sound D b) (ht : ∀ id r, b.routeOf id = some r → ∃ k, .created id k r.routeFence ∈ b.trace)
    {c : Carrier} {id : Nat} {e : QueuedCarrierFrame} {rest : List QueuedCarrierFrame} (hc : b.carrierOf c.serial = some c)
    (head : (c.dataQueue id).map DataQueue.entries = some (e :: rest)) :
    Upstream ((b.dispatch c.serial e).setCarrier c.serial fun c => c.popData id rest) := by
  have hentries : c.entries id = e :: rest := by
    unfold Carrier.entries
    rw [head]
    rfl
  have hat := h.at_ id
  obtain ⟨r, seq, bytes, hr, opened, hatt, htr, hframe⟩ := hat.data _ c e hc (hentries ▸ List.mem_cons_self)
  have ha := Alike.dispatch c.serial e b
  have hpop : ∀ (x : Carrier) (id' : Nat), x.dataQueue id = c.dataQueue id →
      (x.popData id rest).entries id' = if id' = id then rest else x.entries id' := fun x id' hx =>
    Carrier.entries_popData x id id' (hx ▸ head)
  have hpopface : ∀ x : Carrier, (x.popData id rest).attached = x.attached ∧ (x.popData id rest).transportId = x.transportId := fun x =>
    ⟨congrArg CarrierFace.attached (x.face_popData _ _).2, congrArg CarrierFace.transportId (x.face_popData _ _).2⟩
  have hpopcontrol : ∀ x : Carrier, (x.popData id rest).controlQueue = x.controlQueue := by
    intro x
    unfold Carrier.popData
    split
    · exact (Carrier.queues_invalidateIfEmpty _).2.1
    · rfl
  -- the carrier as the dispatch leaves it
  have hmid : ∀ s c', (b.dispatch c.serial e).carrierOf s = some c' → ∃ c₀, b.carrierOf s = some c₀ ∧ c₀.pipe = c'.pipe :=
    fun s c' hc' => ha.carrier.get hc'
  have htrace : ((b.dispatch c.serial e).setCarrier c.serial fun c => c.popData id rest).trace =
      .dispatched c.serial (.routeData id r.routeFence seq bytes) :: b.trace := by
    show (b.dispatch c.serial e).trace = _
    rw [dispatch_trace, hframe]
  have hlook : ∀ s c', ((b.dispatch c.serial e).setCarrier c.serial fun c => c.popData id rest).carrierOf s = some c' →
      ∃ c₀, b.carrierOf s = some c₀ ∧ c'.attached = c₀.attached ∧ c'.transportId = c₀.transportId ∧
        c'.controlQueue = c₀.controlQueue ∧ (∀ id', id' ≠ id → c'.entries id' = c₀.entries id') ∧
        (c'.entries id = if s = c.serial then rest else c₀.entries id) := by
    intro s c' hc'
    rcases carrierOf_setCarrier_cases hc' (fun x => (x.face_popData _ _).1) with ⟨hne, hc₁⟩ | ⟨rfl, c₁, hc₁, rfl⟩
    · obtain ⟨c₀, hc₀, heq⟩ := hmid s c' hc₁
      simp only [Carrier.pipe, Prod.mk.injEq] at heq
      refine ⟨c₀, hc₀, heq.1.symm, heq.2.1.symm, heq.2.2.2.symm, fun id' _ => Carrier.entries_of_queues heq.2.2.1.symm id', ?_⟩
      rw [if_neg hne]
      exact Carrier.entries_of_queues heq.2.2.1.symm id
    · obtain ⟨c₀, hc₀, heq⟩ := hmid _ c₁ hc₁
      obtain rfl := Option.some.inj (hc.symm.trans hc₀)
      simp only [Carrier.pipe, Prod.mk.injEq] at heq
      have hq : c₁.dataQueue id = c.dataQueue id := by
        unfold Carrier.dataQueue
        rw [heq.2.2.1]
      refine ⟨c, hc, (hpopface c₁).1.trans heq.1.symm, (hpopface c₁).2.trans heq.2.1.symm,
        (hpopcontrol c₁).trans heq.2.2.2.symm, fun id' hid' => ?_, ?_⟩
      · rw [hpop c₁ id' hq, if_neg hid']
        exact Carrier.entries_of_queues heq.2.2.1.symm id'
      · rw [hpop c₁ id hq, if_pos rfl, if_pos rfl]
  refine ⟨fun id' => ?_, fun s c' x hc' hx => ?_, fun s id' f seq' data he => ?_⟩
  · by_cases hid : id' = id
    · subst hid
      have hf : forwards id' ((b.dispatch c.serial e).setCarrier c.serial fun c => c.popData id' rest).trace =
          forwards id' b.trace := by rw [htrace, forwards_dispatched]
      have hd : dispatches id' ((b.dispatch c.serial e).setCarrier c.serial fun c => c.popData id' rest).trace =
          dispatches id' b.trace ++ [(seq, bytes)] := by rw [htrace, dispatches_dispatched, if_pos rfl]
      have hpipe := hat.pipe _ c r hc hr opened hatt htr
      have hpay : (e :: rest).filterMap QueuedCarrierFrame.payload = (seq, bytes) :: rest.filterMap QueuedCarrierFrame.payload := by
        rw [List.filterMap_cons]
        unfold QueuedCarrierFrame.payload
        rw [hframe]
      rw [hentries, hpay] at hpipe
      have hroute : ∀ r', (b.dispatch c.serial e).routeOf id' = some r' → ∃ r₀, b.routeOf id' = some r₀ ∧ r₀.pipe = r'.pipe :=
        fun r' hr' => ha.route.get hr'
      refine ⟨fun s c' x hc' hx => ?_, fun s c' r' hc' hr' hst hatt' htr' => ?_, ?_, ?_, fun r' hr' => ?_, fun r' hr' hst => ?_⟩
      · obtain ⟨c₀, hc₀, h1, h2, _, _, h5⟩ := hlook s c' hc'
        have hx₀ : x ∈ c₀.entries id' := by
          rw [h5] at hx
          split at hx
          · next hs' =>
            subst hs'
            obtain rfl := Option.some.inj (hc.symm.trans hc₀)
            rw [hentries]
            exact List.mem_cons_of_mem _ hx
          · exact hx
        obtain ⟨r₀, seq₀, data₀, hr₀, hst₀, hatt₀, htr₀, hf₀⟩ := hat.data s c₀ x hc₀ hx₀
        obtain ⟨r', hr', heq⟩ := Looks.get (fun k => (ha.route k).symm) hr₀
        simp only [Route.pipe, Prod.mk.injEq] at heq
        exact ⟨r', seq₀, data₀, hr', heq.2.1.trans hst₀, h1.trans hatt₀, by rw [h2, htr₀, heq.1.2.2], by rw [hf₀, heq.1.2.1]⟩
      · obtain ⟨c₀, hc₀, h1, h2, _, _, h5⟩ := hlook s c' hc'
        obtain ⟨r₀, hr₀, heq⟩ := hroute r' hr'
        simp only [Route.pipe, Prod.mk.injEq] at heq
        obtain rfl := Option.some.inj (hr.symm.trans hr₀)
        obtain ⟨hs', _⟩ := hs.same_carrier hc₀ hc (h1 ▸ hatt') hatt (by rw [← h2, htr', ← heq.1.2.2, htr])
        rw [hf, hd, h5, if_pos hs', hpipe, List.append_assoc]
        rfl
      · rw [hf, hd, hpipe]
        exact ⟨_, by rw [List.append_assoc]; rfl⟩
      · rw [hf]
        exact hat.numbered
      · obtain ⟨r₀, hr₀, heq⟩ := hroute r' hr'
        simp only [Route.pipe, Prod.mk.injEq] at heq
        rw [hf, ← heq.2.2.1]
        exact hat.next r₀ hr₀
      · obtain ⟨r₀, hr₀, heq⟩ := hroute r' hr'
        simp only [Route.pipe, Prod.mk.injEq] at heq
        rw [hf]
        exact hat.unopened r₀ hr₀ (heq.2.1.trans hst)
    · refine (h.at_ id').keep ?_ ?_ ⟨?_, ?_⟩
      · intro s c' hc'
        obtain ⟨c₀, hc₀, h1, h2, _, h4, _⟩ := hlook s c' hc'
        exact .inl ⟨c₀, hc₀, by rw [h1, h2, h4 id' hid]⟩
      · exact ha.route.comp (fun x => ((x.1.2.1, x.1.2.2), x.2.1, x.2.2.1)) id'
      · rw [htrace, forwards_dispatched]
      · rw [htrace, dispatches_dispatched, if_neg (Ne.symm hid), List.append_nil]
  · obtain ⟨c₀, hc₀, _, _, h3, _, _⟩ := hlook s c' hc'
    exact h.control s c₀ x hc₀ (h3 ▸ hx)
  · rw [htrace] at he ⊢
    rcases List.mem_cons.mp he with he | he
    · cases he
      obtain ⟨k, hk⟩ := ht id r hr
      exact ⟨k, List.mem_cons_of_mem _ hk⟩
    · obtain ⟨k, hk⟩ := h.fenced s id' f seq' data he
      exact ⟨k, List.mem_cons_of_mem _ hk⟩

theorem Upstream.ended {r : Route} (h : Upstream b) (hr : b.routeOf r.routeId = some r) (he : Ended r b b') : Upstream b' := by
  refine ⟨fun id => ?_, fun s c' e hc' hx => ?_, fun s id f seq bytes hx => ?_⟩
  · by_cases hid : id = r.routeId
    · subst hid
      have hat := h.at_ r.routeId
      refine ⟨fun s c' e hc' hx => ?_, fun s c' r' hc' hr' hst => ?_, ?_, ?_, fun r' hr' => ?_, fun r' hr' hst => ?_⟩
      · obtain ⟨c, hc, h1, h2, _, _, h5⟩ := he.thinned s c' hc'
        rcases h5 with h5 | h5
        · rw [h5] at hx
          cases hx
        · obtain ⟨r₀, _, _, hr₀, _, hatt, htr, _⟩ := hat.data s c e hc (h5 ▸ hx)
          obtain rfl := Option.some.inj (hr.symm.trans hr₀)
          rw [he.empty s c' hc' (h1.trans hatt) (h2.trans htr)] at hx
          cases hx
      · exact absurd (hst.symm.trans (he.route r' hr').1) (by decide)
      · rw [he.trace]
        exact hat.sent
      · rw [he.trace]
        exact hat.numbered
      · obtain ⟨_, heq⟩ := he.route r' hr'
        simp only [Prod.mk.injEq] at heq
        rw [he.trace, heq.2.2.2.1]
        exact hat.next r hr
      · exact absurd (hst.symm.trans (he.route r' hr').1) (by decide)
    · refine (h.at_ id).keep (fun s c' hc' => ?_) ?_ (by rw [he.trace]; exact ⟨rfl, rfl⟩)
      · obtain ⟨c, hc, h1, h2, _, h4, _⟩ := he.thinned s c' hc'
        exact .inl ⟨c, hc, by rw [h1, h2, h4 id hid]⟩
      · have hlook := congrArg (Option.map fun x : (Nat × Nat × Nat) × RouteStatus × Nat × Nat =>
          ((x.1.2.1, x.1.2.2), x.2.1, x.2.2.1)) (he.routes id hid)
        rw [Option.map_map, Option.map_map] at hlook
        exact hlook
  · obtain ⟨c, hc, _, _, h3, _, _⟩ := he.thinned s c' hc'
    exact h.control s c e hc (h3 e hx)
  · rw [he.trace] at hx ⊢
    exact h.fenced s id f seq bytes hx

theorem Upstream.pushControl (h : Upstream b) (s : Nat) {e : QueuedCarrierFrame} (he : e.payload = none) :
    Upstream (b.pushControl s e) := by
  refine h.keep (.update (by exact fun _ => rfl) (by exact fun _ _ => rfl)) (.refl _) (.inl rfl) fun x c' e' hc' he' => ?_
  rcases carrierOf_setCarrier_cases hc' (by exact fun _ => rfl) with ⟨_, hc₀⟩ | ⟨rfl, c₀, hc₀, rfl⟩
  · exact .inr ⟨c', hc₀, he'⟩
  · rcases List.mem_append.mp he' with he' | he'
    · exact .inr ⟨c₀, hc₀, he'⟩
    · rw [List.mem_singleton.mp he']
      exact .inl he

theorem Upstream.dispatchControl (h : Upstream b) {c : Carrier} {e : QueuedCarrierFrame} {rest : List QueuedCarrierFrame}
    (hc : b.carrierOf c.serial = some c) (head : c.controlQueue = e :: rest) :
    Upstream ((b.dispatch c.serial e).setCarrier c.serial fun c =>
      Carrier.invalidateIfEmpty { c with controlQueue := c.controlQueue.tail }) := by
  have hnone := h.control _ c e hc (head ▸ List.mem_cons_self)
  have hup : Event.upward (.dispatched c.serial e.frame) = false := by
    unfold QueuedCarrierFrame.payload at hnone
    cases hf : e.frame with
    | routeData =>
      rw [hf] at hnone
      cases hnone
    | _ => rfl
  have hmid := h.alike (Alike.dispatch c.serial e b) (.inr ⟨_, hup, dispatch_trace c.serial e b⟩)
  refine hmid.keep (.update (by exact fun _ => (Carrier.face_invalidateIfEmpty _).1) fun x _ => ?_) (.refl _) (.inl rfl)
    fun s c' x hc' hx => ?_
  · obtain ⟨h1, _, h3, h4⟩ := Carrier.queues_invalidateIfEmpty { x with controlQueue := x.controlQueue.tail }
    unfold Carrier.up
    rw [h3, h4, show Carrier.entries _ = Carrier.entries x from funext (Carrier.entries_of_queues h1)]
  · rcases carrierOf_setCarrier_cases hc' (by exact fun _ => (Carrier.face_invalidateIfEmpty _).1) with ⟨_, hc₀⟩ | ⟨rfl, c₀, hc₀, rfl⟩
    · exact .inr ⟨c', hc₀, hx⟩
    · rw [(Carrier.queues_invalidateIfEmpty _).2.1] at hx
      exact .inr ⟨c₀, hc₀, List.mem_of_mem_tail hx⟩

theorem Upstream.skip (h : Upstream b) {c : Carrier} {id : Nat} (hc : b.carrierOf c.serial = some c)
    (none' : (c.dataQueue id).map DataQueue.entries = none ∨ (c.dataQueue id).map DataQueue.entries = some []) :
    Upstream (b.setCarrier c.serial fun c => Carrier.invalidateIfEmpty
      { c with
        dataQueues := Keyed.erase DataQueue.routeId id c.dataQueues
        dataOrder := c.dataOrder.eraseIdx c.dataCursor }) := by
  have hnil : c.entries id = [] := by
    unfold Carrier.entries
    rcases none' with hn | hn <;> rw [hn] <;> rfl
  refine h.keep (.update (by exact fun _ => (Carrier.face_invalidateIfEmpty _).1) fun x hx => ?_) (.refl _) (.inl rfl)
    fun s c' e hc' he => ?_
  · obtain rfl := Option.some.inj (hc.symm.trans hx)
    obtain ⟨h1, _, h3, h4⟩ := Carrier.queues_invalidateIfEmpty
      { c with dataQueues := Keyed.erase DataQueue.routeId id c.dataQueues, dataOrder := c.dataOrder.eraseIdx c.dataCursor }
    unfold Carrier.up
    rw [h3, h4]
    refine congrArg (fun x => (c.attached, c.transportId, x)) (funext fun id' => ?_)
    rw [entries_erase c id id' h1]
    split
    · next heq => rw [heq, hnil]
    · rfl
  · rcases carrierOf_setCarrier_cases hc' (by exact fun _ => (Carrier.face_invalidateIfEmpty _).1) with ⟨_, hc₀⟩ | ⟨rfl, c₀, hc₀, rfl⟩
    · exact .inr ⟨c', hc₀, he⟩
    · rw [(Carrier.queues_invalidateIfEmpty _).2.1] at he
      exact .inr ⟨c₀, hc₀, he⟩

theorem Upstream.discard {D : List Nat} (h : Upstream b) (hs : Sound D b) {c : Carrier} (hc : b.carrierOf c.serial = some c)
    (hroutes : c.routeIds = []) : Upstream (b.discardCarrier c.serial) := by
  have hnil := h.entries_nil hs hc hroutes
  unfold Broker.discardCarrier
  rw [hc]
  dsimp only
  have ha := Alike.discardCarrier_routes c.inFlight b
  have hcar := discardCarrier_carriers c.inFlight b
  have htr := discardCarrier_trace c.inFlight b
  generalize c.inFlight.foldl _ b = b₁ at ha hcar htr
  have hc₁ : b₁.carrierOf c.serial = some c := by
    unfold Broker.carrierOf
    rw [hcar]
    exact hc
  refine (h.alike ha (.inl htr)).keep (.update (fun _ => rfl) fun x hx => ?_) (.refl _) (.inl rfl) fun s c' e hc' he => ?_
  · obtain rfl := Option.some.inj (hc₁.symm.trans hx)
    refine congrArg (fun x => (c.attached, c.transportId, x)) (funext fun id' => ?_)
    rw [hnil id']
    rfl
  · rcases carrierOf_setCarrier_cases hc' (fun _ => rfl) with ⟨_, hc₀⟩ | ⟨rfl, c₀, hc₀, rfl⟩
    · exact .inr ⟨c', hc₀, he⟩
    · cases he

theorem Sound.route_carrier {D : List Nat} (hs : Sound D b) {r : Route} (hr : b.routeOf id = some r) :
    ∃ c, b.carrierAt r.carrierTransportId = some c ∧ id ∈ c.routeIds := by
  have hroute : b.ownership.route id = some r.face := by
    show (b.routeOf id).map _ = _
    rw [hr]
    rfl
  obtain ⟨s, f, hf, hatt, htr, _, _, hid, _⟩ := hs.owned.routed _ _ hroute
  obtain ⟨c, hc, rfl⟩ := Option.map_eq_some_iff.mp hf
  exact ⟨c, hs.carrierAt_iff.mpr ⟨(serial_of_carrierOf hc).symm ▸ hc, hatt, htr⟩, hid⟩

theorem Upstream.detach {D : List Nat} (h : Upstream b) (hs : Sound D b) {c : Carrier} (hc : b.carrierOf c.serial = some c)
    (hroutes : c.routeIds = []) : Upstream (b.setCarrier c.serial fun c => { c with attached := false }) := by
  have hnil := h.entries_nil hs hc hroutes
  refine ⟨fun id => (h.at_ id).keep (fun s c' hc' => ?_) rfl ⟨rfl, rfl⟩, fun s c' e hc' he => ?_, h.fenced⟩
  · rcases carrierOf_setCarrier_cases hc' (by exact fun _ => rfl) with ⟨_, hc₀⟩ | ⟨rfl, c₀, hc₀, rfl⟩
    · exact .inl ⟨c', hc₀, rfl⟩
    · obtain rfl := Option.some.inj (hc.symm.trans hc₀)
      exact .inr ⟨hnil id, fun _ _ hatt => nomatch hatt⟩
  · rcases carrierOf_setCarrier_cases hc' (by exact fun _ => rfl) with ⟨_, hc₀⟩ | ⟨rfl, c₀, hc₀, rfl⟩
    · exact h.control s c' e hc₀ he
    · exact h.control _ c₀ e hc₀ he

theorem Upstream.attach {D : List Nat} (h : Upstream b) (hs : Sound D b) (t : Nat) (a : Authorization) (i : Nat)
    (free : b.carrierAt t = none) :
    Upstream { b.named with carriers := b.carriers ++
      [{ serial := b.fresh, attached := true, transportId := t, connectionIncarnation := i, authContext := a }] } := by
  have hcases : ∀ {s : Nat} {c' new : Carrier}, Keyed.find Carrier.serial s (b.carriers ++ [new]) = some c' →
      b.carrierOf s = some c' ∨ c' = new := by
    intro s c' new hc'
    rw [Keyed.find_append_single] at hc'
    cases hc : b.carrierOf s with
    | some c =>
      unfold Broker.carrierOf at hc
      rw [hc] at hc'
      exact .inl hc'
    | none =>
      unfold Broker.carrierOf at hc
      rw [hc, Option.none_or] at hc'
      split at hc'
      · exact .inr (Option.some.inj hc').symm
      · cases hc'
  refine ⟨fun id => (h.at_ id).keep (fun s c' hc' => ?_) rfl ⟨rfl, rfl⟩, fun s c' e hc' he => ?_, h.fenced⟩
  · rcases hcases hc' with hc₀ | rfl
    · exact .inl ⟨c', hc₀, rfl⟩
    · refine .inr ⟨rfl, fun r hr _ htr => ?_⟩
      obtain ⟨c, hat, _⟩ := hs.route_carrier hr
      rw [← show t = r.carrierTransportId from htr, free] at hat
      cases hat
  · rcases hcases hc' with hc₀ | rfl
    · exact h.control s c' e hc₀ he
    · cases he

theorem Upstream.welcome (h : Upstream b) {r : Route} (hr : b.routeOf r.routeId = some r) (opening : r.status = .opening)
    {g : Route → Route} (hg : ∀ r, (g r).routeId = r.routeId)
    (hkeep : (g r).routeFence = r.routeFence ∧ (g r).carrierTransportId = r.carrierTransportId ∧
      (g r).nextClientToHostSeq = r.nextClientToHostSeq ∧ (g r).status ≠ .opening) : Upstream (b.setRoute r.routeId g) := by
  have hat := h.at_ r.routeId
  have hnil := hat.unopened r hr opening
  have hempty : ∀ s c, b.carrierOf s = some c → c.entries r.routeId = [] := by
    intro s c hc
    refine List.eq_nil_iff_forall_not_mem.mpr fun e he => ?_
    obtain ⟨r₀, _, _, hr₀, hst, _⟩ := hat.data s c e hc he
    obtain rfl := Option.some.inj (hr.symm.trans hr₀)
    exact absurd (opening.symm.trans hst) (by decide)
  have hsent : dispatches r.routeId b.trace = [] := List.prefix_nil.mp (hnil ▸ hat.sent)
  have hself := routeOf_setRoute_at hr hg
  refine ⟨fun id => ?_, h.control, h.fenced⟩
  by_cases hid : id = r.routeId
  · subst hid
    refine ⟨fun s c e hc he => ?_, fun s c r' hc hr' _ _ _ => ?_, hat.sent, hat.numbered, fun r' hr' => ?_, fun r' hr' hst => ?_⟩
    · rw [hempty s c hc] at he
      cases he
    · show forwards _ b.trace = dispatches _ b.trace ++ _
      rw [hnil, hsent, hempty s c hc]
      rfl
    · obtain rfl := Option.some.inj (hself.symm.trans hr')
      exact hkeep.2.2.1.trans (hat.next r hr)
    · obtain rfl := Option.some.inj (hself.symm.trans hr')
      exact absurd hst hkeep.2.2.2
  · refine (h.at_ id).keep (fun s c' hc' => .inl ⟨c', hc', rfl⟩) ?_ ⟨rfl, rfl⟩
    rw [routeOf_setRoute_ne hg hid]

theorem routeOf_addRoute (c : Carrier) {r : Route} (hnew : b.routeOf r.routeId = none) (id : Nat) :
    (b.addRoute c r).routeOf id = if id = r.routeId then some r else b.routeOf id := by
  show Keyed.find Route.routeId id (b.routes ++ [r]) = _
  rw [Keyed.find_append_single]
  unfold Broker.routeOf at *
  by_cases hid : id = r.routeId
  · rw [if_pos hid, hid, hnew]
    simp
  · rw [if_neg (Ne.symm hid), if_neg hid, Option.or_none]

theorem Upstream.addRoute (h : Upstream b) (c : Carrier) {r : Route} (hnew : b.routeOf r.routeId = none)
    (hun : ∀ e ∈ b.trace, e.about ≠ some r.routeId) (opening : r.status = .opening) (first : r.nextClientToHostSeq = 1) :
    Upstream (b.addRoute c r) := by
  have hat := h.at_ r.routeId
  have hnil : forwards r.routeId b.trace = [] := picked_eq_nil fun e he => by
    have := hun e he
    cases e <;> simp_all [Event.about, Event.forwardOn]
  have htrace : ∀ id, forwards id (b.addRoute c r).trace = forwards id b.trace ∧
      dispatches id (b.addRoute c r).trace = dispatches id b.trace := fun id =>
    Grown.upward (u := (b.addRoute c r).trace) (.inr ⟨_, rfl, rfl⟩) id
  have hcarrier : ∀ s c', (b.addRoute c r).carrierOf s = some c' → ∃ c₀, b.carrierOf s = some c₀ ∧ c₀.pipe = c'.pipe :=
    fun s c' hc' => (Alike.setCarrier b c.serial (f := fun c => { c with routeIds := c.routeIds ++ [r.routeId] })
      fun _ => ⟨rfl, rfl⟩).carrier.get hc'
  refine ⟨fun id => ?_, fun s c' e hc' he => ?_, fun s id f seq bytes he => ?_⟩
  · by_cases hid : id = r.routeId
    · subst hid
      have hself : (b.addRoute c r).routeOf r.routeId = some r := by rw [routeOf_addRoute c hnew, if_pos rfl]
      refine ⟨fun s c' e hc' he => ?_, fun s c' r' hc' hr' hst => ?_, ?_, ?_, fun r' hr' => ?_, fun r' hr' hst => ?_⟩
      · obtain ⟨c₀, hc₀, heq⟩ := hcarrier s c' hc'
        simp only [Carrier.pipe, Prod.mk.injEq] at heq
        rw [Carrier.entries_of_queues heq.2.2.1.symm] at he
        obtain ⟨r₀, _, _, hr₀, _⟩ := hat.data s c₀ e hc₀ he
        rw [hnew] at hr₀
        cases hr₀
      · obtain rfl := Option.some.inj (hself.symm.trans hr')
        exact absurd (opening.symm.trans hst) (by decide)
      · rw [(htrace _).1, (htrace _).2]
        exact hat.sent
      · rw [(htrace _).1]
        exact hat.numbered
      · obtain rfl := Option.some.inj (hself.symm.trans hr')
        rw [(htrace _).1, hnil, first]
        rfl
      · rw [(htrace _).1]
        exact hnil
    · refine (h.at_ id).keep (fun s c' hc' => ?_) ?_ (htrace id)
      · obtain ⟨c₀, hc₀, heq⟩ := hcarrier s c' hc'
        simp only [Carrier.pipe, Prod.mk.injEq] at heq
        exact .inl ⟨c₀, hc₀, by rw [heq.1, heq.2.1, Carrier.entries_of_queues heq.2.2.1]⟩
      · rw [routeOf_addRoute c hnew, if_neg hid]
  · obtain ⟨c₀, hc₀, heq⟩ := hcarrier s c' hc'
    simp only [Carrier.pipe, Prod.mk.injEq] at heq
    exact h.control s c₀ e hc₀ (heq.2.2.2 ▸ he)
  · rcases List.mem_cons.mp he with he | he
    · cases he
    · obtain ⟨k, hk⟩ := h.fenced s id f seq bytes he
      exact ⟨k, List.mem_cons_of_mem _ hk⟩

end

end Relay
end TmuxWorktree
