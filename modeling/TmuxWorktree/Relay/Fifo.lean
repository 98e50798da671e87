import TmuxWorktree.Relay.Downstream
/-!
# Fifo — routes lose nothing and keep the order

Every move keeps both ways of every route in order, so after every run what a route's client sent is with the host or
queued, and what the host sent is with the client or queued.
-/
namespace TmuxWorktree
namespace Relay

/-- **Both ways of every route are in order.** -/
structure Piped (C : Config) (b : Broker) : Prop where
  told : Told b
  up : Upstream b
  down : Downstream C b

def Event.idle : Event → Bool
  | .paused .. => true
  | .resumed .. => true
  | .violated _ => true
  | _ => false

theorem Event.idle_spec {e : Event} (h : e.idle = true) :
    e.making = false ∧ e.about = none ∧ e.upward = false ∧ e.downward = false := by
  cases e <;> first | exact ⟨rfl, rfl, rfl, rfl⟩ | cases h

section
variable {C : Config} {P : Permits} {D D' : List Nat} {b b' : Broker}

theorem Piped.alike (h : Piped C b) (ha : Alike b b')
    (ht : b'.trace = b.trace ∨ ∃ e, e.idle = true ∧ b'.trace = e :: b.trace) (hf : b.fresh ≤ b'.fresh) : Piped C b' := by
  refine ⟨h.told.looks ha.route (ht.imp_right fun ⟨e, he, heq⟩ => ?_) hf, h.up.alike ha (ht.imp_right fun ⟨e, he, heq⟩ => ?_),
    h.down.alike ha (ht.imp_right fun ⟨e, he, heq⟩ => ?_)⟩
  · obtain ⟨h1, h2, _⟩ := Event.idle_spec he
    exact ⟨e, h1, (fun id hid => nomatch h2.symm.trans hid), heq⟩
  · exact ⟨e, (Event.idle_spec he).2.2.1, heq⟩
  · exact ⟨e, (Event.idle_spec he).2.2.2, heq⟩

theorem Piped.carriers (h : Piped C b) (hup : Upstream b') (hr : Looks Route.pipe b.routeOf b'.routeOf)
    (hc : Looks Client.pipe b.clientAt b'.clientAt)
    (ht : b'.trace = b.trace ∨ ∃ e, e.making = false ∧ e.about = none ∧ e.downward = false ∧ b'.trace = e :: b.trace)
    (hf : b.fresh ≤ b'.fresh) : Piped C b' := by
  refine ⟨h.told.looks hr (ht.imp_right fun ⟨e, h1, h2, _, heq⟩ => ⟨e, h1, (fun id hid => nomatch h2.symm.trans hid), heq⟩) hf,
    hup, h.down.keep (hr.comp fun x => (x.1.1, x.2.1, x.2.2.2)) hc (ht.imp_right fun ⟨e, _, _, h3, heq⟩ => ⟨e, h3, heq⟩)⟩

theorem Piped.ended (h : Piped C b) (hs : Sound D b) {r : Route} (hr : b.routeOf r.routeId = some r) (he : Ended r b b') :
    Piped C b' := by
  refine ⟨h.told.keep (fun id r' hr' => ?_) (.inl he.trace) (Nat.le_of_eq he.fresh.symm), h.up.ended hr he, h.down.ended hs hr he⟩
  by_cases hid : id = r.routeId
  · subst hid
    obtain ⟨_, heq⟩ := he.route r' hr'
    simp only [Prod.mk.injEq] at heq
    exact ⟨r, hr, heq.1.symm, heq.2.1.symm⟩
  · have hroute := he.routes id hid
    rw [hr', Option.map_some] at hroute
    obtain ⟨r₀, hr₀, heq⟩ := Option.map_eq_some_iff.mp hroute.symm
    simp only [Route.pipe, Prod.mk.injEq] at heq
    exact ⟨r₀, hr₀, heq.1.1, heq.1.2.1⟩

theorem Sound.old_route (hs : Sound D b) {id : Nat} {r : Route} (hr : b.routeOf id = some r) : id < b.fresh := by
  have hlt := hs.oldRoutes r (Keyed.mem_of_find hr)
  rwa [id_of_routeOf hr] at hlt

theorem Told.event (h : Told b) (hs : Sound D b) {id : Nat} {r : Route} {e : Event} (hr : b.routeOf id = some r)
    (making : e.making = false) (about : e.about = some id)
    (hlook : Looks (fun r => (r.connectionId, r.routeFence)) b.routeOf b'.routeOf) (ht : b'.trace = e :: b.trace)
    (hf : b.fresh ≤ b'.fresh) : Told b' := by
  refine h.keep (fun id' r' hr' => ?_) (.inr ⟨e, making, fun x hx => ?_, ht⟩) hf
  · obtain ⟨r₀, hr₀, heq⟩ := hlook.get hr'
    simp only [Prod.mk.injEq] at heq
    exact ⟨r₀, hr₀, heq⟩
  · obtain rfl := Option.some.inj (about.symm.trans hx)
    exact hs.old_route hr

theorem pushFrame_spec (s : Nat) (r : Route) (bytes : Bytes) (charged : Bool) (b : Broker) :
    Looks Carrier.pipe b.carrierOf (b.pushFrame s r bytes charged).carrierOf ∧
      Looks Route.pipe b.routeOf (b.pushFrame s r bytes charged).routeOf ∧
      (∀ k, ((b.pushFrame s r bytes charged).clientAt k).map Client.pipe = (b.clientAt k).map fun c =>
        (c.routeId, if k = r.connectionId then c.queue ++ [⟨bytes, r.routeId, charged⟩] else c.queue)) := by
  refine ⟨.update (by exact fun _ => rfl) (by exact fun _ _ => rfl), .update (by exact fun _ => rfl) (by exact fun _ _ => rfl), fun k => ?_⟩
  show ((b.setClient r.connectionId fun c => { c with queue := c.queue ++ [⟨bytes, r.routeId, charged⟩] }).clientAt k).map _ = _
  by_cases hk : k = r.connectionId
  · rw [hk, clientAt_setClient_self (by exact fun _ => rfl), Option.map_map]
    simp only [if_true]
    rfl
  · rw [clientAt_setClient_ne (by exact fun _ => rfl) hk]
    simp only [if_neg hk]
    rfl

theorem discardCarrier_rest (s : Nat) (b : Broker) :
    Looks Route.pipe b.routeOf (b.discardCarrier s).routeOf ∧ Looks Client.pipe b.clientAt (b.discardCarrier s).clientAt ∧
      (b.discardCarrier s).trace = b.trace ∧ b.fresh ≤ (b.discardCarrier s).fresh := by
  unfold Broker.discardCarrier
  split
  · exact ⟨.refl _, .refl _, rfl, Nat.le_refl _⟩
  · next c _ =>
    have ha := Alike.discardCarrier_routes c.inFlight b
    exact ⟨ha.route, ha.client, discardCarrier_trace c.inFlight b, (Kept.discardCarrier_routes c.inFlight b).fresh⟩

theorem Piped.openRoute (h : Piped C b) (hs : Sound D b) {c : Carrier} (connectionId : Nat) (a : Authorization) (i connectorId : Nat)
    (free : b.clientAt connectionId = none) :
    Piped C (((b.named.named.named.pushControl c.serial (Broker.controlEntry C
      (b.newRoute c connectionId a i connectorId).openFrame (some b.fresh))).addRoute c
        (b.newRoute c connectionId a i connectorId))) := by
  have hnew : b.routeOf b.fresh = none := by
    cases hr : b.routeOf b.fresh with
    | none => rfl
    | some r => exact absurd (hs.old_route hr) (Nat.lt_irrefl _)
  have hun : ∀ e ∈ b.trace, e.about ≠ some b.fresh := fun e he hid => Nat.lt_irrefl _ (h.told.old e he _ hid)
  have hup : Upstream b.named.named.named := h.up.alike ⟨.refl _, .refl _, .refl _⟩ (.inl rfl)
  refine ⟨⟨fun e he id hid => ?_, fun id r hr => ?_, fun id k f k' f' h₁ h₂ => ?_⟩,
    (hup.pushControl c.serial rfl).addRoute c hnew hun rfl rfl, ?_⟩
  · show id < b.fresh + 3
    rcases List.mem_cons.mp he with rfl | he
    · cases hid
      exact Nat.lt_add_of_pos_right (by decide)
    · exact Nat.lt_of_lt_of_le (h.told.old e he id hid) (Nat.le_add_right _ _)
  · rw [routeOf_addRoute c hnew] at hr
    split at hr
    · next heq =>
      obtain rfl := Option.some.inj hr
      rw [heq]
      exact List.mem_cons_self
    · exact List.mem_cons_of_mem _ (h.told.created id r hr)
  · rcases List.mem_cons.mp h₁ with e₁ | h₁ <;> rcases List.mem_cons.mp h₂ with e₂ | h₂
    · cases e₁
      cases e₂
      exact ⟨rfl, rfl⟩
    · cases e₁
      exact absurd rfl (hun _ h₂)
    · cases e₂
      exact absurd rfl (hun _ h₁)
    · exact h.told.once id k f k' f' h₁ h₂
  · have hdown : Downstream C (b.named.named.named.pushControl c.serial (Broker.controlEntry C
        (b.newRoute c connectionId a i connectorId).openFrame (some b.fresh))) := h.down.keep (.refl _) (.refl _) (.inl rfl)
    have hs₁ : Sound D (b.named.named.named.pushControl c.serial (Broker.controlEntry C
        (b.newRoute c connectionId a i connectorId).openFrame (some b.fresh))) :=
      ((((Kept.named b).trans (.named _)).trans (.named _)).trans (.setCarrier _ _ (by exact fun _ => ⟨rfl, rfl⟩))).sound hs
    exact hdown.addRoute hs₁ c hnew free hun rfl rfl

theorem activate_rest (C : Config) (c : Carrier) (hello : HostHello) (previous : Option Carrier) (b : Broker) :
    (b.activate C c hello previous).routes = b.routes ∧ (b.activate C c hello previous).clients = b.clients ∧
      (b.activate C c hello previous).trace = b.trace ∧ (b.activate C c hello previous).fresh = b.fresh := by
  unfold Broker.activate
  cases previous with
  | some p => exact ⟨rfl, rfl, rfl, rfl⟩
  | none =>
    dsimp only
    split <;> exact ⟨rfl, rfl, rfl, rfl⟩

theorem Alike.activate (C : Config) (c : Carrier) (hello : HostHello) (previous : Option Carrier) (b : Broker) :
    Alike b (b.activate C c hello previous) := by
  obtain ⟨hr, hk, _⟩ := activate_rest C c hello previous b
  refine ⟨fun s => ?_, fun id => ?_, fun k => ?_⟩
  · unfold Broker.carrierOf
    rw [activate_carriers]
    exact @Looks.update _ _ Carrier.pipe Carrier.serial _ _ _ (by exact fun _ => rfl) (by exact fun _ _ => rfl) s
  · unfold Broker.routeOf
    rw [hr]
  · unfold Broker.clientAt
    rw [hk]

theorem acknowledge_trace (s : Nat) (e : InFlightCarrierFrame) (b : Broker) :
    (b.acknowledge s e).trace = b.trace ∧ (b.acknowledge s e).fresh = b.fresh := by
  unfold Broker.acknowledge
  dsimp only
  split <;> exact ⟨rfl, rfl⟩

theorem dispatch_fresh (s : Nat) (e : QueuedCarrierFrame) (b : Broker) : (b.dispatch s e).fresh = b.fresh + 1 := by
  unfold Broker.dispatch
  dsimp only
  split <;> rfl

theorem routeOf_consume (f : PublicFrame) {r : Route} (hr : b.routeOf r.routeId = some r) :
    (b.consumeHostFrame r.routeId f).routeOf r.routeId = some
      { r with
        expectedHostToClientSeq := r.expectedHostToClientSeq + 1
        inFlightRequestIds := if f.kind = .response then r.inFlightRequestIds.filter (fun id => some id ≠ f.requestId)
          else r.inFlightRequestIds } := routeOf_setRoute_at hr (by exact fun _ => rfl)

/-- **Every move keeps both ways of every route in order.** -/
theorem Move.piped (m : Move C P D b D' b') (hs : Sound D b) (h : Piped C b) : Piped C b' := by
  have keep : ∀ {b' : Broker}, Alike b b' → b'.trace = b.trace → b.fresh ≤ b'.fresh → Piped C b' :=
    fun ha ht hf => h.alike ha (.inl ht) hf
  cases m with
  | quiet hq => exact keep (.of_quiet hq) hq.trace hq.fresh
  | mark => exact h
  | unmark => exact h
  | attach t a i grow free =>
    exact h.carriers (h.up.attach hs t a i free) (.refl _) (.refl _) (.inl rfl) (Nat.le_succ _)
  | enroll =>
    exact keep ⟨.update (by exact fun _ => rfl) (by exact fun _ _ => rfl), .refl _, .refl _⟩ rfl (Nat.le_refl _)
  | rebase => exact keep (.setCarrier _ _ (by exact fun _ => ⟨rfl, rfl⟩)) rfl (Nat.le_refl _)
  | @activate _ _ c hello previous =>
    obtain ⟨_, _, ht, hf⟩ := activate_rest C c hello previous b
    exact keep (.activate C c hello previous b) ht (Nat.le_of_eq hf.symm)
  | offline => exact keep ⟨.refl _, .refl _, .refl _⟩ rfl (Nat.le_refl _)
  | unregister => exact keep ⟨.refl _, .refl _, .refl _⟩ rfl (Nat.le_refl _)
  | forget => exact keep (.setCarrier _ _ (by exact fun _ => ⟨rfl, rfl⟩)) rfl (Nat.le_refl _)
  | retire => exact keep (.setCarrier _ _ (by exact fun _ => ⟨rfl, rfl⟩)) rfl (Nat.le_refl _)
  | @discard _ _ c hc marked hroutes =>
    obtain ⟨hr, hk, ht, hf⟩ := discardCarrier_rest c.serial b
    exact h.carriers (h.up.discard hs hc hroutes) hr hk (.inl ht) hf
  | detach hc marked hroutes =>
    exact h.carriers (h.up.detach hs hc hroutes) (.refl _) (.refl _) (.inl rfl) (Nat.le_refl _)
  | openRoute connectionId a i connectorId grow hc attached active connector host free _ _ =>
    exact h.openRoute hs connectionId a i connectorId free
  | drop hr => exact h.ended hs hr (.drop hs hr)
  | welcome hon opening pending limit =>
    refine ⟨h.told.keep (fun id r' hr' => ?_) (.inl rfl) (Nat.le_refl _),
      h.up.welcome hon.route opening (by exact fun _ => rfl) ⟨rfl, rfl, rfl, by simp⟩,
      h.down.welcome hs hon.route opening (by exact fun _ => rfl) ⟨rfl, rfl, rfl⟩⟩
    rcases routeOf_setRoute_cases hr' (by exact fun _ => rfl) with ⟨_, hr₀⟩ | ⟨rfl, r₀, hr₀, rfl⟩
    · exact ⟨r', hr₀, rfl, rfl⟩
    · exact ⟨r₀, hr₀, rfl, rfl⟩
  | close withControl hon => exact h.ended hs hon.route (.close hs withControl hon)
  | unbind => exact h.carriers (h.up.pushControl _ rfl) (.refl _) (.refl _) (.inl rfl) (Nat.le_refl _)
  | control frame hc active kind =>
    refine h.carriers (h.up.pushControl _ ?_) (.refl _) (.refl _) (.inl rfl) (Nat.le_refl _)
    rcases kind with ⟨_, _, rfl⟩ | ⟨_, _, rfl⟩ <;> rfl
  | @forward _ _ c r f bytes _ hon opened =>
    have hpushed : Piped C (b.pushEntry _ _ (Broker.dataEntry C _ bytes) bytes) :=
      ⟨h.told.event hs hon.route rfl rfl (.update (by exact fun _ => rfl) (by exact fun _ _ => rfl)) rfl (Nat.le_refl _),
        h.up.forward C hs bytes hon opened,
        h.down.keep (.update (by exact fun _ => rfl) (by exact fun _ _ => rfl)) (.refl _) (.inr ⟨_, rfl, rfl⟩)⟩
    obtain ⟨g, heq, _⟩ := noteRequest_eq r.routeId f (b.pushEntry _ _ (Broker.dataEntry C _ bytes) bytes)
    exact hpushed.alike (.noteRequest _ f _) (.inl (by rw [heq]; rfl)) (by rw [heq]; exact Nat.le_refl _)
  | @make _ _ c r made charged hon opened =>
    obtain ⟨hc, hr, hk⟩ := pushFrame_spec c.serial r (C.codec.encode made) charged b
    obtain ⟨r₁, hr₁, heq⟩ := Looks.get (fun x => (hr x).symm) hon.route
    simp only [Route.pipe, Prod.mk.injEq] at heq
    refine ⟨h.told.event hs hon.route rfl rfl (hr.comp fun x => (x.1.1, x.1.2.1)) rfl (Nat.le_refl _),
      h.up.pushed hc (hr.comp fun x => ((x.1.2.1, x.1.2.2), x.2.1, x.2.2.1)) (.inr ⟨_, rfl, rfl⟩),
      h.down.add hs (o := some (C.codec.encode made)) (q := none) hon.route ⟨fun x => ?_, fun x => ?_, fun _ => rfl⟩
        (fun _ => opened) (by simp [opened]) ⟨r₁, hr₁, heq.1.1, heq.2.1, heq.2.2.2⟩ (fun id _ => ?_) hk rfl
        (fun _ _ hx => by cases hx) (fun _ _ _ _ hx => by cases hx) (fun _ _ _ _ hx => by cases hx)⟩
    · simp only [Event.pushOn, eq_comm]
    · simp only [Event.admitOn, ite_self]
    · exact hr.comp (fun x => (x.1.1, x.2.1, x.2.2.2)) id
  | @accept _ _ c r f bytes out _ hon opened faithful decoded =>
    obtain ⟨hc, hr, hk⟩ := pushFrame_spec c.serial r out true (b.consumeHostFrame r.routeId f)
    have hself := routeOf_consume f hon.route
    have hother : ∀ id, id ≠ r.routeId → (b.consumeHostFrame r.routeId f).routeOf id = b.routeOf id := fun id hid =>
      routeOf_setRoute_ne (by exact fun _ => rfl) hid
    have hlook : Looks (fun r => ((r.connectionId, r.routeFence, r.carrierTransportId), r.status, r.nextClientToHostSeq))
        b.routeOf (b.consumeHostFrame r.routeId f).routeOf := .update (by exact fun _ => rfl) (by exact fun _ _ => rfl)
    have hall := hlook.trans (hr.comp fun x => (x.1, x.2.1, x.2.2.1))
    obtain ⟨r₁, hr₁, heq⟩ := Looks.get (fun x => (hr x).symm) hself
    simp only [Route.pipe, Prod.mk.injEq] at heq
    refine ⟨h.told.event hs hon.route rfl rfl (hall.comp fun x => (x.1.1, x.1.2.1)) rfl (Nat.le_refl _),
      h.up.pushed hc (hall.comp fun x => ((x.1.2.1, x.1.2.2), x.2.1, x.2.2)) (.inr ⟨_, rfl, rfl⟩),
      h.down.add hs (o := some out) (q := some (r.expectedHostToClientSeq, bytes)) hon.route
        ⟨fun x => ?_, fun x => ?_, fun _ => rfl⟩ (fun _ => opened) (by simp [opened])
        ⟨r₁, hr₁, heq.1.1, heq.2.1, heq.2.2.2⟩ (fun id hid => ?_) hk rfl
        (fun seq _ hx => ?_) (fun _ _ _ _ hx => by cases hx) (fun _ _ _ _ hx => ?_)⟩
    · simp only [Event.pushOn, eq_comm]
    · simp only [Event.admitOn, eq_comm]
    · rw [← hother id hid]
      exact hr.comp (fun x => (x.1.1, x.2.1, x.2.2.2)) id
    · cases hx
      rfl
    · cases hx
      refine faithful.imp_right ?_
      rintro ⟨hf, stripped, hst⟩
      exact ⟨f, stripped, decoded, hf, hst⟩
  | @consume _ _ c r f bytes _ hon when decoded =>
    have hlook : Looks (fun r => ((r.connectionId, r.routeFence, r.carrierTransportId), r.status, r.nextClientToHostSeq))
        b.routeOf (b.consumeHostFrame r.routeId f).routeOf := .update (by exact fun _ => rfl) (by exact fun _ _ => rfl)
    refine ⟨h.told.event hs hon.route rfl rfl (hlook.comp fun x => (x.1.1, x.1.2.1)) rfl (Nat.le_refl _),
      h.up.pushed (.refl _) (hlook.comp fun x => ((x.1.2.1, x.1.2.2), x.2.1, x.2.2)) (.inr ⟨_, rfl, rfl⟩),
      h.down.add hs (z := true) (o := none) (q := some (r.expectedHostToClientSeq, bytes)) hon.route
        ⟨fun x => ?_, fun x => ?_, fun _ => rfl⟩ (fun hx => by cases hx) ?_
        ⟨_, routeOf_consume f hon.route, rfl, rfl, rfl⟩ (fun id hid => ?_) (fun k => ?_) rfl
        (fun seq _ hx => ?_) (fun hst _ _ _ hx => ?_) (fun _ _ _ _ hx => by cases hx)⟩
    · simp only [Event.pushOn, ite_self]
    · simp only [Event.admitOn, eq_comm]
    · rcases when with hst | ⟨hst, _⟩ <;> simp [hst]
    · rw [show ((b.consumeHostFrame r.routeId f).emit _).routeOf id = b.routeOf id from
        routeOf_setRoute_ne (by exact fun _ => rfl) hid]
    · show (b.clientAt k).map _ = _
      congr 1
      funext c
      simp [Client.pipe]
    · cases hx
      rfl
    · cases hx
      rcases when with hclosing | ⟨_, e, hlane, _⟩
      · exact absurd hclosing hst
      · exact ⟨f, e, decoded, hlane⟩
  | @dispatchControl _ _ c e rest hc active head =>
    have ha := Alike.dispatch c.serial e b
    refine h.carriers (h.up.dispatchControl hc head) ha.route ha.client (.inr ⟨_, rfl, rfl, rfl, dispatch_trace c.serial e b⟩) ?_
    exact Nat.le_of_lt (Nat.lt_of_lt_of_eq (Nat.lt_succ_self _) (dispatch_fresh c.serial e b).symm)
  | @dispatchData _ _ c routeId e rest hc active turn head =>
    have ha := Alike.dispatch c.serial e b
    refine h.carriers (h.up.dispatchData hs (fun id r hr => ⟨_, h.told.created id r hr⟩) hc head) ha.route ha.client
      (.inr ⟨_, rfl, rfl, rfl, dispatch_trace c.serial e b⟩) ?_
    exact Nat.le_of_lt (Nat.lt_of_lt_of_eq (Nat.lt_succ_self _) (dispatch_fresh c.serial e b).symm)
  | skip routeId hc turn none' => exact h.carriers (h.up.skip hc none') (.refl _) (.refl _) (.inl rfl) (Nat.le_refl _)
  | acknowledge e =>
    obtain ⟨ht, hf⟩ := acknowledge_trace _ e b
    exact keep (.acknowledge _ e b) ht (Nat.le_of_eq hf.symm)
  | hand e rest hclient head hr opened own named =>
    exact ⟨h.told.event hs hr rfl rfl (.refl _) rfl (Nat.le_succ _),
      h.up.pushed (.refl _) (.refl _) (.inr ⟨_, rfl, rfl⟩),
      h.down.hand hs h.told hclient head hr opened own (by exact fun _ => rfl) rfl (by dsimp only; rw [head]; rfl) (fun _ => rfl) rfl rfl⟩
  | @received _ _ client r e =>
    refine keep ((Alike.setClient b _ (by exact fun _ => ⟨rfl, rfl⟩)).trans (.releaseHostToClient r _ _)) ?_ ?_
    · exact (releaseHostToClient_rest r _ _).2.1
    · rw [(releaseHostToClient_rest r _ _).2.2]
      exact Nat.le_refl _
  | lost => exact keep (.setClient b _ (by exact fun _ => ⟨rfl, rfl⟩)) rfl (Nat.le_refl _)
  | clock d time => exact keep (.setRoute b _ fun r => (Alike.direction d time r).1) rfl (Nat.le_refl _)
  | pause d =>
    exact h.alike ((Alike.setRoute b _ fun r => (Alike.direction d 0 r).2.1).trans (.emit _ _)) (.inr ⟨_, rfl, rfl⟩) (Nat.le_refl _)
  | resume d =>
    exact h.alike ((Alike.setRoute b _ fun r => (Alike.direction d 0 r).2.2).trans (.emit _ _)) (.inr ⟨_, rfl, rfl⟩) (Nat.le_refl _)
  | withdraw e =>
    have hrest : (b.withdrawOptionalCapability e).trace = b.trace ∧ (b.withdrawOptionalCapability e).fresh = b.fresh := by
      unfold Broker.withdrawOptionalCapability
      split <;> exact ⟨rfl, rfl⟩
    exact keep (.withdraw e b) hrest.1 (Nat.le_of_eq hrest.2.symm)
  | violate serial => exact h.alike (.emit _ _) (.inr ⟨_, rfl, rfl⟩) (Nat.le_refl _)

theorem Path.piped (p : Path C P D b D' b') (hs : Sound D b) (h : Piped C b) : Piped C b' := by
  induction p with
  | refl => exact h
  | step first _ ih => exact ih (first.sound hs) (first.piped hs h)

theorem Piped.start (C : Config) (ready : List Extension) (replies : Nat → Reply) : Piped C (Broker.start ready replies) where
  told := ⟨(fun _ he => nomatch he), (fun _ _ hr => nomatch hr), (fun _ _ _ _ _ he => nomatch he)⟩
  up :=
    { at_ := fun _ => ⟨(fun _ _ _ hc => nomatch hc), (fun _ _ _ hc => nomatch hc), List.prefix_rfl, rfl,
        (fun _ hr => nomatch hr), (fun _ hr => nomatch hr)⟩
      control := fun _ _ _ hc => nomatch hc
      fenced := fun _ _ _ _ _ he => nomatch he }
  down :=
    { at_ := fun _ => ⟨(fun _ _ hr => nomatch hr), List.prefix_rfl, rfl, (fun _ hr => nomatch hr), (fun _ hr => nomatch hr),
        (fun _ hr => nomatch hr)⟩
      queue := fun _ _ _ hc => nomatch hc
      addressed := fun _ _ _ he => nomatch he
      faithful := fun _ _ _ _ he => nomatch he }

/-- **Both ways of every route are in order after every run.** -/
theorem run_piped (C : Config) (ops : List Op) {b : Broker} (hs : Sound [] b) (h : Piped C b) : Piped C (run C ops b) := by
  induction ops generalizing b with
  | nil => exact h
  | cons op ops ih => exact ih ((op.walk hs).sound hs) ((op.walk hs).piped hs h)

/-! ## Frames that clients send -/

theorem pushClient_tells (C : Config) (s : Nat) (r : Route) (bytes : Bytes) (charged : Bool) (e : Event) (b : Broker) :
    Says b ((b.pushClient C s r bytes charged).emit e) e := by
  refine ⟨[e], ?_, List.mem_singleton.mpr rfl⟩
  show e :: (b.pushClient C s r bytes charged).trace = _
  rw [(quiet_pushClient C s r bytes charged b).trace]
  rfl

theorem unavailable_tells (C : Config) (c : Carrier) (r : Route) (f : PublicFrame) (e : Extension) (b : Broker)
    (h : (b.enqueueAgentExtensionUnavailable C c r f e).1.accepted = true) :
    ∃ made, Says b (b.enqueueAgentExtensionUnavailable C c r f e).2 (.made r.routeId made) := by
  unfold Broker.enqueueAgentExtensionUnavailable at *
  dsimp only at *
  split
  · next hfull =>
    rw [if_pos hfull] at h
    cases h
  · exact ⟨_, pushClient_tells C c.serial r _ true _ b⟩

theorem answerSnapshot_tells (C : Config) (c : Carrier) (r : Route) (f : PublicFrame) (b : Broker)
    (h : (b.answerSnapshot C c r f).1.accepted = true) :
    ∃ made, Says b (b.answerSnapshot C c r f).2 (.made r.routeId made) := by
  unfold Broker.answerSnapshot at *
  dsimp only at *
  split
  · next hnone =>
    rw [hnone] at h
    cases h
  · next d hsome =>
    rw [hsome] at h
    dsimp only at h ⊢
    split
    · next hfull =>
      rw [if_pos hfull] at h
      cases h
    · exact ⟨_, (pushClient_tells C c.serial r _ true _ b.read).of_trace rfl rfl⟩

theorem forwardDecoded_tells (C : Config) (c : Carrier) (r : Route) (f : PublicFrame) (bytes : Bytes) (b : Broker)
    (h : (b.forwardDecoded C c r f bytes).1.accepted = true) :
    Says b (b.forwardDecoded C c r f bytes).2 (.forwarded r.routeId r.nextClientToHostSeq bytes) ∨
      ∃ made, Says b (b.forwardDecoded C c r f bytes).2 (.made r.routeId made) := by
  unfold Broker.forwardDecoded at *
  split at h
  · cases h
  · next h1 =>
    rw [if_neg h1]
    split at h
    · next h2 =>
      rw [if_pos h2]
      exact .inr (answerSnapshot_tells C c r f b h)
    · next h2 =>
      rw [if_neg h2]
      split at h
      · cases h
      · next h3 =>
        rw [if_neg h3]
        split at h
        · cases h
        · next h4 =>
          rw [if_neg h4]
          cases hlane : f.lane with
          | none =>
            rw [hlane] at h
            exact .inl (forwardAdmitted_tells C c r f bytes b h)
          | some e =>
            rw [hlane] at h
            dsimp only at h ⊢
            split at h
            · next h5 =>
              rw [if_pos h5]
              split at h
              · cases h
              · next h6 =>
                rw [if_neg h6]
                exact .inl (forwardAdmitted_tells C c r f bytes b h)
            · next h5 =>
              rw [if_neg h5]
              split at h
              · next h6 =>
                rw [if_pos h6]
                exact .inr (unavailable_tells C c r f e b h)
              · cases h

/-- **An accepted client frame is in the trace of its own route.** -/
theorem forwardClientFrame_tells (h : Sound [] b) (k : Nat) (bytes : Bytes)
    (accepted : (b.forwardClientFrame C k bytes).1.accepted = true) :
    ∃ r ∈ b.routes, r.connectionId = k ∧ r.status = .opened ∧
      (Says b (b.forwardClientFrame C k bytes).2 (.forwarded r.routeId r.nextClientToHostSeq bytes) ∨
        ∃ made, Says b (b.forwardClientFrame C k bytes).2 (.made r.routeId made)) := by
  unfold Broker.forwardClientFrame at *
  cases hk : b.clientAt k with
  | none =>
    rw [hk] at accepted
    cases accepted
  | some client =>
    rw [hk] at accepted
    dsimp only at accepted ⊢
    cases hr : b.routeOf client.routeId with
    | none =>
      rw [hr] at accepted
      cases accepted
    | some r =>
      rw [hr] at accepted
      dsimp only at accepted ⊢
      split at accepted
      · cases accepted
      · next hst =>
        rw [if_neg hst]
        rcases isClientAuthorizationActive_spec (C := C) h client with ⟨b₁, heq, rfl⟩ | ⟨b₁, heq, _⟩
        case inr =>
          rw [heq] at accepted
          cases accepted
        rw [heq] at accepted ⊢
        simp only [Bool.not_true, Bool.false_eq_true, if_false] at accepted ⊢
        cases hown : (b.read.ownCarrier r).filter fun c => b.read.active.lookup r.authContext.hostId = some c.serial with
        | none =>
          rw [hown] at accepted
          cases accepted
        | some c =>
          rw [hown] at accepted
          dsimp only at accepted ⊢
          have hread : Sound [] b.read := (Kept.of_quiet (.read b)).sound h
          rcases isCarrierAuthorizationActive_spec (C := C) hread c with ⟨b₂, heq₂, rfl⟩ | ⟨b₂, heq₂, _⟩
          case inr =>
            rw [heq₂] at accepted
            cases accepted
          rw [heq₂] at accepted ⊢
          simp only [Bool.not_true, Bool.false_eq_true, if_false] at accepted ⊢
          cases hf : C.codec.decodePublic bytes with
          | none =>
            rw [hf] at accepted
            cases accepted
          | some f =>
            rw [hf] at accepted
            dsimp only at accepted ⊢
            refine ⟨r, Keyed.mem_of_find hr, ?_, by simpa using hst, ?_⟩
            · have hcl : b.ownership.client k = some client.routeId := by
                show (b.clientAt k).map _ = _
                rw [hk]
                rfl
              obtain ⟨x, hx, hxk⟩ := h.owned.routeOf k _ hcl
              obtain ⟨r₀, hr₀, rfl⟩ := Option.map_eq_some_iff.mp hx
              obtain rfl := Option.some.inj (hr.symm.trans hr₀)
              exact hxk
            · exact (forwardDecoded_tells C c r f bytes b.read.read accepted).imp (fun hs => hs.of_trace rfl rfl)
                fun ⟨made, hs⟩ => ⟨made, hs.of_trace rfl rfl⟩

end

end Relay
end TmuxWorktree
