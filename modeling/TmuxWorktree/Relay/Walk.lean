import TmuxWorktree.Relay.Vacant
/-!
# Walk — fences and teardowns, walked move by move

Each function that ends a route, a client or a carrier is a path of moves.  A fence may call the close owner, whose throw
is answered by the latch; its walk is over any reaction that is itself walked.
-/
namespace TmuxWorktree
namespace Relay

def Permits.ending : Permits := ⟨False, False, fun _ => False, False⟩

section
variable {C : Config} {P Q : Permits} {D D' D'' : List Nat} {b b' b'' : Broker}

theorem Path.trans (p : Path C P D b D' b') (q : Path C P D' b' D'' b'') : Path C P D b D'' b'' := by
  induction p with
  | refl => exact q
  | step first _ ih => exact .step first (ih q)

theorem Path.one (m : Move C P D b D' b') : Path C P D b D' b' := .step m .refl

theorem Path.quiet (h : Quiet b b') : Path C P D b D b' := .one (.quiet h)

theorem Move.mono (m : Move C P D b D' b') (hl : P.late → Q.late) (hg : P.grow → Q.grow)
    (hr : ∀ host, P.rebase host → Q.rebase host) (hd : P.data → Q.data) : Move C Q D b D' b' := by
  cases m with
  | quiet h => exact .quiet h
  | mark s => exact .mark s
  | unmark h1 h2 h3 h4 => exact .unmark h1 h2 h3 h4
  | attach t a i grow h1 => exact .attach t a i (hg grow) h1
  | enroll hello k g grow h1 h2 h3 h4 h5 h6 h7 h8 => exact .enroll hello k g (hg grow) h1 h2 h3 h4 h5 h6 h7 h8
  | rebase g allowed h1 h2 h3 h4 h5 h6 => exact .rebase g (hr _ allowed) h1 h2 h3 h4 h5 h6
  | activate hello p grow h1 h2 h3 h4 => exact .activate hello p (hg grow) h1 h2 h3 h4
  | offline h1 h2 h3 => exact .offline h1 h2 h3
  | unregister host h1 => exact .unregister host h1
  | forget h1 h2 => exact .forget h1 h2
  | retire st h1 h2 h3 h4 h5 => exact .retire st h1 h2 h3 h4 h5
  | discard h1 h2 h3 => exact .discard h1 h2 h3
  | detach h1 h2 h3 h4 => exact .detach h1 h2 h3 h4
  | openRoute k a i c grow h1 h2 h3 h4 h5 h6 h7 h8 => exact .openRoute k a i c (hg grow) h1 h2 h3 h4 h5 h6 h7 h8
  | drop h1 => exact .drop h1
  | welcome h1 h2 h3 limit => exact .welcome h1 h2 h3 limit
  | close w h1 h2 h3 => exact .close w h1 h2 h3
  | unbind reason h1 h2 h3 => exact .unbind reason h1 h2 h3
  | control frame h1 h2 h3 h4 => exact .control frame h1 (h2.imp_right hl) h3 h4
  | forward f bytes data h1 h2 h3 h4 h5 h6 => exact .forward f bytes (hd data) h1 h2 h3 h4 h5 h6
  | make made charged h1 h2 h3 h4 => exact .make made charged h1 h2 h3 h4
  | accept f bytes out data h1 h2 h3 h4 h5 h6 h7 => exact .accept f bytes out (hd data) h1 h2 h3 h4 h5 h6 h7
  | consume f bytes data h1 h2 h3 h4 => exact .consume f bytes (hd data) h1 h2 h3 h4
  | dispatchControl e rest h1 h2 h3 => exact .dispatchControl e rest h1 h2 h3
  | dispatchData id e rest h1 h2 h3 h4 => exact .dispatchData id e rest h1 h2 h3 h4
  | skip id h1 h2 h3 => exact .skip id h1 h2 h3
  | acknowledge e h1 h2 => exact .acknowledge e h1 h2
  | hand e rest h1 h2 h3 h4 h5 h6 => exact .hand e rest h1 h2 h3 h4 h5 h6
  | received e h1 h2 h3 => exact .received e h1 h2 h3
  | lost e h1 h2 h3 => exact .lost e h1 h2 h3
  | clock d time h1 h2 h3 => exact .clock d time h1 h2 h3
  | pause d h1 h2 h3 => exact .pause d h1 h2 h3
  | resume d h1 h2 => exact .resume d h1 h2
  | withdraw e => exact .withdraw e
  | violate serial => exact .violate serial

theorem Path.mono (p : Path C P D b D' b') (hl : P.late → Q.late) (hg : P.grow → Q.grow)
    (hr : ∀ host, P.rebase host → Q.rebase host) (hd : P.data → Q.data) : Path C Q D b D' b' := by
  induction p with
  | refl => exact .refl
  | step first _ ih => exact .step (first.mono hl hg hr hd) ih

theorem Path.ends (p : Path C .ending D b D' b') : Path C P D b D' b' := 
  p.mono False.elim False.elim (fun _ => False.elim) False.elim

theorem Path.foldl {α : Type} {f : Broker → α → Broker} (hf : ∀ b x, Sound D b → Path C P D b D (f b x)) :
    ∀ (l : List α) (b : Broker), Sound D b → Path C P D b D (l.foldl f b)
  | [], _, _ => .refl
  | x :: l, b, h => (hf b x h).trans (Path.foldl hf l _ ((hf b x h).sound h))

/-! ## Routes -/

def Route.core (r : Route) : Route :=
  { r with clientToHostBufferedBytes := 0, clientToHostFrames := 0, hostToClientBufferedBytes := 0, hostToClientFrames := 0 }

theorem core_discardQueuedRouteData (c : Carrier) (id : Nat) (b : Broker) :
    (b.discardQueuedRouteData c id).routes.map Route.core = b.routes.map Route.core := by
  unfold Broker.discardQueuedRouteData
  split
  · rfl
  · exact Kept.map_update (by exact fun _ => rfl) id b.routes

theorem core_releaseHostToClient (r : Route) (entries : List QueuedClientFrame) (b : Broker) :
    (b.releaseHostToClient r entries).routes.map Route.core = b.routes.map Route.core := by
  unfold Broker.releaseHostToClient
  dsimp only
  split <;> exact Kept.map_update (by exact fun _ => rfl) r.routeId b.routes

theorem core_discardQueuedClientData (r : Route) (b : Broker) :
    (b.discardQueuedClientData r).routes.map Route.core = b.routes.map Route.core := by
  unfold Broker.discardQueuedClientData
  split
  · rfl
  · exact core_releaseHostToClient r _ b

theorem on_of_ownCarrier (h : Sound D b) {r : Route} {c : Carrier} (hr : b.routeOf r.routeId = some r)
    (hc : b.ownCarrier r = some c) : On b c r := by
  obtain ⟨hat, hp⟩ := Option.filter_eq_some_iff.mp hc
  obtain ⟨hof, ha, ht⟩ := h.carrierAt_iff.mp hat
  simp only [decide_eq_true_eq] at hp
  exact ⟨hof, hr, ha, hp.1, ht, hp.2⟩

theorem on_closeRoute {r : Route} {c : Carrier} (hon : On b c r) (withControl : Bool) :
    ∃ c₁ r₁, On (b.closeRoute c r withControl) c₁ r₁ ∧ c₁.serial = c.serial ∧ r₁.routeId = r.routeId ∧
      r₁.status = .closing ∧ ∀ reason, r₁.unbindFrame reason = r.unbindFrame reason := by
  obtain ⟨c₁, hc₁, hface⟩ := (Kept.closeRoute c r withControl b).carrierOf hon.carrier
  have hs₁ : c₁.serial = c.serial := serial_of_carrierOf hc₁
  have hcore : ∀ b₁ : Broker, b₁.routes.map Route.core = b.routes.map Route.core →
      (b₁.discardQueuedClientData r).routes.map Route.core = b.routes.map Route.core := fun b₁ h₁ =>
    (core_discardQueuedClientData r b₁).trans h₁
  have hroutes : ∃ b₁ : Broker, b.closeRoute c r withControl = b₁.setRoute r.routeId Route.fenced ∧
      b₁.routes.map Route.core = b.routes.map Route.core := by
    refine ⟨_, rfl, hcore _ ?_⟩
    split
    · exact core_discardQueuedRouteData c r.routeId b
    · exact core_discardQueuedRouteData c r.routeId b
  obtain ⟨b₁, heq, hb₁⟩ := hroutes
  obtain ⟨r₀, hr₀, hcore₀⟩ := find_of_map_bare hb₁.symm (fun _ => rfl) hon.route
  have hid : r₀.routeId = r.routeId := bare_field Route.core Route.routeId (fun _ => rfl) hcore₀
  have hunbind : ∀ reason, r₀.unbindFrame reason = r.unbindFrame reason := fun reason =>
    bare_field Route.core (Route.unbindFrame · reason) (fun _ => rfl) hcore₀
  refine ⟨c₁, r₀.fenced, ⟨by rw [hs₁]; exact hc₁, ?_, ?_, ?_, ?_, ?_⟩, hs₁, hid, rfl, hunbind⟩
  · rw [heq, show r₀.fenced.routeId = r.routeId from hid]
    exact routeOf_setRoute_at hr₀ fun _ => rfl
  · exact (congrArg CarrierFace.attached hface).trans hon.attached
  · exact (congrArg CarrierFace.status hface).trans hon.active
  · exact (congrArg CarrierFace.transportId hface).trans (hon.transport.trans
      (bare_field Route.core Route.carrierTransportId (fun _ => rfl) hcore₀).symm)
  · refine (congrArg CarrierFace.connectorId hface).trans (hon.connector.trans ?_)
    exact congrArg some (bare_field Route.core Route.connectorId (fun _ => rfl) hcore₀).symm

theorem walk_enqueueControl {c : Carrier} {frame : ToHost} {route : Option Nat} (hc : b.carrierOf c.serial = some c)
    (hpush : c.HasRoom (C.codec.wireBytes frame) → Move C P D b D (b.pushControl c.serial (Broker.controlEntry C frame route))) :
    Path C P D b D (b.enqueueCarrierControl C c.serial frame route).2 := by
  unfold Broker.enqueueCarrierControl
  rw [hc]
  dsimp only
  split
  · exact .refl
  · next hroom =>
    refine .step (hpush (not_lt.mp hroom)) ?_
    split
    · exact .quiet (.signalCarrier C c.serial true _)
    · exact .refl

theorem walk_unbind {c : Carrier} {r : Route} (hon : On b c r) (closing : r.status = .closing) (reason : UnbindReason) :
    Path C P D b D (b.enqueueCarrierControl C c.serial (r.unbindFrame reason) (some r.routeId)).2 :=
  walk_enqueueControl hon.carrier (.unbind reason hon closing ·)

theorem walk_closeRoute {r : Route} {c : Carrier} (hon : On b c r) (withControl : Bool) (notClosing : r.status ≠ .closing)
    (notPaused : withControl = false → r.clientReadPaused = false) (reason : UnbindReason) :
    Path C P D b D ((b.closeRoute c r withControl).enqueueCarrierControl C c.serial (r.unbindFrame reason)
      (some r.routeId)).2 := by
  obtain ⟨c₁, r₁, hon₁, hs, hid, hclosing, hframe⟩ := on_closeRoute hon withControl
  refine .step (.close withControl hon notClosing notPaused) ?_
  rw [← hs, ← hid, ← hframe reason]
  exact walk_unbind hon₁ hclosing reason

theorem walk_fenceRoute (h : Sound D b) {r : Route} (hr : b.routeOf r.routeId = some r) (reason : CloseReason) :
    Path C P D b D (b.fenceRouteForAuthorization C r reason) := by
  unfold Broker.fenceRouteForAuthorization
  split
  · exact .refl
  · next hst =>
    split
    · exact .one (.drop hr)
    · next c hc =>
      exact walk_closeRoute (on_of_ownCarrier h hr hc) true hst (by simp) _

/-! ## The end of a carrier -/

theorem Sound.routeIds_nil {b₁ b₂ : Broker} {D₁ D₂ : List Nat} (h₁ : Sound D₁ b₁) (h₂ : Sound D₂ b₂) (hf : Fewer b₁ b₂)
    {s : Nat} {c₁ c₂ : Carrier} (hc₁ : b₁.carrierOf s = some c₁) (hc₂ : b₂.carrierOf s = some c₂)
    (gone : ∀ id ∈ c₁.routeIds, b₂.ownership.route id = none) : c₂.routeIds = [] := by
  refine List.eq_nil_iff_forall_not_mem.mpr fun id hid => ?_
  obtain ⟨ha₂, r, hr, ht⟩ := h₂.owned.listed s c₂.face id (ownership_carrier hc₂) hid
  obtain ⟨x, cx, hcx, hax, htx, _, _, hidx, _⟩ := h₁.owned.routed id r (hf.route id r hr)
  have ha₁ : c₁.face.attached = true :=
    hf.attached s c₁.face c₂.face (ownership_carrier hc₁) (ownership_carrier hc₂) ha₂
  have htr : c₁.face.transportId = c₂.face.transportId := by
    have := hf.transport s
    rw [ownership_carrier hc₁, ownership_carrier hc₂, Option.map_some, Option.map_some] at this
    exact (congrArg Prod.fst (Option.some.inj this)).symm
  obtain ⟨rfl, rfl⟩ := h₁.owned.carrier_unique hcx (ownership_carrier hc₁) hax ha₁ (htx.trans (ht.trans htr.symm))
  rw [gone id hidx] at hr
  cases hr

theorem walk_retire {s : Nat} {c : Carrier} (h : Sound (s :: D) b) (hc : b.carrierOf s = some c) (hroutes : c.routeIds = [])
    (notOwner : ∀ host, b.active.lookup host ≠ some s) (notCandidate : ∀ host, b.registering.lookup host ≠ some s)
    (st : CarrierStatus) (retired : st.Retired) :
    Path C P (s :: D) b (s :: D) ((b.setCarrier s fun c => { c with status := st }).discardCarrier s) ∧
      ∃ c', ((b.setCarrier s fun c => { c with status := st }).discardCarrier s).carrierOf s = some c' ∧ c'.Vacant ∧
        c'.status = st := by
  have hs := serial_of_carrierOf hc
  subst hs
  have hc₁ : (b.setCarrier c.serial fun c => { c with status := st }).carrierOf c.serial = some { c with status := st } :=
    carrierOf_setCarrier_at hc fun _ => rfl
  refine ⟨.step (.retire st hc (List.mem_cons_self ..) retired notOwner notCandidate)
    (.one (.discard (c := { c with status := st }) hc₁ (List.mem_cons_self ..) hroutes)), ?_⟩
  unfold Broker.discardCarrier
  rw [hc₁]
  dsimp only
  generalize hb : List.foldl _ (b.setCarrier c.serial _) c.inFlight = b₁
  have hlist : b₁.carriers = (b.setCarrier c.serial fun c => { c with status := st }).carriers :=
    hb ▸ discardCarrier_carriers c.inFlight _
  have hc₂ : b₁.carrierOf c.serial = some { c with status := st } := by
    unfold Broker.carrierOf at hc₁ ⊢
    rw [hlist]
    exact hc₁
  exact ⟨_, carrierOf_setCarrier_at hc₂ fun _ => rfl, Carrier.Vacant.discarded _, rfl⟩

theorem walk_detach {s : Nat} {c : Carrier} (hc : b.carrierOf s = some c) (hv : c.Vacant) (hst : c.status.Retired) :
    Path C P (s :: D) b D (b.setCarrier s fun c => { c with attached := false }) := by
  have hs := serial_of_carrierOf hc
  subst hs
  refine .step (.detach hc (List.mem_cons_self ..) hv.routeIds hst) (.one (.unmark (carrierOf_setCarrier_at hc fun _ => rfl) hst
    hv.routeIds ?_))
  exact ⟨hv.empty.control, hv.empty.data, hv.empty.order, hv.empty.inFlight, hv.empty.queuedBytes,
    hv.empty.inFlightBytes, hv.empty.hostToClient⟩

theorem walk_buryCarrier {s : Nat} {c : Carrier} (h : Sound (s :: D) b) (hc : b.carrierOf s = some c)
    (hroutes : c.routeIds = []) (notOwner : ∀ host, b.active.lookup host ≠ some s)
    (notCandidate : ∀ host, b.registering.lookup host ≠ some s) : Path C P (s :: D) b D (b.buryCarrier s) := by
  obtain ⟨p, c', hc', hv, hst⟩ := walk_retire (C := C) (P := P) h hc hroutes notOwner notCandidate .closed (.inr rfl)
  exact p.trans (walk_detach hc' hv (.inr hst))

theorem publishDirectory_congr {c c' : Carrier} (hh : c'.authContext.hostId = c.authContext.hostId) (he : c'.hello = c.hello)
    (hk : c'.connectorId = c.connectorId) (online : Bool) (reason : PresenceReason) (p : Option Nat) :
    b.publishDirectory C c' online reason p = b.publishDirectory C c online reason p := by
  unfold Broker.publishDirectory
  rw [hh, he, hk]

theorem Sound.host_of_active (h : Sound D b) {s host : Nat} {c : Carrier} (hc : b.carrierOf s = some c)
    (ho : b.active.lookup host = some s) : host = c.authContext.hostId ∧ c.status = .active ∧ c.hello.isSome = true ∧
      c.connectorId.isSome = true ∧ c.attached = true := by
  obtain ⟨f, hf, hhost, ha, hst, hk, hg⟩ := h.owned.active host s ho
  obtain rfl := Option.some.inj ((ownership_carrier hc).symm.trans hf)
  exact ⟨hhost.symm, hst, hg, hk, ha⟩

theorem Sound.host_of_registering (h : Sound D b) {s host : Nat} {c : Carrier} (hc : b.carrierOf s = some c)
    (ho : b.registering.lookup host = some s) : host = c.authContext.hostId ∧ c.status = .registering := by
  obtain ⟨f, hf, hhost, _, hst, _⟩ := h.owned.registering host s ho
  obtain rfl := Option.some.inj ((ownership_carrier hc).symm.trans hf)
  exact ⟨hhost.symm, hst⟩

/-- **The carrier leaves the maps of owners.** -/
theorem walk_disown {c c' : Carrier} (h : Sound D b) (hc : b.carrierOf c.serial = some c') (hb : c'.bare = c.bare)
    (hD : c.serial ∈ D) :
    Path C P D b D (b.disown C c) ∧ (∀ host, (b.disown C c).active.lookup host ≠ some c.serial) ∧
      ∀ host, (b.disown C c).registering.lookup host ≠ some c.serial := by
  have hs : c'.serial = c.serial := serial_of_carrierOf hc
  have hh : c'.authContext.hostId = c.authContext.hostId := bare_field Carrier.bare (·.authContext.hostId) (fun _ => rfl) hb
  have he : c'.hello = c.hello := bare_field Carrier.bare Carrier.hello (fun _ => rfl) hb
  have hk : c'.connectorId = c.connectorId := bare_field Carrier.bare Carrier.connectorId (fun _ => rfl) hb
  -- the owner's map
  have hactive : ∃ b₁ : Broker, (if b.active.lookup c.authContext.hostId = some c.serial then
      let b := { b with active := b.active.filter fun x => x.1 ≠ c.authContext.hostId }
      if c.hello.isSome && c.connectorId.isSome then b.publishDirectory C c false .disconnected none else b
      else b) = b₁ ∧ Path C P D b D b₁ ∧ b₁.carriers = b.carriers ∧ b₁.registering = b.registering ∧
        ∀ host, b₁.active.lookup host ≠ some c.serial := by
    by_cases hown : b.active.lookup c.authContext.hostId = some c.serial
    · obtain ⟨_, _, hhello, hconn, _⟩ := h.host_of_active hc hown
      rw [if_pos hown]
      dsimp only
      rw [← he, ← hk, hhello, hconn]
      refine ⟨_, rfl, ?_, rfl, rfl, fun host hl => ?_⟩
      · simp only [Bool.and_self, if_true]
        rw [← publishDirectory_congr hh he hk, ← hh]
        exact .one (.offline (by rw [hs]; exact hc) (by rw [hs, hh]; exact hown) (hs ▸ hD))
      · have hl' := Fewer.lookup_of_filter hl
        have hhost := (h.host_of_active hc hl').1
        simp only [Bool.and_self, if_true, Broker.publishDirectory, Broker.read] at hl
        rw [lookup_filter, hhost, hh, if_pos rfl] at hl
        cases hl
    · rw [if_neg hown]
      refine ⟨b, rfl, .refl, rfl, rfl, fun host hl => hown ?_⟩
      rw [← hh, ← (h.host_of_active hc hl).1]
      exact hl
  obtain ⟨b₁, hb₁, p₁, hcar₁, hreg₁, hact₁⟩ := hactive
  have hs₁ := p₁.sound h
  have hc₁ : b₁.carrierOf c.serial = some c' := by
    unfold Broker.carrierOf at hc ⊢
    rw [hcar₁]
    exact hc
  -- the candidate's map
  have hregistering : ∃ b₂ : Broker, (if b₁.registering.lookup c.authContext.hostId = some c.serial then
      { b₁ with registering := b₁.registering.filter fun x => x.1 ≠ c.authContext.hostId } else b₁) = b₂ ∧
      Path C P D b₁ D b₂ ∧ b₂.carriers = b₁.carriers ∧ b₂.active = b₁.active ∧
        ∀ host, b₂.registering.lookup host ≠ some c.serial := by
    by_cases hown : b₁.registering.lookup c.authContext.hostId = some c.serial
    · rw [if_pos hown]
      refine ⟨_, rfl, .one (.unregister _ fun x hx => ?_), rfl, rfl, fun host hl => ?_⟩
      · rw [hown] at hx
        exact Option.some.inj hx ▸ hD
      · have hl' := Fewer.lookup_of_filter hl
        have hhost := (hs₁.host_of_registering hc₁ hl').1
        rw [lookup_filter, hhost, hh, if_pos rfl] at hl
        cases hl
    · rw [if_neg hown]
      refine ⟨b₁, rfl, .refl, rfl, rfl, fun host hl => hown ?_⟩
      rw [← hh, ← (hs₁.host_of_registering hc₁ hl).1]
      exact hl
  obtain ⟨b₂, hb₂, p₂, hcar₂, hact₂, hreg₂⟩ := hregistering
  have hc₂ : b₂.carrierOf c'.serial = some c' := by
    rw [hs]
    unfold Broker.carrierOf at hc₁ ⊢
    rw [hcar₂]
    exact hc₁
  have heq : b.disown C c = b₂.setCarrier c.serial fun c => { c with registration := none } := by
    rw [← hb₂, ← hb₁]
    rfl
  rw [heq]
  refine ⟨p₁.trans (p₂.trans (.one ?_)), fun host => ?_, fun host => hreg₂ host⟩
  · rw [← hs]
    exact .forget hc₂ (hs ▸ hD)
  · show b₂.active.lookup host ≠ _
    rw [hact₂]
    exact hact₁ host

/-! ## Fences -/

theorem Sound.quiet_fence (h : Sound D b) {id : Nat} {client : Client} (hc : b.clientAt id = some client)
    (receipt : Option Receipt) :
    Quiet b ((b.setClient id fun c =>
      { c with authorizationState := .fenced, authContext := client.authContext.atReceipt receipt }).setRoute client.routeId
        fun r => { r with authContext := client.authContext.atReceipt receipt }) := by
  have hbare : (client.authContext.atReceipt receipt).bare = client.authContext.bare := by cases receipt <;> rfl
  have hclient : Quiet b (b.setClient id fun c =>
      { c with authorizationState := .fenced, authContext := client.authContext.atReceipt receipt }) := by
    refine .setClient_at h.connections hc ?_
    unfold Client.bare
    rw [hbare]
  refine hclient.trans (.setRoute_at h.routeIds fun r hr => ?_)
  have hface : client.face ∈ b.clients.map Client.face := List.mem_map_of_mem (Keyed.mem_of_find hc)
  have hmem : (r.routeId, r.face) ∈ b.routes.map fun r => (r.routeId, r.face) :=
    List.mem_map_of_mem (Keyed.mem_of_find hr)
  have hhost : r.authContext.hostId = client.authContext.hostId := h.hosts _ hface _ hmem (id_of_routeOf hr)
  unfold Route.bare
  rw [hbare, show client.authContext.bare = r.authContext.bare by unfold Authorization.bare; rw [hhost]]

section
variable {latch : Broker → Broker}
  (hlatch : ∀ (D : List Nat) (b : Broker), Sound D b → Path C .ending D b D (latch b))
include hlatch

theorem walk_callClose (h : Sound D b) : Path C .ending D b D (b.callClose C latch) := by
  unfold Broker.callClose
  split
  · split
    · exact (Path.quiet (.read b)).trans (hlatch D _ ((Path.quiet (C := C) (P := .ending) (.read b)).sound h))
    · exact .quiet (.read b)
  · exact .refl

theorem walk_signalClientClose (h : Sound D b) (id : Nat) :
    Path C .ending D b D (b.signalClientAuthorizationClose C latch id) := by
  unfold Broker.signalClientAuthorizationClose
  split
  · exact .refl
  · split
    · exact .refl
    · have hq : Quiet b (b.setClient id fun c => { c with authorizationCloseSignalled := true }) :=
        .setClient id fun _ => rfl
      exact (Path.quiet hq).trans (walk_callClose hlatch ((Kept.of_quiet hq).sound h))

theorem walk_signalHostClose (h : Sound D b) (s : Nat) :
    Path C .ending D b D (b.signalHostAuthorizationClose C latch s) := by
  unfold Broker.signalHostAuthorizationClose
  split
  · exact .refl
  · split
    · exact .refl
    · have hq : Quiet b (b.setCarrier s fun c => { c with authorizationCloseSignalled := true }) :=
        .setCarrier s fun _ => rfl
      exact (Path.quiet hq).trans (walk_callClose hlatch ((Kept.of_quiet hq).sound h))

omit hlatch in
theorem walk_cleanupRoute (h : Sound D b) (routeId : Nat) (reason : CloseReason) (unbind : Bool) :
    Path C .ending D b D (match b.routeOf routeId with
      | some r => if unbind then b.fenceRouteForAuthorization C r reason else b
      | none => b) := by
  split
  · next r hr =>
    split
    · exact walk_fenceRoute h (by rw [id_of_routeOf hr]; exact hr) reason
    · exact .refl
  · exact .refl

theorem walk_cleanupClient (h : Sound D b) (id : Nat) (reason : CloseReason) (unbind : Bool) :
    Path C .ending D b D (b.cleanupFencedClientAuthorization C latch id reason unbind) := by
  unfold Broker.cleanupFencedClientAuthorization
  split
  · exact .refl
  · next client _ =>
    split
    · exact .refl
    · have hq : Quiet b (b.setClient id fun c => { c with authorizationCleanupState := .applying }) :=
        .setClient id fun _ => rfl
      have h₁ := (Kept.of_quiet hq).sound h
      refine (Path.quiet hq).trans ?_
      generalize b.setClient id _ = b₁ at h₁ ⊢
      have hroute := walk_cleanupRoute (C := C) h₁ client.routeId reason unbind
      refine hroute.trans ?_
      have h₂ := hroute.sound h₁
      have hq₂ : ∀ b₂ : Broker, Quiet b₂ (b₂.setClient id fun c => { c with authorizationCleanupState := .complete }) :=
        fun b₂ => .setClient id fun _ => rfl
      exact (Path.quiet (hq₂ _)).trans (walk_signalClientClose hlatch ((Kept.of_quiet (hq₂ _)).sound h₂) id)

theorem walk_fenceClientAuthorization (h : Sound D b) (id : Nat) (reason : CloseReason) (receipt : Option Receipt)
    (unbind : Bool) : Path C .ending D b D (b.fenceClientAuthorization C latch id reason receipt unbind) := by
  unfold Broker.fenceClientAuthorization
  split
  · exact .refl
  · next client hclient =>
    split
    · exact .refl
    · have hq := h.quiet_fence hclient receipt
      exact (Path.quiet hq).trans (walk_cleanupClient hlatch ((Kept.of_quiet hq).sound h) id reason unbind)

theorem walk_fenceHostRoute (h : Sound D b) (id : Nat) :
    Path C .ending D b D (b.fenceHostRoute C latch id) ∧ (b.fenceHostRoute C latch id).ownership.route id = none := by
  have hnone : ∀ b : Broker, b.routeOf id = none → b.ownership.route id = none := fun b hr => by
    show (b.routeOf id).map _ = none
    rw [hr]
    rfl
  unfold Broker.fenceHostRoute
  split
  · next hr => exact ⟨.refl, hnone b hr⟩
  · next r hr =>
    have p₁ := walk_fenceClientAuthorization hlatch h r.connectionId .hostAuthorizationFenced none false
    have h₁ := p₁.sound h
    dsimp only
    generalize b.fenceClientAuthorization C latch r.connectionId .hostAuthorizationFenced none false = b₁ at p₁ h₁ ⊢
    split
    · next hr₁ => exact ⟨p₁, hnone b₁ hr₁⟩
    · next r₁ hr₁ =>
      have hid := id_of_routeOf hr₁
      refine ⟨p₁.trans (.one (.drop (by rw [hid]; exact hr₁))), ?_⟩
      rw [h₁.ownership_dropRoute, hid]
      simp [Ownership.dropRoute]

theorem walk_fenceHostRoutes (l : List Nat) (h : Sound D b) :
    Path C .ending D b D (l.foldl (fun b id => b.fenceHostRoute C latch id) b) ∧
      ∀ id ∈ l, (l.foldl (fun b id => b.fenceHostRoute C latch id) b).ownership.route id = none := by
  induction l generalizing b with
  | nil => exact ⟨.refl, fun _ h => nomatch h⟩
  | cons x l ih =>
    obtain ⟨p₁, hx⟩ := walk_fenceHostRoute hlatch h x
    obtain ⟨p₂, hl⟩ := ih (p₁.sound h)
    refine ⟨p₁.trans p₂, fun id hid => ?_⟩
    rcases List.mem_cons.mp hid with rfl | hid
    · -- a route that is gone does not come back
      have hf := p₂.fewer (p₁.sound h) (fun h => h)
      cases hr : (List.foldl (fun b id => b.fenceHostRoute C latch id) (b.fenceHostRoute C latch id) l).ownership.route id with
      | none => exact hr
      | some r =>
        have := hf.route id r hr
        rw [hx] at this
        cases this
    · exact hl id hid

/-- **The cleanup of a fenced carrier.** -/
theorem walk_cleanupHost (h : Sound D b) (s : Nat) :
    Path C .ending D b D (b.cleanupFencedHostAuthorization C latch s) := by
  unfold Broker.cleanupFencedHostAuthorization
  split
  · exact .refl
  · next c hc =>
    split
    · exact .refl
    · have hs := serial_of_carrierOf hc
      subst hs
      have hq : Quiet b (b.setCarrier c.serial fun c => { c with authorizationCleanupState := .applying }) :=
        .setCarrier c.serial fun _ => rfl
      have h₁ : Sound (c.serial :: D) (b.setCarrier c.serial fun c => { c with authorizationCleanupState := .applying }) :=
        Move.sound (C := C) (P := .ending) ((Kept.of_quiet hq).sound h) (.mark c.serial)
      have hc₁ : (b.setCarrier c.serial fun c => { c with authorizationCleanupState := .applying }).carrierOf c.serial =
          some { c with authorizationCleanupState := .applying } := carrierOf_setCarrier_at hc fun _ => rfl
      refine .step (.quiet hq) (.step (.mark c.serial) ?_)
      generalize b.setCarrier c.serial (fun c => { c with authorizationCleanupState := .applying }) = b₁ at h₁ hc₁ ⊢
      obtain ⟨p₂, hact₂, hreg₂⟩ := walk_disown (C := C) (P := .ending) (c := c) h₁ hc₁ rfl (List.mem_cons_self ..)
      refine p₂.trans ?_
      have h₂ := p₂.sound h₁
      have f₂ := p₂.fewer h₁ id
      dsimp only
      generalize b₁.disown C c = b₂ at hact₂ hreg₂ h₂ f₂ ⊢
      obtain ⟨p₃, gone⟩ := walk_fenceHostRoutes hlatch c.routeIds h₂
      refine p₃.trans ?_
      have h₃ := p₃.sound h₂
      have f₃ := p₃.fewer h₂ id
      generalize c.routeIds.foldl (fun b id => b.fenceHostRoute C latch id) b₂ = b₃ at gone h₃ f₃ ⊢
      -- the carrier is there, with no routes, and owns no host
      obtain ⟨c₃, hc₃⟩ : ∃ c₃, b₃.carrierOf c.serial = some c₃ := by
        have ht := (f₂.trans f₃).transport c.serial
        rw [ownership_carrier hc₁] at ht
        obtain ⟨f, hf, _⟩ := Option.map_eq_some_iff.mp ht
        obtain ⟨c₃, hc₃, _⟩ := Option.map_eq_some_iff.mp hf
        exact ⟨c₃, hc₃⟩
      have hroutes := h₁.routeIds_nil h₃ (f₂.trans f₃) hc₁ hc₃ gone
      obtain ⟨p₄, c₄, hc₄, hv₄, hst₄⟩ := walk_retire (C := C) (P := .ending) h₃ hc₃ hroutes
        (fun host ho => hact₂ host (f₃.active host _ ho)) (fun host ho => hreg₂ host (f₃.registering host _ ho)) .closed
        (.inr rfl)
      refine p₄.trans ?_
      have h₄ := p₄.sound h₃
      generalize (b₃.setCarrier c.serial fun c => { c with status := .closed }).discardCarrier c.serial = b₄ at hc₄ h₄ ⊢
      have hq₅ : Quiet b₄ (b₄.setCarrier c.serial fun c => { c with authorizationCleanupState := .complete }) :=
        .setCarrier c.serial fun _ => rfl
      have h₅ := (Kept.of_quiet hq₅).sound h₄
      have p₆ := walk_signalHostClose hlatch h₅ c.serial
      have hc₅ : (b₄.setCarrier c.serial fun c => { c with authorizationCleanupState := .complete }).carrierOf c.serial =
          some { c₄ with authorizationCleanupState := .complete } := carrierOf_setCarrier_at hc₄ fun _ => rfl
      obtain ⟨c₆, hc₆, hv₆, hst₆⟩ := p₆.retired h₅ id hc₅ (.inr hst₄) (hv₄.of_bare rfl)
      exact (Path.quiet hq₅).trans (p₆.trans (walk_detach hc₆ hv₆ hst₆))

theorem walk_fenceHostAuthorization (h : Sound D b) (s : Nat) (receipt : Option Receipt) :
    Path C .ending D b D (b.fenceHostAuthorization C latch s receipt) := by
  unfold Broker.fenceHostAuthorization
  split
  · exact .refl
  · split
    · exact .refl
    · have hq : Quiet b (b.setCarrier s fun c =>
          { c with authorizationState := .fenced, authContext := c.authContext.atReceipt receipt }) :=
        .setCarrier s fun c => by
          unfold Carrier.bare
          cases receipt <;> rfl
      exact (Path.quiet hq).trans (walk_cleanupHost hlatch ((Kept.of_quiet hq).sound h) s)

end

theorem Quiet.setLatch (b : Broker) : Quiet b b.setLatch := ⟨rfl, rfl, rfl, rfl, rfl, rfl, rfl, Nat.le_refl _⟩

/-- **The latch is walked**: within it a throw finds the latch set. -/
theorem walk_latch (h : Sound D b) : Path C .ending D b D (b.latchCredentialAuthorityUnavailable C) := by
  have hset : ∀ (D : List Nat) (b : Broker), Sound D b → Path C .ending D b D b.setLatch := fun _ b _ => .quiet (.setLatch b)
  unfold Broker.latchCredentialAuthorityUnavailable
  dsimp only
  split
  · exact .quiet (.setLatch b)
  · have hq : Quiet b { b.setLatch with
        globalFence := .applying
        clients := b.setLatch.clients.map Client.gateClosed
        carriers := b.setLatch.carriers.map Carrier.gateClosed } := by
      refine ⟨?_, rfl, ?_, rfl, rfl, rfl, rfl, Nat.le_refl _⟩
      · show (b.carriers.map _).map _ = _
        rw [List.map_map]
        refine List.map_congr_left fun c _ => ?_
        simp only [Function.comp, Carrier.gateClosed]
        split <;> rfl
      · show (b.clients.map _).map _ = _
        rw [List.map_map]
        rfl
    have h₁ := (Kept.of_quiet hq).sound h
    refine (Path.quiet hq).trans ?_
    have p₂ := Path.foldl (C := C) (P := .ending) (D := D)
      (f := fun b id => b.cleanupFencedClientAuthorization C Broker.setLatch id .credentialAuthorityUnavailable true)
      (fun b id h => walk_cleanupClient hset h id .credentialAuthorityUnavailable true)
      (b.setLatch.clients.map Client.connectionId) _ h₁
    refine p₂.trans ?_
    have h₂ := p₂.sound h₁
    have p₃ := Path.foldl (C := C) (P := .ending) (D := D)
      (f := fun b s => b.cleanupFencedHostAuthorization C Broker.setLatch s)
      (fun b s h => walk_cleanupHost hset h s)
      ((b.setLatch.carriers.filter Carrier.attached).map Carrier.serial) _ h₂
    exact p₃.trans (.quiet ⟨rfl, rfl, rfl, rfl, rfl, rfl, rfl, Nat.le_refl _⟩)

theorem walk_fenceClient (h : Sound D b) (id : Nat) (reason : CloseReason) (receipt : Option Receipt) (unbind : Bool) :
    Path C .ending D b D (b.fenceClient C id reason receipt unbind) :=
  walk_fenceClientAuthorization (fun _ _ h => walk_latch h) h id reason receipt unbind

theorem walk_fenceHost (h : Sound D b) (s : Nat) (receipt : Option Receipt) :
    Path C .ending D b D (b.fenceHost C s receipt) :=
  walk_fenceHostAuthorization (fun _ _ h => walk_latch h) h s receipt

/-! ## Questions -/

/-- **The question about a carrier**: yes leaves the state as it is, but for the clock; no is walked. -/
theorem isCarrierAuthorizationActive_spec (h : Sound D b) (c : Carrier) :
    (∃ b', b.isCarrierAuthorizationActive C c = (true, b') ∧ b' = b.read) ∨
      ∃ b', b.isCarrierAuthorizationActive C c = (false, b') ∧ Path C .ending D b D b' := by
  have hread : Sound D b.read := (Kept.of_quiet (.read b)).sound h
  have hq : Path C .ending D b D b.read := .quiet (.read b)
  unfold Broker.isCarrierAuthorizationActive
  split
  · exact .inr ⟨b, rfl, .refl⟩
  · split
    · exact .inr ⟨_, rfl, hq.trans (walk_fenceHost hread c.serial none)⟩
    · dsimp only
      split
      · next x _ => exact .inr ⟨_, rfl, hq.trans (walk_fenceHost hread c.serial (some x.receipt))⟩
      · cases (b.read.invalidationFor c.authContext).isNone with
        | true => exact .inl ⟨_, rfl, rfl⟩
        | false => exact .inr ⟨_, rfl, hq⟩

/-- **The question about a client.** -/
theorem isClientAuthorizationActive_spec (h : Sound D b) (client : Client) :
    (∃ b', b.isClientAuthorizationActive C client = (true, b') ∧ b' = b.read) ∨
      ∃ b', b.isClientAuthorizationActive C client = (false, b') ∧ Path C .ending D b D b' := by
  have hread : Sound D b.read := (Kept.of_quiet (.read b)).sound h
  have hq : Path C .ending D b D b.read := .quiet (.read b)
  unfold Broker.isClientAuthorizationActive
  split
  · exact .inr ⟨b, rfl, .refl⟩
  · split
    · exact .inr ⟨_, rfl, hq.trans (walk_fenceClient hread client.connectionId .accessExpired none true)⟩
    · dsimp only
      split
      · next x _ =>
        exact .inr ⟨_, rfl, hq.trans (walk_fenceClient hread client.connectionId x.invalidation.reason (some x.receipt) true)⟩
      · cases (b.read.invalidationFor client.authContext).isNone with
        | true => exact .inl ⟨_, rfl, rfl⟩
        | false => exact .inr ⟨_, rfl, hq⟩

end

end Relay
end TmuxWorktree
