import TmuxWorktree.Relay.Walk
/-!
# Ends — the operations that end carriers and routes, walked move by move

Between two operations no teardown is under way, so every route is on the active owner of its host (`Sound.on`).
-/
namespace TmuxWorktree
namespace Relay

section
variable {C : Config} {P : Permits} {D : List Nat} {b b' : Broker}

/-- **Between operations a route is on the owner of its host.** -/
theorem Sound.on (h : Sound [] b) {r : Route} (hr : b.routeOf r.routeId = some r) :
    ∃ c, On b c r ∧ b.carrierAt r.carrierTransportId = some c ∧ b.ownCarrier r = some c ∧
      b.active.lookup r.authContext.hostId = some c.serial ∧ c.authContext.hostId = r.authContext.hostId ∧
      r.routeId ∈ c.routeIds := by
  have hro : b.ownership.route r.routeId = some r.face := by
    show (b.routeOf r.routeId).map _ = _
    rw [hr]
    rfl
  obtain ⟨s, f, hf, ha, ht, hk, hh, hid, hst⟩ := h.owned.routed _ _ hro
  obtain ⟨c, hc, rfl⟩ := Option.map_eq_some_iff.mp hf
  have hs := serial_of_carrierOf hc
  subst hs
  have hactive : c.status = .active := hst.resolve_right (fun h => nomatch h)
  have hat : b.carrierAt r.carrierTransportId = some c := h.carrierAt_iff.mpr ⟨hc, ha, ht⟩
  have howner := h.owned.activeOf c.serial c.face hf hactive (fun h => nomatch h)
  have hhost : c.authContext.hostId = r.authContext.hostId := hh
  refine ⟨c, ⟨hc, hr, ha, hactive, ht, hk⟩, hat, ?_, hhost ▸ howner, hhost, hid⟩
  unfold Broker.ownCarrier
  rw [hat, Option.filter_some, if_pos (decide_eq_true ⟨hactive, hk⟩)]

theorem closeRoute_congr {r s : Route} (hid : s.routeId = r.routeId) (hconn : s.connectionId = r.connectionId)
    (ht : s.carrierTransportId = r.carrierTransportId) (c : Carrier) (withControl : Bool) :
    b.closeRoute c s withControl = b.closeRoute c r withControl := by
  unfold Broker.closeRoute Broker.discardQueuedClientData Broker.releaseHostToClient
  rw [hid, hconn, ht]

/-- **`beginRouteUnbind`**, of a route in the map. -/
theorem walk_beginRouteUnbind (h : Sound [] b) {r : Route} (hr : b.routeOf r.routeId = some r) (reason : UnbindReason) :
    Path C P [] b [] (b.beginRouteUnbind C r reason).2 := by
  obtain ⟨c, hon, hat, hown, _⟩ := h.on hr
  unfold Broker.beginRouteUnbind
  split
  · exact .refl
  · next hst =>
    by_cases hp : r.clientReadPaused = true
    · have hmove : Move C P [] b [] ((b.setRoute r.routeId (Route.released .clientToHost)).emit
          (.resumed r.routeId .clientToHost)) := .resume .clientToHost hon hp
      have hown₁ : ((b.setRoute r.routeId (Route.released .clientToHost)).emit
          (.resumed r.routeId .clientToHost)).ownCarrier r = some c := hown
      have hon₁ : On ((b.setRoute r.routeId (Route.released .clientToHost)).emit (.resumed r.routeId .clientToHost)) c
          (r.released .clientToHost) :=
        ⟨hon.carrier, routeOf_setRoute_at hr fun _ => rfl, hon.attached, hon.active, hon.transport, hon.connector⟩
      refine .step hmove ?_
      rw [if_pos hp]
      dsimp only
      rw [show (fun r : Route => { r with clientReadPaused := false, clientToHostPressureSinceMs := none }) =
        Route.released .clientToHost from rfl, hown₁]
      dsimp only
      rw [← closeRoute_congr (r := r) (s := r.released .clientToHost) rfl rfl rfl]
      exact walk_closeRoute hon₁ false hst (fun _ => rfl) reason
    · rw [if_neg hp]
      dsimp only
      rw [hown]
      exact walk_closeRoute hon false hst (fun _ => by simpa using hp) reason

/-! ## The routes of a carrier -/

theorem Quiet.setCarrier_at {f : Carrier → Carrier} {s : Nat} (hn : (b.carriers.map Carrier.serial).Nodup)
    (hf : ∀ c, b.carrierOf s = some c → (f c).bare = c.bare) : Quiet b (b.setCarrier s f) :=
  ⟨map_update_at hn s hf, rfl, rfl, rfl, rfl, rfl, rfl, Nat.le_refl _⟩

theorem Sound.quiet_unlist (h : Sound D b) {s id : Nat} (hmiss : ∀ c r, b.carrierOf s = some c → b.routeOf id = some r →
    r.carrierTransportId ≠ c.transportId) :
    Quiet b (b.setCarrier s fun c => { c with routeIds := c.routeIds.erase id }) := by
  refine .setCarrier_at h.serials fun c hc => ?_
  have hnot : id ∉ c.routeIds := by
    intro hid
    obtain ⟨_, f, hf, ht⟩ := h.owned.listed s c.face id (ownership_carrier hc) hid
    obtain ⟨r, hr, rfl⟩ := Option.map_eq_some_iff.mp hf
    exact hmiss c r hc hr ht
  rw [List.erase_of_not_mem hnot]

/-- Only routes went: the owners and the directory are as before. -/
structure Trimmed (b b' : Broker) : Prop where
  active : b'.ownership.active = b.ownership.active
  registering : b'.ownership.registering = b.ownership.registering
  record : b'.ownership.record = b.ownership.record
  carrier : ∀ s, (b'.ownership.carrier s).map (fun c => { c with routeIds := [] }) =
    (b.ownership.carrier s).map fun c => { c with routeIds := [] }

theorem Trimmed.refl (b : Broker) : Trimmed b b := ⟨rfl, rfl, rfl, fun _ => rfl⟩

theorem Trimmed.trans {b'' : Broker} (h : Trimmed b b') (h' : Trimmed b' b'') : Trimmed b b'' :=
  ⟨h'.active.trans h.active, h'.registering.trans h.registering, h'.record.trans h.record,
    fun s => (h'.carrier s).trans (h.carrier s)⟩

theorem Trimmed.of_quiet (h : Quiet b b') : Trimmed b b' := by
  have ho := (Kept.of_quiet h).ownership
  exact ⟨by rw [ho], by rw [ho], by rw [ho], fun s => by rw [ho]⟩

theorem Sound.trimmed_drop (h : Sound D b) (r : Route) : Trimmed b (b.dropRoute r) := by
  have ho := h.ownership_dropRoute r
  refine ⟨by rw [ho]; rfl, by rw [ho]; rfl, by rw [ho]; rfl, fun s => ?_⟩
  rw [ho]
  show ((b.ownership.carrier s).map _).map _ = _
  rw [Option.map_map]
  congr 1
  funext c
  simp only [Function.comp]
  split <;> rfl

theorem Trimmed.carrierOf (h : Trimmed b b') {s : Nat} {c : Carrier} (hc : b.carrierOf s = some c) :
    ∃ c', b'.carrierOf s = some c' ∧ c'.status = c.status ∧ c'.authContext.hostId = c.authContext.hostId ∧
      c'.attached = c.attached ∧ c'.transportId = c.transportId ∧ c'.connectorId = c.connectorId ∧
      c'.hello.isSome = c.hello.isSome ∧ c'.registration = c.registration := by
  have hmap := h.carrier s
  rw [ownership_carrier hc, Option.map_some] at hmap
  obtain ⟨f, hf, heq⟩ := Option.map_eq_some_iff.mp hmap
  obtain ⟨c', hc', rfl⟩ := Option.map_eq_some_iff.mp hf
  refine ⟨c', hc', ?_⟩
  simp only [Carrier.face, CarrierFace.mk.injEq] at heq
  obtain ⟨h1, h2, h3, h4, h5, h6, h7, _⟩ := heq
  exact ⟨h4, h3, h1, h2, h5, h6, h7⟩

theorem walk_invalidateRoute (h : Sound D b) (s : Nat) (superseded : Bool) (id : Nat)
    (hown : ∀ c r, b.carrierOf s = some c → b.routeOf id = some r → r.carrierTransportId = c.transportId)
    (hthere : (b.carrierOf s).isSome = true) :
    Path C .ending D b D (b.invalidateRoute s superseded id).2 ∧
      (b.invalidateRoute s superseded id).2.ownership.route id = none ∧
      Trimmed b (b.invalidateRoute s superseded id).2 := by
  unfold Broker.invalidateRoute
  split
  · next c r hc hr =>
    rw [if_neg (fun hne => hne (hown c r hc hr))]
    have hid := id_of_routeOf hr
    refine ⟨.one (.drop (by rw [hid]; exact hr)), ?_, h.trimmed_drop r⟩
    dsimp only
    rw [h.ownership_dropRoute, hid]
    simp [Ownership.dropRoute]
  · next hnone =>
    have hr : b.routeOf id = none := by
      obtain ⟨c, hc⟩ := Option.isSome_iff_exists.mp hthere
      cases hr : b.routeOf id with
      | none => rfl
      | some r => exact absurd hr (hnone c r hc)
    have hq := h.quiet_unlist fun c r (_ : b.carrierOf s = some c) (hr' : b.routeOf id = some r) => by rw [hr] at hr'; cases hr'
    refine ⟨.quiet hq, ?_, .of_quiet hq⟩
    show (b.routeOf id).map _ = none
    rw [hr]
    rfl

theorem walk_invalidateRoutes (s : Nat) (superseded : Bool) (l : List Nat) (h : Sound D b)
    (hown : ∀ id ∈ l, ∀ c r, b.carrierOf s = some c → b.routeOf id = some r → r.carrierTransportId = c.transportId)
    (hthere : (b.carrierOf s).isSome = true) :
    Path C .ending D b D (b.invalidateRoutes s superseded l).2 ∧
      (∀ id ∈ l, (b.invalidateRoutes s superseded l).2.ownership.route id = none) ∧
      Trimmed b (b.invalidateRoutes s superseded l).2 := by
  induction l generalizing b with
  | nil => exact ⟨.refl, (fun _ h => nomatch h), .refl b⟩
  | cons x l ih =>
    obtain ⟨p₁, hx, t₁⟩ := walk_invalidateRoute (C := C) h s superseded x (hown x (List.mem_cons_self ..)) hthere
    have h₁ := p₁.sound h
    have f₁ := p₁.fewer h (fun h => h)
    unfold Broker.invalidateRoutes
    dsimp only
    generalize (b.invalidateRoute s superseded x).2 = b₁ at p₁ hx h₁ f₁ t₁ ⊢
    have ht : ∀ c₁, b₁.carrierOf s = some c₁ → ∃ c, b.carrierOf s = some c ∧ c.transportId = c₁.transportId := by
      intro c₁ hc₁
      have ht := f₁.transport s
      rw [ownership_carrier hc₁] at ht
      obtain ⟨f, hf, heq⟩ := Option.map_eq_some_iff.mp ht.symm
      obtain ⟨c, hc, rfl⟩ := Option.map_eq_some_iff.mp hf
      exact ⟨c, hc, congrArg Prod.fst heq⟩
    obtain ⟨p₂, hl, t₂⟩ := ih h₁
      (fun id hid c₁ r₁ hc₁ hr₁ => by
        obtain ⟨c, hc, htr⟩ := ht c₁ hc₁
        have hface := f₁.route id r₁.face (by show (b₁.routeOf id).map _ = _; rw [hr₁]; rfl)
        obtain ⟨r, hr, heq⟩ := Option.map_eq_some_iff.mp hface
        rw [← htr, ← hown id (List.mem_cons_of_mem x hid) c r hc hr]
        exact (congrArg RouteFace.carrierTransportId heq).symm)
      (by
        obtain ⟨c, hc⟩ := Option.isSome_iff_exists.mp hthere
        have ht := f₁.transport s
        rw [ownership_carrier hc] at ht
        obtain ⟨f, hf, _⟩ := Option.map_eq_some_iff.mp ht
        obtain ⟨c₁, hc₁, _⟩ := Option.map_eq_some_iff.mp hf
        rw [hc₁]
        rfl)
    refine ⟨p₁.trans p₂, fun id hid => ?_, t₁.trans t₂⟩
    rcases List.mem_cons.mp hid with rfl | hid
    · have hf := p₂.fewer h₁ (fun h => h)
      cases hr : (b₁.invalidateRoutes s superseded l).2.ownership.route id with
      | none => rfl
      | some r =>
        have := hf.route id r hr
        rw [hx] at this
        cases this
    · exact hl id hid

/-- **`invalidateConnectorRoutes`**: the carrier has no routes left. -/
theorem walk_invalidateConnectorRoutes (h : Sound D b) {s : Nat} {c : Carrier} (hc : b.carrierOf s = some c)
    (superseded : Bool) :
    Path C .ending D b D (b.invalidateConnectorRoutes s superseded).2 ∧
      (∃ c', (b.invalidateConnectorRoutes s superseded).2.carrierOf s = some c' ∧ c'.routeIds = []) ∧
      Trimmed b (b.invalidateConnectorRoutes s superseded).2 := by
  obtain ⟨p, gone, t⟩ := walk_invalidateRoutes (C := C) s superseded c.routeIds h
    (fun id hid c' r hc' hr => by
      obtain rfl := Option.some.inj (hc.symm.trans hc')
      obtain ⟨_, f, hf, ht⟩ := h.owned.listed s c.face id (ownership_carrier hc) hid
      have hf' : (b.routeOf id).map Route.face = some f := hf
      rw [hr] at hf'
      obtain rfl := Option.some.inj hf'
      exact ht)
    (by rw [hc]; rfl)
  have hdef : b.invalidateConnectorRoutes s superseded = b.invalidateRoutes s superseded c.routeIds := by
    unfold Broker.invalidateConnectorRoutes
    rw [hc]
    rfl
  rw [hdef]
  have h₁ := p.sound h
  have f₁ := p.fewer h (fun h => h)
  obtain ⟨c', hc'⟩ : ∃ c', (b.invalidateRoutes s superseded c.routeIds).2.carrierOf s = some c' := by
    have ht := f₁.transport s
    rw [ownership_carrier hc] at ht
    obtain ⟨f, hf, _⟩ := Option.map_eq_some_iff.mp ht
    obtain ⟨c', hc', _⟩ := Option.map_eq_some_iff.mp hf
    exact ⟨c', hc'⟩
  exact ⟨p, ⟨c', hc', h.routeIds_nil h₁ f₁ hc hc' gone⟩, t⟩

/-! ## The end of a carrier -/

theorem walk_goOffline (h : Sound D b) {c : Carrier} (hc : b.carrierOf c.serial = some c) (hD : c.serial ∉ D) :
    Path C .ending (c.serial :: D) b (c.serial :: D) (b.goOffline C c).2 ∧
      (∃ c', (b.goOffline C c).2.carrierOf c.serial = some c' ∧ c'.routeIds = [] ∧ c'.status = c.status ∧
        c'.authContext.hostId = c.authContext.hostId) ∧
      (∀ host, (b.goOffline C c).2.active.lookup host ≠ some c.serial) ∧
      ∀ host, (b.goOffline C c).2.registering.lookup host = b.registering.lookup host := by
  have hm : Sound (c.serial :: D) b := Move.sound (C := C) (P := .ending) h (.mark c.serial)
  unfold Broker.goOffline
  by_cases hown : c.status = .active ∧ b.active.lookup c.authContext.hostId = some c.serial
  · rw [if_pos hown]
    have p₁ : Path C .ending (c.serial :: D) b (c.serial :: D)
        ({ b with active := b.active.filter fun x => x.1 ≠ c.authContext.hostId }.publishDirectory C c false
          .disconnected none) := .one (.offline hc hown.2 (List.mem_cons_self ..))
    have h₁ := p₁.sound hm
    obtain ⟨p₂, ⟨c₂, hc₂, hnil⟩, t₂⟩ := walk_invalidateConnectorRoutes (C := C) h₁ (s := c.serial) (c := c) hc false
    have f₂ := p₂.fewer h₁ (fun h => h)
    obtain ⟨c₂', hc₂', hst₂, hhost₂, _⟩ := t₂.carrierOf (s := c.serial) (c := c) hc
    obtain rfl := Option.some.inj (hc₂.symm.trans hc₂')
    refine ⟨p₁.trans p₂, ⟨c₂, hc₂, hnil, hst₂, hhost₂⟩, fun host hl => ?_, fun host => congrFun t₂.registering host⟩
    have hl₁ := f₂.active host c.serial hl
    have hl₀ := Fewer.lookup_of_filter hl₁
    have hhost := (h.host_of_active hc hl₀).1
    have hl₂ : (b.active.filter fun x => x.1 ≠ c.authContext.hostId).lookup host = some c.serial := hl₁
    rw [lookup_filter, hhost, if_pos rfl] at hl₂
    cases hl₂
  · rw [if_neg hown]
    have hnot : c.status ≠ .active := fun hst =>
      hown ⟨hst, h.owned.activeOf c.serial c.face (ownership_carrier hc) hst hD⟩
    refine ⟨.refl, ⟨c, hc, h.owned.idle c.serial c.face (ownership_carrier hc) hnot hD, rfl, rfl⟩, fun host hl => ?_,
      fun _ => rfl⟩
    exact hnot (h.host_of_active hc hl).2.1

theorem walk_forgetRegistration {c c' : Carrier} (h : Sound D b) (hc : b.carrierOf c.serial = some c')
    (hst : c'.status = .registering → c.status = .registering) (hhost : c'.authContext.hostId = c.authContext.hostId)
    (hreg : c.status = .registering → b.registering.lookup c.authContext.hostId = some c.serial)
    (hD : c.serial ∈ D) :
    Path C P D b D (b.forgetRegistration c) ∧ (∀ host, (b.forgetRegistration c).registering.lookup host ≠ some c.serial) ∧
      (b.forgetRegistration c).active = b.active ∧
      ∃ c'', (b.forgetRegistration c).carrierOf c.serial = some c'' ∧ c''.routeIds = c'.routeIds := by
  unfold Broker.forgetRegistration
  by_cases hs : c.status = .registering
  · rw [if_pos hs]
    have p₁ : Path C P D b D { b with registering := b.registering.filter fun x => x.1 ≠ c.authContext.hostId } :=
      .one (.unregister _ fun x hx => by
        rw [hreg hs] at hx
        exact Option.some.inj hx ▸ hD)
    have hs' : c'.serial = c.serial := serial_of_carrierOf hc
    have p₂ : Path C P D { b with registering := b.registering.filter fun x => x.1 ≠ c.authContext.hostId } D
        ({ b with registering := b.registering.filter fun x => x.1 ≠ c.authContext.hostId }.setCarrier c.serial fun c =>
          { c with registration := none }) := by
      rw [← hs']
      exact .one (.forget (c := c') (by rw [hs']; exact hc) (hs' ▸ hD))
    refine ⟨p₁.trans p₂, fun host hl => ?_, rfl, _, carrierOf_setCarrier_at hc (by exact fun _ => rfl), rfl⟩
    have hl₁ : (b.registering.filter fun x => x.1 ≠ c.authContext.hostId).lookup host = some c.serial := hl
    have hh := (h.host_of_registering hc (Fewer.lookup_of_filter hl₁)).1
    rw [lookup_filter, hh, hhost, if_pos rfl] at hl₁
    cases hl₁
  · rw [if_neg hs]
    refine ⟨.refl, fun host hl => hs (hst (h.host_of_registering hc hl).2), rfl, c', hc, rfl⟩

/-- **`protocolViolation`**. -/
theorem walk_protocolViolation (h : Sound [] b) {c : Carrier} (hc : b.carrierOf c.serial = some c) (reason : String) :
    Path C P [] b [] (b.protocolViolation C c reason).2 := by
  have h₀ : Sound [] (b.emit (.violated c.serial)) := (Kept.emit b _).sound h
  obtain ⟨p₁, ⟨c₁, hc₁, hnil, hst₁, hhost₁⟩, hact₁, hreg₁⟩ := walk_goOffline (C := C) h₀ (c := c) hc (fun h => nomatch h)
  have hm := Move.sound (C := C) (P := .ending) h₀ (.mark c.serial)
  have h₁ := p₁.sound hm
  unfold Broker.protocolViolation
  dsimp only
  refine .step (.violate c.serial) (.step (.mark c.serial) (p₁.ends.trans ?_))
  generalize ((b.emit (.violated c.serial)).goOffline C c).2 = b₁ at hc₁ hact₁ hreg₁ h₁ ⊢
  obtain ⟨p₂, hreg₂, hact₂, c₂, hc₂, hr₂⟩ := walk_forgetRegistration (C := C) (P := P) h₁ hc₁ (hst₁ ▸ id) hhost₁
    (fun hs => (hreg₁ _).trans (h.owned.registeringOf c.serial c.face (ownership_carrier hc) hs (fun h => nomatch h)))
    (List.mem_cons_self ..)
  exact p₂.trans (walk_buryCarrier (p₂.sound h₁) hc₂ (hr₂.trans hnil) (fun host => by rw [hact₂]; exact hact₁ host) hreg₂)

theorem walk_bury (h : Sound [] b) {c : Carrier} (hc : b.carrierOf c.serial = some c) (hact : c.status ≠ .active)
    (hreg : ∀ host, b.registering.lookup host ≠ some c.serial) : Path C P [] b [] (b.buryCarrier c.serial) := by
  have hm := Move.sound (C := C) (P := .ending) h (.mark c.serial)
  refine .step (.mark c.serial) (walk_buryCarrier hm hc ?_ (fun host hl => hact (h.host_of_active hc hl).2.1) hreg)
  exact h.owned.idle c.serial c.face (ownership_carrier hc) hact (fun h => nomatch h)

/-- **`cancelRegistration`**. -/
theorem walk_cancelRegistration (h : Sound [] b) {c : Carrier} (hc : b.carrierOf c.serial = some c)
    (hst : c.status = .registering) : Path C P [] b [] (b.cancelRegistration c) := by
  have hreg : b.registering.lookup c.authContext.hostId = some c.serial :=
    h.owned.registeringOf c.serial c.face (ownership_carrier hc) hst (fun h => nomatch h)
  have hm := Move.sound (C := C) (P := .ending) h (.mark c.serial)
  obtain ⟨p₁, hreg₁, hact₁, c₁, hc₁, hr₁⟩ := walk_forgetRegistration (C := C) (P := P) (c := c) hm hc id rfl (fun _ => hreg)
    (List.mem_cons_self ..)
  have hnil : c.routeIds = [] := h.owned.idle c.serial c.face (ownership_carrier hc)
    (by show c.status ≠ _; rw [hst]; simp) (fun h => nomatch h)
  have hdef : b.cancelRegistration c = (b.forgetRegistration c).buryCarrier c.serial := by
    unfold Broker.cancelRegistration Broker.forgetRegistration
    rw [if_pos hreg, if_pos hst]
  rw [hdef]
  refine .step (.mark c.serial) (p₁.trans (walk_buryCarrier (p₁.sound hm) hc₁ (hr₁.trans hnil) (fun host hl => ?_) hreg₁))
  rw [hact₁] at hl
  have := (h.host_of_active hc hl).2.1
  rw [hst] at this
  cases this

theorem walk_rebase (h : Sound D b) {c : Carrier} (hfree : b.active.lookup c.authContext.hostId = none)
    (allowed : P.rebase c.authContext.hostId) :
    Path C P D b D (b.rebaseRegistration c) ∧ (b.rebaseRegistration c).active = b.active ∧
      (b.rebaseRegistration c).registering = b.registering ∧
      ∀ s c₁, b.carrierOf s = some c₁ → ∃ c₂, (b.rebaseRegistration c).carrierOf s = some c₂ ∧
        c₂.routeIds = c₁.routeIds := by
  unfold Broker.rebaseRegistration
  split
  · exact ⟨.refl, rfl, rfl, fun s c₁ hc => ⟨c₁, hc, rfl⟩⟩
  · next p hp =>
    split
    · exact ⟨.refl, rfl, rfl, fun s c₁ hc => ⟨c₁, hc, rfl⟩⟩
    · next g hg =>
      split
      · obtain ⟨s, hs, hps⟩ := Option.bind_eq_some_iff.mp hp
        have hser := serial_of_carrierOf hps
        subst hser
        obtain ⟨hhost, hst⟩ := h.host_of_registering hps hs
        refine ⟨.one (.rebase { g with
            previousTransportId := none
            baseDirectoryRevision := ((b.recordOf c.authContext.hostId).map DirectoryRecord.revision).getD 0 }
          (hhost ▸ allowed) (by rw [hg]; rfl) hps hst (hhost ▸ hfree) (by rw [← hhost]) rfl), rfl, rfl, fun s c₁ hc => ?_⟩
        by_cases hsp : s = p.serial
        · subst hsp
          exact ⟨_, carrierOf_setCarrier_at hc (by exact fun _ => rfl), rfl⟩
        · exact ⟨c₁, (carrierOf_setCarrier_ne (by exact fun _ => rfl) hsp).trans hc, rfl⟩
      · exact ⟨.refl, rfl, rfl, fun s c₁ hc => ⟨c₁, hc, rfl⟩⟩

/-- **`disconnectHost`**; the candidate of the host that loses its owner may be based anew. -/
theorem walk_disconnectHost (h : Sound [] b) (t : Nat)
    (allowed : ∀ c, b.carrierAt t = some c → c.status = .active → b.active.lookup c.authContext.hostId = some c.serial →
      P.rebase c.authContext.hostId) : Path C P [] b [] (b.disconnectHost C t).2 := by
  unfold Broker.disconnectHost
  split
  · exact .refl
  · next c hat =>
    obtain ⟨hc, hatt, ht⟩ := h.carrierAt_iff.mp hat
    have hm := Move.sound (C := C) (P := .ending) h (.mark c.serial)
    by_cases hst : c.status = .registering
    · -- a candidate has no routes
      have hreg : b.registering.lookup c.authContext.hostId = some c.serial :=
        h.owned.registeringOf c.serial c.face (ownership_carrier hc) hst (fun h => nomatch h)
      obtain ⟨p₁, hreg₁, hact₁, c₁, hc₁, hr₁⟩ := walk_forgetRegistration (C := C) (P := P) (c := c) hm hc id rfl
        (fun _ => hreg) (List.mem_cons_self ..)
      have hnil : c.routeIds = [] := h.owned.idle c.serial c.face (ownership_carrier hc)
        (by show c.status ≠ _; rw [hst]; simp) (fun h => nomatch h)
      dsimp only
      rw [if_neg (by rintro ⟨ha, _⟩; rw [hst] at ha; cases ha)]
      refine .step (.mark c.serial) (p₁.trans (walk_buryCarrier (p₁.sound hm) hc₁ (hr₁.trans hnil) (fun host hl => ?_) hreg₁))
      rw [hact₁] at hl
      have := (h.host_of_active hc hl).2.1
      rw [hst] at this
      cases this
    · have hforget : b.forgetRegistration c = b := by
        unfold Broker.forgetRegistration
        rw [if_neg hst]
      have hnoreg : ∀ host, b.registering.lookup host ≠ some c.serial := fun host hl =>
        hst (h.host_of_registering hc hl).2
      rw [hforget]
      dsimp only
      by_cases hact : c.status = .active
      · have howner : b.active.lookup c.authContext.hostId = some c.serial :=
          h.owned.activeOf c.serial c.face (ownership_carrier hc) hact (fun h => nomatch h)
        have hconn := (h.host_of_active hc howner).2.2.2.1
        rw [if_pos ⟨hact, hconn, howner⟩]
        dsimp only
        obtain ⟨p₁, ⟨c₁, hc₁, hnil, _, hhost₁⟩, hact₁, hreg₁⟩ := walk_goOffline (C := C) h hc (fun h => nomatch h)
        have h₁ := p₁.sound hm
        have f₁ := p₁.fewer hm (fun h => h)
        refine .step (.mark c.serial) (p₁.ends.trans ?_)
        generalize (b.goOffline C c).2 = b₁ at hc₁ hact₁ hreg₁ h₁ f₁ ⊢
        have hfree : b₁.active.lookup c.authContext.hostId = none := by
          cases hl : b₁.active.lookup c.authContext.hostId with
          | none => rfl
          | some x =>
            have hx := f₁.active _ _ hl
            rw [howner] at hx
            exact absurd (Option.some.inj hx ▸ hl) (hact₁ _)
        obtain ⟨p₂, hact₂, hreg₂, hkeep⟩ := walk_rebase (C := C) (P := P) h₁ (c := c) hfree (allowed c hat hact howner)
        obtain ⟨c₂, hc₂, hr₂⟩ := hkeep c.serial c₁ hc₁
        refine p₂.trans (walk_buryCarrier (p₂.sound h₁) hc₂ (hr₂.trans hnil) (fun host => by rw [hact₂]; exact hact₁ host)
          (fun host hl => hnoreg host ?_))
        rw [hreg₂, hreg₁] at hl
        exact hl
      · rw [if_neg (fun hh => hact hh.1)]
        exact walk_bury h hc hact hnoreg

end

end Relay
end TmuxWorktree
