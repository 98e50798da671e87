import TmuxWorktree.Relay.Ends
/-!
# Ops — registrations, new routes and host frames, walked move by move
-/
namespace TmuxWorktree
namespace Relay

/-- **Nothing but clocks, names and what is pending has changed.** -/
structure Same (b b' : Broker) : Prop where
  carriers : b'.carriers = b.carriers
  routes : b'.routes = b.routes
  clients : b'.clients = b.clients
  active : b'.active = b.active
  registering : b'.registering = b.registering
  directory : b'.directory = b.directory
  trace : b'.trace = b.trace
  fresh : b'.fresh = b.fresh

section
variable {C : Config} {P : Permits} {D : List Nat} {b b' b'' : Broker}

theorem Same.refl (b : Broker) : Same b b := ⟨rfl, rfl, rfl, rfl, rfl, rfl, rfl, rfl⟩

theorem Same.trans (h : Same b b') (h' : Same b' b'') : Same b b'' :=
  ⟨h'.carriers.trans h.carriers, h'.routes.trans h.routes, h'.clients.trans h.clients, h'.active.trans h.active,
    h'.registering.trans h.registering, h'.directory.trans h.directory, h'.trace.trans h.trace, h'.fresh.trans h.fresh⟩

theorem Same.read (b : Broker) : Same b b.read := ⟨rfl, rfl, rfl, rfl, rfl, rfl, rfl, rfl⟩

theorem Same.quiet (h : Same b b') : Quiet b b' :=
  ⟨by rw [h.carriers], by rw [h.routes], by rw [h.clients], h.active, h.registering, h.directory, h.trace,
    Nat.le_of_eq h.fresh.symm⟩

theorem Same.sound (h : Same b b') (hs : Sound D b) : Sound D b' := (Kept.of_quiet h.quiet).sound hs

theorem Same.carrierOf (h : Same b b') (s : Nat) : b'.carrierOf s = b.carrierOf s := by
  unfold Broker.carrierOf
  rw [h.carriers]

theorem Same.carrierAt (h : Same b b') (t : Nat) : b'.carrierAt t = b.carrierAt t := by
  unfold Broker.carrierAt
  rw [h.carriers]

theorem Same.routeOf (h : Same b b') (id : Nat) : b'.routeOf id = b.routeOf id := by
  unfold Broker.routeOf
  rw [h.routes]

theorem Same.clientAt (h : Same b b') (id : Nat) : b'.clientAt id = b.clientAt id := by
  unfold Broker.clientAt
  rw [h.clients]

theorem Same.activeAt (h : Same b b') (host : Nat) : b'.activeAt host = b.activeAt host := by
  unfold Broker.activeAt
  rw [h.active]
  congr 1
  funext s
  exact h.carrierOf s

theorem Same.on (h : Same b b') {c : Carrier} {r : Route} (hon : On b c r) : On b' c r :=
  ⟨(h.carrierOf _).trans hon.carrier, (h.routeOf _).trans hon.route, hon.attached, hon.active, hon.transport, hon.connector⟩

theorem Same.observe (r : Receipt) (b : Broker) : Same b (b.observeAuthorizationHighWater r).2 := by
  unfold Broker.observeAuthorizationHighWater
  split
  · exact .refl b
  · split
    · exact ⟨rfl, rfl, rfl, rfl, rfl, rfl, rfl, rfl⟩
    · split
      · exact ⟨rfl, rfl, rfl, rfl, rfl, rfl, rfl, rfl⟩
      · split <;> exact .refl b

theorem Same.admitNew (a : Authorization) (b : Broker) : Same b (b.admitNewConnectionAuthorization a).2 := by
  unfold Broker.admitNewConnectionAuthorization
  dsimp only
  split
  · exact .read b
  · exact (Same.read b).trans (.observe a.receipt _)

theorem Same.admitReplacement (current a : Authorization) (b : Broker) :
    Same b (b.admitReplacementAuthorization current a).2 := by
  unfold Broker.admitReplacementAuthorization
  dsimp only
  split
  · exact .read b
  · split
    · exact .read b
    · exact (Same.read b).trans (.observe a.receipt _)

/-! ## Registration -/

theorem walk_attach (h : Sound [] b) (grow : P.grow) (t : Nat) (a : Authorization) (i : Nat) :
    Path C P [] b [] (b.attachHostCarrier t a i).2 := by
  unfold Broker.attachHostCarrier
  split
  · exact .refl
  · next hguard =>
    have hsame := Same.admitNew a b
    obtain ⟨ok, b₁, heq⟩ : ∃ ok b₁, b.admitNewConnectionAuthorization a = (ok, b₁) := ⟨_, _, rfl⟩
    rw [heq] at hsame ⊢
    dsimp only at hsame ⊢
    split
    · exact .quiet hsame.quiet
    · refine (Path.quiet hsame.quiet).trans (.one (.attach t a i grow ?_))
      rw [hsame.carrierAt]
      simp only [Bool.or_eq_true, not_or, Option.not_isSome_iff_eq_none] at hguard
      exact hguard.1.1.2

theorem walk_refuseHello (h : Sound [] b) {c : Carrier} (hc : b.carrierOf c.serial = some c) (hst : c.status = .pending)
    (hello : HostHello) (e : StructuredError) (code : Nat) (reason : String) :
    Path C P [] b [] (b.refuseHello c hello e code reason).2 := by
  refine walk_bury h hc (by rw [hst]; simp) fun host hl => ?_
  have := (h.host_of_registering hc hl).2
  rw [hst] at this
  cases this

theorem walk_registerHost (h : Sound [] b) (grow : P.grow) {c : Carrier} (hc : b.carrierOf c.serial = some c)
    (hatt : c.attached = true) (hst : c.status = .pending) (hello : HostHello) :
    Path C P [] b [] (b.registerHost c hello).2 := by
  unfold Broker.registerHost
  dsimp only
  split
  · exact walk_refuseHello h hc hst _ _ _ _
  · next hmatch =>
    split
    · exact walk_refuseHello h hc hst _ _ _ _
    · split
      · exact walk_refuseHello h hc hst _ _ _ _
      · next hreg =>
        have hfree : b.registering.lookup hello.hostId = none := by
          cases hl : b.registering.lookup hello.hostId with
          | none => rfl
          | some s =>
            obtain ⟨f, hf, _⟩ := h.owned.registering _ _ hl
            obtain ⟨c', hc', _⟩ := Option.map_eq_some_iff.mp hf
            refine absurd ?_ hreg
            unfold Broker.registeringAt
            rw [hl, Option.bind_some, hc']
            rfl
        have hhost : hello.hostId = c.authContext.hostId := by
          simp only [Bool.or_eq_true, not_or, decide_eq_true_eq, ne_eq, not_not] at hmatch
          exact hmatch.1.1.1.1
        refine (Path.quiet ((Quiet.named b).trans (.named _))).trans (.one ?_)
        exact .enroll hello _ _ grow hc hatt hst (fun h => nomatch h) hhost hfree rfl rfl

theorem walk_hostWarning {s : Nat} (hlate : ∀ c, b.carrierOf s = some c → c.status = .active ∨ P.late) {c : Carrier}
    (hc : b.carrierOf s = some c) (jti exp : Nat) :
    Path C P D b D (b.enqueueHostAuthExpiringWarning C c jti exp).2 := by
  have hs := serial_of_carrierOf hc
  subst hs
  unfold Broker.enqueueHostAuthExpiringWarning
  split
  · exact .refl
  · have p := walk_enqueueControl (C := C) (P := P) (D := D) hc
      (.control (.hostAuthExpiring c.authContext.grantId exp) hc (hlate c hc) (.inr ⟨_, _, rfl⟩))
    dsimp only
    split
    · exact p
    · exact p.trans (.quiet (.setCarrier _ fun _ => rfl))

theorem walk_flushHostWarning (hlate : ∀ c, b.carrierOf serial = some c → c.status = .active ∨ P.late) :
    Path C P D b D (b.flushDeferredHostAuthExpiringWarning C serial).2 := by
  unfold Broker.flushDeferredHostAuthExpiringWarning
  split
  · exact .refl
  · next c hc =>
    split
    · exact .refl
    · next w _ =>
      split
      · exact .refl
      · split
        · exact .quiet (.setCarrier _ fun _ => rfl)
        · split
          · exact .quiet ((Quiet.read b).trans (.setCarrier _ fun _ => rfl))
          · have p := walk_hostWarning (C := C) (P := P) (D := D) (b := b.read) (s := serial) hlate hc w.jti w.expiresAtMs
            have p' := (Path.quiet (C := C) (P := P) (D := D) (Quiet.read b)).trans p
            dsimp only
            split
            · exact p'
            · exact p'.trans (.quiet (.setCarrier _ fun _ => rfl))

theorem discardCarrier_active (s : Nat) (b : Broker) : (b.discardCarrier s).active = b.active := by
  unfold Broker.discardCarrier
  split
  · rfl
  · next c hc =>
    clear hc
    show (List.foldl _ b c.inFlight).active = b.active
    generalize c.inFlight = l
    induction l generalizing b with
    | nil => rfl
    | cons e l ih =>
      rw [List.foldl_cons, ih]
      split <;> rfl

theorem walk_supersede {p winner : Carrier} {losing winning : Nat} (h : Sound (p.serial :: D) b)
    (hp : b.carrierOf p.serial = some p) (hl : p.connectorId = some losing) (hw : winner.connectorId = some winning)
    (hh : p.hello.isSome = true) (hact : ∀ host, b.active.lookup host ≠ some p.serial)
    (hreg : ∀ host, b.registering.lookup host ≠ some p.serial) :
    Path C P (p.serial :: D) b D (b.supersede p winner).2 ∧
      ∀ host, (b.supersede p winner).2.active.lookup host = b.active.lookup host := by
  obtain ⟨hello, hh⟩ := Option.isSome_iff_exists.mp hh
  unfold Broker.supersede
  rw [hl, hw, hh]
  dsimp only
  have m₁ : Move C .ending (p.serial :: D) b (p.serial :: D) (b.setCarrier p.serial fun p => { p with status := .superseded }) :=
    .retire .superseded hp (List.mem_cons_self ..) (.inl rfl) hact hreg
  have h₁ := m₁.sound h
  have hp₁ : (b.setCarrier p.serial fun p => { p with status := .superseded }).carrierOf p.serial =
      some { p with status := .superseded } := carrierOf_setCarrier_at hp fun _ => rfl
  obtain ⟨p₂, ⟨c₂, hc₂, hnil⟩, t₂⟩ := walk_invalidateConnectorRoutes (C := C) h₁ hp₁ true
  obtain ⟨c₂', hc₂', hst₂, _⟩ := t₂.carrierOf hp₁
  obtain rfl := Option.some.inj (hc₂.symm.trans hc₂')
  refine ⟨(Path.one m₁).ends.trans (p₂.ends.trans ?_), fun host => ?_⟩
  swap
  · show (Broker.discardCarrier p.serial _).active.lookup host = _
    rw [discardCarrier_active]
    exact congrFun t₂.active host
  have h₂ := p₂.sound h₁
  generalize ((b.setCarrier p.serial fun p => { p with status := .superseded }).invalidateConnectorRoutes p.serial true).2 = b₂
    at hc₂ h₂ ⊢
  have hs₂ : c₂.serial = p.serial := serial_of_carrierOf hc₂
  have m₃ : Move C P (p.serial :: D) b₂ (p.serial :: D) (b₂.discardCarrier p.serial) := by
    rw [← hs₂]
    exact .discard (c := c₂) (by rw [hs₂]; exact hc₂) (List.mem_cons_self ..) hnil
  refine .step m₃ ?_
  have hc₃ : ∃ c₃, (b₂.discardCarrier p.serial).carrierOf p.serial = some c₃ ∧ c₃.Vacant ∧ c₃.status = c₂.status := by
    unfold Broker.discardCarrier
    rw [hc₂]
    dsimp only
    generalize hb : List.foldl _ b₂ c₂.inFlight = b₃
    have hlist : b₃.carriers = b₂.carriers := hb ▸ discardCarrier_carriers c₂.inFlight _
    have hc₃ : b₃.carrierOf p.serial = some c₂ := by
      unfold Broker.carrierOf at hc₂ ⊢
      rw [hlist]
      exact hc₂
    exact ⟨_, carrierOf_setCarrier_at hc₃ fun _ => rfl, Carrier.Vacant.discarded _, rfl⟩
  obtain ⟨c₃, hc₃, hv₃, hst₃⟩ := hc₃
  exact walk_detach hc₃ hv₃ (.inl (hst₃.trans hst₂))

theorem activate_maps (C : Config) (c : Carrier) (hello : HostHello) (previous : Option Carrier) (b : Broker) :
    (b.activate C c hello previous).active = (c.authContext.hostId, c.serial) ::
        (b.active.filter fun x => x.1 ≠ c.authContext.hostId) ∧
      (b.activate C c hello previous).registering = b.registering.filter (fun x => x.1 ≠ c.authContext.hostId) ∧
      (b.activate C c hello previous).carriers = Keyed.update Carrier.serial c.serial
        (fun c => { c with registration := none, status := .active }) b.carriers := by
  unfold Broker.activate
  cases previous with
  | some p => exact ⟨rfl, rfl, rfl⟩
  | none =>
    dsimp only
    split <;> exact ⟨rfl, rfl, rfl⟩

/-- **`acknowledgeHostControlDelivery`**. -/
theorem walk_acknowledgeControl (h : Sound [] b) (grow : P.grow) (t d : Nat) :
    Path C P [] b [] (b.acknowledgeHostControlDelivery C t d).2 := by
  unfold Broker.acknowledgeHostControlDelivery
  split
  · exact .refl
  · next c hat =>
    obtain ⟨hc, hatt, ht⟩ := h.carrierAt_iff.mp hat
    split
    · next hello g hhello hreg =>
      split
      · exact .refl
      · next hguard =>
        simp only [Bool.or_eq_true, not_or, decide_eq_true_eq, ne_eq, not_not, Bool.not_eq_true,
          Option.isNone_eq_false_iff] at hguard
        obtain ⟨⟨⟨hst, hconn⟩, _⟩, hlook⟩ := hguard
        rcases isCarrierAuthorizationActive_spec (C := C) h c with ⟨b₁, heq, rfl⟩ | ⟨b₁, heq, p⟩
        swap
        · rw [heq]
          exact p.ends
        rw [heq]
        dsimp only
        rw [if_neg (by simp)]
        have h₁ : Sound [] b.read := (Same.read b).sound h
        have p₁ : Path C P [] b [] b.read := .quiet (.read b)
        split
        · exact p₁.trans (walk_cancelRegistration h₁ hc hst)
        · next hrace =>
          simp only [Bool.or_eq_true, not_or, decide_eq_true_eq, ne_eq, not_not, Bool.and_eq_true, not_and] at hrace
          obtain ⟨hrev, hprev⟩ := hrace
          refine p₁.trans ?_
          have hbase := h.owned.base c.serial c.face g (ownership_carrier hc) hst (fun h => nomatch h) hreg
          have hown : g.previousTransportId = (b.activeAt c.authContext.hostId).map Carrier.transportId := by
            refine (hbase.2 ?_).trans (ownership_ownerTransport _)
            exact hrev.symm.trans (ownership_revision (b := b) _).symm
          have hmaps := activate_maps C c hello (g.previousTransportId.bind b.read.carrierAt) b.read
          have hlate : ∀ b' : Broker, Sound [] b' → b'.active.lookup c.authContext.hostId = some c.serial →
              ∀ c', b'.carrierOf c.serial = some c' → c'.status = .active ∨ P.late := fun b' hs hl c' hc' =>
            .inl (hs.host_of_active hc' hl).2.1
          cases hpt : g.previousTransportId with
          | none =>
            -- the host has no owner
            have hfree : b.active.lookup c.authContext.hostId = none := by
              cases hl : b.active.lookup c.authContext.hostId with
              | none => rfl
              | some s =>
                obtain ⟨f, hf, _⟩ := h.owned.active _ _ hl
                obtain ⟨c', hc', _⟩ := Option.map_eq_some_iff.mp hf
                unfold Broker.activeAt at hown
                rw [hpt, hl, Option.bind_some, hc'] at hown
                cases hown
            have p₂ : Path C P [] b.read [] (b.read.activate C c hello none) :=
              .one (.activate hello none grow hc (fun h => nomatch h) hlook fun x hx => by rw [show b.read.active = b.active from rfl, hfree] at hx; cases hx)
            rw [hpt] at hmaps
            have h₂ := p₂.sound h₁
            refine p₂.trans (walk_flushHostWarning (hlate _ h₂ ?_))
            have hmaps₂ : (b.read.activate C c hello none).active = _ := hmaps.1
            rw [hmaps₂, List.lookup_cons, beq_self_eq_true]
          | some tp =>
            rw [hpt] at hown hprev hmaps
            obtain ⟨q, hq, hqt⟩ := Option.map_eq_some_iff.mp hown.symm
            obtain ⟨s, hs, hqs⟩ := Option.bind_eq_some_iff.mp hq
            have hser := serial_of_carrierOf hqs
            subst hser
            obtain ⟨hqhost, hqact, hqhello, hqconn, hqatt⟩ := h.host_of_active hqs hs
            have hqat : b.carrierAt tp = some q := h.carrierAt_iff.mpr ⟨hqs, hqatt, hqt⟩
            have hne : q.serial ≠ c.serial := by
              intro heq
              rw [heq, hc] at hqs
              obtain rfl := Option.some.inj hqs
              rw [hst] at hqact
              cases hqact
            simp only [Option.bind_some] at hmaps ⊢
            rw [show b.read.carrierAt tp = some q from hqat] at hmaps ⊢
            dsimp only
            have hm : Sound [q.serial] b.read := Move.sound (C := C) (P := P) h₁ (.mark q.serial)
            have p₂ : Path C P [q.serial] b.read [q.serial] (b.read.activate C c hello (some q)) :=
              .one (.activate hello (some q) grow hc (fun hin => hne (List.mem_singleton.mp hin).symm) hlook fun x hx => by
                rw [show b.read.active = b.active from rfl, hs] at hx
                exact List.mem_singleton.mpr (Option.some.inj hx).symm)
            have h₂ := p₂.sound hm
            have hq₂ : (b.read.activate C c hello (some q)).carrierOf q.serial = some q := by
              unfold Broker.carrierOf
              rw [hmaps.2.2]
              exact (Keyed.find_update_ne (by exact fun _ hu => hu) hne).trans hqs
            have hact₂ : ∀ host, (b.read.activate C c hello (some q)).active.lookup host ≠ some q.serial := by
              intro host hl
              rw [hmaps.1, List.lookup_cons] at hl
              split at hl
              · exact hne (Option.some.inj hl).symm
              · next hhost =>
                have hl' := Fewer.lookup_of_filter hl
                have := (h.host_of_active hqs hl').1
                rw [lookup_filter, this, ← hqhost, if_pos rfl] at hl
                cases hl
            have hreg₂ : ∀ host, (b.read.activate C c hello (some q)).registering.lookup host ≠ some q.serial := by
              intro host hl
              rw [hmaps.2.1] at hl
              have := (h.host_of_registering hqs (Fewer.lookup_of_filter hl)).2
              rw [hqact] at this
              cases this
            obtain ⟨losing, hlosing⟩ := Option.isSome_iff_exists.mp hqconn
            obtain ⟨winning, hwinning⟩ := Option.isSome_iff_exists.mp hconn
            obtain ⟨p₃, hkeep⟩ := walk_supersede (C := C) (P := P) h₂ hq₂ hlosing hwinning hqhello hact₂ hreg₂
            have h₃ := p₃.sound h₂
            refine .step (.mark q.serial) (p₂.trans (p₃.trans (walk_flushHostWarning (hlate _ h₃ ?_))))
            rw [hkeep, hmaps.1, List.lookup_cons, beq_self_eq_true]
    · exact .refl

theorem walk_rejectControl (h : Sound [] b) (t d : Nat) : Path C P [] b [] (b.rejectHostControlDelivery t d).2 := by
  unfold Broker.rejectHostControlDelivery
  split
  · exact .refl
  · next c hat =>
    obtain ⟨hc, _, _⟩ := h.carrierAt_iff.mp hat
    split
    · exact .refl
    · next hguard =>
      simp only [Bool.or_eq_true, not_or, decide_eq_true_eq, ne_eq, not_not] at hguard
      exact walk_cancelRegistration h hc hguard.1

/-! ## New routes -/

/-- **Admission of a client**: a refusal is walked, and an admission names the owner of the host. -/
theorem inspectClientAdmission_spec (h : Sound [] b) (a : Authorization) :
    (∃ e b', b.inspectClientAdmission C a = (.error e, b') ∧ Path C .ending [] b [] b') ∨
      ∃ c hello k b', b.inspectClientAdmission C a = (.ok (c, hello, k), b') ∧ Same b b' ∧
        b.activeAt a.hostId = some c ∧ c.connectorId = some k := by
  unfold Broker.inspectClientAdmission
  split
  · exact .inl ⟨_, _, rfl, .refl⟩
  · dsimp only
    have hsame : Same b (if b.expired a = true then (false, b.read) else b.read.observeAuthorizationHighWater a.receipt).2 := by
      split
      · exact .read b
      · exact (Same.read b).trans (.observe a.receipt _)
    obtain ⟨ok, b₁, heq⟩ : ∃ ok b₁, (if b.expired a = true then (false, b.read) else
      b.read.observeAuthorizationHighWater a.receipt) = (ok, b₁) := ⟨_, _, rfl⟩
    rw [heq] at hsame ⊢
    dsimp only at hsame ⊢
    have p₁ : Path C .ending [] b [] b₁ := .quiet hsame.quiet
    split
    · exact .inl ⟨_, _, rfl, p₁⟩
    · split
      · exact .inl ⟨_, _, rfl, p₁⟩
      · next c hact =>
        split
        · next hello k hhello hconn =>
          split
          · exact .inl ⟨_, _, rfl, p₁⟩
          · rcases isCarrierAuthorizationActive_spec (C := C) (hsame.sound h) c with ⟨b₂, heq₂, rfl⟩ | ⟨b₂, heq₂, p₂⟩
            · rw [heq₂]
              dsimp only
              rw [if_neg (by simp)]
              have p₂ : Path C .ending [] b [] b₁.read := p₁.trans (.quiet (.read b₁))
              split
              · exact .inl ⟨_, _, rfl, p₂⟩
              · split
                · exact .inl ⟨_, _, rfl, p₂⟩
                · refine .inr ⟨c, hello, k, _, rfl, hsame.trans (.read b₁), ?_, hconn⟩
                  rw [← hsame.activeAt]
                  exact hact
            · rw [heq₂]
              exact .inl ⟨_, _, rfl, p₁.trans p₂⟩
        · exact .inl ⟨_, _, rfl, p₁⟩

theorem Quiet.addRoute (hq : Quiet b b') (c : Carrier) (r : Route) : Quiet (b.addRoute c r) (b'.addRoute c r) := by
  refine ⟨?_, ?_, ?_, hq.active, hq.registering, hq.directory, ?_, hq.fresh⟩
  · show (Keyed.update Carrier.serial c.serial _ b'.carriers).map _ = (Keyed.update Carrier.serial c.serial _ b.carriers).map _
    have hpush : ∀ l : List Carrier, (Keyed.update Carrier.serial c.serial
        (fun c => { c with routeIds := c.routeIds ++ [r.routeId] }) l).map Carrier.bare =
        Keyed.update Carrier.serial c.serial (fun c => { c with routeIds := c.routeIds ++ [r.routeId] }) (l.map Carrier.bare) := by
      intro l
      unfold Keyed.update
      rw [List.map_map, List.map_map]
      refine List.map_congr_left fun x _ => ?_
      simp only [Function.comp]
      by_cases hx : x.serial = c.serial
      · rw [if_pos hx, if_pos (show x.bare.serial = c.serial from hx)]
        rfl
      · rw [if_neg hx, if_neg (show ¬ x.bare.serial = c.serial from hx)]
    rw [hpush, hpush, hq.carriers]
  · show (b'.routes ++ [r]).map _ = (b.routes ++ [r]).map _
    rw [List.map_append, List.map_append, hq.routes]
  · show (b'.clients ++ [_]).map _ = (b.clients ++ [_]).map _
    rw [List.map_append, List.map_append, hq.clients]
  · show _ :: b'.trace = _ :: b.trace
    rw [hq.trace]

/-- **`openClientRoute`**. -/
theorem walk_openClientRoute (h : Sound [] b) (grow : P.grow) (id : Nat) (a : Authorization) (i : Nat) :
    Path C P [] b [] (b.openClientRoute C id a i).2 := by
  unfold Broker.openClientRoute
  split
  · exact .refl
  · next hfree =>
    split
    · exact .refl
    · rcases inspectClientAdmission_spec (C := C) h a with ⟨e, b₁, heq, p⟩ | ⟨c₀, hello, k, b₁, heq, hsame, hact, hconn⟩
      · rw [heq]
        obtain ⟨status, error⟩ := e
        exact p.ends
      · rw [heq]
        dsimp only
        have h₁ := hsame.sound h
        have p₁ : Path C P [] b [] b₁ := .quiet hsame.quiet
        rw [hsame.activeAt, hact]
        dsimp only
        rcases isCarrierAuthorizationActive_spec (C := C) h₁ c₀ with ⟨b₂, heq₂, rfl⟩ | ⟨b₂, heq₂, p₂⟩
        swap
        · rw [heq₂]
          exact p₁.trans p₂.ends
        rw [heq₂]
        dsimp only
        rw [if_neg (by simp)]
        have p₂ : Path C P [] b [] b₁.read := p₁.trans (.quiet (.read b₁))
        have h₂ : Sound [] b₁.read := (Same.read b₁).sound h₁
        split
        · exact p₂
        · split
          · exact p₂
          · next hfits =>
            -- the owner of the host
            obtain ⟨s, hs, hcs⟩ := Option.bind_eq_some_iff.mp hact
            have hser := serial_of_carrierOf hcs
            subst hser
            obtain ⟨hhost, hst, _, _, hatt⟩ := h.host_of_active hcs hs
            have hc : b₁.read.carrierOf c₀.serial = some c₀ := (hsame.carrierOf _).trans hcs
            have hfree₁ : b₁.read.clientAt id = none := by
              rw [show b₁.read.clientAt id = b₁.clientAt id from rfl, hsame.clientAt]
              exact Option.not_isSome_iff_eq_none.mp (by simpa using hfree)
            refine p₂.trans ?_
            generalize b₁.read = b₂ at h₂ hc hfree₁ ⊢
            clear p₁ p₂ heq heq₂
            unfold Broker.enqueueCarrierControl
            rw [show b₂.named.named.named.carrierOf c₀.serial = some c₀ from hc]
            dsimp only
            split
            · exact .quiet (((Quiet.named _).trans (.named _)).trans (.named _))
            · next hroom =>
              rw [if_neg (by simp)]
              refine .step (.openRoute id a i k grow hc hatt hst hconn hhost hfree₁ (by omega) (not_lt.mp hroom)) ?_
              refine .quiet (Quiet.addRoute ?_ c₀ _)
              split
              · exact .signalCarrier C c₀.serial true _
              · exact .refl _

theorem walk_unbindClient (h : Sound [] b) (id : Nat) (reason : UnbindReason) :
    Path C P [] b [] (b.unbindClient C id reason).2 := by
  unfold Broker.unbindClient
  split
  · exact .refl
  · next r hr =>
    obtain ⟨client, _, hr⟩ := Option.bind_eq_some_iff.mp hr
    exact walk_beginRouteUnbind h (by rw [id_of_routeOf hr]; exact hr) reason

end

end Relay
end TmuxWorktree
