import TmuxWorktree.Relay.FrameOps
/-!
# DrainOps — drains, acknowledgements and sweeps, walked move by move, and with them every operation
-/
namespace TmuxWorktree
namespace Relay

section
variable {C : Config} {P : Permits} {D : List Nat} {b b' : Broker} {c : Carrier} {r : Route}

/-! ## Draining a carrier -/

/-- **The gate of a drain**: what it lets through is the active owner, in the same state. -/
theorem carrierMayDrain_spec (h : Sound [] b) (s : Nat) :
    (∃ b', b.carrierMayDrain C s = (none, b') ∧ Path C .ending [] b [] b') ∨
      ∃ c b', b.carrierMayDrain C s = (some c, b') ∧ b' = b.read ∧ b.carrierOf s = some c ∧ c.status = .active ∧
        c.attached = true := by
  unfold Broker.carrierMayDrain
  split
  · exact .inl ⟨_, rfl, .refl⟩
  · next c hc =>
    split
    · exact .inl ⟨_, rfl, .refl⟩
    · next hguard =>
      simp only [Bool.or_eq_true, not_or, decide_eq_true_eq, ne_eq, not_not, Bool.not_eq_true', Bool.not_eq_false] at hguard
      rcases isCarrierAuthorizationActive_spec (C := C) h c with ⟨b₁, heq, rfl⟩ | ⟨b₁, heq, p⟩
      · rw [heq]
        exact .inr ⟨c, _, rfl, rfl, hc, hguard.1.1.2, hguard.1.1.1⟩
      · rw [heq]
        exact .inl ⟨_, rfl, p⟩

theorem entryMayGo_spec (h : Sound [] b) (c : Carrier) (e : QueuedCarrierFrame) :
    (∃ b', b.entryMayGo C c e = (false, b') ∧ Path C .ending [] b [] b') ∨
      ∃ b', b.entryMayGo C c e = (true, b') ∧ Same b b' := by
  unfold Broker.entryMayGo
  split
  · exact .inr ⟨_, rfl, .refl b⟩
  · exact .inr ⟨_, rfl, .refl b⟩
  · exact .inr ⟨_, rfl, .refl b⟩
  · exact .inr ⟨_, rfl, .refl b⟩
  · split
    · exact .inl ⟨_, rfl, .refl⟩
    · split
      · exact .inl ⟨_, rfl, .refl⟩
      · next client _ =>
        split
        · exact .inl ⟨_, rfl, .refl⟩
        · rcases isClientAuthorizationActive_spec (C := C) h client with ⟨b₁, heq, rfl⟩ | ⟨b₁, heq, p⟩
          · exact .inr ⟨_, heq, .read b⟩
          · exact .inl ⟨_, heq, p⟩

/-- **The outcomes of `deliver`.** -/
theorem deliver_spec (h : Sound [] b) (s maxFrames maxBytes : Nat) (d : Broker.Drained) (e : QueuedCarrierFrame) :
    (∃ d' b', b.deliver C s maxFrames maxBytes d e = (.fenced, d', b') ∧ Path C .ending [] b [] b') ∨
      (∃ d' b', b.deliver C s maxFrames maxBytes d e = (.blocked, d', b') ∧ Same b b') ∨
      ∃ d' b' c, b.deliver C s maxFrames maxBytes d e = (.delivered, d', b'.dispatch s e) ∧ Same b b' ∧
        b.carrierOf s = some c ∧ c.status = .active := by
  unfold Broker.deliver
  rcases carrierMayDrain_spec (C := C) h s with ⟨b₁, heq, p⟩ | ⟨c, b₁, heq, rfl, hc, hact, _⟩
  · rw [heq]
    exact .inl ⟨_, _, rfl, p⟩
  · rw [heq]
    dsimp only
    have h₁ : Sound [] b.read := (Same.read b).sound h
    rcases entryMayGo_spec (C := C) h₁ c e with ⟨b₂, heq₂, p₂⟩ | ⟨b₂, heq₂, hsame⟩
    · rw [heq₂]
      exact .inl ⟨_, _, rfl, (Path.quiet (.read b)).trans p₂⟩
    · rw [heq₂]
      dsimp only
      rw [if_neg (by simp)]
      have hsame' := (Same.read b).trans hsame
      split
      · exact .inr (.inl ⟨_, _, rfl, hsame'⟩)
      · exact .inr (.inr ⟨_, _, c, rfl, hsame', hc, hact⟩)

theorem walk_drainControl (s maxFrames maxBytes fuel : Nat) (d : Broker.Drained) (h : Sound [] b) :
    Path C P [] b [] (b.drainControl C s maxFrames maxBytes fuel d).2.2 := by
  induction fuel generalizing b d with
  | zero => exact .refl
  | succ fuel ih =>
    unfold Broker.drainControl
    split
    · exact .refl
    · next e he =>
      rcases deliver_spec (C := C) h s maxFrames maxBytes d e with ⟨d', b₁, heq, p⟩ | ⟨d', b₁, heq, hsame⟩ |
        ⟨d', b₁, c, heq, hsame, hc, hact⟩
      · rw [heq]
        exact p.ends
      · rw [heq]
        exact .quiet hsame.quiet
      · rw [heq]
        dsimp only
        have hs := serial_of_carrierOf hc
        subst hs
        rw [hc, Option.bind_some] at he
        obtain ⟨rest, hqueue⟩ : ∃ rest, c.controlQueue = e :: rest := by
          cases hq : c.controlQueue with
          | nil =>
            rw [hq] at he
            cases he
          | cons x rest =>
            rw [hq] at he
            obtain rfl := Option.some.inj he
            exact ⟨rest, rfl⟩
        have p : Path C P [] b [] ((b₁.dispatch c.serial e).setCarrier c.serial fun c =>
            Carrier.invalidateIfEmpty { c with controlQueue := c.controlQueue.tail }) :=
          .step (.quiet hsame.quiet) (.one (.dispatchControl e rest ((hsame.carrierOf _).trans hc) hact hqueue))
        exact p.trans (ih d' (p.sound h))

theorem quiet_wrapped (s : Nat) (b : Broker) : Quiet b (b.setCarrier s Carrier.wrapped) := by
  refine .setCarrier s fun c => ?_
  unfold Carrier.wrapped
  split <;> rfl

theorem walk_drainData (s maxFrames maxBytes fuel scans : Nat) (d : Broker.Drained) (h : Sound [] b) :
    Path C P [] b [] (b.drainData C s maxFrames maxBytes fuel scans d).2 := by
  induction fuel generalizing b d scans with
  | zero => exact .refl
  | succ fuel ih =>
    unfold Broker.drainData
    split
    · exact .refl
    · next c hc =>
      have hs := serial_of_carrierOf hc
      subst hs
      split
      · exact .refl
      · dsimp only
        have hq := quiet_wrapped c.serial b
        have h₁ := (Kept.of_quiet hq).sound h
        have hc₁ : (b.setCarrier c.serial Carrier.wrapped).carrierOf c.serial = some c.wrapped := by
          refine carrierOf_setCarrier_at hc fun c => ?_
          unfold Carrier.wrapped
          split <;> rfl
        have hs₁ : c.wrapped.serial = c.serial := by
          unfold Carrier.wrapped
          split <;> rfl
        refine (Path.quiet hq).trans ?_
        generalize b.setCarrier c.serial Carrier.wrapped = b₁ at h₁ hc₁ ⊢
        generalize c.wrapped = c₁ at hc₁ hs₁ ⊢
        have hc₁' : b₁.carrierOf c₁.serial = some c₁ := by rw [hs₁]; exact hc₁
        split
        · exact .refl
        · next routeId hturn =>
          have hskip : (c₁.dataQueue routeId).map DataQueue.entries = none ∨
              (c₁.dataQueue routeId).map DataQueue.entries = some [] →
              Path C P [] b₁ [] (b₁.setCarrier c.serial fun c => Carrier.invalidateIfEmpty
                { c with
                  dataQueues := Keyed.erase DataQueue.routeId routeId c.dataQueues
                  dataOrder := c.dataOrder.eraseIdx c.dataCursor }) := fun hnone => by
            rw [← hs₁]
            exact .one (.skip routeId hc₁' hturn hnone)
          split
          · next hnone => exact (hskip (.inl hnone)).trans (ih 0 d ((hskip (.inl hnone)).sound h₁))
          · next hnone => exact (hskip (.inr hnone)).trans (ih 0 d ((hskip (.inr hnone)).sound h₁))
          · next e rest hhead =>
            rcases deliver_spec (C := C) h₁ c.serial maxFrames maxBytes d e with ⟨d', b₂, heq, p⟩ | ⟨d', b₂, heq, hsame⟩ |
              ⟨d', b₂, c₂, heq, hsame, hc₂, hact⟩
            · rw [heq]
              exact p.ends
            · rw [heq]
              dsimp only
              have q : Quiet b₁ (b₂.setCarrier c.serial fun c =>
                  { c with dataCursor := (c.dataCursor + 1) % c.dataOrder.length }) :=
                hsame.quiet.trans (.setCarrier _ fun _ => rfl)
              split
              · exact .quiet q
              · exact (Path.quiet q).trans (ih _ d' ((Kept.of_quiet q).sound h₁))
            · rw [heq]
              dsimp only
              obtain rfl := Option.some.inj (hc₁.symm.trans hc₂)
              have p : Path C P [] b₁ [] ((b₂.dispatch c.serial e).setCarrier c.serial fun c => c.popData routeId rest) := by
                refine .step (.quiet hsame.quiet) ?_
                rw [← hs₁]
                exact .one (.dispatchData routeId e rest ((hsame.carrierOf _).trans hc₁') hact hturn hhead)
              exact p.trans (ih 0 d' (p.sound h₁))

/-- **`drainHostCarrier`**. -/
theorem walk_drainHostCarrier (h : Sound [] b) (t maxFrames maxBytes : Nat) (controlOnly : Bool) :
    Path C P [] b [] (b.drainHostCarrier C t maxFrames maxBytes controlOnly) := by
  unfold Broker.drainHostCarrier
  split
  · exact .refl
  · next c₀ _ =>
    rcases carrierMayDrain_spec (C := C) h c₀.serial with ⟨b₁, heq, p⟩ | ⟨c, b₁, heq, rfl, _, _⟩
    · rw [heq]
      exact p.ends
    · rw [heq]
      dsimp only
      have h₁ : Sound [] b.read := (Same.read b).sound h
      refine (Path.quiet (.read b)).trans ?_
      have p₂ := walk_drainControl (C := C) (P := P) c.serial maxFrames maxBytes (c.controlQueue.length + 1) {} h₁
      have h₂ := p₂.sound h₁
      split
      · next b₂ heq₂ =>
        rw [heq₂] at p₂
        exact p₂
      · next d b₂ heq₂ =>
        rw [heq₂] at p₂ h₂
        split
        · exact p₂
        · split
          · exact p₂
          · exact p₂.trans (walk_drainData _ maxFrames maxBytes _ 0 d h₂)

/-! ## Resuming -/

theorem walk_resumeClient (hon : On b c r) : Path C P D b D (b.maybeResumeClientPressure c r).2 := by
  unfold Broker.maybeResumeClientPressure
  split
  · exact .refl
  · next hguard =>
    simp only [Bool.or_eq_true, not_or, Bool.not_eq_true', Bool.not_eq_false] at hguard
    exact .one (.resume .clientToHost hon hguard.1.1.1.2)

theorem walk_resumeHost (hon : On b c r) {r₀ : Route} (hid : r₀.routeId = r.routeId)
    (hp : r₀.hostReadPaused = r.hostReadPaused) : Path C P D b D (b.maybeResumeHostPressure r₀).2 := by
  unfold Broker.maybeResumeHostPressure
  split
  · exact .refl
  · split
    · exact .refl
    · next hguard =>
      simp only [Bool.or_eq_true, not_or, Bool.not_eq_true', Bool.not_eq_false] at hguard
      rw [hid]
      exact .one (.resume .hostToClient hon (hp.symm.trans hguard.1.1.1.2))

theorem walk_resumeRoute (h : Sound [] b) {s : Nat} (hatt : ∀ c, b.carrierOf s = some c → c.attached = true) (id : Nat) :
    Path C P [] b [] (b.resumeRoute s id).2 := by
  unfold Broker.resumeRoute
  split
  · next c r hc hr =>
    split
    · next hne =>
      exact .quiet (h.quiet_unlist fun c' r' hc' hr' => by
        obtain rfl := Option.some.inj (hc.symm.trans hc')
        obtain rfl := Option.some.inj (hr.symm.trans hr')
        exact hne)
    · next heq =>
      have hr' : b.routeOf r.routeId = some r := by rw [id_of_routeOf hr]; exact hr
      obtain ⟨c', hon, _⟩ := h.on hr'
      have hs := serial_of_carrierOf hc
      have hcc : c' = c := by
        have ht : c.transportId = c'.transportId := by
          rw [hon.transport]
          exact (not_not.mp heq).symm
        have hone := h.owned.transports s c.face c'.serial c'.face (ownership_carrier hc) (ownership_carrier hon.carrier)
          (hatt c hc) hon.attached ht
        rw [hone, hon.carrier] at hc
        exact Option.some.inj hc
      subst hcc
      have p₁ := walk_resumeClient (C := C) (P := P) (D := []) hon
      dsimp only
      refine p₁.trans ?_
      -- the route after the first resume
      have hon₁ : ∃ r₁, On (b.maybeResumeClientPressure c' r).2 c' r₁ ∧ r.routeId = r₁.routeId ∧
          r.hostReadPaused = r₁.hostReadPaused := by
        unfold Broker.maybeResumeClientPressure
        split
        · exact ⟨r, hon, rfl, rfl⟩
        · exact ⟨r.released .clientToHost, ⟨hon.carrier, routeOf_setRoute_at hr' fun _ => rfl, hon.attached, hon.active,
            hon.transport, hon.connector⟩, rfl, rfl⟩
      obtain ⟨r₁, hon₁, hid₁, hp₁⟩ := hon₁
      exact walk_resumeHost hon₁ hid₁ hp₁
  · next hnone =>
    exact .quiet (h.quiet_unlist fun c r hc hr => absurd hr (hnone c r hc))

theorem resumeRoute_attached {s : Nat} (hatt : ∀ c, b.carrierOf s = some c → c.attached = true) (id : Nat) :
    ∀ c, (b.resumeRoute s id).2.carrierOf s = some c → c.attached = true := by
  unfold Broker.resumeRoute
  intro c hc
  split at hc
  · next c₀ r hc₀ _ =>
    split at hc
    · rw [carrierOf_setCarrier_at hc₀ (by exact fun _ => rfl)] at hc
      obtain rfl := Option.some.inj hc
      exact hatt c₀ hc₀
    · refine hatt c ?_
      rw [← hc]
      have h1 : ∀ b : Broker, (b.maybeResumeClientPressure c₀ r).2.carrierOf s = b.carrierOf s := by
        intro b
        unfold Broker.maybeResumeClientPressure
        split <;> rfl
      have h2 : ∀ b : Broker, (b.maybeResumeHostPressure r).2.carrierOf s = b.carrierOf s := by
        intro b
        unfold Broker.maybeResumeHostPressure
        split
        · rfl
        · split <;> rfl
      exact ((h2 _).trans (h1 b)).symm
  · cases hc₀ : b.carrierOf s with
    | none =>
      rw [carrierOf_setCarrier_self (by exact fun _ => rfl), hc₀] at hc
      cases hc
    | some c₀ =>
      rw [carrierOf_setCarrier_at hc₀ (by exact fun _ => rfl)] at hc
      obtain rfl := Option.some.inj hc
      exact hatt c₀ hc₀

theorem walk_resumeRoutes (s : Nat) (l : List Nat) (h : Sound [] b) (hatt : ∀ c, b.carrierOf s = some c → c.attached = true) :
    Path C P [] b [] (b.resumeRoutes s l).2 := by
  induction l generalizing b with
  | nil => exact .refl
  | cons id l ih =>
    unfold Broker.resumeRoutes
    dsimp only
    have p := walk_resumeRoute (C := C) (P := P) h hatt id
    exact p.trans (ih (p.sound h) (resumeRoute_attached hatt id))

theorem walk_collectResumes (h : Sound [] b) {s : Nat} (hatt : ∀ c, b.carrierOf s = some c → c.attached = true) :
    Path C P [] b [] (b.collectCarrierResumes s).2 := walk_resumeRoutes s _ h hatt

/-! ## Acknowledgements -/

theorem walk_acknowledgeHostDelivery (h : Sound [] b) (t d : Nat) : Path C P [] b [] (b.acknowledgeHostDelivery C t d).2 := by
  unfold Broker.acknowledgeHostDelivery
  split
  · exact .refl
  · next c hat =>
    obtain ⟨hc, hatt, _⟩ := h.carrierAt_iff.mp hat
    split
    · exact .refl
    · next e he =>
      have hmem := List.mem_of_find?_eq_some he
      have hid : e.deliveryId = d := by simpa using List.find?_some he
      subst hid
      have p₁ : Path C P [] b [] (b.acknowledge c.serial e) := .one (.acknowledge e hc hmem)
      have h₁ := p₁.sound h
      have hatt₁ : ∀ c', (b.acknowledge c.serial e).carrierOf c.serial = some c' → c'.attached = true := by
        intro c' hc'
        have hof : (b.acknowledge c.serial e).carrierOf c.serial = (b.setCarrier c.serial fun c =>
            { c with
              inFlight := c.inFlight.filter fun x => x.deliveryId ≠ e.deliveryId
              inFlightBytes := c.inFlightBytes - e.wireBytes }).carrierOf c.serial := by
          unfold Broker.acknowledge
          dsimp only
          split <;> rfl
        rw [hof, carrierOf_setCarrier_at hc (by exact fun _ => rfl)] at hc'
        obtain rfl := Option.some.inj hc'
        exact hatt
      have hsignal : Quiet (b.acknowledge c.serial e) (if c.outputQueueEmpty then b.acknowledge c.serial e
          else (b.acknowledge c.serial e).signalCarrierOutputReady C c.serial false) :=
        .ite (.refl _) (.signalCarrier C c.serial false _)
      have h₂ := (Kept.of_quiet hsignal).sound h₁
      have hatt₂ : ∀ c', (if c.outputQueueEmpty then b.acknowledge c.serial e
          else (b.acknowledge c.serial e).signalCarrierOutputReady C c.serial false).carrierOf c.serial = some c' →
          c'.attached = true := by
        intro c' hc'
        obtain ⟨c₁, hc₁, hb⟩ := hsignal.carrierOf hc'
        exact (bare_field Carrier.bare Carrier.attached (fun _ => rfl) hb.symm).trans (hatt₁ c₁ hc₁)
      exact p₁.trans ((Path.quiet hsignal).trans (walk_collectResumes h₂ hatt₂))

/-! ## Draining a client -/

theorem clientMayDrain_spec (h : Sound [] b) (id : Nat) (e : QueuedClientFrame) :
    (∃ b', b.clientMayDrain C id e = (false, b') ∧ Path C .ending [] b [] b') ∨
      ∃ b' client r, b.clientMayDrain C id e = (true, b') ∧ Same b b' ∧ b.clientAt id = some client ∧
        b.routeOf e.route = some r ∧ r.connectionId = id ∧ client.routeId = e.route ∧ r.status = .opened := by
  unfold Broker.clientMayDrain
  split
  · exact .inl ⟨_, rfl, .refl⟩
  · next client hclient =>
    rcases isClientAuthorizationActive_spec (C := C) h client with ⟨b₁, heq, rfl⟩ | ⟨b₁, heq, p⟩
    swap
    · rw [heq]
      exact .inl ⟨_, rfl, p⟩
    rw [heq]
    dsimp only
    rw [if_neg (by simp)]
    have h₁ : Sound [] b.read := (Same.read b).sound h
    have p₁ : Path C .ending [] b [] b.read := .quiet (.read b)
    split
    · exact .inl ⟨_, rfl, p₁⟩
    · next r hr =>
      split
      · exact .inl ⟨_, rfl, p₁⟩
      · next c _ =>
        split
        · exact .inl ⟨_, rfl, p₁⟩
        · next hguard =>
          simp only [Bool.or_eq_true, not_or, decide_eq_true_eq, ne_eq, not_not] at hguard
          rcases isCarrierAuthorizationActive_spec (C := C) h₁ c with ⟨b₂, heq₂, rfl⟩ | ⟨b₂, heq₂, p₂⟩
          · exact .inr ⟨_, client, r, heq₂, (Same.read b).trans (.read _), hclient, hr, hguard.1.1, hguard.1.2, hguard.2⟩
          · exact .inl ⟨_, heq₂, p₁.trans p₂⟩

theorem walk_drainClientLoop (id maxFrames maxBytes fuel : Nat) (d : Broker.Drained) (h : Sound [] b) :
    Path C P [] b [] (b.drainClientLoop C id maxFrames maxBytes fuel d) := by
  induction fuel generalizing b d with
  | zero => exact .refl
  | succ fuel ih =>
    unfold Broker.drainClientLoop
    split
    · exact .refl
    · next e he =>
      split
      · exact .refl
      · rcases clientMayDrain_spec (C := C) h id e with ⟨b₁, heq, p⟩ | ⟨b₁, client, r, heq, hsame, hclient, hr, hconn, hroute, hst⟩
        · rw [heq]
          exact p.ends
        · rw [heq]
          dsimp only
          rw [if_neg (by simp)]
          split
          · exact .quiet hsame.quiet
          · have hid := id_of_clientAt hclient
            subst hid
            rw [hclient, Option.bind_some] at he
            obtain ⟨rest, hqueue⟩ : ∃ rest, client.queue = e :: rest := by
              cases hq : client.queue with
              | nil =>
                rw [hq] at he
                cases he
              | cons x rest =>
                rw [hq] at he
                obtain rfl := Option.some.inj he
                exact ⟨rest, rfl⟩
            have p : Path C P [] b [] ((b₁.setClient client.connectionId fun c =>
                { c with
                  queue := c.queue.tail
                  outputReadyEpoch := if c.queue.tail.isEmpty then c.outputReadyEpoch + 1 else c.outputReadyEpoch
                  inFlight := c.inFlight ++ [⟨e, b₁.fresh⟩] }).named.emit (.handed client.connectionId e.route e.bytes)) :=
              .step (.quiet hsame.quiet) (.one (.hand e rest ((hsame.clientAt _).trans hclient) hqueue
                ((hsame.routeOf _).trans hr) hst hconn hroute))
            exact p.trans (ih _ (p.sound h))

theorem walk_drainClient (h : Sound [] b) (id maxFrames maxBytes : Nat) :
    Path C P [] b [] (b.drainClient C id maxFrames maxBytes) := by
  unfold Broker.drainClient
  split
  · exact .refl
  · next client _ =>
    split
    · exact .refl
    · rcases isClientAuthorizationActive_spec (C := C) h client with ⟨b₁, heq, rfl⟩ | ⟨b₁, heq, p⟩
      · rw [heq]
        dsimp only
        rw [if_neg (by simp)]
        exact (Path.quiet (.read b)).trans (walk_drainClientLoop id maxFrames maxBytes _ {} ((Same.read b).sound h))
      · rw [heq]
        exact p.ends

theorem walk_acknowledgeClientDelivery (h : Sound [] b) (id d : Nat) :
    Path C P [] b [] (b.acknowledgeClientDelivery id d).2 := by
  unfold Broker.acknowledgeClientDelivery
  split
  · exact .refl
  · next client hclient =>
    split
    · exact .refl
    · next e he =>
      have hmem := List.mem_of_find?_eq_some he
      have hid : e.deliveryId = d := by simpa using List.find?_some he
      have hcid := id_of_clientAt hclient
      subst hid hcid
      dsimp only
      split
      · next hr => exact .one (.lost e hclient hmem hr)
      · next r hr =>
        have p₁ : Path C P [] b [] ((b.setClient client.connectionId fun c =>
            { c with inFlight := c.inFlight.filter fun x => x.deliveryId ≠ e.deliveryId }).releaseHostToClient r
              [e.toQueuedClientFrame]) := .one (.received e hclient hmem hr)
        refine p₁.trans ?_
        have h₁ := p₁.sound h
        generalize (b.setClient client.connectionId fun c =>
          { c with inFlight := c.inFlight.filter fun x => x.deliveryId ≠ e.deliveryId }).releaseHostToClient r
            [e.toQueuedClientFrame] = b₁ at h₁ ⊢
        split
        · exact .refl
        · next c hat =>
          obtain ⟨hc, hatt, _⟩ := h₁.carrierAt_iff.mp hat
          refine walk_collectResumes h₁ fun c' hc' => ?_
          obtain rfl := Option.some.inj (hc.symm.trans hc')
          exact hatt

/-! ## Sweeps and rechecks -/

theorem walk_sweepRoute (h : Sound [] b) (s time id : Nat) : Path C P [] b [] (b.sweepRoute C s time id).2 := by
  unfold Broker.sweepRoute
  split
  · next c r hc hr =>
    split
    · next hne =>
      exact .quiet (h.quiet_unlist fun c' r' hc' hr' => by
        obtain rfl := Option.some.inj (hc.symm.trans hc')
        obtain rfl := Option.some.inj (hr.symm.trans hr')
        exact hne)
    · split
      · exact .refl
      · split
        · exact .refl
        · split
          · exact .refl
          · exact walk_beginRouteUnbind h (by rw [id_of_routeOf hr]; exact hr) .slowConsumer
  · next hnone => exact .quiet (h.quiet_unlist fun c r hc hr => absurd hr (hnone c r hc))

theorem walk_sweepRoutes (s time : Nat) (l : List Nat) (h : Sound [] b) : Path C P [] b [] (b.sweepRoutes C s time l).2 := by
  induction l generalizing b with
  | nil => exact .refl
  | cons id l ih =>
    unfold Broker.sweepRoutes
    dsimp only
    have p := walk_sweepRoute (C := C) (P := P) h s time id
    exact p.trans (ih (p.sound h))

theorem walk_sweep (h : Sound [] b) (t : Nat) : Path C P [] b [] (b.sweepBackpressure C t).2 := by
  unfold Broker.sweepBackpressure
  split
  · exact .refl
  · split
    · exact .refl
    · exact (Path.quiet (.read b)).trans (walk_sweepRoutes _ _ _ ((Same.read b).sound h))

theorem walk_recheckClient (h : Sound [] b) (id i : Nat) : Path C P [] b [] (b.recheckClientExpiry C id i) := by
  unfold Broker.recheckClientExpiry
  split
  · exact .refl
  · split
    · exact .refl
    · split
      · exact (Path.quiet (.read b)).trans (walk_fenceClient ((Same.read b).sound h) id .accessExpired none false).ends
      · exact .quiet (.read b)

theorem walk_recheckHost (h : Sound [] b) (t i : Nat) : Path C P [] b [] (b.recheckHostExpiry C t i) := by
  unfold Broker.recheckHostExpiry
  split
  · exact .refl
  · split
    · exact .refl
    · split
      · exact (Path.quiet (.read b)).trans (walk_fenceHost ((Same.read b).sound h) _ none).ends
      · exact .quiet (.read b)

theorem walk_recheckHostWarning (h : Sound [] b) (t i j e : Nat) : Path C P [] b [] (b.recheckHostWarning C t i j e).2 := by
  unfold Broker.recheckHostWarning
  split
  · exact .refl
  · next c hat =>
    obtain ⟨hc, _, _⟩ := h.carrierAt_iff.mp hat
    split
    · exact .refl
    · split
      · exact .quiet (.read b)
      · dsimp only
        have q : Quiet b b.read.read := (Quiet.read b).trans (.read _)
        split
        · exact .quiet q
        · split
          · exact .quiet (q.trans (.setCarrier _ fun _ => rfl))
          · next hguard =>
            simp only [Bool.or_eq_true, not_or, decide_eq_true_eq, ne_eq, not_not] at hguard
            refine (Path.quiet q).trans ?_
            refine walk_hostWarning (b := b.read.read) (s := c.serial) (fun c' hc' => ?_) hc j e
            obtain rfl := Option.some.inj ((show b.carrierOf c.serial = some c' from hc').symm.trans hc)
            exact .inl hguard.1

theorem walk_recheckClientWarning (h : Sound [] b) (id i j e : Nat) :
    Path C P [] b [] (b.recheckClientWarning C id i j e).2 := by
  unfold Broker.recheckClientWarning
  split
  · exact .refl
  · next client hclient =>
    split
    · exact .refl
    · split
      · exact .quiet (.read b)
      · dsimp only
        have q : Same b b.read.read := (Same.read b).trans (.read _)
        split
        · exact .quiet q.quiet
        · split
          · exact .quiet (q.quiet.trans (.setClient _ fun _ => rfl))
          · next r hr =>
            obtain ⟨hr, hopen⟩ := Option.filter_eq_some_iff.mp hr
            have hr' : b.read.read.routeOf r.routeId = some r := by rw [id_of_routeOf hr]; exact hr
            have h₁ := q.sound h
            obtain ⟨c, hon, _⟩ := h₁.on hr'
            have hnamed : b.ownership.client id = some client.routeId := by
              show (b.clientAt id).map _ = _
              rw [hclient]
              rfl
            obtain ⟨f, hf, hconn⟩ := h.owned.routeOf id client.routeId hnamed
            obtain ⟨r', hr'', rfl⟩ := Option.map_eq_some_iff.mp hf
            obtain rfl := Option.some.inj ((show b.routeOf client.routeId = some r from hr).symm.trans hr'')
            exact (Path.quiet q.quiet).trans (walk_clientWarning h₁ hon (by simpa using hopen) client
              ((id_of_clientAt hclient).trans hconn.symm) j e)

/-! ## The commit barrier -/

theorem walk_applyCommitted (h : Sound [] b) (x : CommittedInvalidation) : Path C P [] b [] (b.applyCommitted C x) := by
  unfold Broker.applyCommitted
  dsimp only
  have p₁ := Path.foldl (C := C) (P := .ending) (D := [])
    (f := fun b id => b.fenceClient C id x.invalidation.reason (some x.receipt) true)
    (fun b id h => walk_fenceClient h id x.invalidation.reason (some x.receipt) true)
    ((b.clients.filter fun c => x.invalidation.hits c.authContext).map Client.connectionId) b h
  have p₂ := Path.foldl (C := C) (P := .ending) (D := [])
    (f := fun b s => b.fenceHost C s (some x.receipt))
    (fun b s h => walk_fenceHost h s (some x.receipt))
    ((b.carriers.filter fun c => c.attached && x.invalidation.hits c.authContext).map Carrier.serial) _ (p₁.sound h)
  exact (p₁.trans p₂).ends

theorem Same.settle (id : Nat) (b : Broker) : Same b (b.settle id) := ⟨rfl, rfl, rfl, rfl, rfl, rfl, rfl, rfl⟩

theorem walk_commit (h : Sound [] b) (id : Nat) (receipt : Option Receipt) :
    Path C P [] b [] (b.commitInvalidation C id receipt) := by
  unfold Broker.commitInvalidation
  split
  · exact .refl
  · next p _ =>
    split
    · exact (Path.quiet (Same.settle id b).quiet).trans (walk_latch ((Same.settle id b).sound h)).ends
    · next r =>
      have hsame := Same.observe r b
      obtain ⟨ok, b₁, heq⟩ : ∃ ok b₁, b.observeAuthorizationHighWater r = (ok, b₁) := ⟨_, _, rfl⟩
      rw [heq] at hsame ⊢
      dsimp only at hsame ⊢
      split
      · have hs := hsame.trans (Same.settle id b₁)
        exact (Path.quiet hs.quiet).trans (walk_latch (hs.sound h)).ends
      · have hs : Same b (Broker.settle id { b₁ with committedInvalidations := b₁.committedInvalidations ++ [⟨p.invalidation, r⟩] }) :=
          hsame.trans ⟨rfl, rfl, rfl, rfl, rfl, rfl, rfl, rfl⟩
        exact (Path.quiet hs.quiet).trans (walk_applyCommitted (hs.sound h) _)

theorem walk_fail (h : Sound [] b) (id : Nat) : Path C P [] b [] (b.failInvalidation C id) := by
  unfold Broker.failInvalidation
  split
  · exact .refl
  · exact (Path.quiet (Same.settle id b).quiet).trans (walk_latch ((Same.settle id b).sound h)).ends

theorem quiet_begin (C : Config) (i : Invalidation) (b : Broker) :
    Quiet b (b.beginLiveAuthorizationInvalidation C i).2 := by
  unfold Broker.beginLiveAuthorizationInvalidation
  split
  · exact .refl b
  · exact ⟨rfl, rfl, rfl, rfl, rfl, rfl, rfl, Nat.le_succ _⟩

theorem Same.inspectHost (a : Authorization) (b : Broker) : Same b (b.inspectHostAdmission a).2 := by
  unfold Broker.inspectHostAdmission
  split
  · exact .refl b
  · dsimp only
    split
    · exact .read b
    · exact (Same.read b).trans (.observe a.receipt _)

/-! ## Every operation -/

def Op.Dethrones (op : Op) (b : Broker) (host : Nat) : Prop :=
  ∃ t c, op = .disconnect t ∧ b.carrierAt t = some c ∧ c.status = .active ∧ c.authContext.hostId = host ∧
    b.active.lookup host = some c.serial

/-- What an operation in a state may do beyond ending: anything may come, an answer is late when its carrier is no longer
active, the candidate of a host is based anew when the owner disconnects, and frames are taken when a client forwards one or
a host sends one. -/
def Op.permits (op : Op) (b : Broker) : Permits where
  late := match op with
    | .authDecision id decision => LateFailure b id decision
    | _ => False
  grow := True
  rebase host := op.Dethrones b host
  data := match op with
    | .forward .. => True
    | .receive .. => True
    | _ => False

/-- **Every operation is a path of moves**, and leaves no teardown under way. -/
theorem Op.walk (op : Op) (h : Sound [] b) : Path C (op.permits b) [] b [] (op.run C b) := by
  cases op with
  | attach t a i => exact walk_attach h trivial t a i
  | receive t f => exact walk_receiveHostFrame h trivial trivial t f
  | authDecision id d => exact walk_settleAuthControl h id d (fun hl => hl)
  | controlDelivered t d => exact walk_acknowledgeControl h trivial t d
  | controlRejected t d => exact walk_rejectControl h t d
  | disconnect t => exact walk_disconnectHost h t fun c hc ha ho => ⟨t, c, rfl, hc, ha, rfl, ho⟩
  | drainHost t n k o => exact walk_drainHostCarrier h t n k o
  | ackHost t d => exact walk_acknowledgeHostDelivery h t d
  | sweep t => exact walk_sweep h t
  | «open» id a i => exact walk_openClientRoute h trivial id a i
  | forward id bytes => exact walk_forwardClientFrame h id bytes fun _ _ _ _ => trivial
  | unbind id reason => exact walk_unbindClient h id reason
  | drainClient id n k => exact walk_drainClient h id n k
  | ackClient id d => exact walk_acknowledgeClientDelivery h id d
  | inspectClient a =>
    show Path C _ [] b [] (if a.closed && a.role = .client then (b.inspectClientAdmission C a).2 else b)
    split
    · rcases inspectClientAdmission_spec (C := C) h a with ⟨e, b₁, heq, p⟩ | ⟨c, hello, k, b₁, heq, hsame, _⟩
      · rw [heq]
        exact p.ends
      · rw [heq]
        exact .quiet hsame.quiet
    · exact .refl
  | inspectHost a => exact .quiet (Same.inspectHost a b).quiet
  | recheckClient id i => exact walk_recheckClient h id i
  | recheckHost t i => exact walk_recheckHost h t i
  | warnClient id i j e => exact walk_recheckClientWarning h id i j e
  | warnHost t i j e => exact walk_recheckHostWarning h t i j e
  | withdraw e => exact .one (.withdraw e)
  | begin i => exact .quiet (quiet_begin C i b)
  | commit id r => exact walk_commit h id r
  | cancel id => exact .quiet (Same.settle id b).quiet
  | fail id => exact walk_fail h id
  | failClosed => exact (walk_latch h).ends

end

theorem Sound.start (ready : List Extension) (replies : Nat → Reply) : Sound [] (Broker.start ready replies) where
  serials := List.nodup_nil
  routeIds := List.nodup_nil
  connections := List.nodup_nil
  oldSerials := fun _ h => nomatch h
  oldRoutes := fun _ h => nomatch h
  hosts := fun _ h => nomatch h
  owned :=
    { transports := fun _ _ _ _ h => nomatch h
      active := fun _ _ h => nomatch h
      activeOf := fun _ _ h => nomatch h
      registering := fun _ _ h => nomatch h
      registeringOf := fun _ _ h => nomatch h
      base := fun _ _ _ h => nomatch h
      directory := fun _ => ⟨by simp [Broker.ownership, Broker.start, Broker.recordOf, Keyed.find], fun _ _ _ h => nomatch h⟩
      routed := fun _ _ h => nomatch h
      listed := fun _ _ _ h => nomatch h
      once := fun _ _ h => nomatch h
      idle := fun _ _ h => nomatch h
      gone := fun _ _ h => nomatch h
      clientOf := fun _ _ h => nomatch h
      routeOf := fun _ _ h => nomatch h }

/-- **The maps are in order after every run.** -/
theorem run_sound (C : Config) (ops : List Op) {b : Broker} (h : Sound [] b) : Sound [] (run C ops b) := by
  induction ops generalizing b with
  | nil => exact h
  | cons op ops ih => exact ih ((op.walk h).sound h)

end Relay
end TmuxWorktree
