import TmuxWorktree.Relay.Fifo
/-!
# Retry — a host frame that was refused for want of room

The pump offers a frame that was answered `SLOW_CONSUMER` again.  The refusal takes no number, so on a route that is still
open the frame passes the same checks when it comes back, and is taken once there is room.
-/
namespace TmuxWorktree
namespace Relay

/-- What the broker asks of a host frame before it asks for room. -/
structure Takes (C : Config) (b : Broker) (c : Carrier) (r : Route) (seq : Nat) (bytes : Bytes) (f : PublicFrame) : Prop where
  opened : r.status = .opened
  seq : seq = r.expectedHostToClientSeq
  decoded : C.codec.decodePublic bytes = some f
  fits : bytes.byteLength ≤ r.maxFrameBytes
  authorized : Broker.hostFrameAuthorized c r f = true
  correlated : f.kind = .response → f.requestId.any (· ∈ r.inFlightRequestIds) = true
  negotiated : ∀ e, f.lane = some e → b.extensionNegotiated r e = true

section
variable {C : Config} {b : Broker}

theorem not_hostWelcome {c : Carrier} {r : Route} {f : PublicFrame} {e : Extension} (hlane : f.lane = some e)
    (hauth : Broker.hostFrameAuthorized c r f = true) : f.type ≠ .hostWelcome := by
  intro hw
  unfold Broker.hostFrameAuthorized at hauth
  rw [hlane, hw] at hauth
  split at hauth
  · cases hauth
  · cases e <;> simp [Extension.hostToClientTypes] at hauth

/-- **A frame that passes the checks is taken when there is room.** -/
theorem Takes.accepted {c : Carrier} {r : Route} {seq : Nat} {bytes : Bytes} {f : PublicFrame} (h : Takes C b c r seq bytes f)
    (room : Broker.hostToClientFull c r (b.selectExtensions C r f bytes).1 = false) :
    (b.routeDataChecked C c r seq bytes).1.accepted = true := by
  have hadmit : ∀ (b : Broker) (out : Bytes), Broker.hostToClientFull c r out = false →
      (b.admitHostFrame C c r f seq bytes out).1.accepted = true := by
    intro b out hroom
    unfold Broker.admitHostFrame
    rw [hroom]
    simp only [Bool.false_eq_true, if_false]
    split
    · split <;> rfl
    · rfl
  unfold Broker.routeDataChecked
  rw [if_neg (by simp [h.seq]), h.decoded]
  dsimp only
  rw [if_neg (by simp [h.authorized, Nat.not_lt.mpr h.fits]), if_neg, if_neg (by simp [h.opened])]
  · unfold Broker.deliverHostFrame
    dsimp only
    cases hlane : f.lane with
    | none => exact hadmit _ _ room
    | some e =>
      dsimp only
      -- a frame of an extension is no `host.welcome`, so nothing is selected anew
      have hne := not_hostWelcome hlane h.authorized
      have hsame : (b.selectExtensions C r f bytes).2 = b := (quiet_selectExtensions C r f bytes b).2.2.1 hne
      rw [hsame, if_pos (h.negotiated e hlane)]
      exact hadmit _ _ room
  · intro hresp
    rw [Bool.and_eq_true, decide_eq_true_eq] at hresp
    rw [h.correlated hresp.1] at hresp
    cases hresp.2

theorem protocolViolation_error (C : Config) (c : Carrier) (reason : String) (b : Broker) :
    (b.protocolViolation C c reason).1.error = some ⟨.invalidEnvelope, "Carrier protocol violation"⟩ := rfl

theorem enqueueControl_rest (C : Config) (s : Nat) (frame : ToHost) (route : Option Nat) (b : Broker) :
    (b.enqueueCarrierControl C s frame route).2.routes = b.routes ∧
      (b.enqueueCarrierControl C s frame route).2.trace = b.trace := by
  unfold Broker.enqueueCarrierControl
  split
  · exact ⟨rfl, rfl⟩
  · dsimp only
    split
    · exact ⟨rfl, rfl⟩
    · dsimp only
      split
      · unfold Broker.signalCarrierOutputReady
        dsimp only
        split <;> split <;> exact ⟨rfl, rfl⟩
      · exact ⟨rfl, rfl⟩

theorem beginRouteUnbind_status (C : Config) {r : Route} (reason : UnbindReason) (hst : r.status ≠ .closing) (b : Broker)
    {r' : Route} (hr' : (b.beginRouteUnbind C r reason).2.routeOf r.routeId = some r') : r'.status = .closing := by
  unfold Broker.beginRouteUnbind at hr'
  rw [if_neg hst] at hr'
  obtain ⟨resumes, b₁, heq⟩ : ∃ resumes b₁, (if r.clientReadPaused then
        ([Action.resumeClient r.connectionId r.connectionIncarnation],
          (b.setRoute r.routeId fun r => { r with clientReadPaused := false, clientToHostPressureSinceMs := none }).emit
            (.resumed r.routeId .clientToHost))
      else ([], b)) = (resumes, b₁) := ⟨_, _, rfl⟩
  rw [heq] at hr'
  dsimp only at hr'
  split at hr'
  · have hgone : (b₁.dropRoute r).routeOf r.routeId = none := Keyed.find_erase_self
    rw [hgone] at hr'
    cases hr'
  · next c _ =>
    have hquiet := (enqueueControl_rest C c.serial (r.unbindFrame reason) (some r.routeId) (b₁.closeRoute c r false)).1
    have hclosed : (b₁.closeRoute c r false).routeOf r.routeId = some r' := by
      unfold Broker.routeOf at *
      rw [← hquiet]
      exact hr'
    rcases routeOf_setRoute_cases hclosed (by exact fun _ => rfl) with ⟨hne, _⟩ | ⟨_, r₀, _, rfl⟩
    · exact absurd rfl hne
    · rfl

/-- What the checks on a host frame read of a route, apart from the extensions. -/
def Route.checks (r : Route) : (Nat × RouteStatus) × (Nat × List Nat) × Authorization × Nat :=
  ((r.expectedHostToClientSeq, r.status), (r.maxFrameBytes, r.inFlightRequestIds), r.authContext, r.carrierTransportId)

def Route.offers (r : Route) : (Extension → Option Disposition) × List Extension :=
  (r.agentExtensionDispositions, r.clientOfferedAgentExtensions)

theorem markHostPressure_checks {r : Route} {id : Nat} (hr : b.routeOf id = some r) :
    (∃ r', (b.markHostPressure id).2.routeOf id = some r' ∧ r'.checks = r.checks ∧ r'.offers = r.offers) ∧
      (b.markHostPressure id).2.carriers = b.carriers ∧ (b.markHostPressure id).2.optionalReady = b.optionalReady := by
  unfold Broker.markHostPressure
  rw [hr]
  dsimp only
  by_cases hsince : r.hostToClientPressureSinceMs.isNone
  · have hclock := routeOf_setRoute_at (b := b.read) hr
      (g := fun r => { r with hostToClientPressureSinceMs := some b.reply.time }) fun _ => rfl
    rw [if_pos hsince]
    split
    · exact ⟨⟨_, hclock, rfl, rfl⟩, rfl, rfl⟩
    · exact ⟨⟨_, routeOf_setRoute_at hclock (by exact fun _ => rfl), rfl, rfl⟩, rfl, rfl⟩
  · rw [if_neg hsince]
    split
    · exact ⟨⟨r, hr, rfl, rfl⟩, rfl, rfl⟩
    · exact ⟨⟨_, routeOf_setRoute_at hr (by exact fun _ => rfl), rfl, rfl⟩, rfl, rfl⟩

theorem extensionNegotiated_congr {b b' : Broker} {r r' : Route} (e : Extension) (hcheck : r'.checks = r.checks)
    (hoffer : r'.offers = r.offers) (hcar : b'.carriers = b.carriers) (hready : b'.optionalReady = b.optionalReady) :
    b'.extensionNegotiated r' e = b.extensionNegotiated r e := by
  simp only [Route.checks, Route.offers, Prod.mk.injEq] at hcheck hoffer
  unfold Broker.extensionNegotiated Broker.extensionAvailable Broker.carrierAt
  rw [hoffer.1, hoffer.2, hcar, hready, hcheck.2.2.2]

theorem hostFrameAuthorized_congr {c : Carrier} {r r' : Route} (f : PublicFrame) (hcheck : r'.checks = r.checks) :
    Broker.hostFrameAuthorized c r' f = Broker.hostFrameAuthorized c r f := by
  simp only [Route.checks, Prod.mk.injEq] at hcheck
  unfold Broker.hostFrameAuthorized
  rw [hcheck.2.2.1]

theorem admitHostFrame_refused {c : Carrier} {r r₁ r' : Route} {f : PublicFrame} {seq : Nat} {bytes out : Bytes}
    (hr : b.routeOf r.routeId = some r₁) (refused : (b.admitHostFrame C c r f seq bytes out).1.accepted = false)
    (hr' : (b.admitHostFrame C c r f seq bytes out).2.routeOf r.routeId = some r') :
    r'.checks = r₁.checks ∧ r'.offers = r₁.offers ∧ (b.admitHostFrame C c r f seq bytes out).2.carriers = b.carriers ∧
      (b.admitHostFrame C c r f seq bytes out).2.optionalReady = b.optionalReady := by
  unfold Broker.admitHostFrame at *
  by_cases hfull : Broker.hostToClientFull c r out = true
  · rw [if_pos hfull] at hr' ⊢
    obtain ⟨⟨r₂, hr₂, hcheck, hoffer⟩, hcar, hready⟩ := markHostPressure_checks hr
    obtain rfl := Option.some.inj (hr₂.symm.trans hr')
    exact ⟨hcheck, hoffer, hcar, hready⟩
  · rw [if_neg hfull] at refused
    dsimp only at refused
    split at refused
    · split at refused <;> cases refused
    · cases refused

theorem admitHostFrame_error {c : Carrier} {r : Route} {f : PublicFrame} {seq : Nat} {bytes out : Bytes} {e : StructuredError}
    (herr : (b.admitHostFrame C c r f seq bytes out).1.error = some e) :
    (b.admitHostFrame C c r f seq bytes out).1.accepted = false := by
  unfold Broker.admitHostFrame at *
  split
  · rfl
  · next hroom =>
    rw [if_neg hroom] at herr
    dsimp only at herr
    split at herr
    · split at herr <;> cases herr
    · cases herr

theorem selectExtensions_checks (C : Config) {r : Route} (f : PublicFrame) (bytes : Bytes) (hr : b.routeOf r.routeId = some r) :
    ∃ r₁, (b.selectExtensions C r f bytes).2.routeOf r.routeId = some r₁ ∧ r₁.checks = r.checks := by
  unfold Broker.selectExtensions
  split
  · exact ⟨r, hr, rfl⟩
  · exact ⟨_, routeOf_setRoute_at hr (by exact fun _ => rfl), rfl⟩

theorem unavailable_refused {c : Carrier} {r r' : Route} {f : PublicFrame} {x : Extension} {e : StructuredError}
    (hst : r.status ≠ .closing) (herr : (b.enqueueAgentExtensionUnavailable C c r f x).1.error = some e)
    (hr' : (b.enqueueAgentExtensionUnavailable C c r f x).2.routeOf r.routeId = some r') : r'.status = .closing := by
  unfold Broker.enqueueAgentExtensionUnavailable at *
  dsimp only at *
  split at herr
  · next hfull =>
    rw [if_pos hfull] at hr'
    exact beginRouteUnbind_status C .slowConsumer hst b hr'
  · cases herr

theorem deliverHostFrame_refused {c : Carrier} {r r' : Route} {seq : Nat} {bytes : Bytes} {f : PublicFrame}
    {e : StructuredError} (hr : b.routeOf r.routeId = some r) (hopen : r.status = .opened)
    (hseq : seq = r.expectedHostToClientSeq) (hdec : C.codec.decodePublic bytes = some f)
    (hfits : bytes.byteLength ≤ r.maxFrameBytes) (hauth : Broker.hostFrameAuthorized c r f = true)
    (hcorr : f.kind = .response → f.requestId.any (· ∈ r.inFlightRequestIds) = true)
    (herr : (b.deliverHostFrame C c r f seq bytes).1.error = some e) (hcode : e.code = .slowConsumer)
    (hr' : (b.deliverHostFrame C c r f seq bytes).2.routeOf r.routeId = some r') (opened : r'.status = .opened) :
    Takes C (b.deliverHostFrame C c r f seq bytes).2 c r' seq bytes f := by
  have takes : ∀ b' : Broker, r'.checks = r.checks → (∀ e, f.lane = some e → b'.extensionNegotiated r' e = true) →
      Takes C b' c r' seq bytes f := by
    intro b' hcheck hneg
    have hsame := hostFrameAuthorized_congr (c := c) f hcheck
    simp only [Route.checks, Prod.mk.injEq] at hcheck
    exact ⟨hcheck.1.2.trans hopen, hseq.trans hcheck.1.1.symm, hdec, hcheck.2.1.1 ▸ hfits, hsame.trans hauth,
      fun hk => hcheck.2.1.2 ▸ hcorr hk, hneg⟩
  unfold Broker.deliverHostFrame at *
  dsimp only at *
  cases hlane : f.lane with
  | none =>
    rw [hlane] at herr hr'
    obtain ⟨r₁, hr₁, hcheck₁⟩ := selectExtensions_checks C f bytes hr
    have hrefused := admitHostFrame_error herr
    obtain ⟨hcheck, -⟩ := admitHostFrame_refused hr₁ hrefused hr'
    exact takes _ (hcheck.trans hcheck₁) fun e he => by cases hlane.symm.trans he
  | some x =>
    rw [hlane] at herr hr'
    dsimp only at herr hr' ⊢
    rw [(quiet_selectExtensions C r f bytes b).2.2.1 (not_hostWelcome hlane hauth)] at herr hr' ⊢
    by_cases hneg : b.extensionNegotiated r x = true
    · rw [if_pos hneg] at herr hr' ⊢
      obtain ⟨hcheck, hoffer, hcar, hready⟩ := admitHostFrame_refused hr (admitHostFrame_error herr) hr'
      refine takes _ hcheck fun e he => ?_
      obtain rfl := Option.some.inj (hlane.symm.trans he)
      exact (extensionNegotiated_congr x hcheck hoffer hcar hready).trans hneg
    · rw [if_neg hneg] at herr hr'
      exfalso
      split at herr
      · rw [protocolViolation_error] at herr
        cases herr
        cases hcode
      · next hwithdrawn =>
        rw [if_neg hwithdrawn] at hr'
        split at herr
        · next hk =>
          rw [if_pos hk] at hr'
          obtain ⟨r₁, hr₁, hid₁, hst₁⟩ : ∃ r₁,
              ((b.consumeHostFrame r.routeId f).emit (.admitted r.routeId seq bytes none)).routeOf r.routeId = some r₁ ∧
              r₁.routeId = r.routeId ∧ r₁.status = r.status := ⟨_, routeOf_setRoute_at hr (by exact fun _ => rfl), rfl, rfl⟩
          rw [hr₁] at herr hr'
          have hclosing := unavailable_refused (by rw [hst₁, hopen]; decide) herr (by rw [hid₁]; exact hr')
          rw [opened] at hclosing
          cases hclosing
        · cases herr

theorem routeDataChecked_refused {c : Carrier} {r r' : Route} {seq : Nat} {bytes : Bytes} {e : StructuredError}
    (hr : b.routeOf r.routeId = some r) (hst : r.status = .opened ∨ r.status = .closing)
    (herr : (b.routeDataChecked C c r seq bytes).1.error = some e) (hcode : e.code = .slowConsumer)
    (hr' : (b.routeDataChecked C c r seq bytes).2.routeOf r.routeId = some r') (opened : r'.status = .opened) :
    seq = r.expectedHostToClientSeq ∧ ∃ f, Takes C (b.routeDataChecked C c r seq bytes).2 c r' seq bytes f := by
  unfold Broker.routeDataChecked at *
  have violated : ∀ reason, (b.protocolViolation C c reason).1.error = some e → False := by
    intro reason h
    rw [protocolViolation_error] at h
    cases h
    cases hcode
  split at herr
  · exact (violated _ herr).elim
  · next hseq =>
    rw [if_neg hseq] at hr' ⊢
    have hseq' : seq = r.expectedHostToClientSeq := by simpa using hseq
    refine ⟨hseq', ?_⟩
    cases hf : C.codec.decodePublic bytes with
    | none =>
      rw [hf] at herr
      exact (violated _ herr).elim
    | some f =>
      rw [hf] at herr hr'
      dsimp only at herr hr' ⊢
      split at herr
      · exact (violated _ herr).elim
      · next hid =>
        rw [if_neg hid] at hr' ⊢
        split at herr
        · exact (violated _ herr).elim
        · next hresp =>
          rw [if_neg hresp] at hr' ⊢
          split at herr
          · split at herr
            · exact (violated _ herr).elim
            · cases herr
          · next hnot =>
            rw [if_neg hnot] at hr' ⊢
            simp only [Bool.or_eq_true, not_or, decide_eq_true_eq, Nat.not_lt, Bool.not_eq_true', Bool.not_eq_false] at hid
            refine ⟨f, deliverHostFrame_refused hr (hst.resolve_right hnot) hseq' hf hid.1 hid.2 ?_ herr hcode hr' opened⟩
            intro hk
            by_contra hany
            exact hresp (by simp [hk, hany])

end

end Relay
end TmuxWorktree
