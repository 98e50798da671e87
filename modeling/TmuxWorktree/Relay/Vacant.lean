import TmuxWorktree.Relay.Sound
/-!
# Vacant — a carrier that is not the owner holds nothing

A carrier gets frames only while it is active, so one that is not yet, or no longer, active stays empty.  The only move
that fills such a carrier is the late answer to an auth control.
-/
namespace TmuxWorktree
namespace Relay

def CarrierStatus.Retired (s : CarrierStatus) : Prop := s = .superseded ∨ s = .closed

/-- How the status of a carrier goes on from one that is not active. -/
def CarrierStatus.GoesTo (s s' : CarrierStatus) : Prop :=
  s' = s ∨ s'.Retired ∨ (s = .pending ∧ s' = .registering) ∨ (s = .registering ∧ s' = .active)

namespace Carrier.Vacant

variable {c c' : Carrier}

theorem of_bare (h : c.Vacant) (hb : c'.bare = c.bare) : c'.Vacant := by
  have hr : c'.routeIds = c.routeIds := bare_field Carrier.bare Carrier.routeIds (fun _ => rfl) hb
  have hd : c'.dataQueues = c.dataQueues := bare_field Carrier.bare Carrier.dataQueues (fun _ => rfl) hb
  have hk : c'.controlQueue = c.controlQueue := bare_field Carrier.bare Carrier.controlQueue (fun _ => rfl) hb
  have ho : c'.dataOrder = c.dataOrder := bare_field Carrier.bare Carrier.dataOrder (fun _ => rfl) hb
  have hi : c'.inFlight = c.inFlight := bare_field Carrier.bare Carrier.inFlight (fun _ => rfl) hb
  have hq : c'.queuedBytes = c.queuedBytes := bare_field Carrier.bare Carrier.queuedBytes (fun _ => rfl) hb
  have hf : c'.inFlightBytes = c.inFlightBytes := bare_field Carrier.bare Carrier.inFlightBytes (fun _ => rfl) hb
  have hh : c'.hostToClientBufferedBytes = c.hostToClientBufferedBytes := bare_field Carrier.bare Carrier.hostToClientBufferedBytes (fun _ => rfl) hb
  exact ⟨hr.trans h.routeIds, ⟨hk.trans h.empty.control, hd.trans h.empty.data, ho.trans h.empty.order,
    hi.trans h.empty.inFlight, hq.trans h.empty.queuedBytes, hf.trans h.empty.inFlightBytes,
    hh.trans h.empty.hostToClient⟩⟩

theorem discarded (c : Carrier) : c.discarded.Vacant := ⟨rfl, ⟨rfl, rfl, rfl, rfl, rfl, rfl, rfl⟩⟩

theorem invalidateIfEmpty (h : c.Vacant) : c.invalidateIfEmpty.Vacant := by
  unfold Carrier.invalidateIfEmpty
  split
  · exact ⟨h.routeIds, h.empty.control, h.empty.data, h.empty.order, h.empty.inFlight, h.empty.queuedBytes,
      h.empty.inFlightBytes, h.empty.hostToClient⟩
  · exact h

theorem withoutData (h : c.Vacant) (id : Nat) : c.withoutData id = c := by
  unfold Carrier.withoutData Carrier.dataQueue
  rw [h.empty.data, Keyed.find_nil]

theorem withoutControl (h : c.Vacant) (id : Nat) : (c.withoutControl id).Vacant := by
  refine invalidateIfEmpty ⟨h.routeIds, ?_, h.empty.data, h.empty.order, h.empty.inFlight, ?_, h.empty.inFlightBytes,
    h.empty.hostToClient⟩
  · show c.controlQueue.filter _ = []
    rw [h.empty.control]
    rfl
  · show c.queuedBytes - wireSum (c.controlQueue.filter _) = 0
    rw [h.empty.control, h.empty.queuedBytes]
    rfl

theorem releasing (h : c.Vacant) (entries : List QueuedClientFrame) : (c.releasing entries).Vacant := by
  refine ⟨h.routeIds, h.empty.control, h.empty.data, h.empty.order, h.empty.inFlight, h.empty.queuedBytes,
    h.empty.inFlightBytes, ?_⟩
  show release c.hostToClientBufferedBytes _ = 0
  rw [h.empty.hostToClient]
  unfold release
  induction (entries.filter QueuedClientFrame.carrierAccounted).map fun e => e.bytes.byteLength with
  | nil => rfl
  | cons n l ih =>
    have hzero : max (0 : Int) (0 - n) = 0 := by omega
    rw [List.foldl_cons, hzero]
    exact ih

end Carrier.Vacant

section
variable {D D' : List Nat} {b b' : Broker} {s : Nat}

theorem vacant_setCarrier {c : Carrier} {f : Carrier → Carrier} (x : Nat) (hc : b.carrierOf s = some c) (hv : c.Vacant)
    (hf : ∀ c, (f c).serial = c.serial) (hkeep : ∀ c : Carrier, c.Vacant → (f c).Vacant ∧ (f c).status = c.status) :
    ∃ c', (b.setCarrier x f).carrierOf s = some c' ∧ c'.Vacant ∧ c'.status = c.status := by
  by_cases hs : s = x
  · subst hs
    rw [carrierOf_setCarrier_self hf, hc]
    exact ⟨f c, rfl, (hkeep c hv).1, (hkeep c hv).2⟩
  · rw [carrierOf_setCarrier_ne hf hs]
    exact ⟨c, hc, hv, rfl⟩

theorem vacant_release {c : Carrier} (r : Route) (entries : List QueuedClientFrame) (hc : b.carrierOf s = some c)
    (hv : c.Vacant) :
    ∃ c', (b.releaseHostToClient r entries).carrierOf s = some c' ∧ c'.Vacant ∧ c'.status = c.status := by
  unfold Broker.releaseHostToClient
  dsimp only
  split
  · exact ⟨c, hc, hv, rfl⟩
  · exact vacant_setCarrier _ hc hv (fun _ => rfl) fun c hc => ⟨hc.releasing entries, rfl⟩

theorem vacant_discardData {c : Carrier} (x : Carrier) (id : Nat) (hc : b.carrierOf s = some c) (hv : c.Vacant) :
    ∃ c', (b.discardQueuedRouteData x id).carrierOf s = some c' ∧ c'.Vacant ∧ c'.status = c.status := by
  unfold Broker.discardQueuedRouteData
  split
  · exact ⟨c, hc, hv, rfl⟩
  · exact vacant_setCarrier _ hc hv (fun c => (c.face_withoutData id).1) fun c hc => by
      rw [hc.withoutData id]
      exact ⟨hc, rfl⟩

theorem vacant_drop {c : Carrier} (r : Route) (hc : b.carrierOf s = some c) (hv : c.Vacant) :
    ∃ c', (b.dropRoute r).carrierOf s = some c' ∧ c'.Vacant ∧ c'.status = c.status := by
  have hcarrier : ∃ c', (Broker.dropFromCarrier r b).carrierOf s = some c' ∧ c'.Vacant ∧ c'.status = c.status := by
    unfold Broker.dropFromCarrier
    split
    · exact ⟨c, hc, hv, rfl⟩
    · next x _ =>
      obtain ⟨c₁, h₁, v₁, e₁⟩ := vacant_discardData x r.routeId hc hv
      obtain ⟨c₂, h₂, v₂, e₂⟩ := vacant_setCarrier x.serial h₁ v₁ (fun c => (c.face_withoutControl r.routeId).1)
        fun c hc => ⟨hc.withoutControl r.routeId, congrArg CarrierFace.status (c.face_withoutControl r.routeId).2⟩
      obtain ⟨c₃, h₃, v₃, e₃⟩ := vacant_setCarrier (f := fun c => { c with routeIds := c.routeIds.erase r.routeId })
        x.serial h₂ v₂ (fun _ => rfl) fun c hc => ⟨⟨by rw [hc.routeIds]; rfl, hc.empty.control, hc.empty.data,
          hc.empty.order, hc.empty.inFlight, hc.empty.queuedBytes, hc.empty.inFlightBytes, hc.empty.hostToClient⟩, rfl⟩
      exact ⟨c₃, h₃, v₃, e₃.trans (e₂.trans e₁)⟩
  obtain ⟨c₁, h₁, v₁, e₁⟩ := hcarrier
  have hclient : ∃ c', (Broker.dropFromClient r (Broker.dropFromCarrier r b)).carrierOf s = some c' ∧ c'.Vacant ∧
      c'.status = c₁.status := by
    unfold Broker.dropFromClient
    split
    · exact ⟨c₁, h₁, v₁, rfl⟩
    · exact vacant_release r _ h₁ v₁
  obtain ⟨c₂, h₂, v₂, e₂⟩ := hclient
  exact ⟨c₂, h₂, v₂, e₂.trans e₁⟩

variable {C : Config} {P : Permits}

/-- **A carrier that is not active stays vacant**, until it becomes the owner. -/
theorem Move.vacant (h : Sound D b) (hl : ¬ P.late) (m : Move C P D b D' b') {c : Carrier} (hc : b.carrierOf s = some c)
    (hst : c.status ≠ .active) (hv : c.Vacant) :
    ∃ c', b'.carrierOf s = some c' ∧ c'.Vacant ∧ c.status.GoesTo c'.status := by
  have hsame : c.status.GoesTo c.status := .inl rfl
  have stay : ∀ {b' : Broker}, b'.carrierOf s = b.carrierOf s →
      ∃ c', b'.carrierOf s = some c' ∧ c'.Vacant ∧ c.status.GoesTo c'.status := fun heq => ⟨c, heq.trans hc, hv, hsame⟩
  have keep : ∀ {b' : Broker}, (∃ c', b'.carrierOf s = some c' ∧ c'.Vacant ∧ c'.status = c.status) →
      ∃ c', b'.carrierOf s = some c' ∧ c'.Vacant ∧ c.status.GoesTo c'.status := fun ⟨c', h', v', e'⟩ =>
    ⟨c', h', v', .inl e'⟩
  -- an active carrier is another one
  have other : ∀ {x : Carrier}, b.carrierOf x.serial = some x → x.status = .active → s ≠ x.serial := by
    rintro x hx ha rfl
    obtain rfl := Option.some.inj (hc.symm.trans hx)
    exact hst ha
  have dispatched : ∀ {x : Carrier} (e : QueuedCarrierFrame), s ≠ x.serial → (b.dispatch x.serial e).carrierOf s = b.carrierOf s := by
    intro x e hne
    unfold Broker.dispatch
    dsimp only
    split <;> exact carrierOf_setCarrier_ne (by exact fun _ => rfl) hne
  cases m with
  | quiet hq =>
    obtain ⟨c', h', hb⟩ := find_of_map_bare hq.carriers.symm (fun _ => rfl) hc
    exact ⟨c', h', hv.of_bare hb, .inl (bare_field Carrier.bare Carrier.status (fun _ => rfl) hb)⟩
  | mark => exact stay rfl
  | unmark => exact stay rfl
  | attach t a i =>
    refine stay ?_
    show Keyed.find Carrier.serial s (b.carriers ++ [_]) = _
    rw [Keyed.find_append_single]
    show (b.carrierOf s).or _ = b.carrierOf s
    rw [hc]
    rfl
  | @enroll _ _ x hello k g _ hx _ pending =>
    by_cases hs : s = x.serial
    · subst hs
      obtain rfl := Option.some.inj (hc.symm.trans hx)
      refine ⟨_, carrierOf_setCarrier_at hc (by exact fun _ => rfl), ⟨hv.routeIds, ?_⟩, .inr (.inr (.inl ⟨pending, rfl⟩))⟩
      exact ⟨hv.empty.control, hv.empty.data, hv.empty.order, hv.empty.inFlight, hv.empty.queuedBytes,
        hv.empty.inFlightBytes, hv.empty.hostToClient⟩
    · exact stay (carrierOf_setCarrier_ne (by exact fun _ => rfl) hs)
  | rebase g hx =>
    exact keep (vacant_setCarrier _ hc hv (fun _ => rfl) fun c hv => ⟨⟨hv.routeIds, hv.empty.control, hv.empty.data,
      hv.empty.order, hv.empty.inFlight, hv.empty.queuedBytes, hv.empty.inFlightBytes, hv.empty.hostToClient⟩, rfl⟩)
  | @activate _ _ x hello previous _ hx _ registering =>
    have hof : ∀ k, (b.activate C x hello previous).carrierOf k = (b.setCarrier x.serial fun c =>
        { c with registration := none, status := .active }).carrierOf k := fun k => by
      unfold Broker.carrierOf
      rw [activate_carriers]
      rfl
    by_cases hs : s = x.serial
    · subst hs
      obtain rfl := Option.some.inj (hc.symm.trans hx)
      obtain ⟨f, hf, _, _, hreg, _⟩ := h.owned.registering _ _ registering
      rw [ownership_carrier hc] at hf
      obtain rfl := Option.some.inj hf
      refine ⟨_, (hof _).trans (carrierOf_setCarrier_at hc (by exact fun _ => rfl)), ⟨hv.routeIds, ?_⟩,
        .inr (.inr (.inr ⟨hreg, rfl⟩))⟩
      exact ⟨hv.empty.control, hv.empty.data, hv.empty.order, hv.empty.inFlight, hv.empty.queuedBytes,
        hv.empty.inFlightBytes, hv.empty.hostToClient⟩
    · exact stay ((hof s).trans (carrierOf_setCarrier_ne (by exact fun _ => rfl) hs))
  | offline => exact stay rfl
  | unregister => exact stay rfl
  | forget hx =>
    exact keep (vacant_setCarrier _ hc hv (fun _ => rfl) fun c hv => ⟨⟨hv.routeIds, hv.empty.control, hv.empty.data,
      hv.empty.order, hv.empty.inFlight, hv.empty.queuedBytes, hv.empty.inFlightBytes, hv.empty.hostToClient⟩, rfl⟩)
  | @retire _ _ x st hx _ retired =>
    by_cases hs : s = x.serial
    · subst hs
      refine ⟨_, carrierOf_setCarrier_at hc (by exact fun _ => rfl), ⟨hv.routeIds, ?_⟩, .inr (.inl retired)⟩
      exact ⟨hv.empty.control, hv.empty.data, hv.empty.order, hv.empty.inFlight, hv.empty.queuedBytes,
        hv.empty.inFlightBytes, hv.empty.hostToClient⟩
    · exact stay (carrierOf_setCarrier_ne (by exact fun _ => rfl) hs)
  | @discard _ _ x hx =>
    have hof : ∃ c', (b.discardCarrier x.serial).carrierOf s = some c' ∧ c'.Vacant ∧ c'.status = c.status := by
      unfold Broker.discardCarrier
      rw [hx]
      dsimp only
      generalize hb : x.inFlight.foldl _ b = b₁
      have hlist : b₁.carriers = b.carriers := hb ▸ discardCarrier_carriers x.inFlight b
      have hcar : b₁.carrierOf s = b.carrierOf s := by
        unfold Broker.carrierOf
        rw [hlist]
      exact vacant_setCarrier _ (hcar.trans hc) hv (fun _ => rfl) fun c _ => ⟨Carrier.Vacant.discarded c, rfl⟩
    exact keep hof
  | detach hx =>
    exact keep (vacant_setCarrier _ hc hv (fun _ => rfl) fun c hv => ⟨⟨hv.routeIds, hv.empty.control, hv.empty.data,
      hv.empty.order, hv.empty.inFlight, hv.empty.queuedBytes, hv.empty.inFlightBytes, hv.empty.hostToClient⟩, rfl⟩)
  | openRoute connectionId a i connectorId _ hx _ active =>
    have hne := other hx active
    exact stay ((carrierOf_setCarrier_ne (by exact fun _ => rfl) hne).trans (carrierOf_setCarrier_ne (by exact fun _ => rfl) hne))
  | drop => exact keep (vacant_drop _ hc hv)
  | welcome => exact stay rfl
  | @close _ _ x r withControl hon =>
    obtain ⟨c₁, h₁, v₁, e₁⟩ := vacant_discardData x r.routeId hc hv
    have hcontrol : ∃ c', (if withControl then
        (b.discardQueuedRouteData x r.routeId).discardQueuedRouteControl x.serial r.routeId
        else b.discardQueuedRouteData x r.routeId).carrierOf s = some c' ∧ c'.Vacant ∧ c'.status = c₁.status := by
      split
      · exact vacant_setCarrier x.serial h₁ v₁ (fun c => (c.face_withoutControl r.routeId).1)
          fun c hc => ⟨hc.withoutControl r.routeId, congrArg CarrierFace.status (c.face_withoutControl r.routeId).2⟩
      · exact ⟨c₁, h₁, v₁, rfl⟩
    obtain ⟨c₂, h₂, v₂, e₂⟩ := hcontrol
    have hclient : ∃ c', (b.closeRoute x r withControl).carrierOf s = some c' ∧ c'.Vacant ∧ c'.status = c₂.status := by
      unfold Broker.closeRoute Broker.discardQueuedClientData
      dsimp only
      split
      · exact ⟨c₂, h₂, v₂, rfl⟩
      · exact vacant_release r _ h₂ v₂
    obtain ⟨c₃, h₃, v₃, e₃⟩ := hclient
    exact keep ⟨c₃, h₃, v₃, e₃.trans (e₂.trans e₁)⟩
  | unbind reason hon => exact stay (carrierOf_setCarrier_ne (by exact fun _ => rfl) (other hon.carrier hon.active))
  | control frame hx active => exact stay (carrierOf_setCarrier_ne (by exact fun _ => rfl) (other hx (active.resolve_right hl)))
  | @forward _ _ x r f bytes _ hon =>
    refine stay ?_
    obtain ⟨g, heq, _⟩ := noteRequest_eq r.routeId f (b.pushEntry x.serial r (Broker.dataEntry C r bytes) bytes)
    rw [heq]
    exact carrierOf_setCarrier_ne (fun c => (c.face_pushData _ _).1) (other hon.carrier hon.active)
  | make made charged hon => exact stay (carrierOf_setCarrier_ne (by exact fun _ => rfl) (other hon.carrier hon.active))
  | accept f bytes out _ hon => exact stay (carrierOf_setCarrier_ne (by exact fun _ => rfl) (other hon.carrier hon.active))
  | consume => exact stay rfl
  | dispatchControl e rest hx active =>
    have hne := other hx active
    exact stay ((carrierOf_setCarrier_ne (by exact fun _ => (Carrier.face_invalidateIfEmpty _).1) hne).trans (dispatched e hne))
  | dispatchData routeId e rest hx active =>
    have hne := other hx active
    exact stay ((carrierOf_setCarrier_ne (fun c => (c.face_popData _ _).1) hne).trans (dispatched e hne))
  | @skip _ _ x routeId hx turn =>
    have hne : s ≠ x.serial := by
      rintro rfl
      obtain rfl := Option.some.inj (hc.symm.trans hx)
      rw [hv.empty.order] at turn
      cases turn
    exact stay (carrierOf_setCarrier_ne (by exact fun _ => (Carrier.face_invalidateIfEmpty _).1) hne)
  | @acknowledge _ _ x e hx he =>
    have hne : s ≠ x.serial := by
      rintro rfl
      obtain rfl := Option.some.inj (hc.symm.trans hx)
      rw [hv.empty.inFlight] at he
      cases he
    refine stay ?_
    unfold Broker.acknowledge
    dsimp only
    split <;> exact carrierOf_setCarrier_ne (by exact fun _ => rfl) hne
  | hand => exact stay rfl
  | received e _ _ _ =>
    exact keep (vacant_release (b := b.setClient _ _) _ _ hc hv)
  | lost => exact stay rfl
  | clock => exact stay rfl
  | pause => exact stay rfl
  | resume => exact stay rfl
  | withdraw e =>
    refine stay ?_
    unfold Broker.withdrawOptionalCapability
    split <;> rfl
  | violate => exact stay rfl

theorem CarrierStatus.GoesTo.retired {x y : CarrierStatus} (h : x.GoesTo y) (hx : x.Retired) : y.Retired := by
  rcases h with rfl | hy | ⟨rfl, _⟩ | ⟨rfl, _⟩
  · exact hx
  · exact hy
  · rcases hx with hx | hx <;> cases hx
  · rcases hx with hx | hx <;> cases hx

theorem CarrierStatus.Retired.ne_active {x : CarrierStatus} (h : x.Retired) : x ≠ .active := by
  rcases h with rfl | rfl <;> simp

/-- **A carrier out of use stays so.** -/
theorem Path.retired (p : Path C P D b D' b') (h : Sound D b) (hl : ¬ P.late) {c : Carrier} (hc : b.carrierOf s = some c)
    (hst : c.status.Retired) (hv : c.Vacant) : ∃ c', b'.carrierOf s = some c' ∧ c'.Vacant ∧ c'.status.Retired := by
  induction p generalizing c with
  | refl => exact ⟨c, hc, hv, hst⟩
  | step first _ ih =>
    obtain ⟨c₁, h₁, v₁, g₁⟩ := first.vacant h hl hc hst.ne_active hv
    exact ih (first.sound h) h₁ (g₁.retired hst) v₁

end

end Relay
end TmuxWorktree
