import TmuxWorktree.Terminal.Resolve
/-!
# Reserve — the relay v2 sections keep the protocol

The reservation of an exact target, its rollback, and the read observations.  A reservation hands out its lease twice:
when it is prepared, under the owner of its input, and when it is consumed, under the consumer's.
-/
namespace TmuxWorktree
namespace Terminal

open Effect

variable {env : Env} {B : Bounds} {c : Watch} {m : Mode} {id : String} {t t' : TargetRecord} {w w' : World} {α : Type}

/-! ## Bounded identities -/

theorem utf16_le_utf8 (c : Char) : (if c.toNat < 0x10000 then 1 else 2) ≤ c.utf8Size := by
  split
  · exact c.utf8Size_pos
  · rename_i h
    unfold Char.utf8Size
    dsimp only
    split
    · rename_i hv
      exact absurd (show c.toNat ≤ 127 from hv) (by omega)
    · split
      · exact le_rfl
      · split <;> decide

theorem utf16Length_le (s : String) : utf16Length s ≤ s.utf8ByteSize := by
  have h : ∀ l : List Char,
      (l.map (fun c => if c.toNat < 0x10000 then 1 else 2)).sum ≤ (String.ofList l).utf8ByteSize := by
    intro l
    induction l with
    | nil => simp
    | cons c l ih =>
      rw [String.ofList_cons, String.utf8ByteSize_append, String.utf8ByteSize_singleton, List.map_cons, List.sum_cons]
      exact Nat.add_le_add (utf16_le_utf8 c) ih
  simpa [utf16Length] using h s.toList

theorem utf16Length_pos {s : String} (h : s.toList ≠ []) : 0 < utf16Length s := by
  unfold utf16Length
  obtain ⟨c, l, he⟩ := List.exists_cons_of_ne_nil h
  rw [he, List.map_cons, List.sum_cons]
  split <;> omega

theorem stored_of_boundedId {s s' : String} {max : Nat} (h : relayV2ExactBoundedId s max = .ok s') :
    s' = s ∧ isStoredString s max = true := by
  unfold relayV2ExactBoundedId at h
  split at h
  · cases h
  · rename_i hc
    simp only [Bool.or_eq_true, decide_eq_true_eq, Bool.not_eq_true', not_or, Bool.not_eq_false, not_lt] at hc
    refine ⟨(Except.ok.inj h).symm, ?_⟩
    simp only [isStoredString, Bool.and_eq_true, decide_eq_true_eq]
    exact ⟨⟨utf16Length_pos hc.1.1.1.1, (utf16Length_le s).trans hc.2⟩, hc.1.2⟩

theorem except_bind_ok {ε α β : Type} {x : Except ε α} {f : α → Except ε β} {b : β} (h : (x >>= f) = .ok b) :
    ∃ a, x = .ok a ∧ f a = .ok b := by
  cases x with
  | error e => cases h
  | ok a => exact ⟨a, rfl, h⟩

theorem relayV2ExactInput_ok {raw input : ExactInput} (h : relayV2ExactInput raw = .ok input) :
    isInteractiveOwner input.owner = true ∧ isStoredString input.owner.instanceId 256 = true ∧
      isStoredString input.managedTarget.name 128 = true := by
  unfold relayV2ExactInput at h
  split at h
  · cases h
  · obtain ⟨hostId, -, h⟩ := except_bind_ok h
    obtain ⟨scopeId, -, h⟩ := except_bind_ok h
    obtain ⟨sessionId, -, h⟩ := except_bind_ok h
    obtain ⟨targetId, -, h⟩ := except_bind_ok h
    obtain ⟨key, -, h⟩ := except_bind_ok h
    obtain ⟨name, hname, h⟩ := except_bind_ok h
    obtain ⟨instanceId, hown, h⟩ := except_bind_ok h
    obtain rfl := Except.ok.inj h
    obtain ⟨rfl, h1⟩ := stored_of_boundedId hname
    obtain ⟨rfl, h2⟩ := stored_of_boundedId hown
    exact ⟨rfl, h2, h1⟩

theorem observedIdentity_ok {input : ExactInput} {o : ExactObservation} {require : Bool} {identity : Option String}
    (h : relayV2ExactObservedIdentity input o require = .ok identity) :
    o.managedSession.name = input.managedTarget.name ∧ isCanonicalTimestamp o.managedSession.createdAt = true ∧
      identity.all (isStoredString · 128) = true ∧ (require = true → identity.isSome = true) := by
  unfold relayV2ExactObservedIdentity at h
  split at h
  · cases h
  · rename_i h1
    split at h
    · cases h
    · rename_i h2
      split at h
      · cases h
      · rename_i h3
        obtain rfl := Except.ok.inj h
        simp only [ne_eq, Bool.or_eq_true, decide_eq_true_eq, not_or, not_not, Bool.not_eq_true', Bool.not_eq_false]
          at h1 h2
        refine ⟨h1.1.1, h2.1.1, h2.2, fun hr => ?_⟩
        simpa [hr, Option.isSome_iff_ne_none] using h3

/-! ## Preparation -/

/-- A record that the section found or made. -/
structure Found (env : Env) (B : Bounds) (c : Watch) (id : String) (t : TargetRecord) (w : World) : Prop where
  on : On env B c (.at False) id t w
  mirrored : Mirrored id t w

theorem mustProvision_spec (hl : Loaded env B c w) (input : ExactInput) (named : List TargetRecord) :
    Sat (Good env B c) (mustProvision env input named) w (fun _ w' => Loaded env B c w' ∧ w'.mem = w.mem)
      (fun _ w' => Sound env B c none w') := by
  refine Sat.ite (fun _ => Sat.pure ⟨hl, rfl⟩) (fun _ => Sat.ite (fun _ => ?_) (fun _ => Sat.pure ⟨hl, rfl⟩))
  refine Sat.step (Sat.await (Q := fun _ w' => Loaded env B c w' ∧ w'.mem = w.mem) hl.sound
    (fun _ w' ha hs _ => ⟨hl.after ha hs, ha.mem⟩) (fun _ _ _ hs => hs)) ?_
  rintro observed w₁ ⟨hl₁, hm₁⟩
  exact Sat.step (P := fun _ w' => w₁ = w') (Sat.ofExcept (fun _ _ => rfl) (fun _ _ => hl₁.sound))
    (fun _ _ he => Sat.pure (he ▸ ⟨hl₁, hm₁⟩))

theorem inspectExact_spec (hE : env.Within B) (hl : Loaded env B c w) (input : ExactInput) {named : List TargetRecord}
    (hnamed : ∀ t ∈ named, t ∈ w.mem.targets) :
    Sat (Good env B c) (inspectExact env input named) w (fun r w' => Found env B c r.1.controlTargetId r.1 w')
      (fun _ w' => Sound env B c none w') := by
  refine Sat.step (Sat.await (Q := fun _ w' => Loaded env B c w' ∧ w'.mem = w.mem) hl.sound
    (fun _ w' ha hs _ => ⟨hl.after ha hs, ha.mem⟩) (fun _ _ _ hs => hs)) ?_
  rintro inspected w₁ ⟨hl₁, hm₁⟩
  refine Sat.step (P := fun _ w' => w₁ = w') (Sat.ofExcept (fun _ _ => rfl) (fun _ _ => hl₁.sound)) ?_
  rintro - _ rfl
  split
  · rename_i t hf
    have hmem : t ∈ w₁.mem.targets := by
      rw [hm₁]
      exact hnamed t (List.mem_filter.1 (hf ▸ List.mem_singleton_self t)).1
    obtain ⟨h₁, hsav⟩ := hl₁.on ((hl₁.sound.wellFormed hE).mem.get hmem)
    exact Sat.pure ⟨h₁, hsav.mirrored⟩
  · exact Sat.throw hl₁.sound
  · exact Sat.throw hl₁.sound

theorem New.prepare (hE : env.Within B) (h : New env B c id t w) :
    Sat (Good env B c) (prepareOutput env id) w (fun _ w' => ∃ t', Found env B c id t' w')
      (fun _ w' => Sound env B c none w') := by
  have hlive : On env B c .live id t w := h.on.see hE h.mirrored h.active (fun x hx => by
    rw [drainsUntil_eq_none (by rw [Ownership.eq_free_of_isFree h.free]; rfl)] at hx
    cases hx)
  refine (prepareOutput_spec hE hlive trivial h.active h.idle).mono ?_ (fun _ _ he => he.sound)
  rintro p w' ⟨t', h', ht, hk, -⟩
  exact ⟨t', h'.forget False.elim, h.mirrored.kept ht hk⟩

theorem provisionExact_spec (hE : env.Within B) {n : Nat} (hd : env.Distinct n) (hl : Loaded env B c w) {input : ExactInput}
    (hname : isStoredString input.managedTarget.name 128 = true) :
    Sat (fun w' => w'.tick ≤ n → Good env B c w')
      (provisionExact env input (namedTargets w.mem input.managedTarget.name)) w
      (fun r w' => w'.tick ≤ n → ∃ t, Found env B c r.1 t w') (fun _ w' => w'.tick ≤ n → Sound env B c none w') := by
  refine Sat.step (P := fun _ w' => w = w') (Sat.require (fun _ => rfl) (fun _ _ => hl.sound)) ?_
  rintro - _ rfl
  refine Sat.step ((Sat.await (Q := fun _ w' => Loaded env B c w' ∧ w'.mem = w.mem) hl.sound
    (E := fun _ w' => Sound env B c none w') (fun _ w' ha hs _ => ⟨hl.after ha hs, ha.mem⟩) (fun _ _ _ hs => hs)).imp
      (fun _ hg _ => hg) (fun _ _ hq => hq) (fun _ _ he _ => he)) ?_
  rintro established w₁ ⟨hl₁, hm₁⟩
  refine Sat.step (P := fun identity w' => w₁ = w' ∧
      relayV2ExactObservedIdentity input established true = .ok identity)
    (Sat.ofExcept (fun _ ha => ⟨rfl, ha⟩) (fun _ _ _ => hl₁.sound)) ?_
  rintro identity _ ⟨rfl, hid⟩
  obtain ⟨hn, ht, hstored, hsome⟩ := observedIdentity_ok hid
  obtain ⟨tmux, rfl⟩ := Option.isSome_iff_exists.1 (hsome rfl)
  obtain ⟨w₂, heq, hr⟩ := invalidateTargets_spec hE
    ((namedTargets w.mem input.managedTarget.name).map (·.controlTargetId)) hl₁.sound hl₁.epochs (fun id hid => by
      obtain ⟨t, ht, rfl⟩ := List.mem_map.1 hid
      rw [← hm₁] at ht
      exact ⟨t, (hl₁.sound.wellFormed hE).mem.get (List.mem_filter.1 ht).1⟩)
  refine Sat.next heq ?_
  have hfree : ∀ t ∈ w₂.mem.targets, t.lifecycle ≠ .targetGone →
      t.managedSession.name ≠ established.managedSession.name := by
    intro t ht hgt hne
    by_cases hin : t.controlTargetId ∈ (namedTargets w.mem input.managedTarget.name).map (·.controlTargetId)
    · exact hgt (hr.gone t ht hin)
    · refine hin (List.mem_map_of_mem (List.mem_filter.2 ⟨hm₁ ▸ hr.old t ht hin, ?_⟩))
      simpa using ⟨hgt, hne.trans hn⟩
  by_cases hlt : w₂.tick < n
  · obtain ⟨id, t, w₃, hpush, h₃⟩ := pushTarget_spec hE hd hlt hr.sound (by rw [hr.disk, hr.epoch]; exact hl₁.epochs)
      (hl₁.start.trans hr.tick) hfree
      (by simp [Bounds.session, hn, hE.stored _ _ hname, hE.time _ ht]) (hE.stored tmux 128 (by simpa using hstored))
    exact Sat.next hpush (Sat.step ((h₃.prepare hE).imp (fun _ hg _ => hg) (fun _ _ hq => hq) (fun _ _ he _ => he))
      (fun _ _ hf => Sat.pure (fun _ => hf)))
  · have hover : n < w₂.tick + 3 := (not_lt.1 hlt).trans_lt (Nat.lt_add_of_pos_right (Nat.succ_pos 2))
    refine Sat.next (x := pushTarget env _ _) rfl (Sat.of_along (R := Later) (fun w' hw hle => ?_) (fun _ w' hw hle => ?_)
      (fun _ w' hw hle => ?_)) <;>
    exact absurd (hover.trans_le hw) (not_lt.2 hle)

theorem exactIdentity_spec (hE : env.Within B) (h : Found env B c id t w) (hl : t.lifecycle ≠ .targetGone) :
    Sat (Good env B c) (exactIdentity env id) w (fun _ w' => Found env B c id t w') (fun _ w' => Sound env B c none w') := by
  refine Sat.tryCatch (F := fun _ w' => On env B c (.at False) id t w')
    (Sat.await h.on.sound (fun _ w' ha hs _ => ⟨h.on.after ha hs, h.mirrored.after ha⟩)
      (fun _ w' ha hs => h.on.after ha hs)) ?_
  intro error w₁ h₁
  refine Sat.ite (fun _ => ?_) (fun _ => Sat.throw h₁.sound)
  exact (retireAndThrow_spec hE h₁ hl False.elim _).mono (fun _ _ hq => hq) (fun _ _ he => he.sound)

/-- **`reconcileRelayV2ExactInDoubtOperation`**: the in-doubt message of a relay v2 owner is acknowledged. -/
theorem reconcileExact_spec (hE : env.Within B) (h : Found env B c id t w) :
    Sat (Good env B c) (reconcileRelayV2ExactInDoubtOperation env id) w (fun _ w' => ∃ t', Found env B c id t' w')
      (fun _ w' => Sound env B c none w') := by
  refine Sat.next (targetById_eq h.on.get) (Sat.ite (fun _ => Sat.pure ⟨t, h⟩) (fun hx => ?_))
  have hx : isExactInDoubt t = true := by simpa using hx
  have hl : t.lifecycle = .recoveryRequired := by
    unfold isExactInDoubt at hx
    split at hx
    · cases hx
    · simp only [Bool.and_eq_true, decide_eq_true_eq] at hx
      exact hx.1.1.1.1
  have hng : t.lifecycle ≠ .targetGone := by rw [hl]; decide
  refine Sat.step (exactIdentity_spec hE h hng) (fun _ w₁ h₁ => ?_)
  refine Sat.bind (recoverOutput_spec hE h₁.on hng) (fun _ _ he => he.sound) ?_
  rintro p w₂ ⟨t₂, h₂, ht₂, hk₂, -⟩
  have hmir₂ := h₁.mirrored.kept ht₂ hk₂
  have hx₂ : isExactInDoubt t₂ = true := by
    obtain ⟨g, r, u, rfl⟩ := ht₂
    exact hx
  have hl₂ : t₂.lifecycle = .recoveryRequired := ht₂.facts.1.trans hl
  have hfree : t₂.ownership.isFree = true := (h₂.shape hE).free (by rw [hl₂]; decide)
  have hu := h₂.unique hE
  have hget := h₂.get
  refine Sat.next (x := resetInteractiveOwners id) rfl (Sat.next (x := logEvent _) rfl ?_)
  refine Sat.next (assign_eq (t := t₂) (by exact hu) (by exact hget) _) ?_
  have h₃ := ((h₂.reset hE (hmir₂.free hfree) rfl).ticks 1).move
    (Move.acknowledgeAt h₂.known.2 (t₂.revision + 1) (env.now w₂.tick) hx₂)
    (Bounds.target_active (h₂.bounds hE) rfl (hE.now _) _) (.inl (by rw [hl₂]; decide)) False.elim
    (.same rfl) (fun hc => .inl ⟨rfl, hc⟩)
  exact Sat.step (h₃.save hE (p := false) (fun hp => by cases hp) (drainsUntil_eq_none rfl) False.elim
    (fun hs => ⟨_, hs, (h₃.saved hE (by simp)).mirrored⟩) (fun _ w' hs => hs.sound)) (fun _ _ hs => Sat.pure hs)

theorem owner_of_leaseForOwner {epoch : String} {owner : Owner} {lease : Lease}
    (h : t.leaseForOwner epoch owner = .ok lease) : lease.owner = owner := by
  obtain ⟨l, -, h⟩ := except_bind_ok h
  split at h
  · cases h
  · split at h
    · rename_i ho
      obtain rfl := Except.ok.inj h
      exact sameOwner_iff.1 ho
    · obtain rfl := Except.ok.inj h
      rfl

theorem Sound.unclaimed (h : Sound env B c none w) {r : ClaimRecord} (hr : Event.issued r.lease ∈ w.trace)
    (hi : isInteractiveOwner r.lease.owner = true) :
    Sound env B c none { w with loc := { w.loc with unclaimed := w.loc.unclaimed ++ [r] } } := by
  refine ⟨h.toGood.withLocal (fun x hx => ?_) h.running, h.producers⟩
  simp only [← List.append_assoc, List.mem_append (s := w.loc.claims ++ w.loc.unclaimed), List.mem_singleton] at hx
  rcases hx with hx | rfl
  · exact h.claims x hx
  · exact ⟨hr, hi⟩

/-- **A free target is held for the input's owner**, and the claim waits to be registered. -/
theorem reserveExact_ends (hE : env.Within B) (h : Found env B c id t w) {input : ExactInput}
    (ho : B.owner input.owner = true) (hi : isInteractiveOwner input.owner = true) (externalEpoch : Nat)
    (paneIdentity : String) : Ends env B c (reserveExact env input externalEpoch id paneIdentity) w := by
  refine Ends.bind (reconcileAbandonedOwnership_spec hE h.on h.mirrored False.elim) (fun _ _ he => he.sound) ?_
  rintro - w₁ ⟨t₁, hr⟩
  refine Ends.bind (reconcileExact_spec hE ⟨hr.on, hr.mirrored⟩) (fun _ _ he => he) ?_
  rintro - w₂ ⟨t₂, h₂⟩
  refine Ends.bind (Q := fun _ w' => w₂ = w' ∧ t₂.ensureOperable = .ok ()) (E := fun _ w' => Sound env B c none w')
    (Sat.next (targetById_eq h₂.on.get) (Sat.ofExcept (fun _ ha => ⟨rfl, ha⟩) (fun _ _ => h₂.on.sound)))
    (fun _ _ he => he) ?_
  rintro - _ ⟨rfl, hop⟩
  obtain ⟨hg, hnr, -⟩ := ensureOperable_ok hop
  have ha : t₂.lifecycle = .active := by cases hl : t₂.lifecycle <;> simp_all
  refine Sat.next (x := Eff.get) rfl (Ends.require h₂.on.sound (fun _ => ?_))
  refine Sat.next (targetById_eq h₂.on.get) (Ends.require h₂.on.sound (fun hfree => ?_))
  obtain ⟨w₃, l, x, r, u, heq, h₃⟩ := grantOwnership_spec hE h₂.on ha ho hE.reservation
  refine Sat.next heq (Sat.next (x := resetInteractiveOwners id) rfl ?_)
  have hdisk : ∀ d ∈ w₃.disk, ∀ u, d.get? id = some u → u.ownership.isFree = true := by
    rw [h₃.disk]
    exact h₂.mirrored.free hfree
  refine Ends.bind (registerAfterReset_spec (h₃.on.reset hE hdisk rfl) rfl (Function.update_self _ _ _) input.owner
    (E := fun _ w' => Sound env B c none w')) (fun _ _ he => he) ?_
  rintro - _ ⟨l, rfl, h₄⟩
  refine Ends.bind (Q := fun _ w' => ∃ t', Settled env B c id t' w')
    (h₄.settle hE (fun hp => by cases hp) (by simp [ha]) (fun hs => ⟨_, hs⟩) (fun _ _ hs => hs)) (fun _ _ he => he) ?_
  rintro - w₅ ⟨t₅, h₅⟩
  refine Sat.next (x := controlEpoch) rfl (Sat.next (targetById_eq h₅.get) ?_)
  refine Ends.bind (issueLease_spec h₅ (some input.owner)) (fun _ _ he => he) ?_
  rintro lease _ ⟨rfl, hs, hlease⟩
  refine Sat.next (x := randomUUID env) rfl ?_
  exact (hs.ticks 1).unclaimed List.mem_cons_self (by rw [owner_of_leaseForOwner hlease]; exact hi)

theorem prepareRelayV2ExactTargetForProcess_ends (hE : env.Within B) {n : Nat} (hd : env.Distinct n)
    (h : Sound env B c none w) (hdisk : w.disk = c.disk) (hstart : c.start ≤ w.tick) (rawInput : ExactInput)
    (expected : Option ProcessTarget) :
    EndsBy env B c n (prepareRelayV2ExactTargetForProcess env rawInput expected) w := by
  refine EndsBy.bind (Q := fun input w' => w = w' ∧ relayV2ExactInput rawInput = .ok input)
    (Sat.ofExcept (fun _ ha => ⟨rfl, ha⟩) (fun _ _ => h)) (fun _ _ he => he) ?_
  rintro input _ ⟨rfl, hinput⟩
  obtain ⟨hint, hown, hname⟩ := relayV2ExactInput_ok hinput
  refine Sat.next (x := Eff.get) rfl
    (EndsBy.require h (fun _ => EndsBy.require h (fun _ => EndsBy.require h (fun _ => ?_))))
  refine EndsBy.locked hE h hdisk hstart (fun w₀ hl => ?_)
  refine Sat.next (x := Eff.get) rfl (EndsBy.require hl.sound (fun _ => ?_))
  refine EndsBy.bind (mustProvision_spec hl input _) (fun _ _ he => he) ?_
  rintro provision w₁ ⟨hl₁, hm₁⟩
  rw [← hm₁]
  refine Sat.step (P := fun r w' => w'.tick ≤ n → ∃ t, Found env B c r.1 t w')
    (Sat.ite (fun _ => provisionExact_spec hE hd hl₁ hname) (fun _ => ?_)) (fun found w₂ hfound => ?_)
  · exact (Sat.step (inspectExact_spec hE hl₁ input (fun t ht => (List.mem_filter.1 ht).1))
      (fun r _ hf => Sat.pure (fun _ => ⟨r.1, hf⟩))).imp (fun _ hg _ => hg) (fun _ _ hq => hq) (fun _ _ he _ => he)
  by_cases hle : w₂.tick ≤ n
  · exact Ends.by (reserveExact_ends hE (hfound hle).choose_spec (hE.stored _ _ hown) hint _ _) n
  · exact EndsBy.over (not_le.1 hle)

/-! ## Rollback -/

theorem unreserve_ends (hE : env.Within B) (h : On env B c m id t w) (ha : t.lifecycle = .active) {f : Unit → M α}
    (hf : ∀ w', Sound env B c none w' → Ends env B c (f ()) w') :
    Ends env B c (resetInteractiveOwners id >>= fun _ => freeOwnership env id >>= fun _ =>
      saveTerminalControlState env >>= f) w := by
  refine Sat.next (x := resetInteractiveOwners id) rfl ?_
  obtain ⟨w₁, r, u, heq, h₁⟩ := freeOwnership_spec hE (h.resetPending none) ha
  exact Sat.next heq (Ends.bind (h₁.on.finish hE (fun _ => h₁.advanced (by simp [TargetRecord.fence])))
    (fun _ _ he => he) (fun _ w' hs => hf w' hs))

theorem active_of_held (hs : Shape t) {f : Nat} {o : Owner} {l : String} {x : Int}
    (h : t.ownership = .held f o l x) : t.lifecycle = .active := by
  by_contra hne
  have := hs.free hne
  rw [h] at this
  cases this

theorem relayV2RollbackRecord_ends (hE : env.Within B) (h : Sound env B c none w) (hdisk : w.disk = c.disk)
    (hstart : c.start ≤ w.tick) (record : ClaimRecord) : Ends env B c (relayV2RollbackRecord env record) w := by
  refine Sat.locked hE h hdisk hstart (fun _ _ hs => hs) (fun w₀ hl => ?_)
  refine Sat.next (x := Eff.get) rfl ?_
  cases hget : w₀.mem.get? record.lease.controlTargetId with
  | none => exact Sat.pure hl.sound
  | some t =>
    obtain ⟨h₀, -⟩ := hl.on hget
    dsimp only
    cases hown : t.ownership with
    | free | draining => exact Sat.pure hl.sound
    | held f o l x =>
      refine Sat.ite (fun _ => ?_) (fun _ => Sat.pure hl.sound)
      rw [h₀.known.2]
      exact unreserve_ends hE h₀ (active_of_held (h₀.shape hE) hown) (fun _ hs => Sat.pure hs)

/-! ## Observations -/

theorem rejectUnlessCurrent_spec (hE : env.Within B) (h : On env B c m id t w) (ha : t.lifecycle = .active)
    (record : ClaimRecord) :
    Sat (Good env B c) (rejectUnlessCurrent env id record) w (fun _ w' => { w with tick := w.tick + 1 } = w')
      (fun _ w' => Sound env B c none w') := by
  refine Sat.next (x := isoNow env) rfl (Sat.next (x := Eff.get) rfl (Sat.ite (fun _ => ?_) (fun _ => Sat.pure rfl)))
  refine Sat.next (x := resetInteractiveOwners id) rfl ?_
  obtain ⟨w₁, r, u, heq, h₁⟩ := freeOwnership_spec hE ((h.ticks 1).resetPending none) ha
  exact Sat.next heq (Sat.bind (h₁.on.finish hE (fun _ => h₁.advanced (by simp [TargetRecord.fence])))
    (fun _ _ he => he) (fun _ w' hs => Sat.throw hs))

theorem Live.retire (hE : env.Within B) (h : Live env B c id t w) {Q : α → World → Prop} (message : String) :
    Sat (Good env B c) (retireAndThrow env id message) w Q (fun _ w' => Sound env B c none w') :=
  (retireAndThrow_spec hE h.on (by rw [h.active]; decide) (fun _ hr => absurd (h.active.symm.trans hr) (by decide))
    message).mono (fun _ _ hq => hq) (fun _ _ he => he.sound)

theorem observeProbe_spec (hE : env.Within B) (h : Live env B c id t w) {answer : Nat → Except ControlError α}
    (message : String) :
    Sat (Good env B c) (observeProbe env id answer message) w (fun _ w' => Live env B c id t w')
      (fun _ w' => Sound env B c none w') := by
  refine Sat.tryCatch (F := fun _ w' => Live env B c id t w')
    (Sat.await h.on.sound (fun _ w' ha hs _ => h.after ha hs) (fun _ w' ha hs => h.after ha hs)) ?_
  intro error w₁ h₁
  refine Sat.ite (fun _ => ?_) (fun _ => ?_)
  · exact h₁.retire hE _
  · exact (fenceAndThrow_spec hE h₁.on trivial h₁.idle (by decide) _).mono (fun _ _ hq => hq) (fun _ _ he => he.sound)

theorem observeIncarnation_spec (hE : env.Within B) (h : Live env B c id t w) (record : ClaimRecord) :
    Sat (Good env B c) (observeIncarnation env id record) w (fun _ w' => Live env B c id t w')
      (fun _ w' => Sound env B c none w') := by
  refine Sat.step (observeProbe_spec hE h _) (fun inspected w₁ h₁ => ?_)
  refine Sat.next (targetById_eq h₁.on.get) (Sat.ite (fun _ => h₁.retire hE _) (fun _ => ?_))
  exact Sat.next (x := controlEpoch) rfl (Sat.ite (fun _ => h₁.retire hE _) (fun _ => Sat.pure h₁))

theorem Live.ticks (h : Live env B c id t w) (n : Nat) : Live env B c id t { w with tick := w.tick + n } :=
  h.after (After.ticks w n) (h.on.sound.ticks n)

theorem publishObservation_ends (hE : env.Within B) (h : Live env B c id t w) (record : ClaimRecord) (output : Position) :
    Ends env B c (publishObservation env id record output) w := by
  refine Sat.next (x := resetInteractiveOwners id) rfl ?_
  obtain ⟨w₁, r, u, heq, h₁⟩ := freeOwnership_spec hE (h.on.resetPending none) h.active
  refine Sat.next heq (Sat.next (targetById_eq h₁.on.get) (Sat.next (x := modifyLocal _) rfl ?_))
  have h₂ := h₁.on.sameLocal (l := { w₁.loc with
    observations := w₁.loc.observations ++
      [⟨record.identity.controlTargetId, record.identity.controlEpoch, record.identity.targetIncarnationProof,
        t.outputGeneration, toString record.input.pane, true⟩] }) ⟨rfl, rfl, rfl, rfl⟩
  exact Ends.bind (h₂.finish hE (fun _ => h₁.advanced (by simp [TargetRecord.fence]))) (fun _ _ he => he)
    (fun _ _ hs => Sat.pure hs)

theorem consumeRelayV2ExactObservation_ends (hE : env.Within B) (h : Sound env B c none w) (hdisk : w.disk = c.disk)
    (hstart : c.start ≤ w.tick) (record : ClaimRecord) (hint : Option (Nat × Nat)) :
    Ends env B c (consumeRelayV2ExactObservation env record hint) w := by
  refine Ends.require h (fun _ => ?_)
  refine Sat.locked hE h hdisk hstart (fun _ _ hs => hs) (fun w₀ hl => ?_)
  refine Sat.targetById (fun _ => hl.sound) (fun t hget => ?_)
  obtain ⟨h₀, hsav⟩ := hl.on hget
  refine Sat.next (x := controlEpoch) rfl (Ends.require hl.sound (fun hheld => ?_))
  obtain ⟨f, o, l, x, hown⟩ : ∃ f o l x, t.ownership = .held f o l x := by
    cases ho : t.ownership <;> simp_all
  have ha := active_of_held (h₀.shape hE) hown
  refine Ends.bind (rejectUnlessCurrent_spec hE h₀ ha record) (fun _ _ he => he) ?_
  rintro - _ rfl
  refine Ends.bind (Q := fun _ w' => { w₀ with tick := w₀.tick + 1 } = w' ∧ t.ensureOperable = .ok ())
    (E := fun _ w' => Sound env B c none w')
    (Sat.next (targetById_eq (by exact hget)) (Sat.ofExcept (fun _ ha => ⟨rfl, ha⟩) (fun _ _ => hl.sound.ticks 1)))
    (fun _ _ he => he) ?_
  rintro - _ ⟨rfl, hop⟩
  -- a held target is not draining, so it is seen without a look at the clock
  have hlive : Live env B c _ t { w₀ with tick := w₀.tick + 1 } :=
    ⟨(h₀.ticks 1).see hE ⟨hsav.mirrored.same, hsav.mirrored.new⟩ ha (fun x hx => by
      rw [drainsUntil_eq_none (by rw [hown]; rfl)] at hx; cases hx), ⟨hsav.mirrored.same, hsav.mirrored.new⟩, hsav.known, ha,
      (ensureOperable_ok hop).2.2⟩
  refine Ends.bind (observeIncarnation_spec hE hlive record) (fun _ _ he => he) (fun _ w₂ h₂ => ?_)
  refine Ends.bind (Q := fun _ w' => Live env B c record.identity.controlTargetId t w')
    (E := fun _ w' => Sound env B c none w') ?_ (fun _ _ he => he) (fun _ w₃ h₃ => ?_)
  · cases hint with
    | none => exact Sat.pure h₂
    | some s => exact observeProbe_spec hE h₂ _
  refine Sat.next (x := Eff.get) rfl (Ends.bind (Sat.ite (fun _ => h₃.resetOutput hE) (fun _ => h₃.prepare hE))
    (fun _ _ he => he) ?_)
  rintro p w₄ ⟨t₄, h₄, -⟩
  refine Ends.bind (rejectUnlessCurrent_spec hE h₄.on h₄.active record) (fun _ _ he => he) ?_
  rintro - _ rfl
  exact publishObservation_ends hE (h₄.ticks 1) record p

theorem requireOpen_spec {Q : ObservationRecord → World → Prop} {E : ControlError → World → Prop} {observation : Nat}
    {e : ControlError} (hok : ∀ r, Q r w) (herr : ∀ e, E e w) :
    Sat (Good env B c) (requireOpen observation e) w Q E := by
  refine Sat.next (x := Eff.get) rfl ?_
  cases w.loc.observations[observation]? with
  | none => exact Sat.throw (herr _)
  | some r => exact Sat.ite (fun _ => Sat.pure (hok r)) (fun _ => Sat.throw (herr _))

theorem pruneStaleObservers_eq (hget : w.mem.get? id = some t) : pruneStaleObservers id w =
    (.ok (), { w with loc := w.loc.pruneStaleObservers w.mem.controlEpoch t }) := by
  simp [pruneStaleObservers, controlEpoch, targetById, modifyLocal, Eff.get, Eff.modify, bind, pure, hget]

theorem Live.sameLocal (h : Live env B c id t w) {l : Local} (hl : SameLocal w.loc l) :
    Live env B c id t { w with loc := l } :=
  h.after (After.local w hl.owners) (h.on.sound.sameLocal hl)

theorem tailRelayV2ExactObservation_ends (hE : env.Within B) (h : Sound env B c none w) (hdisk : w.disk = c.disk)
    (hstart : c.start ≤ w.tick) (observation cursor maxBytes : Nat) :
    Ends env B c (tailRelayV2ExactObservation env observation cursor maxBytes) w := by
  refine Ends.require h (fun _ => ?_)
  refine Ends.bind (Q := fun _ w' => w = w') (requireOpen_spec (fun _ => rfl) (fun _ => h)) (fun _ _ he => he) ?_
  rintro - _ rfl
  refine Sat.locked hE h hdisk hstart (fun _ _ hs => hs) (fun w₀ hl => ?_)
  refine Ends.bind (Q := fun _ w' => w₀ = w') (requireOpen_spec (fun _ => rfl) (fun _ => hl.sound)) (fun _ _ he => he) ?_
  rintro record _ rfl
  refine Sat.next (x := Eff.get) rfl (Ends.require hl.sound (fun _ => ?_))
  refine Sat.targetById (fun _ => hl.sound) (fun t hget => ?_)
  obtain ⟨h₀, hsav⟩ := hl.on hget
  refine Sat.next (pruneStaleObservers_eq hget) ?_
  have h₁ := h₀.sameLocal (pruneStaleObservers_same w₀.loc w₀.mem.controlEpoch t)
  refine Ends.require h₁.sound (fun _ => ?_)
  refine Ends.bind (requireOpen_spec (Q := fun _ w' => { w₀ with loc := _ } = w') (fun _ => rfl) (fun _ => h₁.sound))
    (fun _ _ he => he) ?_
  rintro - _ rfl
  refine Ends.bind (Q := fun _ w' => ∃ t', Live env B c record.controlTargetId t' w')
    (E := fun _ w' => Sound env B c none w')
    (Sat.tryCatch (F := fun _ => Dropped env B c (.at False) record.controlTargetId)
      ((assertTargetCurrent_spec hE h₁ ⟨hsav.mirrored.same, hsav.mirrored.new⟩ hsav.known False.elim).mono
        (fun _ _ ⟨t', hl, _⟩ => ⟨t', hl⟩) (fun _ _ he => he)) ?_) (fun _ _ he => he) ?_
  · rintro error w₂ ⟨t₂, h₂⟩
    exact Sat.next (pruneStaleObservers_eq h₂.get)
      (Sat.throw (h₂.sameLocal (pruneStaleObservers_same w₂.loc w₂.mem.controlEpoch t₂)).sound)
  rintro - w₂ ⟨t₂, h₂⟩
  refine Sat.next (pruneStaleObservers_eq h₂.on.get) ?_
  have h₃ := h₂.sameLocal (pruneStaleObservers_same w₂.loc w₂.mem.controlEpoch t₂)
  refine Ends.bind (requireOpen_spec (Q := fun _ w' => { w₂ with loc := _ } = w') (fun _ => rfl) (fun _ => h₃.on.sound))
    (fun _ _ he => he) ?_
  rintro - _ rfl
  exact Ends.bind (tailChunk_spec hE h₃) (fun _ _ he => he)
    (fun _ _ h' => Sat.next (x := controlEpoch) rfl (Sat.pure h'.on.sound))

theorem closeRelayV2ExactObservation_ends (hE : env.Within B) (h : Sound env B c none w) (hdisk : w.disk = c.disk)
    (hstart : c.start ≤ w.tick) (observation : Nat) :
    Ends env B c (closeRelayV2ExactObservation env observation) w := by
  refine Sat.next (x := Eff.get) rfl ?_
  cases w.loc.observations[observation]? with
  | none => exact Sat.pure h
  | some record =>
    refine Sat.ite (fun _ => Sat.pure h) (fun _ => ?_)
    refine Sat.locked hE h hdisk hstart (fun _ _ hs => hs) (fun w₀ hl => ?_)
    refine Sat.next (x := Eff.get) rfl ?_
    cases hget : w₀.mem.get? record.controlTargetId with
    | none => exact Sat.pure hl.sound
    | some t =>
      obtain ⟨h₀, hsav⟩ := hl.on hget
      refine Sat.next (pruneStaleObservers_eq hget) (Sat.next (x := Eff.get) rfl ?_)
      have h₁ := h₀.sameLocal (pruneStaleObservers_same w₀.loc w₀.mem.controlEpoch t)
      refine Sat.ite (fun _ => Sat.pure h₁.sound) (fun hc => ?_)
      simp only [Bool.or_eq_true, not_or, decide_eq_true_eq, not_not, Bool.not_eq_true', Bool.not_eq_false,
        Option.not_isSome_iff_eq_none, ne_eq] at hc
      obtain ⟨⟨⟨⟨-, ha⟩, hfree⟩, hidle⟩, -⟩ := hc
      have h₂ : On env B c .live record.controlTargetId t _ := h₁.see hE ⟨hsav.mirrored.same, hsav.mirrored.new⟩ ha
        (fun x hx => by
          rw [drainsUntil_eq_none (by rw [Ownership.eq_free_of_isFree hfree]; rfl)] at hx
          cases hx)
      refine Ends.bind (resetOutput_spec hE h₂ trivial ha hidle) (fun _ _ he => he.sound) ?_
      rintro p w₃ ⟨t₃, h₃, ht₃, -⟩
      obtain ⟨w₄, t₄, heq, h₄, -⟩ := h₃.revise hE (by rw [ht₃.facts.1, ha]; decide)
      exact Sat.next heq (h₄.finish hE (fun hx => by cases hx))

theorem pruneAll_same (epoch : String) : ∀ (ts : List TargetRecord) (l : Local),
    SameLocal l (ts.foldl (fun l t => l.pruneStaleObservers epoch t) l)
  | [], _ => ⟨rfl, rfl, rfl, rfl⟩
  | t :: ts, l => by
    obtain ⟨h1, h2, h3, h4⟩ := pruneAll_same epoch ts (l.pruneStaleObservers epoch t)
    exact ⟨h1, h2, h3, h4⟩

theorem relayV2ExactIdleActivitySnapshot_ends (hE : env.Within B) (h : Sound env B c none w) (hdisk : w.disk = c.disk)
    (hstart : c.start ≤ w.tick) : Ends env B c (relayV2ExactIdleActivitySnapshot env) w := by
  refine Sat.next (x := isoNow env) rfl (Sat.tryCatch (F := fun _ w' => Sound env B c none w') ?_
    (fun _ _ hs => Sat.pure hs))
  refine Sat.locked hE (h.ticks 1) (by exact hdisk) (hstart.trans (Nat.le_succ _)) (fun _ _ hs => hs) (fun w₀ hl => ?_)
  refine Sat.next (x := Eff.get) rfl (Sat.next (x := modifyLocal _) rfl (Sat.pure ?_))
  exact hl.sound.sameLocal (pruneAll_same w₀.mem.controlEpoch w₀.mem.targets w₀.loc)

end Terminal
end TmuxWorktree
