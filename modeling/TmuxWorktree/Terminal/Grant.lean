import TmuxWorktree.Terminal.Probe
/-!
# Grant — leases, handoffs, and the registry of producers

The sections that give a lease, extend it, take it back or hand it over: `acquire`, `renew`, `release` and the handoff
requests.  Each ends in a sound world, however it ends (`Ends`).
-/
namespace TmuxWorktree
namespace Terminal

open Effect

variable {env : Env} {B : Bounds} {c : Watch} {m : Mode} {id : String} {t t' : TargetRecord} {w w' : World} {α : Type}

/-- **However the program ends, the world is sound.** -/
def Ends (env : Env) (B : Bounds) (c : Watch) (x : M α) (w : World) : Prop :=
  Sat (Good env B c) x w (fun _ w' => Sound env B c none w') (fun _ w' => Sound env B c none w')

theorem Dropped.sound (h : Dropped env B c m id w) : Sound env B c none w := by
  obtain ⟨t', h'⟩ := h
  exact h'.sound

theorem Ends.bind {β : Type} {x : M α} {f : α → M β} {Q : α → World → Prop} {E : ControlError → World → Prop}
    (h : Sat (Good env B c) x w Q E) (hE : ∀ e w', E e w' → Sound env B c none w')
    (hf : ∀ a w', Q a w' → Ends env B c (f a) w') : Ends env B c (x >>= f) w := Sat.bind h hE hf

theorem Ends.require {p : Bool} {e : ControlError} {f : Unit → M α} (h : Sound env B c none w)
    (hf : p = true → Ends env B c (f ()) w) : Ends env B c (Eff.require p e >>= f) w := by
  refine Ends.bind (Q := fun _ w' => w = w' ∧ p = true) (Sat.require (fun hp => ⟨rfl, hp⟩) (fun _ => h))
    (fun _ _ he => he) ?_
  rintro - _ ⟨rfl, hp⟩
  exact hf hp

/-! ## Entering a section -/

theorem Loaded.on (h : Loaded env B c w) (hget : w.mem.get? id = some t) :
    On env B c (.at False) id t w ∧ Saved id t w := by
  have hsome : w.disk = some w.mem := by
    cases hd : w.disk with
    | none =>
      have := (ControlState.get?_mem hget).1
      rw [h.none hd] at this
      cases this
    | some d => rw [h.disk d hd]
  refine ⟨⟨h.sound, hget, fun d hd => by rw [h.disk d hd], h.start, fun d hd u hu x hx => ?_, False.elim, False.elim,
    fun _ ho => by cases ho⟩, w.mem, hsome, hget⟩
  obtain ⟨f, o, l, hh, ho⟩ := draining_of_drainsUntil hx
  exact ⟨o, d, u, f, l, hh, h.watch.symm.trans hd, hu, (active_of_drainsUntil hx).1, ho⟩

theorem Ends.enter (hE : env.Within B) {f : Unit → M α} (hl : Loaded env B c w)
    (hf : ∀ t' w', Live env B c id t' w' → Ends env B c (f ()) w') :
    Ends env B c (targetById id >>= fun _ => assertTargetCurrent env id >>= f) w := by
  refine Sat.targetById (fun _ => hl.sound) (fun t hget => ?_)
  obtain ⟨h, hsav⟩ := hl.on hget
  refine Sat.bind (assertTargetCurrent_spec hE h hsav.mirrored hsav.known False.elim) (fun _ _ he => he.sound) ?_
  rintro - w₁ ⟨t₁, hlive, -⟩
  exact hf t₁ w₁ hlive

/-! ## Leases -/

/-- The section's record is that of the state file, as far as leases are concerned. -/
structure Settled (env : Env) (B : Bounds) (c : Watch) (id : String) (t : TargetRecord) (w : World) : Prop where
  sound : Sound env B c none w
  get : w.mem.get? id = some t
  epochs : ∀ d ∈ w.disk, d.controlEpoch = w.mem.controlEpoch
  mirrored : Mirrored id t w
  known : Known id w

theorem Live.settled (h : Live env B c id t w) : Settled env B c id t w :=
  ⟨h.on.sound, h.on.get, h.on.epochs, h.mirrored, h.known⟩

theorem On.settle (hE : env.Within B) {Q : Unit → World → Prop} {E : ControlError → World → Prop}
    (h : On env B c m id t w) (hadv : m.pending = true → w.ledger.Advanced id) (hl : t.lifecycle ≠ .targetGone)
    (hok : Settled env B c id t w.written → Q () w.written)
    (herr : ∀ e w', Sound env B c none w' → E e w') : Sat (Good env B c) (saveTerminalControlState env) w Q E := by
  refine Sat.save hE (x := none) h.sound (fun id' he => ?_) (fun hs => hok ?_) (fun e w' _ hs => herr e w' hs)
  · cases hpend : m.pending with
    | false => simp [hpend] at he
    | true =>
      obtain rfl : id = id' := by simpa [hpend] using he
      exact .inr (hadv hpend)
  · have hsav := h.saved hE hl
    refine ⟨hs, h.get, fun d hd => ?_, hsav.mirrored, hsav.known⟩
    obtain rfl : compact w.mem = d := Option.some.inj hd
    rfl

theorem On.finish (hE : env.Within B) (h : On env B c m id t w) (hadv : m.pending = true → w.ledger.Advanced id) :
    Ends env B c (saveTerminalControlState env) w := by
  refine Sat.save hE (x := none) h.sound (fun id' he => ?_) (fun hs => hs) (fun e w' _ hs => hs)
  cases hpend : m.pending with
  | false => simp [hpend] at he
  | true =>
    obtain rfl : id = id' := by simpa [hpend] using he
    exact .inr (hadv hpend)

theorem Settled.onDisk (h : Settled env B c id t w) : ∃ d u, w.disk = some d ∧ d.get? id = some u ∧
    u.ownership = t.ownership ∧ d.controlEpoch = w.mem.controlEpoch := by
  obtain ⟨d, u, hd, hu⟩ := h.known
  exact ⟨d, u, hd, hu, (h.mirrored.same d hd u hu).1, h.epochs d hd⟩

theorem validateLease_ok {epoch : String} {lease : Lease} {allowDraining : Bool}
    (h : t.validateLease epoch lease allowDraining = .ok ()) : t.leaseMatches epoch lease = true ∧
    lease.controlTargetId = t.controlTargetId ∧ t.ownership.isFree = false ∧
    (allowDraining = false → t.ownership.isDraining = false) := by
  unfold TargetRecord.validateLease at h
  cases hop : t.ensureOperable with
  | error e => simp [hop, bind, Except.bind] at h
  | ok _ =>
    simp only [hop, bind, Except.bind] at h
    split at h
    · cases h
    · rename_i hne
      simp only [ne_eq, Bool.or_eq_true, decide_eq_true_eq, not_or, not_not] at hne
      split at h
      · cases h
      · rename_i fence owner leaseId x ho
        split at h
        · cases h
        · rename_i hm
          simp only [ne_eq, Bool.or_eq_true, decide_eq_true_eq, not_or, not_not] at hm
          refine ⟨leaseMatches_iff.2 ⟨hne.2, ?_, ?_⟩, hne.1, by simp [ho], fun _ => by simp [ho]⟩
          · simp [ho, hm.1.1]
          · simp [TargetRecord.fence, ho, hm.1.2]
      · rename_i fence owner leaseId x hh ho
        split at h
        · cases h
        · rename_i hal
          split at h
          · cases h
          · rename_i hm
            simp only [ne_eq, Bool.or_eq_true, decide_eq_true_eq, not_or, not_not] at hm
            refine ⟨leaseMatches_iff.2 ⟨hne.2, ?_, ?_⟩, hne.1, by simp [ho], fun hf => ?_⟩
            · simp [ho, hm.1.1]
            · simp [TargetRecord.fence, ho, hm.1.2]
            · simp [hf] at hal

theorem Sound.note (h : Sound env B c none w) {e : Event} (hn : w.ledger.Notes e) (hq : e.isQuiet = true)
    (hp : ∀ id f a, e.produces id f a = false) : Sound env B c none (w.log e) := by
  have hev : ∀ e' ∈ [e], ∀ id f a, e'.produces id f a = false := fun e' he' => by
    obtain rfl := List.mem_singleton.1 he'
    exact hp
  refine ⟨h.toGood.step (n := 0) (k := [e]) (.note e hn) rfl rfl rfl rfl ?_ hev
    (fun hc => .inl (hc.cons_quiet hq)), h.producers.append hev⟩
  intro id hid
  obtain rfl := List.mem_singleton.1 hid
  exact hn.elim

theorem On.note (h : On env B c m id t w) {e : Event} (hs : Sound env B c (if m.pending then some id else none) (w.log e))
    (hq : e.isQuiet = true) : On env B c m id t (w.log e) :=
  ⟨hs, h.get, h.epochs, h.start, h.watched, h.alone,
    fun hx => (h.calm hx).transport le_rfl rfl (quiet_cons hq id w.trace).2.1 (fun hk => hk), h.producer⟩

theorem Mirrored.note (h : Mirrored id t w) {e : Event} (hq : e.isQuiet = true) : Mirrored id t (w.log e) :=
  ⟨h.same, fun hn => ((quiet_cons hq id w.trace).2.1).trans (h.new hn)⟩

theorem Live.note (h : Live env B c id t w) {e : Event} (hs : Sound env B c none (w.log e)) (hq : e.isQuiet = true) :
    Live env B c id t (w.log e) :=
  ⟨h.on.note hs hq, h.mirrored.note hq, h.known, h.active, h.idle⟩

/-- **`validateLease`** notes its verdict. -/
theorem Settled.validate {lease : Lease} {allowDraining : Bool} (h : Settled env B c id t w) :
    Sat (Good env B c) (validateLease id lease allowDraining) w
      (fun _ w' => (∃ e : Event, w' = w.log e ∧ e.isQuiet = true) ∧ Sound env B c none w' ∧
        t.validateLease w.mem.controlEpoch lease allowDraining = .ok ())
      (fun _ w' => Sound env B c none w') := by
  obtain ⟨d, u, hd, hu, ho, hep⟩ := h.onDisk
  have hmatch : u.leaseMatches d.controlEpoch lease = t.leaseMatches w.mem.controlEpoch lease := by
    simp only [TargetRecord.leaseMatches, TargetRecord.fence, ho, hep]
  have hid := (ControlState.get?_mem h.get).2
  have hn : w.ledger.Notes (.validated id lease (t.leaseMatches w.mem.controlEpoch lease)
      (t.validateLease w.mem.controlEpoch lease allowDraining).isOk) := by
    refine ⟨⟨t, h.get, rfl⟩, ⟨d, hd, u, hu, hmatch⟩, fun hacc => ?_⟩
    cases hv : t.validateLease w.mem.controlEpoch lease allowDraining with
    | error e => simp [hv, Except.isOk, Except.toBool] at hacc
    | ok _ => exact ⟨(validateLease_ok hv).1, hid.symm.trans (validateLease_ok hv).2.1.symm⟩
  have hs := h.sound.note hn rfl (fun _ _ _ => rfl)
  refine Sat.next (x := controlEpoch) rfl (Sat.next (targetById_eq h.get) ?_)
  refine Sat.next (x := logEvent _) rfl (Sat.ofExcept (fun a ha => ?_) (fun _ _ => hs))
  exact ⟨⟨_, rfl, rfl⟩, hs, ha⟩

theorem validateLease_spec {lease : Lease} {allowDraining : Bool} (h : Live env B c id t w) :
    Sat (Good env B c) (validateLease id lease allowDraining) w
      (fun _ w' => Live env B c id t w' ∧ t.validateLease w.mem.controlEpoch lease allowDraining = .ok ())
      (fun _ w' => Sound env B c none w') := by
  refine h.settled.validate.mono ?_ (fun _ _ he => he)
  rintro - _ ⟨⟨e, rfl, hq⟩, hs, hv⟩
  exact ⟨h.note hs hq, hv⟩

theorem stands_of_issued {s : ControlState} {u : TargetRecord} {lease : Lease} {owner : Option Owner} {epoch : String}
    (hget : s.get? t.controlTargetId = some u) (ho : u.ownership = t.ownership) (hep : s.controlEpoch = epoch)
    (h : (match owner with
      | none => t.leaseFromTarget epoch
      | some o => t.leaseForOwner epoch o) = .ok lease) : Stands s lease := by
  have from_ok : ∀ {l : Lease}, t.leaseFromTarget epoch = .ok l → l.controlTargetId = t.controlTargetId ∧
      u.leaseMatches s.controlEpoch l = true ∧ u.ownership.owner? = some l.owner := by
    intro l hl
    unfold TargetRecord.leaseFromTarget at hl
    rw [leaseMatches_iff, ho, hep, TargetRecord.fence, ho]
    split at hl
    · cases hl
    · rename_i hown
      obtain rfl := Except.ok.inj hl
      simp [hown]
    · rename_i hown
      obtain rfl := Except.ok.inj hl
      simp [hown]
  cases owner with
  | none =>
    obtain ⟨h1, h2, h3⟩ := from_ok h
    exact ⟨u, lease.owner, by rw [h1]; exact hget, h2, h3, sameInputOwnerClass_iff.2 (.inl rfl)⟩
  | some o =>
    simp only [TargetRecord.leaseForOwner] at h
    cases hl : t.leaseFromTarget epoch with
    | error e => simp [hl, bind, Except.bind] at h
    | ok l =>
      obtain ⟨h1, h2, h3⟩ := from_ok hl
      simp only [hl, bind, Except.bind] at h
      split at h
      · cases h
      · rename_i hc
        split at h
        · obtain rfl := Except.ok.inj h
          exact ⟨u, l.owner, by rw [h1]; exact hget, h2, h3, sameInputOwnerClass_iff.2 (.inl rfl)⟩
        · obtain rfl := Except.ok.inj h
          exact ⟨u, l.owner, by rw [← h1] at hget; exact hget, h2, h3, by simpa using hc⟩

/-- **A lease is only issued as it stands in the state file.** -/
theorem issueLease_spec (h : Settled env B c id t w) (owner : Option Owner) :
    Sat (Good env B c) (issueLease id owner) w
      (fun lease w' => w' = w.log (.issued lease) ∧ Sound env B c none w' ∧
        (match owner with
          | none => t.leaseFromTarget w.mem.controlEpoch
          | some o => t.leaseForOwner w.mem.controlEpoch o) = .ok lease)
      (fun _ w' => Sound env B c none w') := by
  obtain ⟨d, u, hd, hu, ho, hep⟩ := h.onDisk
  have hid := (ControlState.get?_mem h.get).2
  refine Sat.next (x := controlEpoch) rfl (Sat.next (targetById_eq h.get) ?_)
  refine Sat.step (P := fun lease w' => w = w' ∧ (match owner with
      | none => t.leaseFromTarget w.mem.controlEpoch
      | some o => t.leaseForOwner w.mem.controlEpoch o) = .ok lease)
    (Sat.ofExcept (fun lease hl => ⟨rfl, hl⟩) (fun _ _ => h.sound)) ?_
  rintro lease _ ⟨rfl, hl⟩
  have hn : w.ledger.Notes (.issued lease) :=
    .inl ⟨stands_of_issued (by rw [hid]; exact h.get) rfl rfl hl, d, hd,
      stands_of_issued (by rw [hid]; exact hu) ho hep hl⟩
  exact ⟨rfl, h.sound.note hn rfl (fun _ _ _ => rfl), hl⟩

theorem issueGrant_ends (h : Settled env B c id t w) (owner : Option Owner) (n : Nat) :
    Ends env B c (issueGrant id owner n) w := by
  refine Ends.bind (issueLease_spec h owner) (fun _ _ he => he) ?_
  rintro lease _ ⟨rfl, hs, -⟩
  exact Sat.next (view_eq (by exact h.get) n) (Sat.pure hs)

/-! ## Assignments -/

/-- An assignment to the record changes nothing else, and is behind the state file nowhere. -/
structure Assigned (env : Env) (B : Bounds) (c : Watch) (m : Mode) (id : String) (t : TargetRecord) (w : World)
    (t' : TargetRecord) (w' : World) : Prop where
  on : On env B c m id t' w'
  loc : w'.loc = w.loc
  disk : w'.disk = w.disk
  trace : w'.trace = w.trace
  advanced : t.fence < t'.fence → w'.ledger.Advanced id

theorem On.assigned (hE : env.Within B) (h : On env B c m id t w) (hm : Move t [] t') (hB : B.target t' = true)
    (ha : t.lifecycle = .active) (hin : t'.inFlight = t.inFlight) (n : Nat) :
    Assigned env B c m id t w t' ({ w with tick := w.tick + n }.moved id [] t') :=
  ⟨(h.ticks n).plain hm hB ha hin, rfl, rfl, rfl, fun hlt => (h.ticks n).advanced hE hm hlt⟩

theorem setOwnership_spec (hE : env.Within B) (h : On env B c m id t w) (o : TargetRecord → Ownership)
    (hm : ∀ r u, Move t [] { t with ownership := o t, revision := r, updatedAt := u }) (hB : B.ownership (o t) = true)
    (ha : t.lifecycle = .active) :
    ∃ w' r u, assign env id (fun t => { t with ownership := o t }) w = (.ok (), w') ∧
      Assigned env B c m id t w { t with ownership := o t, revision := r, updatedAt := u } w' :=
  ⟨_, _, _, assign_eq (h.unique hE) h.get _,
    h.assigned hE (hm _ _) (Bounds.target_ownership (h.bounds hE) hB (hE.now _) _) ha rfl 1⟩

theorem freeOwnership_spec (hE : env.Within B) (h : On env B c m id t w) (ha : t.lifecycle = .active) :
    ∃ w' r u, freeOwnership env id w = (.ok (), w') ∧
      Assigned env B c m id t w { t with ownership := .free (t.fence + 1), revision := r, updatedAt := u } w' :=
  setOwnership_spec hE h (fun t => .free (t.fence + 1)) (fun r u => .free t r u ha) rfl ha

theorem grantOwnership_spec (hE : env.Within B) (h : On env B c m id t w) (ha : t.lifecycle = .active) {owner : Owner}
    {ttlMs : Int} (ho : B.owner owner = true) (httl : env.Grants B ttlMs) :
    ∃ w' l x r u, grantOwnership env id owner ttlMs w = (.ok (), w') ∧
      Assigned env B c m id t w
        { t with ownership := .held (t.fence + 1) owner l x, revision := r, updatedAt := u } w' := by
  have hB : B.ownership (.held (t.fence + 1) owner (env.randomUUID w.tick) (env.now (w.tick + 1) + ttlMs)) = true := by
    simp [Bounds.ownership, ho, hE.uuid, httl _]
  refine ⟨_, _, _, _, _, ?_, h.assigned hE
    (.grant t owner (env.randomUUID w.tick) (env.now (w.tick + 1) + ttlMs) (t.revision + 1) (env.now (w.tick + 2)) ha)
    (Bounds.target_ownership (h.bounds hE) hB (hE.now _) _) ha rfl 3⟩
  have hu := h.unique hE
  unfold grantOwnership
  exact assign_eq (w := { w with tick := w.tick + 2 }) hu h.get _

/-! ## The registry -/

/-- **`registerInteractiveOwner`**: the owner is the producer from here on, or another one is. -/
theorem registerInteractiveOwner_spec (h : On env B c m id t w) (hp : m.producer = none) (owner : Owner) :
    Sat (Good env B c) (registerInteractiveOwner id owner) w
      (fun _ w' => ∃ l, w' = { w with loc := l } ∧ On env B c m id t w' ∧
        (isInteractiveOwner owner = true → l.interactiveOwners id = some owner))
      (fun _ w' => w = w' ∧ isInteractiveOwner owner = true ∧
        ∃ active, w.loc.interactiveOwners id = some active ∧ active ≠ owner) := by
  have set : (∀ f tr, Producing id f (w.loc.interactiveOwners id) tr → Producing id f (some owner) tr) →
      On env B c m id t { w with loc := w.loc.setInteractiveOwner id owner } := fun hprod => by
    refine ⟨⟨h.sound.toGood.withLocal h.sound.claims h.sound.running, fun d hd u hu hex => ?_⟩, h.get, h.epochs, h.start,
      h.watched, h.alone, h.calm, fun o ho => by rw [hp] at ho; cases ho⟩
    show Producing _ _ (Function.update w.loc.interactiveOwners id (some owner) u.controlTargetId) _
    by_cases hid : u.controlTargetId = id
    · rw [hid, Function.update_self]
      have := h.sound.producers d hd u hu hex
      rw [hid] at this
      exact hprod _ _ this
    · rw [Function.update_of_ne hid]
      exact h.sound.producers d hd u hu hex
  refine Sat.next (x := Eff.get) rfl (Sat.ite (fun hi => ?_) (fun hi => ?_))
  · exact Sat.pure ⟨w.loc, rfl, h, fun hint => by simp [hint] at hi⟩
  · have hint : isInteractiveOwner owner = true := by simpa using hi
    cases hreg : w.loc.interactiveOwners id with
    | none => exact ⟨_, rfl, set (fun f tr hh => (hreg ▸ hh).register), fun _ => Function.update_self _ _ _⟩
    | some active =>
      refine Sat.ite (fun hne => ?_) (fun heq => ?_)
      · refine Sat.throw ⟨rfl, hint, active, rfl, fun he => ?_⟩
        rw [sameOwner_iff.2 he] at hne
        cases hne
      · have : active = owner := sameOwner_iff.1 (by simpa using heq)
        subst this
        exact ⟨_, rfl, set (fun f tr hh => hreg ▸ hh), fun _ => Function.update_self _ _ _⟩

theorem registerAfterReset_spec (h : On env B c m id t w) (hp : m.producer = none)
    (hnone : w.loc.interactiveOwners id = none) (owner : Owner) {E : ControlError → World → Prop} :
    Sat (Good env B c) (registerInteractiveOwner id owner) w
      (fun _ w' => ∃ l, w' = { w with loc := l } ∧ On env B c m id t w') E :=
  (registerInteractiveOwner_spec h hp owner).mono (fun _ _ ⟨l, hl, ho, _⟩ => ⟨l, hl, ho⟩) (fun _ _ ⟨_, _, a, ha, _⟩ => by
    rw [hnone] at ha
    cases ha)

/-- **`unregisterInteractiveOwner`**: nothing happens, or the producer has released and the registry is ahead. -/
theorem unregisterInteractiveOwner_spec (h : Live env B c id t w) (owner : Owner) :
    Sat (Good env B c) (unregisterInteractiveOwner id owner) w
      (fun b w' => (b = false ∧ w = w') ∨ (b = true ∧ On env B c ⟨True, true, none⟩ id t w' ∧ w'.disk = w.disk))
      (fun _ _ => False) := by
  refine Sat.next (x := Eff.get) rfl ?_
  cases hreg : w.loc.interactiveOwners id with
  | none => exact Sat.pure (.inl ⟨rfl, rfl⟩)
  | some active =>
    refine Sat.ite (fun _ => Sat.pure (.inl ⟨rfl, rfl⟩)) (fun _ => ?_)
    refine Sat.next (x := modifyLocal _) rfl (Sat.next (x := logEvent _) rfl (Sat.pure (.inr ⟨rfl, ?_, rfl⟩)))
    have h₁ := h.on.resetPending none
    have hn : w.ledger.Notes (.released id owner) := ⟨t, h.on.known⟩
    have hq := (quiet_cons (e := .released id owner) rfl id w.trace).2.1
    have hev : ∀ e ∈ [Event.released id owner], ∀ id f a, e.produces id f a = false := fun e he => by
      obtain rfl := List.mem_singleton.1 he
      exact fun _ _ _ => rfl
    refine ⟨⟨h₁.sound.toGood.step (n := 0) (k := [.released id owner]) (.note _ hn) rfl rfl rfl rfl ?_ hev
      (fun hc => .inl (hc.cons_quiet rfl)), h₁.sound.producers.append hev⟩, h₁.get, h₁.epochs, h₁.start, h₁.watched,
      h₁.alone, fun hx => (h₁.calm hx).transport le_rfl rfl hq (fun hk => hk), fun _ ho => by cases ho⟩
    intro id' hid
    simp at hid

/-! ## `acquire`, `renew`, `release` -/

theorem Probed.live {p : Position} (h : Probed env B c .live id t w p w') (hl : Live env B c id t w) :
    ∃ t', Live env B c id t' w' ∧ Touched t t' := by
  obtain ⟨t', ho, ht, hk, -⟩ := h
  obtain ⟨hf1, -, hf3, -, -⟩ := ht.facts
  exact ⟨t', ⟨ho, hl.mirrored.kept ht hk, hk.known hl.known, hf1.trans hl.active, hf3.trans hl.idle⟩, ht⟩

theorem Live.prepare (hE : env.Within B) (h : Live env B c id t w) :
    Sat (Good env B c) (prepareOutput env id) w (fun _ w' => ∃ t', Live env B c id t' w' ∧ Touched t t')
      (fun _ w' => Sound env B c none w') :=
  (prepareOutput_spec hE h.on trivial h.active h.idle).mono (fun _ _ hp => hp.live h) (fun _ _ he => he.sound)

theorem Live.resetOutput (hE : env.Within B) (h : Live env B c id t w) :
    Sat (Good env B c) (resetOutput env id) w (fun _ w' => ∃ t', Live env B c id t' w' ∧ Touched t t')
      (fun _ w' => Sound env B c none w') :=
  (resetOutput_spec hE h.on trivial h.active h.idle).mono (fun _ _ hp => hp.live h) (fun _ _ he => he.sound)

theorem grantFree_spec (hE : env.Within B) (h : Live env B c id t w) (hfree : t.ownership.isFree = true) {owner : Owner}
    {ttlMs : Int} (ho : B.owner owner = true) (httl : env.Grants B ttlMs) :
    Sat (Good env B c) (grantFree env id owner ttlMs) w (fun _ w' => ∃ t', Settled env B c id t' w')
      (fun _ w' => Sound env B c none w') := by
  refine Sat.step (h.prepare hE) ?_
  rintro p w₁ ⟨t₁, h₁, ht₁⟩
  obtain ⟨w₂, l, x, r, u, heq, h₂⟩ := grantOwnership_spec hE h₁.on h₁.active ho httl
  refine Sat.next heq (Sat.next (x := resetInteractiveOwners id) rfl ?_)
  have hdisk : ∀ d ∈ w₂.disk, ∀ u, d.get? id = some u → u.ownership.isFree = true := by
    rw [h₂.disk]
    exact h₁.mirrored.free (by rw [ht₁.facts.2.1]; exact hfree)
  refine Sat.step (registerAfterReset_spec (h₂.on.reset hE hdisk rfl) rfl (Function.update_self _ _ _) owner) ?_
  rintro - _ ⟨l, rfl, h₃⟩
  exact Sat.step (h₃.settle hE (fun hp => by cases hp) (by simp [h₁.active]) (fun hs => ⟨_, hs⟩) (fun _ _ hs => hs))
    (fun _ _ hs => Sat.pure hs)

theorem extend_bounds {o : Ownership} {x : Int} (h : B.ownership o = true) (hx : B.time x = true) :
    B.ownership (o.extend x) = true := by
  cases o <;> simp_all [Ownership.extend, Bounds.ownership]

theorem extend_spec (hE : env.Within B) (h : On env B c m id t w) (ha : t.lifecycle = .active) {ttlMs : Int}
    (httl : env.Grants B ttlMs) :
    ∃ w₁ w₂ x r u, expiresAt env ttlMs w = (.ok x, w₁) ∧
      assign env id (fun t => { t with ownership := t.ownership.extend x }) w₁ = (.ok (), w₂) ∧
      Assigned env B c m id t w { t with ownership := t.ownership.extend x, revision := r, updatedAt := u } w₂ := by
  obtain ⟨hf, hl, ho⟩ := Ownership.extend_same (env.now w.tick + ttlMs) t.ownership
  obtain ⟨w', r, u, heq, h'⟩ := setOwnership_spec hE (h.ticks 1)
    (fun t => t.ownership.extend (env.now w.tick + ttlMs)) (fun r u => .sameLease t _ r u ha hf hl ho)
    (extend_bounds (Bounds.target_parts (h.bounds hE)).2.2 (httl _)) ha
  exact ⟨_, w', _, r, u, rfl, heq, h'.on, h'.loc, h'.disk, h'.trace, h'.advanced⟩

theorem acquire_ends (hE : env.Within B) (h : Sound env B c none w) (hdisk : w.disk = c.disk) (hstart : c.start ≤ w.tick)
    {owner : Owner} {ttlMs : Int} (ho : B.owner owner = true) (httl : env.Grants B ttlMs) :
    Ends env B c (acquire env id owner ttlMs) w := by
  refine Sat.locked hE h hdisk hstart (fun _ _ hs => hs) (fun w₀ hl => ?_)
  refine Ends.enter hE hl (fun t w₁ h₁ => ?_)
  refine Sat.next (targetById_eq h₁.on.get) ?_
  cases hown : t.ownership with
  | free f =>
    refine Ends.bind (grantFree_spec hE h₁ (by rw [hown]; rfl) ho httl) (fun _ _ he => he) ?_
    rintro p w₂ ⟨t₂, h₂⟩
    exact issueGrant_ends h₂ _ _
  | draining f holder l x hh => exact Sat.ite (fun _ => Sat.throw h₁.on.sound) (fun _ => Sat.throw h₁.on.sound)
  | held f holder l x =>
    refine Sat.ite (fun _ => ?_) (fun _ => Sat.ite (fun _ => ?_) (fun _ => Sat.throw h₁.on.sound))
    · refine Ends.bind (h₁.prepare hE) (fun _ _ he => he) ?_
      rintro p w₂ ⟨t₂, h₂, -⟩
      refine Ends.bind (Q := fun _ w' => ∃ t', Settled env B c id t' w') (E := fun _ w' => Sound env B c none w')
        (Sat.ite (fun _ => ?_) (fun _ => Sat.pure ⟨t₂, h₂.settled⟩)) (fun _ _ he => he)
        (fun _ w' ⟨t', hs⟩ => issueGrant_ends hs _ _)
      refine Sat.bind (registerInteractiveOwner_spec h₂.on rfl owner) (fun _ _ he => he.1 ▸ h₂.on.sound) ?_
      rintro - _ ⟨l, rfl, h₃, -⟩
      obtain ⟨w₄, w₅, y, r, u, he1, he2, h₅⟩ := extend_spec hE h₃ h₂.active httl
      refine Sat.next he1 (Sat.next he2 ?_)
      exact h₅.on.settle hE (fun hp => by cases hp) (by simp [h₂.active]) (fun hs => ⟨_, hs⟩) (fun _ _ hs => hs)
    · refine Ends.bind (h₁.resetOutput hE) (fun _ _ he => he) ?_
      rintro p w₂ ⟨t₂, h₂, -⟩
      refine Sat.next (x := resetInteractiveOwners id) rfl ?_
      obtain ⟨w₃, l, x, r, u, heq, h₃⟩ := grantOwnership_spec hE (h₂.on.resetPending none) h₂.active ho httl
      refine Sat.next heq (Ends.bind (Q := fun _ w' => ∃ t', Settled env B c id t' w')
        (h₃.on.settle hE (fun _ => h₃.advanced (by simp [TargetRecord.fence])) (by simp [h₂.active])
          (fun hs => ⟨_, hs⟩) (fun _ _ hs => hs)) (fun _ _ he => he) (fun _ w' ⟨t', hs⟩ => issueGrant_ends hs _ _))

theorem publish_ends (hE : env.Within B) (h : On env B c m id t w) (hseen : m.seen) (ha : t.lifecycle = .active)
    (hidle : t.inFlight = none) (hp : m.pending = false) {f : Position → M α}
    (hf : ∀ p t' w', Settled env B c id t' w' → Ends env B c (f p) w') :
    Ends env B c (prepareOutput env id >>= fun p => saveTerminalControlState env >>= fun _ => f p) w := by
  refine Ends.bind (prepareOutput_spec hE h hseen ha hidle) (fun _ _ he => he.sound) ?_
  rintro p w₁ ⟨t₁, h₁, ht₁, -, -⟩
  refine Ends.bind (Q := fun _ w' => ∃ t', Settled env B c id t' w')
    (h₁.settle hE (fun hx => by rw [hp] at hx; cases hx) (by rw [ht₁.facts.1, ha]; decide) (fun hs => ⟨_, hs⟩)
      (fun _ _ hs => hs)) (fun _ _ he => he) (fun _ w' ⟨t', hs⟩ => hf p t' w' hs)

theorem view_ends (h : Settled env B c id t w) (n : Nat) : Ends env B c (view id n) w := by
  unfold Ends Sat
  rw [view_eq h.get]
  exact h.sound

theorem renew_ends (hE : env.Within B) (h : Sound env B c none w) (hdisk : w.disk = c.disk) (hstart : c.start ≤ w.tick)
    {lease : Lease} {ttlMs : Int} (httl : env.Grants B ttlMs) : Ends env B c (renew env lease ttlMs) w := by
  refine Sat.locked hE h hdisk hstart (fun _ _ hs => hs) (fun w₀ hl => ?_)
  refine Ends.enter hE hl (fun t w₁ h₁ => ?_)
  refine Ends.bind (validateLease_spec h₁) (fun _ _ he => he) ?_
  rintro - w₂ ⟨h₂, -⟩
  refine Sat.next (targetById_eq h₂.on.get) ?_
  refine Ends.require h₂.on.sound (fun _ => ?_)
  refine Ends.bind (registerInteractiveOwner_spec h₂.on rfl lease.owner) (fun _ _ he => he.1 ▸ h₂.on.sound) ?_
  rintro - _ ⟨l, rfl, h₃, -⟩
  obtain ⟨w₄, w₅, y, r, u, he1, he2, h₅⟩ := extend_spec hE h₃ h₂.active httl
  refine Sat.next he1 (Sat.next he2 ?_)
  exact publish_ends hE h₅.on trivial h₂.active h₂.idle rfl (fun p t' w' hs => issueGrant_ends hs _ _)

theorem pruneStaleObservers_same (l : Local) (epoch : String) (t : TargetRecord) :
    SameLocal l (l.pruneStaleObservers epoch t) := ⟨rfl, rfl, rfl, rfl⟩

theorem releaseOwnership_ends (hE : env.Within B) {p : Bool} (h : On env B c ⟨True, p, none⟩ id t w)
    (ha : t.lifecycle = .active) (hidle : t.inFlight = none) : Ends env B c (releaseOwnership env id) w := by
  refine Sat.next (x := controlEpoch) rfl (Sat.next (targetById_eq h.get) (Sat.next (x := modifyLocal _) rfl ?_))
  have h₁ := h.sameLocal (pruneStaleObservers_same w.loc w.mem.controlEpoch t)
  refine Sat.next (x := Eff.get) rfl ?_
  refine Ends.bind (Q := Probed env B c ⟨True, p, none⟩ id t _) (E := fun _ w' => Sound env B c none w')
    (Sat.ite
      (fun _ => (prepareOutput_spec hE h₁ trivial ha hidle).mono (fun _ _ hq => hq) (fun _ _ he => he.sound))
      (fun _ => (resetOutput_spec hE h₁ trivial ha hidle).mono (fun _ _ hq => hq) (fun _ _ he => he.sound)))
    (fun _ _ he => he) ?_
  rintro q w₂ ⟨t₂, h₂, ht₂, -, -⟩
  have ha₂ : t₂.lifecycle = .active := ht₂.facts.1.trans ha
  refine Sat.next (x := resetInteractiveOwners id) rfl ?_
  obtain ⟨w₃, r, u, heq, h₃⟩ := freeOwnership_spec hE (h₂.resetPending none) ha₂
  refine Sat.next heq (Ends.bind (Q := fun _ w' => ∃ t', Settled env B c id t' w')
    (h₃.on.settle hE (fun _ => h₃.advanced (by simp [TargetRecord.fence])) (by simp [ha₂]) (fun hs => ⟨_, hs⟩)
      (fun _ _ hs => hs)) (fun _ _ he => he) (fun _ w' ⟨t', hs⟩ => view_ends hs _))

theorem release_ends (hE : env.Within B) (h : Sound env B c none w) (hdisk : w.disk = c.disk) (hstart : c.start ≤ w.tick)
    (lease : Lease) : Ends env B c (release env lease) w := by
  refine Sat.locked hE h hdisk hstart (fun _ _ hs => hs) (fun w₀ hl => ?_)
  refine Ends.enter hE hl (fun t w₁ h₁ => ?_)
  refine Ends.bind (validateLease_spec h₁) (fun _ _ he => he) ?_
  rintro - w₂ ⟨h₂, -⟩
  refine Sat.next (targetById_eq h₂.on.get) (Sat.ite (fun _ => Sat.throw h₂.on.sound) (fun _ => Sat.ite (fun _ => ?_)
    (fun _ => releaseOwnership_ends hE h₂.on h₂.active h₂.idle)))
  refine Ends.bind (unregisterInteractiveOwner_spec h₂ lease.owner) (fun _ _ he => he.elim) ?_
  rintro b w₃ (⟨rfl, rfl⟩ | ⟨rfl, h₃, -⟩)
  · refine Ends.bind (h₂.prepare hE) (fun _ _ he => he) ?_
    rintro p w₄ ⟨t₄, h₄, -⟩
    exact view_ends h₄.settled _
  · exact releaseOwnership_ends hE h₃ h₂.active h₂.idle

/-! ## Handoffs -/

theorem Settled.withLocal {l : Local} (h : Settled env B c id t w) (hs : Sound env B c none { w with loc := l }) :
    Settled env B c id t { w with loc := l } :=
  ⟨hs, h.get, h.epochs, ⟨h.mirrored.same, h.mirrored.new⟩, h.known⟩

theorem beginHandoff_ends (hE : env.Within B) (h : Sound env B c none w) (hdisk : w.disk = c.disk)
    (hstart : c.start ≤ w.tick) {nextOwner : Owner} (ho : B.owner nextOwner = true) (currentLease : Option Lease) :
    Ends env B c (beginHandoff env id nextOwner currentLease) w := by
  refine Sat.locked hE h hdisk hstart (fun _ _ hs => hs) (fun w₀ hl => ?_)
  refine Ends.enter hE hl (fun t w₁ h₁ => ?_)
  refine Sat.next (targetById_eq h₁.on.get) ?_
  cases hown : t.ownership with
  | free f =>
    refine Ends.bind (grantFree_spec hE h₁ (by rw [hown]; rfl) ho hE.lease)
      (fun _ _ he => he) ?_
    rintro p w₂ ⟨t₂, h₂⟩
    exact issueGrant_ends h₂ _ _
  | draining f holder l x hh =>
    refine Sat.ite (fun _ => ?_) (fun _ => Sat.throw h₁.on.sound)
    refine Ends.bind (h₁.prepare hE) (fun _ _ he => he) ?_
    rintro p w₂ ⟨t₂, h₂, -⟩
    exact Ends.bind (view_ends h₂.settled _) (fun _ _ he => he) (fun _ _ hs => Sat.pure hs)
  | held f holder l x =>
    refine Ends.bind (Q := fun _ w' => Live env B c id t w') (E := fun _ w' => Sound env B c none w') ?_
      (fun _ _ he => he) ?_
    · cases currentLease with
      | some lease => exact (validateLease_spec h₁).mono (fun _ _ hq => hq.1) (fun _ _ he => he)
      | none => exact Sat.require (fun _ => h₁) (fun _ => h₁.on.sound)
    intro _ w₂ h₂
    refine Sat.ite (fun _ => ?_) (fun _ => ?_)
    · refine Ends.bind (h₂.prepare hE) (fun _ _ he => he) ?_
      rintro p w₃ ⟨t₃, h₃, -⟩
      refine Ends.bind (registerInteractiveOwner_spec h₃.on rfl nextOwner) (fun _ _ he => he.1 ▸ h₃.on.sound) ?_
      rintro - _ ⟨l, rfl, h₄, -⟩
      exact issueGrant_ends (h₃.settled.withLocal h₄.sound) _ _
    · refine Sat.next (x := randomUUID env) rfl (Sat.next (x := isoNow env) rfl ?_)
      have hB : B.ownership (.draining f holder l x
          ⟨env.randomUUID w₂.tick, nextOwner, env.now (w₂.tick + 1), none⟩) = true := by
        have := (Bounds.target_parts (h₂.on.bounds hE)).2.2
        simp only [hown, Bounds.ownership, Bool.and_eq_true] at this
        simp [Bounds.ownership, Bounds.handoff, this, hE.uuid, hE.now, ho]
      obtain ⟨w₃, r, u, heq, h₃⟩ := setOwnership_spec hE (h₂.on.ticks 2) (fun _ => .draining f holder l x
        ⟨env.randomUUID w₂.tick, nextOwner, env.now (w₂.tick + 1), none⟩)
        (fun r u => .sameLease t _ r u h₂.active (by simp [TargetRecord.fence, hown]) (by simp [hown]) (by simp [hown]))
        hB h₂.active
      refine Sat.next heq ?_
      refine publish_ends hE h₃.on trivial h₂.active h₂.idle rfl (fun p t' w' hs => ?_)
      exact Ends.bind (view_ends hs _) (fun _ _ he => he) (fun _ _ hs => Sat.pure hs)

theorem currentHandoff_spec (h : Live env B c id t w) (handoffId : String) :
    Sat (Good env B c) (currentHandoff id handoffId) w
      (fun hh w' => w = w' ∧ ∃ f o l x, t.ownership = .draining f o l x hh) (fun _ w' => Sound env B c none w') := by
  refine Sat.next (targetById_eq h.on.get) ?_
  cases hown : t.ownership with
  | draining f o l x hh =>
    exact Sat.ite (fun _ => Sat.pure ⟨rfl, f, o, l, x, rfl⟩) (fun _ => Sat.throw h.on.sound)
  | free | held => exact Sat.throw h.on.sound

theorem resumeHeld_ends (hE : env.Within B) (h : Live env B c id t w) : Ends env B c (resumeHeld env id) w := by
  have hsame : (endDrain t.ownership).fence = t.ownership.fence ∧ (endDrain t.ownership).leaseId? = t.ownership.leaseId? ∧
      (endDrain t.ownership).owner? = t.ownership.owner? := by
    cases t.ownership <;> exact ⟨rfl, rfl, rfl⟩
  have hB : B.ownership (endDrain t.ownership) = true := by
    have := (Bounds.target_parts (h.on.bounds hE)).2.2
    cases ho : t.ownership <;> simp_all [endDrain, Bounds.ownership]
  obtain ⟨w₁, r, u, heq, h₁⟩ := setOwnership_spec hE h.on (fun t => endDrain t.ownership)
    (fun r u => .sameLease t _ r u h.active hsame.1 hsame.2.1 hsame.2.2) hB h.active
  exact Sat.next heq (publish_ends hE h₁.on trivial h.active h.idle rfl (fun p t' w' hs => view_ends hs _))

theorem cancelHandoff_ends (hE : env.Within B) (h : Sound env B c none w) (hdisk : w.disk = c.disk)
    (hstart : c.start ≤ w.tick) (handoffId : String) (lease : Lease) :
    Ends env B c (cancelHandoff env handoffId lease) w := by
  refine Sat.locked hE h hdisk hstart (fun _ _ hs => hs) (fun w₀ hl => ?_)
  refine Ends.enter hE hl (fun t w₁ h₁ => ?_)
  refine Ends.bind (validateLease_spec h₁) (fun _ _ he => he) ?_
  rintro - w₂ ⟨h₂, -⟩
  refine Ends.bind (currentHandoff_spec h₂ handoffId) (fun _ _ he => he) ?_
  rintro hh _ ⟨rfl, -⟩
  exact resumeHeld_ends hE h₂

theorem withdrawHandoff_ends (hE : env.Within B) (h : Sound env B c none w) (hdisk : w.disk = c.disk)
    (hstart : c.start ≤ w.tick) (handoffId : String) (nextOwner : Owner) :
    Ends env B c (withdrawHandoff env id handoffId nextOwner) w := by
  refine Sat.locked hE h hdisk hstart (fun _ _ hs => hs) (fun w₀ hl => ?_)
  refine Ends.enter hE hl (fun t w₁ h₁ => ?_)
  refine Sat.next (targetById_eq h₁.on.get) ?_
  cases hown : t.ownership with
  | draining f o l x hh => exact Sat.ite (fun _ => resumeHeld_ends hE h₁) (fun _ => Sat.throw h₁.on.sound)
  | free | held => exact Sat.throw h₁.on.sound

theorem commitHandoff_ends (hE : env.Within B) (h : Sound env B c none w) (hdisk : w.disk = c.disk)
    (hstart : c.start ≤ w.tick) (handoffId : String) (lease : Lease) {drain : DrainProof} {ttlMs : Int}
    (hd : B.drainProof drain = true) (httl : env.Grants B ttlMs) :
    Ends env B c (commitHandoff env handoffId lease drain ttlMs) w := by
  refine Sat.locked hE h hdisk hstart (fun _ _ hs => hs) (fun w₀ hl => ?_)
  refine Ends.enter hE hl (fun t w₁ h₁ => ?_)
  refine Ends.bind (validateLease_spec h₁) (fun _ _ he => he) ?_
  rintro - w₂ ⟨h₂, -⟩
  refine Ends.bind (currentHandoff_spec h₂ handoffId) (fun _ _ he => he) ?_
  rintro handoff _ ⟨rfl, f, o, l, x, hown⟩
  have hbo := (Bounds.target_parts (h₂.on.bounds hE)).2.2
  have hB : B.ownership (setDrain drain t.ownership) = true ∧ B.owner handoff.nextOwner = true := by
    simp only [hown, Bounds.ownership, Bounds.handoff, Bool.and_eq_true] at hbo
    simp only [hown, setDrain, Bounds.ownership, Bounds.handoff, Bool.and_eq_true, Option.all_some]
    tauto
  refine Sat.next (modifyTarget_eq (h₂.on.unique hE) h₂.on.get _) ?_
  have hm : Move t [] { t with ownership := setDrain drain t.ownership } :=
    .sameLease t (setDrain drain t.ownership) t.revision t.updatedAt h₂.active (by simp [TargetRecord.fence, hown, setDrain])
      (by simp [hown, setDrain]) (by simp [hown, setDrain])
  have h₃ := h₂.on.plain hm (Bounds.target_ownership (h₂.on.bounds hE) hB.1
    (Bounds.target_parts (h₂.on.bounds hE)).2.1 t.revision) h₂.active rfl
  refine Sat.ite (fun _ => ?_) (fun _ => ?_)
  · obtain ⟨w₄, heq, hs⟩ := (h₃.forget (p := False) False.elim).fenceSave hE (r := .drainUncertain)
      (o := none) (.inl (by simp [h₂.active])) rfl
      (fun _ => .inl (by simp [slips, RecoveryReason.isAutomatic])) False.elim
    refine Sat.next heq (Sat.bind hs (fun _ _ he => he.sound) ?_)
    rintro _ _ ⟨t', h', -⟩
    exact Sat.throw h'.sound
  · refine Ends.bind (resetOutput_spec hE h₃ trivial h₂.active h₂.idle) (fun _ _ he => he.sound) ?_
    rintro p w₄ ⟨t₄, h₄, ht₄, -, -⟩
    have ha₄ : t₄.lifecycle = .active := ht₄.facts.1.trans h₂.active
    refine Sat.next (x := resetInteractiveOwners lease.controlTargetId) rfl ?_
    obtain ⟨w₅, l', x', r, u, heq, h₅⟩ := grantOwnership_spec hE (h₄.resetPending none) ha₄ hB.2 httl
    refine Sat.next heq ?_
    refine Ends.bind (registerAfterReset_spec h₅.on rfl (by rw [h₅.loc]; exact Function.update_self _ _ _) _
      (E := fun _ w' => Sound env B c none w')) (fun _ _ he => he) ?_
    rintro - _ ⟨l'', rfl, h₆⟩
    refine Sat.next (modifyTarget_eq (h₆.unique hE) h₆.get _) ?_
    have hrec : t₄.recovery = none := by
      by_contra hne
      have := (h₄.shape hE).recovery_iff.2 (Option.isSome_iff_ne_none.2 hne)
      rw [ha₄] at this
      cases this
    have h₇ := h₆.plain (.clearRecovery hrec) (Bounds.target_cleared (h₆.bounds hE)) ha₄ rfl
    refine Ends.bind (Q := fun _ w' => ∃ t', Settled env B c _ t' w')
      (h₇.settle hE (fun _ => h₇.advanced_of hE (fun d hd u hu hid => ?_)) (by simp [ha₄]) (fun hs => ⟨_, hs⟩)
        (fun _ _ hs => hs)) (fun _ _ he => he) ?_
    · have hle := h₄.fence_le hE (by rw [← show _ = w₄.disk from h₅.disk]; exact hd) hu hid
      exact Nat.lt_succ_of_le hle
    · rintro _ w' ⟨t', hs⟩
      exact issueGrant_ends hs _ _

end Terminal
end TmuxWorktree
