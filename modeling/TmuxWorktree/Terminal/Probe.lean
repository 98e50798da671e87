import TmuxWorktree.Terminal.Fence
/-!
# Probe — output probes, reconciliation, and `assertTargetCurrent`

The checks with which almost every section begins.  A section that comes out of `assertTargetCurrent` with a value holds
an `ACTIVE` record without a write under way, whose lease it has seen before its deadline (`Mode.live`); one that comes
out with an error has fenced or retired the target, or left it as it was.
-/
namespace TmuxWorktree
namespace Terminal

open Effect

variable {env : Env} {B : Bounds} {c : Watch} {m : Mode} {id : String} {t t' : TargetRecord} {w w' : World} {α : Type}

/-! ## Output bookkeeping -/

def Touched (t t' : TargetRecord) : Prop :=
  ∃ g r u, t' = { t with outputGeneration := g, revision := r, updatedAt := u }

theorem Touched.refl (t : TargetRecord) : Touched t t := ⟨t.outputGeneration, t.revision, t.updatedAt, rfl⟩

theorem Touched.facts (h : Touched t t') : t'.lifecycle = t.lifecycle ∧ t'.ownership = t.ownership ∧
    t'.inFlight = t.inFlight ∧ t'.completedOperations = t.completedOperations ∧ t'.recovery = t.recovery := by
  obtain ⟨g, r, u, rfl⟩ := h
  exact ⟨rfl, rfl, rfl, rfl, rfl⟩

theorem Touched.auto (h : Touched t t') :
    t'.isAutoRecoverableNonFeishuState = t.isAutoRecoverableNonFeishuState := by
  obtain ⟨g, r, u, rfl⟩ := h
  rfl

theorem Touched.drains (h : Touched t t') : t'.drainsUntil = t.drainsUntil := by
  obtain ⟨g, r, u, rfl⟩ := h
  rfl

def Known (id : String) (w : World) : Prop := ∃ d u, w.disk = some d ∧ d.get? id = some u

/-- The state file is as it was, or holds the record as it is now. -/
def Kept (w w' : World) (id : String) (t' : TargetRecord) : Prop :=
  (w'.disk = w.disk ∧ flagged id w'.trace = flagged id w.trace) ∨ Saved id t' w'

theorem Saved.known (h : Saved id t w) : Known id w := by
  obtain ⟨d, hd, hu⟩ := h
  exact ⟨d, t, hd, hu⟩

theorem Kept.known (h : Kept w w' id t') (hk : Known id w) : Known id w' := by
  rcases h with ⟨h, -⟩ | h
  · rw [Known, h]; exact hk
  · exact h.known

theorem Kept.refl (w : World) (id : String) (t : TargetRecord) : Kept w w id t := .inl ⟨rfl, rfl⟩

theorem Kept.after (h : After w w') (id : String) (t : TargetRecord) : Kept w w' id t := .inl ⟨h.disk, h.flagged_eq id⟩

/-- What the state file holds of the target is what the section holds; a target that is not there is a new one. -/
structure Mirrored (id : String) (t : TargetRecord) (w : World) : Prop where
  same : ∀ d ∈ w.disk, ∀ u, d.get? id = some u → u.ownership = t.ownership ∧ u.lifecycle = t.lifecycle
  new : (∀ d ∈ w.disk, d.get? id = none) → flagged id w.trace = false

theorem Saved.mirrored (h : Saved id t w) : Mirrored id t w := by
  obtain ⟨d, hd, hget⟩ := h
  refine ⟨fun d' hd' u hu => ?_, fun hn => ?_⟩
  · obtain rfl : d = d' := Option.some.inj (hd.symm.trans hd')
    obtain rfl : t = u := Option.some.inj (hget.symm.trans hu)
    exact ⟨rfl, rfl⟩
  · rw [hn d hd] at hget
    cases hget

theorem Mirrored.free (h : Mirrored id t w) (hf : t.ownership.isFree = true) :
    ∀ d ∈ w.disk, ∀ u, d.get? id = some u → u.ownership.isFree = true := fun d hd u hu => by
  rw [(h.same d hd u hu).1]
  exact hf

theorem Mirrored.kept (h : Mirrored id t w) (ht : Touched t t') (hk : Kept w w' id t') : Mirrored id t' w' := by
  rcases hk with ⟨hd, hf⟩ | hs
  · obtain ⟨g, r, u, rfl⟩ := ht
    exact ⟨by rw [hd]; exact h.same, by rw [hd, hf]; exact h.new⟩
  · exact hs.mirrored

theorem Mirrored.after (h : Mirrored id t w) (ha : After w w') : Mirrored id t w' :=
  ⟨by rw [ha.disk]; exact h.same, by rw [ha.disk, ha.flagged_eq]; exact h.new⟩

theorem On.touch (h : On env B c m id t w) (hE : env.Within B) (hl : t.lifecycle ≠ .targetGone) {g : String} {r : Nat}
    {u : Int} (hg : B.stored g 128 = true) (hu : B.time u = true) :
    On env B c m id { t with outputGeneration := g, revision := r, updatedAt := u }
      (w.moved id [] { t with outputGeneration := g, revision := r, updatedAt := u }) :=
  h.move (.touch t g r u) (Bounds.target_touch (h.bounds hE) hg hu r) (.inl hl) (fun _ hk => hk) (.same rfl)
    (fun hc => .inl hc)

theorem Bounds.target_parts (h : B.target t = true) :
    B.stored t.outputGeneration 128 = true ∧ B.time t.updatedAt = true ∧ B.ownership t.ownership = true := by
  simp only [Bounds.target, Bool.and_eq_true] at h
  tauto

theorem On.setOutput (h : On env B c m id t w) (hE : env.Within B) (hl : t.lifecycle ≠ .targetGone) {g : String}
    (hg : B.stored g 128 = true) :
    On env B c m id { t with outputGeneration := g } (w.moved id [] { t with outputGeneration := g }) :=
  h.touch hE hl hg (Bounds.target_parts (h.bounds hE)).2.1

theorem setOutputGeneration_eq (hE : env.Within B) (h : On env B c m id t w) (g : String) :
    setOutputGeneration id g w = (.ok (), w.moved id [] { t with outputGeneration := g }) :=
  modifyTarget_eq (h.unique hE) h.get _

def Position.Within (B : Bounds) (p : Position) : Prop := B.stored p.generation 128 = true ∧ B.cursor p.cursor = true

/-- The end of a probe: the record is touched at most, and the position is within bounds. -/
def Probed (env : Env) (B : Bounds) (c : Watch) (m : Mode) (id : String) (t : TargetRecord) (w : World) (p : Position)
    (w' : World) : Prop :=
  ∃ t', On env B c m id t' w' ∧ Touched t t' ∧ Kept w w' id t' ∧ p.Within B

theorem repairOutput_spec (hE : env.Within B) (h : On env B c m id t w) (hseen : m.seen) (ha : t.lifecycle = .active)
    (hidle : t.inFlight = none) (hn : t.drainsUntil = none) (message : String) :
    Sat (Good env B c)
      (tryCatch
        (do
          backendAssertCurrent env
          let output ← backendResetOutput env
          adoptRepairedOutput env id output
          return output)
        (fun _ => fenceAndThrow env id .outputContinuityUncertain message))
      w (Probed env B c m id t w) (fun _ => Dropped env B c m id) := by
  have hl : t.lifecycle ≠ .targetGone := by rw [ha]; decide
  refine Sat.tryCatch (F := fun _ w' => ∃ p t', On env B c { m with pending := p } id t' w' ∧ t'.inFlight = none) ?_ ?_
  · refine Sat.step (P := fun _ w₁ => On env B c m id t w₁ ∧ w₁.disk = w.disk)
      (Sat.await h.sound (fun _ w₁ ha hs _ => ⟨h.after ha hs, ha.disk⟩)
        (fun _ w₁ ha hs => ⟨m.pending, t, h.after ha hs, hidle⟩)) ?_
    rintro - w₁ ⟨h₁, hd₁⟩
    refine Sat.step (P := fun p w₂ => On env B c m id t w₂ ∧ w₂.disk = w.disk ∧ p.Within B)
      (Sat.await h₁.sound
        (fun p w₂ ha hs hp => ⟨h₁.after ha hs, ha.disk.trans hd₁, hE.position _ _ hp.choose_spec⟩)
        (fun _ w₂ ha hs => ⟨m.pending, t, h₁.after ha hs, hidle⟩)) ?_
    rintro p w₂ ⟨h₂, -, hp⟩
    refine Sat.step (P := fun _ w₃ => ∃ t', On env B c m id t' w₃ ∧ Touched t t' ∧ Kept w w₃ id t') ?_
      (fun _ w₃ ⟨t', h1, h2, h3⟩ => Sat.pure ⟨t', h1, h2, h3, hp⟩)
    refine Sat.next (setOutputGeneration_eq hE h₂ p.generation) ?_
    have h₃ := h₂.setOutput hE hl hp.1
    refine Sat.next (assign_eq (h₃.unique hE) h₃.get _) ?_
    have h₄ := (h₃.ticks 1).touch hE hl (g := p.generation) (r := t.revision + 1) (u := env.now w₂.tick) hp.1 (hE.now _)
    exact h₄.save hE (p := m.pending) (fun hp => .inl hp) hn (fun _ => .inr (.inl (by simp [ha])))
      (fun hs => ⟨_, hs, ⟨_, _, _, rfl⟩, .inr (h₄.saved hE hl)⟩) (fun _ w' hs => ⟨false, _, hs, hidle⟩)
  · rintro - w₁ ⟨p, t', h₁, hidle'⟩
    exact fenceAndThrow_spec hE h₁ hseen hidle' (by decide) message

theorem drainsUntil_eq_none (h : t.ownership.isDraining = false) : t.drainsUntil = none := by
  unfold TargetRecord.drainsUntil
  split
  · simp_all
  · rfl

theorem adoptOutput_spec (hE : env.Within B) {E : ControlError → World → Prop} (h : On env B c m id t w)
    (hl : t.lifecycle ≠ .targetGone) (herr : ∀ e w', On env B c m id t w' → After w w' → E e w') :
    Sat (Good env B c)
      (do
        let output ← await env env.position
        setOutputGeneration id output.generation
        return output)
      w (Probed env B c m id t w) E := by
  refine Sat.step (P := fun p w₁ => On env B c m id t w₁ ∧ After w w₁ ∧ p.Within B)
    (Sat.await h.sound
      (fun p w₁ ha hs hp => ⟨h.after ha hs, ha, hE.position _ _ hp.choose_spec⟩)
      (fun e w₁ ha hs => herr e w₁ (h.after ha hs) ha)) ?_
  rintro p w₁ ⟨h₁, ha, hp⟩
  refine Sat.next (setOutputGeneration_eq hE h₁ p.generation) ?_
  exact Sat.pure ⟨_, h₁.setOutput hE hl hp.1, ⟨_, _, _, rfl⟩, .inl ⟨ha.disk, ha.flagged_eq id⟩, hp⟩

/-- **`prepareOutput`** of a live record. -/
theorem prepareOutput_spec (hE : env.Within B) (h : On env B c m id t w) (hseen : m.seen) (ha : t.lifecycle = .active)
    (hidle : t.inFlight = none) :
    Sat (Good env B c) (prepareOutput env id) w (Probed env B c m id t w) (fun _ => Dropped env B c m id) := by
  have hl : t.lifecycle ≠ .targetGone := by rw [ha]; decide
  refine Sat.tryCatch (F := fun _ w₁ => On env B c m id t w₁ ∧ After w w₁)
    (adoptOutput_spec hE h hl (fun _ _ h₁ ha => ⟨h₁, ha⟩)) ?_
  rintro error w₁ ⟨h₁, haw⟩
  refine Sat.next (targetById_eq h₁.get) (Sat.ite (fun hc => ?_) (fun _ => ?_))
  · simp only [Bool.and_eq_true, Bool.or_eq_true, Bool.not_eq_true'] at hc
    have hn : t.drainsUntil = none := by
      rcases hc.2 with ⟨hfree, -⟩ | ⟨⟨-, hdr⟩, -⟩
      · exact drainsUntil_eq_none (by rw [Ownership.eq_free_of_isFree hfree]; rfl)
      · exact drainsUntil_eq_none hdr
    refine (repairOutput_spec hE h₁ hseen ha hidle hn _).mono ?_ (fun _ _ he => he)
    rintro p w₂ ⟨t', h2, h3, h4, h5⟩
    exact ⟨t', h2, h3, h4.imp_left (fun hh => ⟨hh.1.trans haw.disk, hh.2.trans (haw.flagged_eq id)⟩), h5⟩
  · exact fenceAndThrow_spec hE h₁ hseen hidle (by decide) _

/-- **`resetOutput`** of a live record. -/
theorem resetOutput_spec (hE : env.Within B) (h : On env B c m id t w) (hseen : m.seen) (ha : t.lifecycle = .active)
    (hidle : t.inFlight = none) :
    Sat (Good env B c) (resetOutput env id) w (Probed env B c m id t w) (fun _ => Dropped env B c m id) := by
  refine Sat.tryCatch (F := fun _ w₁ => On env B c m id t w₁)
    (adoptOutput_spec hE h (by rw [ha]; decide) (fun _ _ h₁ _ => h₁)) ?_
  intro error w₁ h₁
  exact fenceAndThrow_spec hE h₁ hseen hidle (by decide) _

/-- **`recoverOutput`** changes nothing but the output generation. -/
theorem recoverOutput_spec (hE : env.Within B) (h : On env B c m id t w) (hl : t.lifecycle ≠ .targetGone) :
    Sat (Good env B c) (recoverOutput env id) w (Probed env B c m id t w) (fun _ w' => On env B c m id t w') := by
  refine Sat.tryCatch (F := fun _ w₁ => On env B c m id t w₁) ?_ (fun _ _ h₁ => Sat.throw h₁)
  refine Sat.next (targetById_eq h.get) ?_
  refine Sat.step (P := fun _ w₁ => w₁ = w) (Sat.ofExcept (fun _ _ => rfl) (fun _ _ => h)) ?_
  rintro - _ rfl
  exact adoptOutput_spec hE h hl (fun _ _ h₁ _ => h₁)

/-! ## The registry -/

theorem On.reset (hE : env.Within B) (h : On env B c m id t w)
    (hfree : ∀ d ∈ w.disk, ∀ u, d.get? id = some u → u.ownership.isFree = true) (hp : m.producer = none) :
    On env B c m id t { w with loc := w.loc.resetInteractiveOwners id } := by
  refine ⟨⟨h.sound.toGood.withLocal h.sound.claims h.sound.running, fun d hd u hu hex => ?_⟩, h.get, h.epochs, h.start,
    h.watched, h.alone, h.calm, fun o ho => by rw [hp] at ho; cases ho⟩
  by_cases hid : u.controlTargetId = id
  · have hget := ((h.sound.wellFormed hE).disk d hd).get hu
    rw [hid] at hget
    exact h.sound.reach.producing_of_free hE.placeholder hd hu (hfree d hd u hget) _
  · show Producing _ _ (Function.update w.loc.interactiveOwners id none u.controlTargetId) _
    rw [Function.update_of_ne hid]
    exact h.sound.producers d hd u hu hex

theorem On.resetPending (h : On env B c m id t w) (f : Option Owner) :
    On env B c { m with pending := true, producer := none } id t
      { w with loc := { w.loc with interactiveOwners := Function.update w.loc.interactiveOwners id f } } := by
  refine ⟨⟨h.sound.toGood.withLocal h.sound.claims h.sound.running, fun d hd u hu hex => ?_⟩, h.get, h.epochs, h.start,
    h.watched, h.alone, h.calm, fun o ho => by cases ho⟩
  have hid : u.controlTargetId ≠ id := fun he => hex (by simp [he])
  show Producing _ _ (Function.update w.loc.interactiveOwners id f u.controlTargetId) _
  rw [Function.update_of_ne hid]
  refine h.sound.producers d hd u hu ?_
  split
  · exact fun he => hid (Option.some.inj he).symm
  · simp

/-! ## Reconciliation -/

theorem On.unflagged (hE : env.Within B) (h : On env B c m id t w) (hmir : Mirrored id t w) (ha : t.lifecycle = .active)
    (hc : Clean w.trace) : flagged id w.trace = false := by
  by_contra hf
  have hf : flagged id w.trace = true := by simpa using hf
  by_cases hex : ∀ d ∈ w.disk, d.get? id = none
  · rw [hmir.new hex] at hf
    cases hf
  · push Not at hex
    obtain ⟨d, hd, hne⟩ := hex
    obtain ⟨u, hu⟩ := Option.ne_none_iff_exists'.1 hne
    obtain ⟨humem, huid⟩ := ControlState.get?_mem hu
    refine ((h.sound.reach.drainInv hE.placeholder hc).disk d hd u humem (huid ▸ hf)).not_active ?_
    rw [(hmir.same d hd u hu).2, ha]

theorem Mirrored.drains (h : Mirrored id t w) {d : ControlState} (hd : d ∈ w.disk) {u : TargetRecord}
    (hu : d.get? id = some u) : u.drainsUntil = t.drainsUntil := by
  obtain ⟨h1, h2⟩ := h.same d hd u hu
  unfold TargetRecord.drainsUntil
  rw [h1, h2]

theorem On.see (hE : env.Within B) (h : On env B c m id t w) (hmir : Mirrored id t w) (ha : t.lifecycle = .active)
    (hx : ∀ x, t.drainsUntil = some x → ∃ i, c.start ≤ i ∧ i < w.tick ∧ env.now i < x) :
    On env B c { m with seen := True } id t w := by
  refine ⟨h.sound, h.get, h.epochs, h.start, h.watched, fun _ => h.alone_of_live hE (by rw [ha]; decide), fun _ => ?_,
    h.producer⟩
  rcases h.sound.tidy with hc | he
  · refine .inr (fun _ => ⟨h.unflagged hE hmir ha hc, fun d hd u hu x hux => hx x ?_⟩)
    rw [← hmir.drains hd hu]
    exact hux
  · exact .inl he

def SameOperations (t t' : TargetRecord) : Prop :=
  t'.completedOperations = t.completedOperations ∧ t'.inFlight = t.inFlight

/-- What a check leaves of a record that passes it: its operations, and the producer of a record that is held. -/
structure Carried (c : Watch) (t : TargetRecord) (w : World) (t' : TargetRecord) (w' : World) : Prop where
  operations : SameOperations t t'
  registry : c.running = .external → t'.ownership.isFree = false →
    w'.loc.interactiveOwners = w.loc.interactiveOwners

structure Reconciled (env : Env) (B : Bounds) (c : Watch) (seen : Prop) (id : String) (t : TargetRecord) (w : World)
    (t' : TargetRecord) (w' : World) : Prop where
  on : On env B c (.at seen) id t' w'
  mirrored : Mirrored id t' w'
  known : Known id w → Known id w'
  live : t'.lifecycle = .active → On env B c .live id t' w'
  carried : t'.lifecycle = .active → Carried c t w t' w'

theorem auto_facts (hs : Shape t) (h : t.isAutoRecoverableNonFeishuState = true) :
    t.lifecycle = .recoveryRequired ∧ t.ownership.isFree = true ∧ t.inFlight = none ∧
      t.previousOwnerKind ≠ some .feishu := by
  have hl := lifecycle_of_auto h
  have hne : t.lifecycle ≠ .active := by rw [hl]; decide
  refine ⟨hl, hs.free hne, hs.idle hne, ?_⟩
  unfold TargetRecord.isAutoRecoverableNonFeishuState at h
  cases hr : t.recovery with
  | none => simp [hr] at h
  | some r =>
    simp only [hr, Bool.and_eq_true, decide_eq_true_eq] at h
    rw [TargetRecord.previousOwnerKind, Ownership.eq_free_of_isFree (hs.free hne)]
    simpa [hr] using h.1.1.1.2

theorem reconcileIdentity_spec (hE : env.Within B) (h : On env B c m id t w)
    (hauto : t.isAutoRecoverableNonFeishuState = true) :
    Sat (Good env B c) (reconcileIdentity env id) w (fun _ w' => On env B c m id t w' ∧ After w w')
      (fun _ => Dropped env B c m id) := by
  obtain ⟨hl, -, -, hkind⟩ := auto_facts (h.shape hE) hauto
  refine Sat.tryCatch (F := fun _ w' => On env B c m id t w' ∧ After w w') ?_ ?_
  · exact Sat.step (Sat.await (Q := fun _ w' => On env B c m id t w' ∧ After w w') h.sound
      (fun _ w' ha hs _ => ⟨h.after ha hs, ha⟩) (fun _ w' ha hs => ⟨h.after ha hs, ha⟩)) (fun _ _ hw => Sat.pure hw)
  · rintro error w₁ ⟨h₁, ha⟩
    refine Sat.ite (fun _ => ?_) (fun _ => Sat.pure ⟨h₁, ha⟩)
    exact retireAndThrow_spec hE h₁ (by rw [hl]; decide) (fun _ _ => hkind) _

theorem reconcileOutput_spec (hE : env.Within B) (h : On env B c m id t w) (hl : t.lifecycle ≠ .targetGone) :
    Sat (Good env B c) (reconcileOutput env id) w
      (fun _ w' => ∃ t', On env B c m id t' w' ∧ Touched t t' ∧ w'.disk = w.disk ∧
        flagged id w'.trace = flagged id w.trace)
      (fun _ _ => False) := by
  refine Sat.tryCatch (F := fun _ w' => On env B c m id t w' ∧ After w w') ?_
    (fun _ w' hw => Sat.pure ⟨t, hw.1, .refl t, hw.2.disk, hw.2.flagged_eq id⟩)
  refine Sat.step (Sat.await (Q := fun p w' => (On env B c m id t w' ∧ After w w') ∧ p.Within B) h.sound
    (fun p w' ha hs hp => ⟨⟨h.after ha hs, ha⟩, hE.position _ _ hp.choose_spec⟩)
    (fun _ w' ha hs => ⟨h.after ha hs, ha⟩)) ?_
  rintro p w₁ ⟨⟨h₁, ha⟩, hp⟩
  refine Sat.next (setOutputGeneration_eq hE h₁ p.generation) ?_
  exact Sat.pure ⟨_, h₁.setOutput hE hl hp.1, ⟨_, _, _, rfl⟩, ha.disk, ha.flagged_eq id⟩

/-- What the probes of a reconciliation leave: a live record as it was, a fenced one as it was or live and free. -/
structure Refenced (env : Env) (B : Bounds) (c : Watch) (seen : Prop) (id : String) (t : TargetRecord) (w : World)
    (t' : TargetRecord) (w' : World) : Prop where
  on : On env B c (.at seen) id t' w'
  mirrored : Mirrored id t' w'
  kept : Kept w w' id t'
  same : t.lifecycle = .active → t' = t ∧ w' = w
  woken : t.lifecycle ≠ .active → t'.lifecycle = .active → On env B c .live id t' w' ∧
    t'.completedOperations = t.completedOperations ∧ t'.inFlight = none ∧ t'.ownership.isFree = true

theorem reconcileFenced_spec (hE : env.Within B) {seen : Prop} (h : On env B c (.at seen) id t w)
    (hmir : Mirrored id t w) :
    Sat (Good env B c) (reconcileFenced env id) w
      (fun _ w' => ∃ t', Refenced env B c seen id t w t' w') (fun _ => Dropped env B c (.at seen) id) := by
  refine Sat.next (targetById_eq h.get) (Sat.ite (fun _ => ?_) (fun hauto => ?_))
  · exact Sat.pure ⟨t, h, hmir, .refl _ _ _, fun _ => ⟨rfl, rfl⟩, fun hn ha => absurd ha hn⟩
  have hauto : t.isAutoRecoverableNonFeishuState = true := by simpa using hauto
  obtain ⟨hl, hfree, hidle, hkind⟩ := auto_facts (h.shape hE) hauto
  have hna : t.lifecycle ≠ .active := by rw [hl]; decide
  have hng : t.lifecycle ≠ .targetGone := by rw [hl]; decide
  -- the target stays fenced
  have still : ∀ {t₁ w₁}, On env B c (.at seen) id t₁ w₁ → Touched t t₁ → Kept w w₁ id t₁ →
      Sat (Good env B c) (pure false : M Bool) w₁
        (fun _ w' => ∃ t', Refenced env B c seen id t w t' w') (fun _ => Dropped env B c (.at seen) id) := by
    intro t₁ w₁ h₁ ht hk
    have hm := hmir.kept ht hk
    obtain ⟨g, r, u, rfl⟩ := ht
    exact Sat.pure ⟨_, h₁, hm, hk, fun ha => absurd ha hna, fun _ ha => absurd ha hna⟩
  refine Sat.step (reconcileIdentity_spec hE h hauto) ?_
  rintro current w₁ ⟨h₁, ha₁⟩
  refine Sat.ite (fun _ => still h₁ (.refl t) (.after ha₁ id t)) (fun _ => ?_)
  refine Sat.bind (reconcileOutput_spec hE h₁ hng) (fun _ _ he => he.elim) ?_
  rintro reset w₂ ⟨t₂, h₂, ht₂, hd₂, hf₂⟩
  have hk₂ : Kept w w₂ id t₂ := .inl ⟨hd₂.trans ha₁.disk, hf₂.trans (ha₁.flagged_eq id)⟩
  refine Sat.ite (fun _ => still h₂ ht₂ hk₂) (fun _ => ?_)
  have hauto₂ : t₂.isAutoRecoverableNonFeishuState = true := ht₂.auto.trans hauto
  obtain ⟨hl₂, hfree₂, hidle₂, hkind₂⟩ := auto_facts (h₂.shape hE) hauto₂
  have hu := h₂.unique hE
  have hget := h₂.get
  refine Sat.next (x := logEvent _) rfl (Sat.next (x := modifyLocal _) rfl ?_)
  refine Sat.next (assign_eq (t := t₂) (by exact hu) (by exact hget) _) ?_
  have h₃ := ((h₂.reset hE ((hmir.kept ht₂ hk₂).free hfree₂) rfl).ticks 1).move
    (Move.reconcileAt h₂.known.2 (t₂.revision + 1) (env.now w₂.tick) hauto₂)
    (Bounds.target_active (h₂.bounds hE) rfl (hE.now _) _) (.inl (by rw [hl₂]; decide)) (fun _ _ _ => hkind₂)
    (.same rfl) (fun hc => .inl ⟨rfl, hc⟩)
  refine Sat.step (P := fun _ w' => ∃ t', On env B c (.at seen) id t' w' ∧ Saved id t' w' ∧ t'.lifecycle = .active ∧
      t'.drainsUntil = none ∧ t'.completedOperations = t.completedOperations ∧ t'.inFlight = none ∧
      t'.ownership.isFree = true)
    (h₃.save hE (p := false) (fun hp => by cases hp) (drainsUntil_eq_none rfl) (fun _ => .inr (.inl (by simp)))
      (fun hs => ⟨_, hs, h₃.saved hE (by simp), rfl, drainsUntil_eq_none rfl, ht₂.facts.2.2.2.1, hidle₂, rfl⟩)
      (fun _ w' hs => ⟨_, hs⟩)) ?_
  rintro - w₄ ⟨t₄, h₄, hsav, hact, hdr, hops⟩
  refine Sat.pure ⟨t₄, h₄, hsav.mirrored, .inr hsav, fun ha => absurd ha hna, fun _ _ => ⟨?_, hops⟩⟩
  exact h₄.see hE hsav.mirrored hact (fun x hx => by rw [hdr] at hx; cases hx)

theorem before_deadline {now x : Int} (h : t.leaseExpired now = false) (hx : t.drainsUntil = some x) : now < x := by
  unfold TargetRecord.drainsUntil at hx
  split at hx
  · rename_i ho
    obtain rfl := Option.some.inj hx
    simpa [TargetRecord.leaseExpired, ho] using h
  · cases hx

/-- **`reconcileAbandonedOwnership`.** -/
theorem reconcileAbandonedOwnership_spec (hE : env.Within B) {seen : Prop} (h : On env B c (.at seen) id t w)
    (hmir : Mirrored id t w) (hseen : seen → Known id w ∧ t.inFlight = none) :
    Sat (Good env B c) (reconcileAbandonedOwnership env id) w
      (fun _ w' => ∃ t', Reconciled env B c seen id t w t' w') (fun _ => Dropped env B c (.at seen) id) := by
  refine Sat.next (targetById_eq h.get) (Sat.next (x := isoNow env) rfl (Sat.ite (fun hexp => ?_) (fun hexp => ?_)))
  · simp only [Bool.and_eq_true, decide_eq_true_eq] at hexp
    obtain ⟨ha, hexp⟩ := hexp
    have hl : t.lifecycle ≠ .targetGone := by rw [ha]; decide
    -- a drain in the state file is a drain in the section, and is fenced as uncertain
    have hslip : Clean w.trace → slips w.trace
        (.fenced id t (if t.ownership.isDraining then .drainUncertain else .leaseExpired) (env.now (w.tick + 2)) none)
          = false := by
      intro hc
      cases hdr : t.ownership.isDraining with
      | true => simp [slips, RecoveryReason.isAutomatic]
      | false =>
        have hover : overdue (lastSaved w.trace) id (env.now (w.tick + 2)) = false := by
          by_contra hne
          simp only [overdue, Bool.not_eq_false, Option.any_eq_true] at hne
          obtain ⟨d, hd, u, hu, x, hx, -⟩ := hne
          rw [hmir.drains (h.sound.reach.saved.trans hd) hu, drainsUntil_eq_none hdr] at hx
          cases hx
        simp [slips, h.unflagged hE hmir ha hc, hover]
    -- a drain that was seen before its deadline has run out under the section
    have hpres : seen → c.Excused env (w.tick + 4) ∨
        ((if t.ownership.isDraining then RecoveryReason.drainUncertain else .leaseExpired) ≠ .drainUncertain ∧
          t.inFlight = none ∧ (none : Option String) = none) := by
      intro hs
      obtain ⟨⟨d, u, hd, hu⟩, hin⟩ := hseen hs
      cases hdr : t.ownership.isDraining with
      | false => exact .inr ⟨by simp, hin, rfl⟩
      | true =>
        left
        rcases h.calm hs with hx | hcalm
        · exact hx.mono (by omega)
        obtain ⟨f, o, l, x, hh, ho⟩ : ∃ f o l x hh, t.ownership = .draining f o l x hh := by
          cases ho : t.ownership <;> simp_all
        have hdrains : t.drainsUntil = some x := by simp [TargetRecord.drainsUntil, ha, ho]
        have hux : u.drainsUntil = some x := (hmir.drains hd hu).trans hdrains
        obtain ⟨o', hdl⟩ := h.watched d hd u hu x hux
        obtain ⟨i, hi1, hi2, hi3⟩ := (hcalm (fun hr => by rw [ha] at hr; cases hr)).2 d hd u hu x hux
        have hle : x ≤ env.now w.tick := by simpa [TargetRecord.leaseExpired, ho] using hexp
        exact .inr ⟨id, o', x, hdl, w.tick, h.start, by omega, hle, .inr ⟨i, hi1, hi2, hi3⟩⟩
    obtain ⟨w₀, heq, hsave⟩ := (h.ticks 1).fenceSave hE (o := none) (.inl hl) rfl
      (fun hc => .inl (hslip hc)) hpres
    refine Sat.next heq (Sat.step hsave ?_)
    rintro - w₁ ⟨_, h₁, hsav, x, y, z, rfl⟩
    refine Sat.ite (fun _ => ?_) (fun hab => ?_)
    · exact Sat.pure ⟨_, h₁, hsav.mirrored, fun _ => hsav.known, (fun hact => by cases hact),
        (fun hact => by cases hact)⟩
    · have hidle : t.inFlight = none := by
        simp only [Bool.not_eq_true', Bool.not_eq_false] at hab
        unfold TargetRecord.isAbandonableNonFeishuLease at hab
        split at hab
        · simp only [Bool.and_eq_true, decide_eq_true_eq] at hab
          exact hab.2
        · cases hab
      refine (reconcileFenced_spec hE h₁ hsav.mirrored).mono ?_ (fun _ _ he => he)
      rintro b w' ⟨t', h', hmir', hkept, -, hlive⟩
      refine ⟨t', h', hmir', fun _ => hkept.known hsav.known, fun hact => (hlive (by simp [TargetRecord.markRecovery]) hact).1,
        fun hact => ?_⟩
      obtain ⟨-, hj, hin, hfree⟩ := hlive (by simp [TargetRecord.markRecovery]) hact
      refine ⟨⟨hj.trans ?_, hin.trans hidle.symm⟩, fun _ hf => by rw [hfree] at hf; cases hf⟩
      simp [TargetRecord.markRecovery, TargetRecord.completeInFlightAsInDoubt, hidle]
  · refine (reconcileFenced_spec hE (h.ticks 1) ⟨hmir.same, hmir.new⟩).mono ?_ (fun _ _ he => he)
    rintro b w' ⟨t', h', hmir', hkept, hsame, hlive⟩
    by_cases ha : t.lifecycle = .active
    · obtain ⟨rfl, rfl⟩ := hsame ha
      refine ⟨t', h', hmir', fun hk => hk, fun _ => ?_, fun _ => ⟨⟨rfl, rfl⟩, fun _ _ => rfl⟩⟩
      refine h'.see hE hmir' ha (fun x hx => ⟨w.tick, h.start, Nat.lt_succ_self _, before_deadline (t := t') ?_ hx⟩)
      simpa [ha] using hexp
    · refine ⟨t', h', hmir', fun hk => hkept.known hk, fun hact => (hlive ha hact).1, fun hact => ?_⟩
      obtain ⟨-, hj, hin, hfree⟩ := hlive ha hact
      exact ⟨⟨hj, hin.trans ((h.shape hE).idle ha).symm⟩, fun _ hf => by rw [hfree] at hf; cases hf⟩

/-- A section past its checks. -/
structure Live (env : Env) (B : Bounds) (c : Watch) (id : String) (t : TargetRecord) (w : World) : Prop where
  on : On env B c .live id t w
  mirrored : Mirrored id t w
  known : Known id w
  active : t.lifecycle = .active
  idle : t.inFlight = none

theorem ensureOperable_ok (h : t.ensureOperable = .ok ()) : t.lifecycle ≠ .targetGone ∧
    t.lifecycle ≠ .recoveryRequired ∧ t.inFlight = none := by
  unfold TargetRecord.ensureOperable at h
  split at h
  · cases h
  · rename_i hg
    split at h
    · cases h
    · rename_i hr
      simp only [Bool.or_eq_true, decide_eq_true_eq, not_or] at hr
      exact ⟨hg, hr.1, by simpa using hr.2⟩

/-- **`assertTargetCurrent`.** -/
theorem assertTargetCurrent_spec (hE : env.Within B) {seen : Prop} (h : On env B c (.at seen) id t w)
    (hmir : Mirrored id t w) (hk : Known id w) (hseen : seen → t.inFlight = none) :
    Sat (Good env B c) (assertTargetCurrent env id) w
      (fun _ w' => ∃ t', Live env B c id t' w' ∧ Carried c t w t' w')
      (fun _ => Dropped env B c (.at seen) id) := by
  refine Sat.step (reconcileAbandonedOwnership_spec hE h hmir (fun hs => ⟨hk, hseen hs⟩)) ?_
  rintro - w₁ ⟨t₁, hr⟩
  refine Sat.step (P := fun _ w' => w' = w₁ ∧ t₁.ensureOperable = .ok ()) ?_ ?_
  · refine Sat.next (targetById_eq hr.on.get) (Sat.ofExcept (fun a ha => ⟨rfl, ha⟩) (fun _ _ => ⟨t₁, hr.on⟩))
  rintro - _ ⟨rfl, hop⟩
  obtain ⟨hg, hnr, hidle⟩ := ensureOperable_ok hop
  have ha : t₁.lifecycle = .active := by cases hl : t₁.lifecycle <;> simp_all
  have hlive := hr.live ha
  have hcar := hr.carried ha
  have weaken : ∀ {w'}, Dropped env B c .live id w' → Dropped env B c (.at seen) id w' := fun ⟨t', h'⟩ =>
    ⟨t', h'.forget (fun _ => trivial)⟩
  refine Sat.tryCatch (F := fun _ w' => On env B c .live id t₁ w') ?_ ?_
  · exact Sat.await hlive.sound
      (fun _ w' ha' hs _ => ⟨t₁, ⟨hlive.after ha' hs, hr.mirrored.after ha', by
        rw [Known, ha'.disk]; exact hr.known hk, ha, hidle⟩, hcar.operations,
        fun hr' hf => (ha'.registry (hlive.sound.here.trans hr')).trans (hcar.registry hr' hf)⟩)
      (fun _ w' ha' hs => hlive.after ha' hs)
  · intro error w₂ h₂
    refine Sat.ite (fun _ => ?_) (fun _ => ?_)
    · exact (retireAndThrow_spec hE h₂ hg (fun _ hrr => absurd hrr hnr) _).mono (fun _ _ hq => hq) (fun _ _ he => weaken he)
    · exact (fenceAndThrow_spec hE h₂ trivial hidle (by decide) _).mono (fun _ _ hq => hq) (fun _ _ he => weaken he)

end Terminal
end TmuxWorktree
