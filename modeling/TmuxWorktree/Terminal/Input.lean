import TmuxWorktree.Terminal.Force
/-!
# Input — write calls to the backend, and the reads

`executeInput` and `executeLifecycleKill` put an operation in flight, save, and only then call the backend.  A call that
fails leaves the operation abandoned (if it is proved not applied), or in doubt with the target fenced.  The reads
(`tailOutput` and the three agent reads) write nothing but may fence the target they read.
-/
namespace TmuxWorktree
namespace Terminal

open Effect

variable {env : Env} {B : Bounds} {c : Watch} {m : Mode} {id : String} {t t' : TargetRecord} {w w' : World} {α : Type}

/-! ## The write call -/

theorem After.owed_eq (h : After w w') (id op : String) : owed id op w'.trace = owed id op w.trace := by
  obtain ⟨events, he, hc⟩ := h.trace
  rw [he]
  clear he
  induction events with
  | nil => rfl
  | cons e events ih =>
    rw [List.cons_append, owed, ih (fun e he => hc e (List.mem_cons_of_mem _ he))]
    rcases hc e List.mem_cons_self with ⟨lease, rfl⟩ | ⟨id', owner, rfl⟩ <;> simp [Event.writes, Event.settles]

theorem underway_append {id op : String} {tr : List Event} (h : underway id op tr = true) : ∀ {events : List Event},
    Event.restarted ∉ events → underway id op (events ++ tr) = true
  | [], _ => h
  | e :: events, hr => by
    have ih := underway_append h (fun hm => hr (List.mem_cons_of_mem e hm))
    cases e with
    | restarted => exact absurd List.mem_cons_self hr
    | started => simp [underway, ih]
    | _ => exact ih

theorem After.underway (h : After w w') {id op : String} (hu : underway id op w.trace = true) :
    Terminal.underway id op w'.trace = true := by
  obtain ⟨events, he, hc⟩ := h.trace
  rw [he]
  refine underway_append hu (fun hm => ?_)
  rcases hc _ hm with ⟨_, hx⟩ | ⟨_, _, hx⟩ <;> cases hx

theorem Saved.after (h : Saved id t w) (ha : After w w') : Saved id t w' := by
  obtain ⟨d, hd, hget⟩ := h
  exact ⟨d, ha.disk.trans hd, hget⟩

/-- An operation in flight, in the section and in the state file, that is not on the books. -/
structure Started (id : String) (t : TargetRecord) (op : InFlightOperation) (w : World) : Prop where
  saved : Saved id t w
  inFlight : t.inFlight = some op
  owed : owed id op.operationId w.trace = false
  underway : underway id op.operationId w.trace = true
  held : t.ownership.isFree = false

/-- **A write call may be noted** for an operation that was put in flight, by the producer if it is an input. -/
theorem On.write (h : On env B c m id t w) (hp : m.pending = false) {op : InFlightOperation} (hs : Started id t op w)
    {kind : OperationKind} {owner : Owner}
    (hprod : kind ≠ .lifecycleKill → isInteractiveOwner owner = true → m.producer = some owner) (returned : Bool) :
    On env B c m id t (w.log (.write id op.operationId kind owner t.fence returned)) := by
  obtain ⟨d, hd, hget⟩ := hs.saved
  obtain ⟨hmem, hid⟩ := ControlState.get?_mem hget
  have hn : w.ledger.Notes (.write id op.operationId kind owner t.fence returned) :=
    ⟨hs.owed, hs.underway, d, t, op, hd, hget, h.get, hs.inFlight, rfl, rfl, hs.held⟩
  -- the owner of an input that was written is the one registered
  have registered : ∀ id' f a, (Event.write id op.operationId kind owner t.fence returned).produces id' f a = true →
      id = id' ∧ t.fence = f ∧ w.loc.interactiveOwners id = some a := by
    intro id' f a ha
    simp only [Event.produces, Bool.and_eq_true, decide_eq_true_eq] at ha
    obtain ⟨⟨⟨⟨⟨h1, h2⟩, h3⟩, -⟩, h4⟩, h5⟩ := ha
    subst h3
    exact ⟨h1, h2, (h.producer owner (hprod h4 h5)).2⟩
  have hsound := h.sound
  rw [hp] at hsound
  refine h.note ?_ rfl
  rw [hp]
  refine ⟨⟨hsound.reach.tail (.note _ hn), fun id' hid' => hsound.used id' (by simpa [World.log] using hid'),
    fun r hr => ⟨List.mem_cons_of_mem _ (hsound.claims r hr).1, (hsound.claims r hr).2⟩, hsound.here, hsound.running,
    ⟨hsound.inputs, fun id' f a ha => ?_⟩, hsound.tidy.imp_left (fun hc => hc.cons_quiet rfl)⟩,
    fun d' hd' u hu hex => (hsound.producers d' hd' u hu hex).cons (fun a ha => ?_)⟩
  · obtain ⟨rfl, rfl, hreg⟩ := registered id' f a ha
    have := hsound.producers d hd t hmem (by simp)
    rwa [hid, hreg] at this
  · obtain ⟨rfl, -, hreg⟩ := registered _ _ a ha
    exact hreg

theorem callWrite_spec (h : On env B c m id t w) (hp : m.pending = false) {op : InFlightOperation}
    (hs : Started id t op w) {kind : OperationKind} {owner : Owner}
    (hprod : kind ≠ .lifecycleKill → isInteractiveOwner owner = true → m.producer = some owner) :
    Sat (Good env B c) (callWrite env id op.operationId kind owner t.fence) w
      (fun _ w' => On env B c m id t w' ∧ underway id op.operationId w'.trace = true)
      (fun _ w' => On env B c m id t w' ∧ underway id op.operationId w'.trace = true) := by
  refine Sat.next rfl (Sat.next rfl ?_)
  obtain ⟨hsound, ha⟩ := Sound.interleave (l := env.interleaved w.tick)
    (h.sound.ticks 1)
  have ha := (After.ticks w 1).trans ha
  have hw := (h.after ha hsound).write hp
    ⟨hs.saved.after ha, hs.inFlight, (ha.owed_eq id op.operationId).trans hs.owed, ha.underway hs.underway, hs.held⟩ hprod
    ((env.done w.tick).isOk && !env.dies w.tick)
  refine Sat.next (x := logEvent _) rfl (Sat.step
    (Sat.crashIf (Q := fun _ w' => On env B c m id t w' ∧ underway id op.operationId w'.trace = true)
      hw.sound.toGood ⟨hw, ha.underway hs.underway⟩) (fun _ w' h' => Sat.ofExcept (fun _ _ => h') (fun _ _ => h')))

/-! ## Putting an operation in flight -/

theorem Mode.settled_eq (hp : m.pending = false) : { m with pending := false } = m := by
  cases m
  simp_all

theorem beginOperation_spec (hE : env.Within B) (h : On env B c m id t w) (hp : m.pending = false)
    (ha : t.lifecycle = .active) (hidle : t.inFlight = none) (hn : t.drainsUntil = none)
    (hheld : t.ownership.isFree = false) {op : InFlightOperation} (hop : op.operationId ∉ t.operationIds)
    (hB : B.inFlight op = true) :
    Sat (Good env B c) (beginOperation env id op) w
      (fun _ w' => ∃ r u, On env B c m id { t with inFlight := some op, revision := r, updatedAt := u } w' ∧
        Started id { t with inFlight := some op, revision := r, updatedAt := u } op w')
      (fun _ w' => Sound env B c none w') := by
  have howed : owed id op.operationId w.trace = false := by
    have := (h.sound.reach.journalInv hE.placeholder).not_owed h.known.1 hop hidle
    rwa [h.known.2] at this
  have hu := h.unique hE
  have hget := h.get
  refine Sat.next (x := logEvent _) rfl (Sat.next (assign_eq (t := t) (by exact hu) (by exact hget) _) ?_)
  have h₁ := (h.ticks 1).move (.startAt h.known.2 op (t.revision + 1) (env.now w.tick) ha hidle hop)
    (Bounds.target_inFlight (h.bounds hE) hB (hE.now _) _) (.inl (by rw [ha]; decide))
    (fun _ _ hr => by rw [ha] at hr; cases hr) (.idle hidle) (fun hc => .inl ⟨rfl, hc⟩)
  refine h₁.save hE (p := false) (fun hx => by rw [hp] at hx; cases hx) hn (fun _ => .inr (.inl (by simp [ha])))
    (fun hs => ⟨_, _, Mode.settled_eq hp ▸ hs, h₁.saved hE (by simp [ha]), rfl, ?_, ?_, hheld⟩) (fun _ _ hs => hs.sound)
  · simpa [owed, Event.writes, Event.settles, World.written, World.persist, World.moved] using howed
  · simp [underway, World.written, World.persist, World.moved]

theorem clearInFlight_eq (hu : w.mem.UniqueIds) (hget : w.mem.get? id = some t) (op : String) :
    clearInFlight id op w = (.ok (), w.moved id [.provenNotApplied id op] { t with inFlight := none }) := by
  unfold clearInFlight logEvent modifyTarget World.moved World.log
  simp only [Eff.modify, bind, List.singleton_append]
  rw [ControlState.update_const hu hget]

theorem On.lands (h : On env B c m id t w) {op : InFlightOperation} (hin : t.inFlight = some op)
    (hu : underway id op.operationId w.trace = true) : Lands t t' w.trace := by
  intro _ _ op' hop'
  obtain rfl : op = op' := by simpa [hin] using hop'
  rw [h.known.2]
  exact hu

theorem On.abandon (hE : env.Within B) (h : On env B c m id t w) (ha : t.lifecycle = .active) {op : InFlightOperation}
    (hin : t.inFlight = some op) (hu : underway id op.operationId w.trace = true) :
    On env B c m id { t with inFlight := none }
      (w.moved id [.provenNotApplied id op.operationId] { t with inFlight := none }) :=
  h.move (.abandonAt h.known.2 hin) (Bounds.target_idle (h.bounds hE)) (.inl (by rw [ha]; decide))
    (fun _ _ hr => by rw [ha] at hr; cases hr) (h.lands hin hu) (fun hc => .inl ⟨rfl, hc⟩)

theorem appendOperation_eq (hu : w.mem.UniqueIds) (hget : w.mem.get? id = some t) (op : OperationRecord) :
    appendOperation id op w = (.ok (), w.moved id (t.evictions op) { t.appendOperation op with inFlight := none }) := by
  unfold appendOperation logEvents modifyTarget targetById World.moved
  simp only [Eff.get, Eff.modify, bind, pure, hget]
  rw [ControlState.update_const hu hget]

theorem On.commit (hE : env.Within B) (h : On env B c m id t w) (ha : t.lifecycle = .active) {op : InFlightOperation}
    (hin : t.inFlight = some op) (hu : underway id op.operationId w.trace = true) {record : OperationRecord}
    (hid : record.operationId = op.operationId) (hB : B.operation record = true) :
    On env B c m id { t.appendOperation record with inFlight := none }
      (w.moved id (t.evictions record) { t.appendOperation record with inFlight := none }) :=
  h.move (.commit t op record hin hid) (Bounds.target_append (h.bounds hE) hB) (.inl (by rw [ha]; decide))
    (fun _ _ hr => by rw [ha] at hr; cases hr) (h.lands hin hu) (fun hc => .inl (hc.append evictions_slips))

theorem On.revise (hE : env.Within B) (h : On env B c m id t w) (hl : t.lifecycle ≠ .targetGone) :
    ∃ w' t', assign env id (fun t => t) w = (.ok (), w') ∧ On env B c m id t' w' ∧ Touched t t' :=
  ⟨_, _, assign_eq (h.unique hE) h.get _,
    (h.ticks 1).touch hE hl (Bounds.target_parts (h.bounds hE)).1 (hE.now w.tick), _, _, _, rfl⟩

/-! ## Failures -/

theorem fenceInDoubt_ends (hE : env.Within B) (h : On env B c m id t w) (ha : t.lifecycle = .active) {operationId : String}
    (ho : B.stored operationId 192 = true) : Ends env B c (fenceInDoubt env id operationId) w := by
  obtain ⟨w₁, heq, hs⟩ := (h.forget (p := False) False.elim).fenceSave hE (r := .operationInDoubt)
    (o := some operationId) (.inl (by rw [ha]; decide)) (by simpa using ho)
    (fun _ => .inl (by simp [slips])) False.elim
  refine Sat.next heq (Sat.tryCatch (F := fun _ w' => Sound env B c none w') ?_ (fun _ _ hs => Sat.pure hs))
  refine hs.mono ?_ (fun _ _ he => he.sound)
  rintro _ _ ⟨t', h', -⟩
  exact h'.sound

/-- The record of an operation that was put in flight. -/
structure Flying (env : Env) (B : Bounds) (c : Watch) (m : Mode) (id : String) (t : TargetRecord)
    (op : InFlightOperation) (w : World) : Prop where
  on : On env B c m id t w
  seen : m.seen
  settled : m.pending = false
  active : t.lifecycle = .active
  still : t.drainsUntil = none
  inFlight : t.inFlight = some op
  underway : underway id op.operationId w.trace = true
  bounds : B.inFlight op = true

theorem Flying.operationId {op : InFlightOperation} (h : Flying env B c m id t op w) :
    B.stored op.operationId 192 = true := by
  have := h.bounds
  simp only [Bounds.inFlight, Bool.and_eq_true] at this
  exact this.1.1.1.1.1

/-- **The `catch` of an input's write call** never returns. -/
theorem failInput_spec (hE : env.Within B) {op : InFlightOperation} (h : Flying env B c m id t op w) {Q : Unit → World → Prop}
    (kind : OperationKind) (error : ControlError) :
    Sat (Good env B c) (failInput env id op.operationId kind error) w Q (fun _ w' => Sound env B c none w') := by
  have hclear := clearInFlight_eq (h.on.unique hE) h.on.get op.operationId
  have h₁ := h.on.abandon hE h.active h.inFlight h.underway
  have hgone : t.lifecycle ≠ .targetGone := by rw [h.active]; decide
  have retire : ∀ message, Sat (Good env B c) (retireAndThrow env id message) _ Q (fun _ w' => Sound env B c none w') :=
    fun message => (retireAndThrow_spec hE h₁ hgone (fun _ hr => absurd (h.active.symm.trans hr) (by decide))
      message).mono (fun _ _ hq => hq) (fun _ _ he => he.sound)
  refine Sat.ite (fun _ => ?_) (fun _ => Sat.ite (fun _ => ?_) (fun _ => ?_))
  · refine Sat.next hclear (Sat.ite (fun _ => retire _) (fun _ => Sat.ite (fun _ => ?_) (fun _ => ?_)))
    · obtain ⟨w₂, heq, hs⟩ := h₁.fenceSave hE (r := .backendIdentityUncertain) (o := none) (.inl hgone) rfl
        (fun _ => h₁.unslipped h.seen (Nat.le_succ _) (by omega) _ _) (fun _ => .inr ⟨by decide, rfl, rfl⟩)
      exact Sat.next heq (Sat.bind hs (fun _ _ he => he.sound) (fun _ _ ⟨t', h', _⟩ => Sat.throw h'.sound))
    · exact Sat.bind (h₁.finish hE (fun hx => by rw [h.settled] at hx; cases hx)) (fun _ _ he => he)
        (fun _ _ hs => Sat.throw hs)
  · refine Sat.next hclear (Sat.ite (fun _ => retire _) (fun _ => ?_))
    exact (fenceAndThrow_spec hE h₁ h.seen rfl (by decide) _).mono (fun _ _ hq => hq) (fun _ _ he => he.sound)
  · exact Sat.bind (fenceInDoubt_ends hE h.on h.active h.operationId) (fun _ _ he => he) (fun _ _ hs => Sat.throw hs)

/-- **The `catch` of `killManaged`** never returns. -/
theorem failKill_spec (hE : env.Within B) {op : InFlightOperation} (h : Flying env B c m id t op w) {Q : Unit → World → Prop}
    (error : ControlError) :
    Sat (Good env B c) (failKill env id op.operationId error) w Q (fun _ w' => Sound env B c none w') := by
  refine Sat.bind (P := fun _ w' => Sound env B c none w') (F := fun _ w' => Sound env B c none w') ?_
    (fun _ _ he => he) (fun _ _ hs => Sat.throw hs)
  refine Sat.tryCatch (F := fun _ w' => ∃ t', On env B c { m with pending := false } id t' w' ∧ t'.lifecycle = .active)
    ?_ ?_
  · refine Sat.step (P := fun _ w' => On env B c m id t w' ∧ underway id op.operationId w'.trace = true)
      (Sat.await h.on.sound (fun _ w' ha hs _ => ⟨h.on.after ha hs, ha.underway h.underway⟩)
        (fun _ w' ha hs => ⟨t, (Mode.settled_eq h.settled).symm ▸ h.on.after ha hs, h.active⟩)) ?_
    rintro _ w₁ ⟨h₁, hu₁⟩
    refine Sat.next (clearInFlight_eq (h₁.unique hE) h₁.get op.operationId) ?_
    have h₂ := h₁.abandon hE h.active h.inFlight hu₁
    obtain ⟨w₃, t₃, heq, h₃, ht₃⟩ := h₂.revise hE (by simp [h.active])
    have ha₃ : t₃.lifecycle = .active := ht₃.facts.1.trans h.active
    exact Sat.next heq (h₃.save hE (p := false) (fun hx => by rw [h.settled] at hx; cases hx) (ht₃.drains.trans h.still)
      (fun _ => .inr (.inl (by simp [ha₃]))) (fun hs => hs.sound) (fun _ w' hs => ⟨_, hs, ha₃⟩))
  · rintro - w₁ ⟨t₁, h₁, ha₁⟩
    exact Sat.bind (fenceInDoubt_ends hE h₁ ha₁ h.operationId) (fun _ _ he => he) (fun _ _ hs => Sat.throw hs)

/-! ## Input requests -/

/-- The mode of an admitted input: an interactive owner is the producer. -/
def Mode.by (owner : Owner) : Mode := ⟨True, false, if isInteractiveOwner owner then some owner else none⟩

/-- The lease of a request was accepted, and its target is not draining. -/
structure Admitted (env : Env) (B : Bounds) (c : Watch) (m : Mode) (lease : Lease) (t : TargetRecord) (w : World) :
    Prop where
  on : On env B c m lease.controlTargetId t w
  seen : m.seen
  settled : m.pending = false
  mirrored : Mirrored lease.controlTargetId t w
  known : Known lease.controlTargetId w
  active : t.lifecycle = .active
  idle : t.inFlight = none
  fence : t.fence = lease.fence
  held : t.ownership.isFree = false
  still : t.drainsUntil = none

theorem Live.admitted {lease : Lease} (h : Live env B c lease.controlTargetId t w) {epoch : String}
    (hv : t.validateLease epoch lease false = .ok ()) : Admitted env B c .live lease t w := by
  obtain ⟨hm, -, hfree, hdr⟩ := validateLease_ok hv
  exact ⟨h.on, trivial, rfl, h.mirrored, h.known, h.active, h.idle, (leaseMatches_iff.1 hm).2.2, hfree,
    drainsUntil_eq_none (hdr rfl)⟩

theorem Admitted.ticks {lease : Lease} (h : Admitted env B c m lease t w) (n : Nat) :
    Admitted env B c m lease t { w with tick := w.tick + n } :=
  ⟨h.on.ticks n, h.seen, h.settled, ⟨h.mirrored.same, h.mirrored.new⟩, h.known, h.active, h.idle, h.fence, h.held, h.still⟩

theorem Admitted.probed {lease : Lease} (h : Admitted env B c m lease t w) {p : Position}
    (hp : Probed env B c m lease.controlTargetId t w p w') :
    ∃ t', Admitted env B c m lease t' w' ∧ Touched t t' ∧ p.Within B := by
  obtain ⟨t', ho, ht, hk, hB⟩ := hp
  obtain ⟨h1, h2, h3, -, -⟩ := ht.facts
  refine ⟨t', ⟨ho, h.seen, h.settled, h.mirrored.kept ht hk, hk.known h.known, h1.trans h.active, h3.trans h.idle, ?_, ?_,
    ?_⟩, ht, hB⟩
  · rw [TargetRecord.fence, h2]; exact h.fence
  · rw [h2]; exact h.held
  · exact ht.drains.trans h.still

theorem operable_of_validateLease {epoch : String} {lease : Lease} {allowDraining : Bool}
    (h : t.validateLease epoch lease allowDraining = .ok ()) : t.ensureOperable = .ok () := by
  unfold TargetRecord.validateLease at h
  cases hop : t.ensureOperable with
  | error e => simp [hop, bind, Except.bind] at h
  | ok _ => rfl

theorem admitIdentity_spec (hE : env.Within B) (hl : Loaded env B c w) (hget : w.mem.get? id = some t) (fencedRaw : Bool) :
    Sat (Good env B c)
      (if fencedRaw then do
        let _ ← reconcileAbandonedOwnership env id
        pure ()
      else assertTargetCurrent env id) w
      (fun _ w' => ∃ t', Settled env B c id t' w' ∧ (t'.ensureOperable = .ok () →
        Live env B c id t' w' ∧ Carried c t w t' w'))
      (fun _ w' => Sound env B c none w') := by
  obtain ⟨h, hsav⟩ := hl.on hget
  refine Sat.ite (fun _ => ?_) (fun _ => ?_)
  · refine Sat.bind (reconcileAbandonedOwnership_spec hE h hsav.mirrored False.elim) (fun _ _ he => he.sound) ?_
    rintro - w₁ ⟨t₁, hr⟩
    refine Sat.pure ⟨t₁, ⟨hr.on.sound, hr.on.get, hr.on.epochs, hr.mirrored, hr.known hsav.known⟩, fun hop => ?_⟩
    obtain ⟨hg, hnr, hidle⟩ := ensureOperable_ok hop
    have ha : t₁.lifecycle = .active := by cases hl : t₁.lifecycle <;> simp_all
    exact ⟨⟨hr.live ha, hr.mirrored, hr.known hsav.known, ha, hidle⟩, hr.carried ha⟩
  · refine (assertTargetCurrent_spec hE h hsav.mirrored hsav.known False.elim).mono ?_ (fun _ _ he => he.sound)
    rintro - w₁ ⟨t₁, hlive, hcar⟩
    exact ⟨t₁, hlive.settled, fun _ => ⟨hlive, hcar⟩⟩

/-- **`executeInput` up to the registry**: the lease is current, and an interactive owner is the producer. -/
theorem admitInput_spec (hE : env.Within B) (hl : Loaded env B c w) (hrun : c.running = .external) (lease : Lease)
    (pane : String) (fencedRaw : Bool) :
    Sat (Good env B c) (admitInput env lease pane fencedRaw) w
      (fun _ w' => ∃ t₀ t, w.mem.get? lease.controlTargetId = some t₀ ∧ SameOperations t₀ t ∧
        Admitted env B c (.by lease.owner) lease t w') (fun _ w' => Sound env B c none w') := by
  refine Sat.targetById (fun _ => hl.sound) (fun t hget => ?_)
  refine Sat.step (admitIdentity_spec hE hl hget fencedRaw) ?_
  rintro - w₁ ⟨t₁, h₁, hlive⟩
  refine Sat.step h₁.validate ?_
  rintro - _ ⟨⟨e, rfl, hq⟩, hs, hv⟩
  obtain ⟨hlive, hcar⟩ := hlive (operable_of_validateLease hv)
  have h₂ := (hlive.note hs hq).admitted hv
  refine Sat.step (P := fun _ w' => w₁.log e = w') (Sat.require (fun _ => rfl) (fun _ => hs)) ?_
  rintro - _ rfl
  refine (registerInteractiveOwner_spec h₂.on rfl lease.owner).mono ?_ (fun _ _ he => he.1 ▸ hs)
  rintro - _ ⟨l, rfl, h₃, hreg⟩
  refine ⟨t, t₁, hget, hcar.operations, ⟨h₃.sound, h₃.get, h₃.epochs, h₃.start, h₃.watched, h₃.alone, h₃.calm, fun o ho => ?_⟩, trivial, rfl,
    ⟨h₂.mirrored.same, h₂.mirrored.new⟩, h₂.known, h₂.active, h₂.idle, h₂.fence, h₂.held, h₂.still⟩
  simp only [Mode.by] at ho
  split at ho
  · rename_i hint
    exact ⟨h₃.sound.here.trans hrun, (hreg hint).trans ho⟩
  · cases ho

theorem inputPosition_spec (hE : env.Within B) {lease : Lease} (h : Admitted env B c m lease t w) (fencedRaw : Bool) :
    Sat (Good env B c)
      (if fencedRaw then rawInputPosition env lease.controlTargetId lease else prepareOutput env lease.controlTargetId) w
      (Probed env B c m lease.controlTargetId t w) (fun _ => Dropped env B c m lease.controlTargetId) := by
  refine Sat.ite (fun _ => ?_) (fun _ => prepareOutput_spec hE h.on h.seen h.active h.idle)
  refine Sat.tryCatch (F := fun _ w' => On env B c m lease.controlTargetId t w' ∧ After w w')
    (Sat.await h.on.sound (fun p w' ha hs hp => ⟨t, h.on.after ha hs, .refl t, .after ha _ t,
      hE.position _ _ hp.choose_spec⟩) (fun _ w' ha hs => ⟨h.on.after ha hs, ha⟩)) ?_
  rintro error w₁ ⟨h₁, ha⟩
  refine Sat.next (targetById_eq h₁.get) (Sat.ite (fun _ => ?_)
    (fun _ => fenceAndThrow_spec hE h₁ h.seen h.idle (by decide) _))
  refine (repairOutput_spec hE h₁ h.seen h.active h.idle h.still _).mono ?_ (fun _ _ he => he)
  rintro p w₂ ⟨t', h2, h3, h4, h5⟩
  exact ⟨t', h2, h3, h4.imp_left (fun hh => ⟨hh.1.trans ha.disk, hh.2.trans (ha.flagged_eq _)⟩), h5⟩

theorem Admitted.begin (hE : env.Within B) {lease : Lease} (h : Admitted env B c m lease t w) {op : InFlightOperation}
    (hop : op.operationId ∉ t.operationIds) (hB : B.inFlight op = true) :
    Sat (Good env B c) (beginOperation env lease.controlTargetId op) w
      (fun _ w' => ∃ t', Flying env B c m lease.controlTargetId t' op w' ∧
        Started lease.controlTargetId t' op w' ∧ t'.fence = lease.fence)
      (fun _ w' => Sound env B c none w') := by
  refine (beginOperation_spec hE h.on h.settled h.active h.idle h.still h.held hop hB).mono ?_ (fun _ _ he => he)
  rintro - w₁ ⟨r, u, h₁, hst⟩
  exact ⟨_, ⟨h₁, h.seen, h.settled, h.active, h.still, rfl, hst.underway, hB⟩, hst, h.fence⟩

theorem not_mem_operationIds {operationId instanceId hash : String} {fence : Nat} {kind : OperationKind}
    (h : t.existingOperation operationId instanceId fence hash kind = .ok none) : operationId ∉ t.operationIds := by
  unfold TargetRecord.existingOperation at h
  split at h
  · rename_i hfind
    intro hmem
    obtain ⟨op, hop, hid⟩ := List.mem_map.1 hmem
    have := List.find?_eq_none.1 hfind op hop
    simp [hid] at this
  · split at h
    · cases h
    · split at h
      · cases h
      · split at h
        · cases h
        · cases h

theorem bounds_inFlight {operationId hash : String} {owner : Owner} {fence : Nat}
    {kind : OperationKind} {p : Position} {a : Int} (hop : B.stored operationId 192 = true) (ho : B.owner owner = true)
    (hh : B.hash hash = true) (hp : p.Within B) (ha : B.time a = true) :
    B.inFlight ⟨operationId, owner.instanceId, fence, hash, kind, some p.generation, some p.cursor, a⟩ = true := by
  simp only [Bounds.inFlight, Bool.and_eq_true, Option.all_some]
  exact ⟨⟨⟨⟨⟨hop, ho⟩, hh⟩, ha⟩, hp.1⟩, hp.2⟩

/-- The journal entry of an operation that was written. -/
def asCommitted (op : InFlightOperation) (completedAt : Int) : OperationRecord :=
  ⟨op.operationId, op.ownerInstanceId, op.fence, op.payloadHash, op.kind, .committed, op.outputGeneration,
    op.outputCursor, completedAt⟩

theorem Flying.ticks {op : InFlightOperation} (h : Flying env B c m id t op w) (n : Nat) :
    Flying env B c m id t op { w with tick := w.tick + n } :=
  ⟨h.on.ticks n, h.seen, h.settled, h.active, h.still, h.inFlight, h.underway, h.bounds⟩

theorem Flying.call {op : InFlightOperation} (h : Flying env B c m id t op w) (hs : Started id t op w)
    {k : OperationKind} {o : Owner}
    (hprod : k ≠ .lifecycleKill → isInteractiveOwner o = true → m.producer = some o) :
    Sat (Good env B c) (callWrite env id op.operationId k o t.fence) w (fun _ => Flying env B c m id t op)
      (fun _ => Flying env B c m id t op) :=
  (callWrite_spec h.on h.settled hs hprod).mono
    (fun _ _ ⟨h', hu⟩ => ⟨h', h.seen, h.settled, h.active, h.still, h.inFlight, hu, h.bounds⟩)
    (fun _ _ ⟨h', hu⟩ => ⟨h', h.seen, h.settled, h.active, h.still, h.inFlight, hu, h.bounds⟩)

theorem Flying.commit (hE : env.Within B) {op : InFlightOperation} (h : Flying env B c m id t op w) {a : Int}
    (ha : B.time a = true) :
    On env B c m id { t.appendOperation (asCommitted op a) with inFlight := none }
      (w.moved id (t.evictions (asCommitted op a)) { t.appendOperation (asCommitted op a) with inFlight := none }) := by
  refine h.on.commit hE h.active h.inFlight h.underway rfl ?_
  have := h.bounds
  simp only [Bounds.inFlight, Bounds.operation, asCommitted, Bool.and_eq_true] at this ⊢
  tauto

theorem writeInput_spec (hE : env.Within B) {lease : Lease} {op : InFlightOperation}
    (h : Flying env B c (.by lease.owner) id t op w) (hs : Started id t op w) (hf : t.fence = lease.fence)
    (payload : InputPayload) :
    Sat (Good env B c)
      (tryCatch (writeInput env id op.operationId lease payload) (failInput env id op.operationId payload.kind)) w
      (fun _ => Flying env B c (.by lease.owner) id t op) (fun _ w' => Sound env B c none w') := by
  -- an interactive owner was registered before its write
  have hprod : payload.kind ≠ .lifecycleKill → isInteractiveOwner lease.owner = true →
      (Mode.by lease.owner).producer = some lease.owner := fun _ hi => by simp [Mode.by, hi]
  have hcall := h.call hs (k := payload.kind) hprod
  rw [hf] at hcall
  refine Sat.tryCatch (F := fun _ => Flying env B c (.by lease.owner) id t op) ?_
    (fun error w' h' => failInput_spec hE h' _ _)
  unfold writeInput
  split
  · exact Sat.ite (fun _ => hcall) (fun _ => Sat.throw h)
  · exact hcall

theorem performInput_ends (hE : env.Within B) {lease : Lease} (h : Admitted env B c (.by lease.owner) lease t w)
    {operationId hash : String} (hop : operationId ∉ t.operationIds) (ho : B.stored operationId 192 = true)
    (hown : B.owner lease.owner = true) (hh : B.hash hash = true) (payload : InputPayload) (fencedRaw : Bool) :
    Ends env B c (performInput env lease operationId payload hash fencedRaw) w := by
  refine Ends.bind (inputPosition_spec hE h fencedRaw) (fun _ _ he => he.sound) ?_
  intro p w₁ hp
  obtain ⟨t₁, h₁, ht₁, hpw⟩ := h.probed hp
  refine Sat.next (x := isoNow env) rfl ?_
  have hop₁ : operationId ∉ t₁.operationIds := by
    rw [TargetRecord.operationIds, ht₁.facts.2.2.2.1]
    exact hop
  refine Ends.bind ((h₁.ticks 1).begin hE hop₁ (bounds_inFlight ho hown hh hpw (hE.now _))) (fun _ _ he => he) ?_
  rintro - w₂ ⟨t₂, h₂, hst, hf⟩
  refine Ends.bind (writeInput_spec hE h₂ hst hf payload) (fun _ _ he => he) ?_
  intro _ w₃ h₃
  refine Sat.next (x := isoNow env) rfl ?_
  have hfly := h₃.ticks 1
  have h₄ := hfly.commit hE (hE.now w₃.tick)
  refine Sat.next (appendOperation_eq (hfly.on.unique hE) hfly.on.get _) ?_
  obtain ⟨w₅, t₅, heq, h₅, -⟩ := h₄.revise hE (by rw [Bounds.appendOperation_frame]; simp [h₂.active])
  exact Sat.next heq <| Ends.bind (h₅.finish hE (fun hx => by cases hx)) (fun _ _ he => he)
    (fun _ _ hs => Sat.next (x := controlEpoch) rfl (Sat.pure hs))

theorem executeInput_ends (hE : env.Within B) (h : Sound env B c none w) (hdisk : w.disk = c.disk)
    (hstart : c.start ≤ w.tick) (hrun : c.running = .external) {lease : Lease} {operationId : String}
    (ho : B.stored operationId 192 = true) (hown : B.owner lease.owner = true) (pane : String) (payload : InputPayload) :
    Ends env B c (executeInput env lease operationId pane payload) w := by
  refine Sat.locked hE h hdisk hstart (fun _ _ hs => hs) (fun w₀ hl => ?_)
  refine Ends.bind (admitInput_spec hE hl hrun lease pane _) (fun _ _ he => he) ?_
  rintro - w₁ ⟨-, t₁, -, -, h₁⟩
  refine Sat.next (targetById_eq h₁.on.get) ?_
  refine Ends.bind (Q := fun completed w' => w₁ = w' ∧ t₁.existingOperation operationId lease.owner.instanceId lease.fence
      (env.digest (.input pane payload)) payload.kind = .ok completed)
    (Sat.ofExcept (fun _ ha => ⟨rfl, ha⟩) (fun _ _ => h₁.on.sound)) (fun _ _ he => he) ?_
  rintro completed _ ⟨rfl, hex⟩
  cases completed with
  | some op =>
    refine Ends.bind (Q := fun _ w' => Sound env B c none w') (E := fun _ w' => Sound env B c none w')
      (Sat.ite (fun _ => ?_) (fun _ => Sat.pure h₁.on.sound)) (fun _ _ he => he)
      (fun _ _ hs => Sat.next (x := controlEpoch) rfl (Sat.pure hs))
    refine (assertTargetCurrent_spec hE (h₁.on.forget (fun hx => hx)) h₁.mirrored h₁.known (fun _ => h₁.idle)).mono ?_
      (fun _ _ he => he.sound)
    exact fun _ _ ⟨t', hlive, _⟩ => hlive.on.sound
  | none => exact performInput_ends hE h₁ (not_mem_operationIds hex) ho hown (hE.digest _) payload _

/-! ## `executeLifecycleKill` -/

theorem executeLifecycleKill_ends (hE : env.Within B) (h : Sound env B c none w) (hdisk : w.disk = c.disk)
    (hstart : c.start ≤ w.tick) {lease : Lease} {operationId : String} (ho : B.stored operationId 192 = true)
    (hown : B.owner lease.owner = true) : Ends env B c (executeLifecycleKill env lease operationId) w := by
  refine Sat.locked hE h hdisk hstart (fun _ _ hs => hs) (fun w₀ hl => ?_)
  refine Sat.targetById (fun _ => hl.sound) (fun t hget => ?_)
  obtain ⟨h₀, hsav⟩ := hl.on hget
  refine Ends.bind (Q := fun completed w' => w₀ = w' ∧ t.existingOperation operationId lease.owner.instanceId lease.fence
      (env.digest (.kill "0" t.managedSession.name)) .lifecycleKill = .ok completed)
    (Sat.ofExcept (fun _ ha => ⟨rfl, ha⟩) (fun _ _ => hl.sound)) (fun _ _ he => he) ?_
  rintro completed _ ⟨rfl, hex⟩
  cases completed with
  | some op => exact Sat.next (x := controlEpoch) rfl (Sat.pure hl.sound)
  | none =>
    refine Ends.bind (assertTargetCurrent_spec hE h₀ hsav.mirrored hsav.known False.elim) (fun _ _ he => he.sound) ?_
    rintro - w₁ ⟨t₁, h₁, hcar⟩
    refine Ends.bind (validateLease_spec h₁) (fun _ _ he => he) ?_
    rintro - w₂ ⟨h₂, hv⟩
    have hadm := h₂.admitted hv
    refine Ends.bind (prepareOutput_spec hE h₂.on trivial h₂.active h₂.idle) (fun _ _ he => he.sound) ?_
    intro p w₃ hp
    obtain ⟨t₃, h₃, ht₃, hpw⟩ := hadm.probed hp
    refine Sat.next (x := isoNow env) rfl ?_
    have hop : operationId ∉ t₃.operationIds := by
      rw [TargetRecord.operationIds, ht₃.facts.2.2.2.1, hcar.operations.1]
      exact not_mem_operationIds hex
    refine Ends.bind ((h₃.ticks 1).begin hE hop (bounds_inFlight ho hown (hE.digest _) hpw (hE.now _))) (fun _ _ he => he) ?_
    rintro - w₄ ⟨t₄, h₄, hst, hf⟩
    have hcall := h₄.call hst (k := .lifecycleKill) (o := lease.owner) (fun hk => absurd rfl hk)
    rw [hf] at hcall
    refine Ends.bind (Q := fun _ => Flying env B c .live lease.controlTargetId t₄ _)
      (E := fun _ w' => Sound env B c none w') (Sat.tryCatch
        (F := fun _ => Flying env B c .live lease.controlTargetId t₄ _) hcall
        (fun error w' h' => failKill_spec hE h' _)) (fun _ _ he => he) ?_
    intro _ w₅ h₅
    refine Sat.next (x := isoNow env) rfl ?_
    have hfly := h₅.ticks 1
    have h₆ := hfly.commit hE (hE.now w₅.tick)
    refine Sat.next (appendOperation_eq (hfly.on.unique hE) hfly.on.get _) ?_
    obtain ⟨w₇, heq, hs⟩ := h₆.retireSave hE (by rw [Bounds.appendOperation_frame]; simp [h₄.active])
      (fun _ hr => by rw [Bounds.appendOperation_frame] at hr; simp [h₄.active] at hr)
    refine Sat.next heq (Ends.bind hs (fun _ _ he => he.sound) (fun _ _ hd => ?_))
    exact Sat.next (x := controlEpoch) rfl (Sat.pure hd.sound)

/-! ## Reads -/

theorem Live.after (h : Live env B c id t w) (ha : After w w') (hs : Sound env B c none w') : Live env B c id t w' :=
  ⟨h.on.after ha hs, h.mirrored.after ha, by rw [Known, ha.disk]; exact h.known, h.active, h.idle⟩

theorem tailGoneErrorWithReprobe_spec (hE : env.Within B) (h : Live env B c id t w) (error : ControlError) :
    Sat (Good env B c) (tailGoneErrorWithReprobe env id error) w (fun _ => Dropped env B c .live id)
      (fun _ w' => Sound env B c none w') := by
  refine Sat.ite (fun _ => ?_) (fun _ => ?_)
  · obtain ⟨w₁, heq, hs⟩ := h.on.retireSave hE (by rw [h.active]; decide)
      (fun _ hr => absurd (h.active.symm.trans hr) (by decide))
    exact Sat.next heq (Sat.bind hs (fun _ _ he => he.sound) (fun _ _ hd => Sat.pure hd))
  · refine Sat.tryCatch (F := fun _ => Dropped env B c .live id) ?_
      (fun _ _ hd => Sat.ite (fun _ => Sat.pure hd) (fun _ => Sat.ite (fun _ => Sat.pure hd) (fun _ => Sat.pure hd)))
    exact Sat.step (assertTargetCurrent_spec hE h.on h.mirrored h.known (fun _ => h.idle))
      (fun _ _ ⟨t', hl, _⟩ => Sat.pure ⟨t', hl.on⟩)

/-- **`backend.tailOutput`**: an error retires or fences the target, unless the cursor was stale. -/
theorem tailChunk_spec (hE : env.Within B) (h : Live env B c id t w) :
    Sat (Good env B c) (tailChunk env id) w (fun _ w' => Live env B c id t w') (fun _ w' => Sound env B c none w') := by
  refine Sat.tryCatch (F := fun _ w' => Live env B c id t w')
    (Sat.await h.on.sound (fun _ w' ha hs _ => h.after ha hs) (fun _ w' ha hs => h.after ha hs)) ?_
  intro error w₁ h₁
  refine Sat.ite (fun _ => Sat.throw h₁.on.sound) (fun _ => ?_)
  refine Sat.step (tailGoneErrorWithReprobe_spec hE h₁ error) ?_
  rintro gone w₂ ⟨t₂, h₂⟩
  cases gone with
  | some e => exact Sat.throw h₂.sound
  | none =>
    refine Sat.next (markRecovery_eq (h₂.unique hE) h₂.get _ _) ?_
    have h₃ := h₂.fence hE .outputContinuityUncertain none (.inr trivial) rfl
      (fun _ => h₂.unslipped trivial (Nat.le_succ _) (by omega) _ _)
    exact Sat.bind (h₃.finish hE (fun hx => by cases hx)) (fun _ _ he => he) (fun _ _ hs => Sat.throw hs)

theorem tailOutput_ends (hE : env.Within B) (h : Sound env B c none w) (hdisk : w.disk = c.disk)
    (hstart : c.start ≤ w.tick) (epoch generation : String) (cursor maxBytes : Nat) :
    Ends env B c (tailOutput env id epoch generation cursor maxBytes) w := by
  refine Sat.locked hE h hdisk hstart (fun _ _ hs => hs) (fun w₀ hl => ?_)
  refine Sat.targetById (fun _ => hl.sound) (fun t hget => ?_)
  obtain ⟨h₀, hsav⟩ := hl.on hget
  refine Sat.next (x := controlEpoch) rfl ?_
  refine Ends.require hl.sound (fun _ => ?_)
  refine Ends.bind (assertTargetCurrent_spec hE h₀ hsav.mirrored hsav.known False.elim) (fun _ _ he => he.sound) ?_
  rintro - w₁ ⟨t₁, h₁, -⟩
  refine Ends.bind (tailChunk_spec hE h₁) (fun _ _ he => he) (fun _ w₂ h₂ => ?_)
  exact Sat.next (x := controlEpoch) rfl (Sat.next (targetById_eq h₂.on.get) (Sat.pure h₂.on.sound))

theorem agentRead_ends (hE : env.Within B) (h : Sound env B c none w) (hdisk : w.disk = c.disk)
    (hstart : c.start ≤ w.tick) {β : Type} (ownerMessage staleMessage : String) (answer : Nat → Except ControlError β)
    (ownerKind : OwnerKind) (lease : Lease) (generation pane : String) :
    Ends env B c (agentRead env ownerMessage staleMessage answer ownerKind lease generation pane) w := by
  refine Sat.locked hE h hdisk hstart (fun _ _ hs => hs) (fun w₀ hl => ?_)
  refine Sat.targetById (fun _ => hl.sound) (fun t hget => ?_)
  obtain ⟨h₀, hsav⟩ := hl.on hget
  refine Ends.require hl.sound (fun _ => ?_)
  refine Ends.bind (assertTargetCurrent_spec hE h₀ hsav.mirrored hsav.known False.elim) (fun _ _ he => he.sound) ?_
  rintro - w₁ ⟨t₁, h₁, -⟩
  refine Ends.bind (validateLease_spec h₁) (fun _ _ he => he) ?_
  rintro - w₂ ⟨h₂, -⟩
  refine Ends.require h₂.on.sound (fun _ => ?_)
  refine Sat.next (targetById_eq h₂.on.get) ?_
  refine Ends.require h₂.on.sound (fun _ => ?_)
  exact Ends.bind (Sat.await (Q := fun _ w' => Sound env B c none w') h₂.on.sound (fun _ _ _ hs _ => hs)
    (fun _ _ _ hs => hs)) (fun _ _ he => he) (fun _ _ hs => Sat.next (x := controlEpoch) rfl (Sat.pure hs))

end Terminal
end TmuxWorktree
