import TmuxWorktree.Terminal.Actions
/-!
# Focus — a section and the target it works on

Most sections read one record, check it, ask the backend, mutate the record and save.  `On m id t w` is what a proof
carries through that: the section's record of `id` is `t`, the world is sound, and, once the section has seen that the
lease has not run out (`m.seen`), fencing the record cannot slip.  `m.pending` says that the registry of producers is
ahead of the state file; `m.producer`, that this owner is registered and no other call can replace it.
-/
namespace TmuxWorktree
namespace Terminal

open Effect

structure Mode where
  seen : Prop
  pending : Bool
  producer : Option Owner

/-- The mode of a section that has read its record, and has seen its lease if `seen` holds. -/
def Mode.at (seen : Prop) : Mode := ⟨seen, false, none⟩

abbrev Mode.live : Mode := Mode.at True

/-- **Fencing the target under an automatic reason would be no slip.**  A fenced feishu target stays out of it: whatever
reason is recorded over it, the owner kind is kept. -/
def Calm (env : Env) (c : Watch) (id : String) (t : TargetRecord) (w : World) : Prop :=
  c.Excused env w.tick ∨ ((t.lifecycle = .recoveryRequired → t.previousOwnerKind ≠ some .feishu) →
    flagged id w.trace = false ∧ ∀ d ∈ w.disk, ∀ u, d.get? id = some u → ∀ x, u.drainsUntil = some x →
      ∃ i, c.start ≤ i ∧ i < w.tick ∧ env.now i < x)

/-- **The section's record of `id` is `t`.** -/
structure On (env : Env) (B : Bounds) (c : Watch) (m : Mode) (id : String) (t : TargetRecord) (w : World) : Prop where
  sound : Sound env B c (if m.pending then some id else none) w
  get : w.mem.get? id = some t
  epochs : ∀ d ∈ w.disk, d.controlEpoch = w.mem.controlEpoch
  start : c.start ≤ w.tick
  watched : ∀ d ∈ w.disk, ∀ u, d.get? id = some u → ∀ x, u.drainsUntil = some x → ∃ o, c.Deadline id o x
  alone : m.seen → Alone w.mem t
  calm : m.seen → Calm env c id t w
  producer : ∀ o, m.producer = some o → w.running = .external ∧ w.loc.interactiveOwners id = some o

variable {env : Env} {B : Bounds} {c : Watch} {m : Mode} {id : String} {t t' : TargetRecord} {w w' : World}

/-! ## Frames -/

theorem quiet_append {tr : List Event} {events : List Event} (h : ∀ e ∈ events, e.isQuiet = true) (id : String) :
    lastSaved (events ++ tr) = lastSaved tr ∧ flagged id (events ++ tr) = flagged id tr := by
  induction events with
  | nil => exact ⟨rfl, rfl⟩
  | cons e events ih =>
    have ih := ih (fun e he => h e (List.mem_cons_of_mem _ he))
    have hq := quiet_cons (h e List.mem_cons_self) id (events ++ tr)
    exact ⟨hq.1.trans ih.1, hq.2.1.trans ih.2⟩

theorem After.flagged_eq (h : After w w') (id : String) : flagged id w'.trace = flagged id w.trace := by
  obtain ⟨events, he, hc⟩ := h.trace
  rw [he]
  refine (quiet_append (fun e hm => ?_) id).2
  rcases hc e hm with ⟨lease, rfl⟩ | ⟨id, owner, rfl⟩ <;> rfl

theorem Calm.transport (h : Calm env c id t w) (htick : w.tick ≤ w'.tick) (hdisk : w'.disk = w.disk)
    (hfl : flagged id w'.trace = flagged id w.trace)
    (hp : (t'.lifecycle = .recoveryRequired → t'.previousOwnerKind ≠ some .feishu) →
      t.lifecycle = .recoveryRequired → t.previousOwnerKind ≠ some .feishu) : Calm env c id t' w' := by
  refine h.imp (·.mono htick) (fun hc hk => ?_)
  obtain ⟨hf, hx⟩ := hc (hp hk)
  rw [hfl, hdisk]
  exact ⟨hf, fun d hd u hu x hux => (hx d hd u hu x hux).imp (fun _ hi => ⟨hi.1, hi.2.1.trans_le htick, hi.2.2⟩)⟩

theorem On.after (h : On env B c m id t w) (ha : After w w')
    (hs : Sound env B c (if m.pending then some id else none) w') : On env B c m id t w' where
  sound := hs
  get := by rw [ha.mem]; exact h.get
  epochs := by rw [ha.mem, ha.disk]; exact h.epochs
  start := h.start.trans ha.tick
  watched := by rw [ha.disk]; exact h.watched
  alone := by rw [ha.mem]; exact h.alone
  calm hm := (h.calm hm).transport ha.tick ha.disk (ha.flagged_eq id) (fun hk => hk)
  producer o ho := ⟨ha.running.trans (h.producer o ho).1, by
    rw [ha.registry (h.producer o ho).1]; exact (h.producer o ho).2⟩

theorem On.ticks (h : On env B c m id t w) (n : Nat) : On env B c m id t { w with tick := w.tick + n } :=
  h.after (After.ticks w n) (h.sound.ticks n)

theorem On.sameLocal (h : On env B c m id t w) {l : Local} (hl : SameLocal w.loc l) :
    On env B c m id t { w with loc := l } :=
  h.after (After.local w hl.owners) (h.sound.sameLocal hl)

theorem On.forget (h : On env B c m id t w) {p : Prop} (hs : p → m.seen) :
    On env B c { m with seen := p, producer := none } id t w :=
  ⟨h.sound, h.get, h.epochs, h.start, h.watched, fun hx => h.alone (hs hx), fun hx => h.calm (hs hx),
    fun _ ho => by cases ho⟩

theorem On.known (h : On env B c m id t w) : t ∈ w.mem.targets ∧ t.controlTargetId = id := ControlState.get?_mem h.get

theorem On.shape (hE : env.Within B) (h : On env B c m id t w) : Shape t := h.sound.shape hE h.get

theorem On.bounds (hE : env.Within B) (h : On env B c m id t w) : B.target t = true := h.sound.bounds hE h.get

theorem On.unique (hE : env.Within B) (h : On env B c m id t w) : w.mem.UniqueIds :=
  (h.sound.wellFormed hE).mem.ids

theorem On.alone_of_live (hE : env.Within B) (h : On env B c m id t w) (hl : t.lifecycle ≠ .targetGone) :
    Alone w.mem t := fun u hu hgu hn =>
  (h.sound.wellFormed hE).mem.names u hu t h.known.1 hgu hl hn

/-! ## Moves -/

theorem On.getMoved (h : On env B c m id t w) {events : List Event} (hm : Move t events t') :
    (w.moved id events t').mem.get? id = some t' :=
  ControlState.get?_update_self (f := fun _ => t') hm.frame.1 h.get

theorem On.alone_moved {events : List Event} (hm : Move t events t') (h : Alone w.mem t) :
    Alone (w.moved id events t').mem t' := by
  intro u hu hgu hn
  rcases ControlState.mem_update hu with ⟨v, -, -, rfl⟩ | ⟨hus, -⟩
  · rfl
  · rw [hm.frame.2] at hn
    exact (h u hus hgu hn).trans hm.frame.1.symm

/-- **A move of the record that cannot slip.** -/
theorem On.move (h : On env B c m id t w) {events : List Event} (hm : Move t events t')
    (hB : B.target t' = true) (hlive : t.lifecycle ≠ .targetGone ∨ m.seen)
    (hkind : m.seen → (t'.lifecycle = .recoveryRequired → t'.previousOwnerKind ≠ some .feishu) →
      t.lifecycle = .recoveryRequired → t.previousOwnerKind ≠ some .feishu)
    (hlands : Lands t t' w.trace) (hslip : Clean w.trace → Clean (events ++ w.trace) ∨ c.Excused env w.tick) :
    On env B c m id t' (w.moved id events t') := by
  have halone : t.lifecycle = .targetGone → Alone w.mem t := fun hg =>
    h.alone (hlive.resolve_left (fun hn => hn hg))
  refine ⟨h.sound.move h.epochs h.get hm hB (fun hg _ => halone hg) hlands hslip, h.getMoved hm, h.epochs, h.start, h.watched,
    fun hs => On.alone_moved hm (h.alone hs), fun hs => ?_, h.producer⟩
  exact (h.calm hs).transport le_rfl rfl (flagged_append_inert hm.isInert) (hkind hs)

theorem On.plain (h : On env B c m id t w) (hm : Move t [] t') (hB : B.target t' = true)
    (ha : t.lifecycle = .active) (hin : t'.inFlight = t.inFlight) : On env B c m id t' (w.moved id [] t') :=
  h.move hm hB (.inl (by rw [ha]; decide)) (fun _ _ hr => by rw [ha] at hr; cases hr) (.same hin) (fun hc => .inl hc)

theorem On.fence_le (hE : env.Within B) (h : On env B c m id t w) {d : ControlState} (hd : d ∈ w.disk)
    {u : TargetRecord} (hu : u ∈ d.targets) (hid : u.controlTargetId = id) : u.fence ≤ t.fence := by
  have hsaved := h.sound.reach.saved
  rw [World.ledger_disk, show w.disk = some d from hd] at hsaved
  exact (h.sound.reach.leaseInv hE.placeholder).mem.precedes d (mem_of_lastSaved hsaved.symm) u hu t h.known.1
    (h.known.2.trans hid.symm)

theorem On.advanced (hE : env.Within B) (h : On env B c m id t w) {events : List Event} (hm : Move t events t')
    (hlt : t.fence < t'.fence) : (w.moved id events t').ledger.Advanced id := by
  intro d hd u hu hid v hv hidv
  have hle := h.fence_le hE hd hu hid
  rcases ControlState.mem_update hv with ⟨x, -, -, rfl⟩ | ⟨-, hne⟩
  · exact hle.trans_lt hlt
  · exact absurd hidv hne

theorem On.advanced_of (hE : env.Within B) (h : On env B c m id t w)
    (hlt : ∀ d ∈ w.disk, ∀ u ∈ d.targets, u.controlTargetId = id → u.fence < t.fence) : w.ledger.Advanced id := by
  intro d hd u hu hid v hv hidv
  obtain ⟨ht, hidt⟩ := h.known
  rw [(h.sound.wellFormed hE).mem.eq_of_id hv ht (hidv.trans hidt.symm)]
  exact hlt d hd u hu hid

/-! ## Saves -/

def Presentable (env : Env) (c : Watch) (id : String) (t : TargetRecord) (w : World) : Prop :=
  c.Excused env w.tick ∨ t.lifecycle ≠ .recoveryRequired ∨
    (t.previousOwnerKind ≠ some .feishu → ∀ r, t.recovery = some r →
      isUncertain w.disk w.mem.controlEpoch id r = false)

theorem compact_get {s : ControlState} (hw : WellFormed B s) (hget : s.get? id = some t)
    (hl : t.lifecycle ≠ .targetGone) : (compact s).get? id = some t := by
  obtain ⟨hmem, rfl⟩ := ControlState.get?_mem hget
  exact hw.compact.get (mem_compact_of_not_gone hmem hl)

theorem compact_get_cases {s : ControlState} (hw : WellFormed B s) (hget : s.get? id = some t) {u : TargetRecord}
    (hu : (compact s).get? id = some u) : u = t ∨ (t.lifecycle = .targetGone ∧ u.lifecycle = .targetGone) := by
  obtain ⟨hmem, hid⟩ := ControlState.get?_mem hu
  obtain ⟨ht, hidt⟩ := ControlState.get?_mem hget
  obtain ⟨v, hv, ⟨-, rfl⟩ | ⟨hg, rfl⟩⟩ := mem_compact hmem
  · exact .inl (hw.eq_of_id hv ht (hid.trans hidt.symm))
  · obtain rfl := hw.eq_of_id hv ht (hid.trans hidt.symm)
    exact .inr ⟨hg, hg⟩

theorem compact_drains {s : ControlState} (hw : WellFormed B s) (hget : s.get? id = some t) (hn : t.drainsUntil = none)
    {u : TargetRecord} (hu : (compact s).get? id = some u) : u.drainsUntil = none := by
  rcases compact_get_cases hw hget hu with rfl | ⟨-, hg⟩
  · exact hn
  · simp [TargetRecord.drainsUntil, hg]

theorem flagged_saved (hw : WellFormed B w.mem) (hs : Shape t) (hget : w.mem.get? id = some t)
    (hsaved : w.disk = lastSaved w.trace) (hf : flagged id w.trace = false)
    (hp : t.lifecycle = .recoveryRequired → ∀ r, t.recovery = some r →
      isUncertain w.disk w.mem.controlEpoch id r = false) :
    flagged id (.saved (compact w.mem) :: w.trace) = false := by
  rw [flagged]
  cases hl : t.lifecycle with
  | targetGone =>
    cases hu : (compact w.mem).get? id with
    | none => exact hf
    | some u =>
      have hg : u.lifecycle = .targetGone := by
        rcases compact_get_cases hw hget hu with rfl | ⟨-, hg⟩
        · exact hl
        · exact hg
      simp only [hg]
      exact hf
  | active => simp only [compact_get hw hget (by rw [hl]; decide), hl]
  | recoveryRequired =>
    obtain ⟨r, hr⟩ := Option.isSome_iff_exists.1 (hs.recovery_iff.1 hl)
    simp only [compact_get hw hget (by rw [hl]; decide), hl, hf, Bool.false_or, hr, Option.any_some]
    rw [← hsaved]
    exact hp hl r hr

theorem Calm.saved (hw : WellFormed B w.mem) (hs : Shape t) (hget : w.mem.get? id = some t)
    (hsaved : w.disk = lastSaved w.trace) (h : Calm env c id t w) (hn : t.drainsUntil = none)
    (hp : Presentable env c id t w) (htick : w.tick ≤ w'.tick) (hdisk : w'.disk = some (compact w.mem))
    (hfl : flagged id w'.trace = flagged id (.saved (compact w.mem) :: w.trace)) : Calm env c id t w' := by
  rcases h with hx | hc
  · exact .inl (hx.mono htick)
  rcases hp with hx | hp
  · exact .inl (hx.mono htick)
  refine .inr (fun hk => ⟨?_, fun d hd u hu x hx => ?_⟩)
  · rw [hfl]
    refine flagged_saved hw hs hget hsaved (hc hk).1 (fun hl r hr => ?_)
    rcases hp with hne | hu
    · exact absurd hl hne
    · exact hu (hk hl) r hr
  · rw [hdisk] at hd
    obtain rfl : compact w.mem = d := Option.some.inj hd
    rw [compact_drains hw hget hn hu] at hx
    cases hx

theorem On.persisted (hE : env.Within B) (h : On env B c m id t w) (hn : t.drainsUntil = none)
    (hp : m.seen → Presentable env c id t w) {p : Bool} (hs : Sound env B c (if p then some id else none) w')
    (hmem : w'.mem = w.mem)
    (hloc : w'.loc = w.loc) (hrun : w'.running = w.running) (htick : w.tick ≤ w'.tick)
    (hdisk : w'.disk = some (compact w.mem))
    (hfl : flagged id w'.trace = flagged id (.saved (compact w.mem) :: w.trace)) :
    On env B c { m with pending := p } id t w' := by
  have hw := (h.sound.wellFormed hE).mem
  refine ⟨hs, hmem ▸ h.get, fun d hd => ?_, h.start.trans htick, fun d hd u hu x hx => ?_,
    fun hseen => hmem ▸ h.alone hseen, fun hseen => ?_, fun o ho => by rw [hloc, hrun]; exact h.producer o ho⟩
  · rw [hdisk] at hd
    obtain rfl : compact w.mem = d := Option.some.inj hd
    rw [hmem]
    rfl
  · rw [hdisk] at hd
    obtain rfl : compact w.mem = d := Option.some.inj hd
    rw [compact_drains hw h.get hn hu] at hx
    cases hx
  · exact (h.calm hseen).saved hw (h.shape hE) h.get h.sound.reach.saved hn (hp hseen) htick hdisk hfl

theorem On.unsaved (hE : env.Within B) (h : On env B c m id t w) (hn : t.drainsUntil = none)
    (hp : m.seen → Presentable env c id t w) (hs : Sound env B c none w') (hu : Unsaved w w') :
    On env B c { m with pending := false } id t w' := by
  obtain ⟨e, he, ⟨hdisk, htr⟩ | ⟨hdisk, htr⟩⟩ := hu.result
  · have hq : e.isQuiet = true := by cases e <;> first | rfl | cases he
    refine ⟨by simpa using hs, hu.mem ▸ h.get, by rw [hu.mem, hdisk]; exact h.epochs, h.start.trans hu.tick,
      by rw [hdisk]; exact h.watched, fun hseen => hu.mem ▸ h.alone hseen, fun hseen => ?_,
      fun o ho => by rw [hu.loc, hu.running]; exact h.producer o ho⟩
    exact (h.calm hseen).transport hu.tick hdisk (by rw [htr]; exact (quiet_cons hq id _).2.1) (fun hk => hk)
  · have hq : e.isQuiet = true := by cases e <;> first | rfl | cases he
    exact h.persisted hE hn hp (p := false) hs hu.mem hu.loc hu.running hu.tick hdisk (by
      rw [htr]; exact (quiet_cons hq id _).2.1)

/-- **A save of the section's record.** -/
theorem On.save (hE : env.Within B) {Q : Unit → World → Prop} {E : ControlError → World → Prop}
    (h : On env B c m id t w) {p : Bool} (hadv : m.pending = true → p = true ∨ w.ledger.Advanced id)
    (hn : t.drainsUntil = none) (hp : m.seen → Presentable env c id t w)
    (hok : On env B c { m with pending := p } id t w.written → Q () w.written)
    (herr : ∀ e w', On env B c { m with pending := false } id t w' → E e w') :
    Sat (Good env B c) (saveTerminalControlState env) w Q E := by
  refine Sat.save hE (x := if p then some id else none) h.sound (fun id' he => ?_) (fun hs => hok ?_)
    (fun e w' hu hs => herr e w' ?_)
  · cases hpend : m.pending with
    | false => simp [hpend] at he
    | true =>
      obtain rfl : id = id' := by simpa [hpend] using he
      exact (hadv hpend).imp_left (fun ht => by simp [ht])
  · exact h.persisted hE hn hp hs rfl rfl rfl (Nat.le_succ _) rfl rfl
  · exact h.unsaved hE hn hp hs hu

end Terminal
end TmuxWorktree
