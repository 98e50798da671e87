import TmuxWorktree.Terminal.Sound
/-!
# Actions — specifications of the primitive actions of a section

One rule for each action: an `await`, a read of a record, a move of a record, a save, a load.  An action that only reads
or ticks runs by computation (`Sat.next rfl`).  The proofs of the handlers use these rules and never unfold a save.
-/
namespace TmuxWorktree
namespace Terminal

open Effect

variable {env : Env} {B : Bounds} {c : Watch} {ex : Option String} {w : World} {α : Type}

/-! ## Reads -/

theorem targetById_eq {id : String} {t : TargetRecord} (hget : w.mem.get? id = some t) :
    targetById id w = (.ok t, w) := by
  simp [targetById, Eff.get, bind, pure, hget]

theorem Sat.targetById {C : World → Prop} {β : Type} {f : TargetRecord → M β} {Q : β → World → Prop}
    {E : ControlError → World → Prop} {id : String} (hnone : ∀ e, E e w)
    (hsome : ∀ t, w.mem.get? id = some t → Sat C (f t) w Q E) : Sat C (targetById id >>= f) w Q E := by
  cases hget : w.mem.get? id with
  | some t => exact Sat.next (targetById_eq hget) (hsome t hget)
  | none =>
    refine Sat.bind (P := fun _ _ => False) (F := fun _ w' => w' = w) ?_ (fun e w' he => he ▸ hnone e)
      (fun _ _ h => h.elim)
    simp [Sat, Terminal.targetById, Eff.get, bind, hget, throw, throwThe, MonadExceptOf.throw]

theorem view_eq {id : String} {t : TargetRecord} (hget : w.mem.get? id = some t) (n : Nat) :
    view id n w = (.ok (ownershipView w.mem.controlEpoch t n), w) := by
  simp [view, controlEpoch, targetById, Eff.get, bind, pure, hget]

/-! ## Questions -/

theorem Sat.await {E : ControlError → World → Prop} {Q : α → World → Prop} {answer : Nat → Except ControlError α}
    (h : Sound env B c ex w)
    (hok : ∀ a w', After w w' → Sound env B c ex w' → (∃ n, answer n = .ok a) → Q a w')
    (herr : ∀ e w', After w w' → Sound env B c ex w' → E e w') : Sat (Good env B c) (await env answer) w Q E := by
  refine Sat.next rfl (Sat.next rfl ?_)
  obtain ⟨hs, ha⟩ := Sound.interleave (l := env.interleaved w.tick) (h.ticks 1)
  have ha := (After.ticks w 1).trans ha
  refine Sat.step (Sat.crashIf (Q := fun _ w' => After w w' ∧ Sound env B c ex w') hs.toGood ⟨ha, hs⟩) ?_
  rintro - w' ⟨ha, hs⟩
  exact Sat.ofExcept (fun a hr => hok a w' ha hs ⟨_, hr⟩) (fun e _ => herr e w' ha hs)

/-! ## Moves -/

theorem ControlState.update_const {s : ControlState} (hu : s.UniqueIds) {id : String} {t : TargetRecord}
    (hget : s.get? id = some t) (f : TargetRecord → TargetRecord) : s.update id f = s.update id (fun _ => f t) := by
  unfold ControlState.update
  congr 1
  refine List.map_congr_left fun u hu' => ?_
  split
  · rename_i hid
    have := ControlState.get?_eq_of_mem hu hu'
    rw [hid, hget] at this
    rw [Option.some.inj this]
  · rfl

theorem ControlState.get?_update_ne {s : ControlState} {id id' : String} {f : TargetRecord → TargetRecord}
    (hf : ∀ t ∈ s.targets, t.controlTargetId = id → (f t).controlTargetId = id) (hne : id' ≠ id) :
    (s.update id f).get? id' = s.get? id' := by
  obtain ⟨epoch, ts⟩ := s
  unfold get? update at *
  dsimp only at *
  induction ts with
  | nil => rfl
  | cons x xs ih =>
    have ih := ih (fun t ht => hf t (List.mem_cons_of_mem _ ht))
    rw [List.map_cons, List.find?_cons, List.find?_cons, ih]
    by_cases hx : x.controlTargetId = id
    · have h1 : decide ((f x).controlTargetId = id') = false := by
        rw [hf x List.mem_cons_self hx]
        simpa using hne.symm
      have h2 : decide (x.controlTargetId = id') = false := by
        rw [hx]
        simpa using hne.symm
      rw [if_pos hx, h1, h2]
    · rw [if_neg hx]

theorem Clean.append {tr : List Event} (h : Clean tr) : ∀ {events : List Event},
    (∀ e ∈ events, ∀ tr, slips tr e = false) → Clean (events ++ tr)
  | [], _ => h
  | _ :: _, hn => ⟨hn _ List.mem_cons_self _, h.append (fun e he => hn e (List.mem_cons_of_mem _ he))⟩

theorem evictions_slips {t : TargetRecord} {op : OperationRecord} : ∀ e ∈ t.evictions op, ∀ tr, slips tr e = false := by
  intro e he tr
  simp only [TargetRecord.evictions, Option.mem_toList, Option.map_eq_some_iff] at he
  obtain ⟨d, -, rfl⟩ := he
  rfl

theorem inDoubtEvictions_slips {t : TargetRecord} {a : Int} : ∀ e ∈ t.inDoubtEvictions a, ∀ tr, slips tr e = false := by
  intro e he
  unfold TargetRecord.inDoubtEvictions at he
  split at he
  · cases he
  · exact evictions_slips e he

def World.moved (w : World) (id : String) (events : List Event) (t' : TargetRecord) : World :=
  { w with mem := w.mem.update id (fun _ => t'), trace := events ++ w.trace }

theorem Sound.move (h : Sound env B c ex w) (hepoch : ∀ d ∈ w.disk, d.controlEpoch = w.mem.controlEpoch) {id : String}
    {t t' : TargetRecord} {events : List Event} (hget : w.mem.get? id = some t) (hm : Move t events t')
    (hB : B.target t' = true) (halone : t.lifecycle = .targetGone → t'.lifecycle ≠ .targetGone → Alone w.mem t)
    (hlands : Lands t t' w.trace)
    (htidy : Clean w.trace → Clean (events ++ w.trace) ∨ c.Excused env w.tick) :
    Sound env B c ex (w.moved id events t') := by
  obtain ⟨hmem, rfl⟩ := ControlState.get?_mem hget
  have hnp : ∀ e ∈ events, ∀ id f a, e.produces id f a = false := fun e he id f a =>
    Event.not_produces_of_isInert (hm.isInert e he) id f a
  refine ⟨h.toGood.step (n := 0) (.move t events t' hepoch hget hm hB halone hlands) rfl rfl rfl rfl ?_ hnp htidy,
    h.producers.append hnp⟩
  intro id hid
  cases hm.isInert _ hid

/-! ## Saves -/

def World.written (w : World) : World := { w.persist (compact w.mem) with tick := w.tick + 1 }

/-- The world after a save that threw: the state file may or may not hold the new state. -/
structure Unsaved (w w' : World) : Prop where
  mem : w'.mem = w.mem
  loc : w'.loc = w.loc
  running : w'.running = w.running
  tick : w.tick ≤ w'.tick
  result : ∃ e : Event, e.voids = true ∧ ((w'.disk = w.disk ∧ w'.trace = e :: w.trace) ∨
    (w'.disk = some (compact w.mem) ∧ w'.trace = e :: .saved (compact w.mem) :: w.trace))

theorem Sound.note_void (h : Good env B c w) {e : Event} (hn : w.ledger.Notes e) (hv : e.voids = true) :
    Sound env B c none { w with trace := e :: w.trace } := by
  refine ⟨h.step (n := 0) (k := [e]) (.note e hn) rfl rfl rfl rfl ?_ ?_ ?_, Producers.void hv⟩
  · intro id hid
    obtain rfl := List.mem_singleton.1 hid
    cases hv
  · intro e' he' id f a
    obtain rfl := List.mem_singleton.1 he'
    exact Event.not_produces_of_voids hv a
  · exact fun hc => .inl (hc.cons_quiet (by cases e <;> first | rfl | cases hv))

theorem Sound.written (hE : env.Within B) (h : Sound env B c ex w) {ex' : Option String}
    (hex : ∀ id, ex = some id → ex' = some id ∨ w.ledger.Advanced id) : Sound env B c ex' w.written := by
  refine ⟨h.toGood.step (n := 1) (k := [.saved (compact w.mem)]) .save rfl rfl rfl rfl ?_ ?_ ?_,
    h.producers.save hE.placeholder h.reach hex⟩
  · intro id hid
    simp at hid
  · intro e he id f a
    obtain rfl := List.mem_singleton.1 he
    rfl
  · exact fun hc => .inl ⟨rfl, hc⟩

theorem parse_ok {s s' : ControlState} (h : parseTerminalControlState s = .ok s') : s' = s := by
  unfold parseTerminalControlState at h
  split at h
  · cases h
  · split at h
    · cases h
    · split at h
      · cases h
      · exact (Except.ok.inj h).symm

theorem commitSave_spec (hE : env.Within B) {Q : Unit → World → Prop} {E : ControlError → World → Prop}
    {ex' : Option String} (h : Sound env B c ex w) (hex : ∀ id, ex = some id → ex' = some id ∨ w.ledger.Advanced id)
    (hok : Sound env B c ex' w.written → Q () w.written)
    (herr : ∀ e w', Unsaved w w' → Sound env B c none w' → E e w') (answer : SaveAnswer) :
    Sat (Good env B c) (commitSave (compact w.mem) answer) { w with tick := w.tick + 1 } Q E := by
  have hw := h.written hE hex
  cases answer with
  | done => exact hok hw
  | failedBeforeRename e =>
    refine herr e.toError _ ⟨rfl, rfl, rfl, Nat.le_succ _, .saveFailed, rfl, .inl ⟨rfl, rfl⟩⟩ ?_
    exact Sound.note_void (h.toGood.ticks 1) trivial rfl
  | failedAfterRename e =>
    refine herr e.toError _ ⟨rfl, rfl, rfl, Nat.le_succ _, .saveFailed, rfl, .inr ⟨rfl, rfl⟩⟩ ?_
    exact Sound.note_void hw.toGood trivial rfl
  | diedBeforeRename => exact h.toGood.ticks 1
  | diedAfterRename => exact hw.toGood

/-- **A save.** -/
theorem Sat.save (hE : env.Within B) {Q : Unit → World → Prop} {E : ControlError → World → Prop}
    {x : Option String} (h : Sound env B c ex w) (hex : ∀ id, ex = some id → x = some id ∨ w.ledger.Advanced id)
    (hok : Sound env B c x w.written → Q () w.written)
    (herr : ∀ e w', Unsaved w w' → Sound env B c none w' → E e w') :
    Sat (Good env B c) (saveTerminalControlState env) w Q E := by
  have rejected : (parseTerminalControlState w.mem ≠ .ok w.mem ∨
      parseTerminalControlState (compact w.mem) ≠ .ok (compact w.mem)) → ∀ e,
      Sat (Good env B c) (do logEvent (.saveRejected w.mem); throw e) w Q E := fun hn e =>
    herr e _ ⟨rfl, rfl, rfl, le_rfl, .saveRejected w.mem, rfl, .inl ⟨rfl, rfl⟩⟩ (Sound.note_void h.toGood hn rfl)
  refine Sat.next (x := Eff.get) rfl ?_
  cases h1 : parseTerminalControlState w.mem with
  | error e => exact rejected (.inl (by simp [h1])) e
  | ok validated =>
    obtain rfl := parse_ok h1
    dsimp only
    cases h2 : parseTerminalControlState (compact w.mem) with
    | error e => exact rejected (.inr (by simp [h2])) e
    | ok compacted =>
      obtain rfl := parse_ok h2
      exact Sat.next rfl (commitSave_spec hE h hex hok herr _)

/-! ## Loads -/

/-- The section holds what the state file holds, and nothing if there is none. -/
structure Loaded (env : Env) (B : Bounds) (c : Watch) (w : World) : Prop where
  sound : Sound env B c none w
  disk : ∀ d ∈ w.disk, d = w.mem
  none : w.disk = none → w.mem.targets = []
  watch : w.disk = c.disk
  start : c.start ≤ w.tick

theorem loadTerminalControlState_spec (hE : env.Within B) (h : Sound env B c none w) (hdisk : w.disk = c.disk)
    (hstart : c.start ≤ w.tick) :
    Sat (Good env B c) (loadTerminalControlState env) w (fun _ w' => Loaded env B c w')
      (fun _ w' => Sound env B c none w') := by
  refine Sat.next (x := Eff.get) rfl ?_
  cases hd : w.disk with
  | none =>
    refine Sat.next rfl ?_
    refine ⟨?_, ?_, fun _ => rfl, hdisk, hstart.trans (Nat.le_succ _)⟩
    · refine ⟨h.toGood.step (n := 1) (k := []) (.create _ hd (hE.uuid _)) rfl rfl rfl rfl ?_ ?_ ?_, h.producers⟩
      · exact fun _ hid => by cases hid
      · exact fun _ he => by cases he
      · exact fun hc => .inl hc
    · intro d hd'
      rw [show w.disk = some d from hd'] at hd
      cases hd
  | some s =>
    cases hp : parseTerminalControlState s with
    | error e =>
      simp only [hp]
      exact Sat.throw h
    | ok state =>
      obtain rfl := parse_ok hp
      simp only [hp]
      refine ⟨?_, ?_, ?_, hdisk, hstart⟩
      · refine ⟨h.toGood.step (n := 0) (k := []) (.load _ hd) rfl rfl rfl rfl ?_ ?_ ?_, h.producers⟩
        · exact fun _ hid => by cases hid
        · exact fun _ he => by cases he
        · exact fun hc => .inl hc
      · intro d hd'
        exact Option.some.inj (hd'.symm.trans hd)
      · intro hn
        rw [show w.disk = none from hn] at hd
        cases hd

/-- **A section**: the lock, a fresh copy of the state file, then the body. -/
theorem Sat.lockedTo (hE : env.Within B) {C : World → Prop} {Q : α → World → Prop} {E : ControlError → World → Prop}
    {operation : M α} (hC : ∀ w', Good env B c w' → C w') (h : Sound env B c none w) (hdisk : w.disk = c.disk)
    (hstart : c.start ≤ w.tick) (herr : ∀ e w', Sound env B c none w' → E e w')
    (hop : ∀ w', Loaded env B c w' → Sat C operation w' Q E) : Sat C (locked env operation) w Q E := by
  refine Sat.step (P := fun _ w' => After w w' ∧ Sound env B c none w') ((Sat.await h (fun _ w' ha hs _ => ⟨ha, hs⟩)
    (fun e w' _ hs => herr e w' hs)).imp hC (fun _ _ hq => hq) (fun _ _ he => he)) ?_
  rintro - w₁ ⟨ha, hs⟩
  refine Sat.bind ((loadTerminalControlState_spec hE hs (ha.disk.trans hdisk) (hstart.trans ha.tick)).imp hC
    (fun _ _ hq => hq) (fun _ _ he => he)) herr (fun _ w₂ hl => hop w₂ hl)

theorem Sat.locked (hE : env.Within B) {Q : α → World → Prop} {E : ControlError → World → Prop} {operation : M α}
    (h : Sound env B c none w) (hdisk : w.disk = c.disk) (hstart : c.start ≤ w.tick)
    (herr : ∀ e w', Sound env B c none w' → E e w')
    (hop : ∀ w', Loaded env B c w' → Sat (Good env B c) operation w' Q E) :
    Sat (Good env B c) (locked env operation) w Q E :=
  Sat.lockedTo hE (fun _ hg => hg) h hdisk hstart herr hop

end Terminal
end TmuxWorktree
