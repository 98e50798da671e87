import TmuxWorktree.Terminal.Clock
import TmuxWorktree.Terminal.Input
/-!
# Resolve — the sections that make, retire and restart records

`resolveTarget` retires the records of a session's earlier incarnations and makes one for its present incarnation;
`status` reads a record and fences a write it finds under way; `initializeContinuity` fences every record that a dead
process may have left in the middle of something.
-/
namespace TmuxWorktree
namespace Terminal

open Effect

variable {env : Env} {B : Bounds} {c : Watch} {m : Mode} {id : String} {t t' : TargetRecord} {w w' : World} {α : Type}

/-! ## Retiring records -/

/-- The records of `ids` are retired, and nothing else happened. -/
structure Retired (env : Env) (B : Bounds) (c : Watch) (ids : List String) (w w' : World) : Prop where
  sound : Sound env B c none w'
  disk : w'.disk = w.disk
  epoch : w'.mem.controlEpoch = w.mem.controlEpoch
  tick : w.tick ≤ w'.tick
  loc : w'.loc = w.loc
  get : ∀ id ∉ ids, w'.mem.get? id = w.mem.get? id
  gone : ∀ t ∈ w'.mem.targets, t.controlTargetId ∈ ids → t.lifecycle = .targetGone
  old : ∀ t ∈ w'.mem.targets, t.controlTargetId ∉ ids → t ∈ w.mem.targets
  flags : ∀ id, flagged id w'.trace = flagged id w.trace

theorem invalidateTargets_spec (hE : env.Within B) : ∀ (ids : List String) {w : World}, Sound env B c none w →
    (∀ d ∈ w.disk, d.controlEpoch = w.mem.controlEpoch) → (∀ id ∈ ids, ∃ t, w.mem.get? id = some t) →
    ∃ w', invalidateTargets env ids w = (.ok (), w') ∧ Retired env B c ids w w'
  | [], w, h, _, _ => ⟨w, rfl, h, rfl, rfl, le_rfl, rfl, fun _ _ => rfl, fun _ _ hid => (List.not_mem_nil hid).elim,
      fun _ ht _ => ht, fun _ => rfl⟩
  | id :: ids, w, h, hepoch, hids => by
    obtain ⟨t, hget⟩ := hids id List.mem_cons_self
    have hid := (ControlState.get?_mem hget).2
    have hu := (h.wellFormed hE).mem.ids
    have hm := Move.retireAt hid (env.now w.tick)
    have h₁ := (h.ticks 1).move (by exact hepoch) hget hm
      (Bounds.target_retired (h.bounds hE hget) (hE.now _)) (fun _ hn => absurd rfl hn)
      (.parked (by simp [TargetRecord.invalidateTarget])) (fun hc => .inl ⟨rfl, hc⟩)
    have hne : ∀ {id'}, id' ≠ id → (w.mem.update id (fun _ => t.invalidateTarget (env.now w.tick))).get? id' =
        w.mem.get? id' := fun hne => ControlState.get?_update_ne (fun _ _ _ => hid) hne
    obtain ⟨w', heq, hr⟩ := invalidateTargets_spec hE ids h₁ hepoch (fun id' hid' => by
      by_cases he : id' = id
      · subst he
        exact ⟨_, ControlState.get?_update_self (f := fun _ => t.invalidateTarget (env.now w.tick)) (t := t) rfl hget⟩
      · obtain ⟨t', ht'⟩ := hids id' (List.mem_cons_of_mem _ hid')
        exact ⟨t', (hne he).trans ht'⟩)
    refine ⟨w', ?_, hr.sound, hr.disk, hr.epoch, (Nat.le_succ _).trans hr.tick, hr.loc, fun id' hid' => ?_,
      fun t' ht' hid' => ?_, fun t' ht' hid' => ?_, fun id' => ?_⟩
    · unfold invalidateTargets
      simp only [bind, invalidateTarget_eq hu hget]
      exact heq
    · simp only [List.mem_cons, not_or] at hid'
      exact (hr.get id' hid'.2).trans (hne hid'.1)
    · by_cases hin : t'.controlTargetId ∈ ids
      · exact hr.gone t' ht' hin
      · obtain ⟨-, -, -, rfl⟩ | ⟨-, hn⟩ := ControlState.mem_update (hr.old t' ht' hin)
        · rfl
        · exact absurd ((List.mem_cons.1 hid').resolve_right hin) hn
    · simp only [List.mem_cons, not_or] at hid'
      obtain ⟨u, -, hu, rfl⟩ | ⟨hmem, -⟩ := ControlState.mem_update (hr.old t' ht' hid'.2)
      · exact absurd hid hid'.1
      · exact hmem
    · exact (hr.flags id').trans (inert_cons (e := .retired id) rfl id' w.trace).2

/-! ## New records -/

/-- **The `randomUUID`s among the first `n` answers are distinct.** -/
def Env.Distinct (env : Env) (n : Nat) : Prop :=
  ∀ i j, i < n → j < n → env.randomUUID i = env.randomUUID j → i = j

/-- As `Ends`, if no more than `n` questions were put. -/
def EndsBy (env : Env) (B : Bounds) (c : Watch) (n : Nat) (x : M α) (w : World) : Prop :=
  Sat (fun w' => w'.tick ≤ n → Good env B c w') x w (fun _ w' => w'.tick ≤ n → Sound env B c none w')
    (fun _ w' => w'.tick ≤ n → Sound env B c none w')

theorem Ends.by {x : M α} (h : Ends env B c x w) (n : Nat) : EndsBy env B c n x w :=
  h.imp (fun _ hg _ => hg) (fun _ _ hs _ => hs) (fun _ _ hs _ => hs)

theorem EndsBy.bind {β : Type} {n : Nat} {x : M α} {f : α → M β} {Q : α → World → Prop} {E : ControlError → World → Prop}
    (h : Sat (Good env B c) x w Q E) (hE : ∀ e w', E e w' → Sound env B c none w')
    (hf : ∀ a w', Q a w' → EndsBy env B c n (f a) w') : EndsBy env B c n (x >>= f) w :=
  Sat.bind (h.imp (fun _ hg _ => hg) (fun _ _ hq => hq) (fun _ _ he => he)) (fun e w' he _ => hE e w' he) hf

theorem EndsBy.require {n : Nat} {p : Bool} {e : ControlError} {f : Unit → M α} (h : Sound env B c none w)
    (hf : p = true → EndsBy env B c n (f ()) w) : EndsBy env B c n (Eff.require p e >>= f) w := by
  refine EndsBy.bind (Q := fun _ w' => w = w' ∧ p = true) (Sat.require (fun hp => ⟨rfl, hp⟩) (fun _ => h))
    (fun _ _ he => he) ?_
  rintro - _ ⟨rfl, hp⟩
  exact hf hp

theorem EndsBy.locked (hE : env.Within B) {n : Nat} (h : Sound env B c none w) (hdisk : w.disk = c.disk)
    (hstart : c.start ≤ w.tick) {operation : M α} (hop : ∀ w', Loaded env B c w' → EndsBy env B c n operation w') :
    EndsBy env B c n (Terminal.locked env operation) w :=
  Sat.lockedTo hE (fun _ hg _ => hg) h hdisk hstart (fun _ _ hs _ => hs) hop

theorem EndsBy.over {n : Nat} {x : M α} [Along Later x] (h : n < w.tick) : EndsBy env B c n x w :=
  Sat.of_along (R := Later) (fun _ hw hle => absurd (h.trans_le hw) (not_lt.2 hle))
    (fun _ _ hw hle => absurd (h.trans_le hw) (not_lt.2 hle)) (fun _ _ hw hle => absurd (h.trans_le hw) (not_lt.2 hle))

theorem ControlState.get?_push {s : ControlState} {t : TargetRecord} (h : ∀ u ∈ s.targets, u.controlTargetId ≠ t.controlTargetId) :
    (s.push t).get? t.controlTargetId = some t := by
  unfold ControlState.get? ControlState.push
  rw [List.find?_append, List.find?_eq_none.2 (fun u hu => by simpa using h u hu)]
  simp

/-- A record that was just made: the state file has none of it. -/
structure New (env : Env) (B : Bounds) (c : Watch) (id : String) (t : TargetRecord) (w : World) : Prop where
  on : On env B c (.at False) id t w
  absent : ∀ d ∈ w.disk, d.get? id = none
  mirrored : Mirrored id t w
  active : t.lifecycle = .active
  free : t.ownership.isFree = true
  idle : t.inFlight = none

/-- **`state.targets.push(…)`** of a session that no live record names. -/
theorem pushTarget_spec (hE : env.Within B) {n : Nat} (hd : env.Distinct n) (hn : w.tick < n) (h : Sound env B c none w)
    (hepoch : ∀ d ∈ w.disk, d.controlEpoch = w.mem.controlEpoch) (hstart : c.start ≤ w.tick) {session : ManagedSession}
    {tmuxInstanceId : String}
    (hname : ∀ t ∈ w.mem.targets, t.lifecycle ≠ .targetGone → t.managedSession.name ≠ session.name)
    (hs : B.session session = true) (hi : B.stored tmuxInstanceId 128 = true) :
    ∃ id t w', pushTarget env session tmuxInstanceId w = (.ok id, w') ∧ New env B c id t w' := by
  -- the id is a `randomUUID` that no earlier record has
  have hfresh : Event.created (env.randomUUID w.tick) ∉ w.trace := by
    intro hc
    obtain ⟨m, hm, he⟩ := h.used _ hc
    exact absurd (hd m w.tick (hm.trans hn) hn he) hm.ne
  have hB : B.target (newTarget (env.randomUUID w.tick) (env.randomUUID (w.tick + 1)) session tmuxInstanceId
      (env.now (w.tick + 2))) = true := by
    simp [Bounds.target, newTarget, Bounds.ownership, hE.uuid, hE.now, hs, hi]
  have hnot : ∀ d ∈ w.disk, d.get? (env.randomUUID w.tick) = none := by
    intro d hd
    by_contra hne
    obtain ⟨u, hu⟩ := Option.ne_none_iff_exists'.1 hne
    obtain ⟨hmem, hid⟩ := ControlState.get?_mem hu
    exact hfresh (hid ▸ h.reach.known.disk d hd u hmem)
  have hflag : flagged (env.randomUUID w.tick) w.trace = false := by
    by_contra hne
    obtain ⟨e, he, hn⟩ := @flagged_names (env.randomUUID w.tick) w.trace (by simpa using hne)
    exact hfresh (h.reach.known.trace e he _ hn)
  have hprod : ∀ e ∈ [Event.created (env.randomUUID w.tick)], ∀ id f a, e.produces id f a = false := by
    intro e he
    obtain rfl := List.mem_singleton.1 he
    exact fun _ _ _ => rfl
  refine ⟨_, newTarget (env.randomUUID w.tick) (env.randomUUID (w.tick + 1)) session tmuxInstanceId (env.now (w.tick + 2)),
    _, rfl, ⟨⟨⟨h.toGood.step (n := 3) (k := [.created (env.randomUUID w.tick)])
    (.push (env.randomUUID w.tick) (env.randomUUID (w.tick + 1)) session tmuxInstanceId (env.now (w.tick + 2)) hfresh hB
      hname) rfl rfl rfl rfl (fun id hid => ?_) hprod (fun hc => .inl ⟨rfl, hc⟩), h.producers.append hprod⟩, ?_, hepoch,
    hstart.trans (Nat.le_add_right _ 3), fun d hd u hu => ?_, False.elim, False.elim, fun _ ho => by cases ho⟩, hnot,
    ⟨fun d hd u hu => ?_, fun _ => hflag⟩, rfl, rfl, rfl⟩⟩
  · obtain rfl : id = _ := by simpa using hid
    exact ⟨w.tick, Nat.lt_add_of_pos_right (Nat.succ_pos 2), rfl⟩
  · refine ControlState.get?_push (t := newTarget _ _ _ _ _) (fun u hu he => hfresh ?_)
    rw [← show u.controlTargetId = env.randomUUID w.tick from he]
    exact h.reach.known.mem u hu
  · rw [hnot d hd] at hu
    cases hu
  · rw [hnot d hd] at hu
    cases hu

/-! ## `resolveTarget` and `status` -/

theorem reconcileAbandonedOwnership_eq (hget : w.mem.get? id = some t) (hl : t.lifecycle ≠ .active)
    (hauto : t.isAutoRecoverableNonFeishuState = false) :
    reconcileAbandonedOwnership env id w = (.ok false, { w with tick := w.tick + 1 }) := by
  simp [reconcileAbandonedOwnership, reconcileFenced, targetById, isoNow, nextTick, Eff.get, bind, pure, hget, hl, hauto]

/-- The record after `resolveTarget` and `status` have fenced a write under way or reconciled it. -/
structure Looked (env : Env) (B : Bounds) (c : Watch) (id : String) (fenced : Bool) (t : TargetRecord) (w : World) :
    Prop where
  on : On env B c (.at False) id t w
  live : t.lifecycle = .active → fenced = false ∧ On env B c .live id t w ∧ Mirrored id t w ∧ t.inFlight = none

/-- **`fenceInFlight`, then `reconcileAbandonedOwnership`.** -/
theorem Ends.look (hE : env.Within B) (h : On env B c (.at False) id t w) (hmir : Mirrored id t w) {f : Bool → Bool → M α}
    (hf : ∀ fenced b t' w', Looked env B c id fenced t' w' → (Known id w → t'.lifecycle = .active → Known id w') →
      Ends env B c (f fenced b) w') :
    Ends env B c (fenceInFlight env id >>= fun fenced => reconcileAbandonedOwnership env id >>= fun b => f fenced b) w := by
  refine Ends.bind (E := fun _ w' => Sound env B c none w') (Q := fun fenced w' =>
    (fenced = false ∧ w = w' ∧ t.inFlight = none) ∨
      ∃ t', On env B c (.at False) id t' w' ∧ t'.lifecycle = .recoveryRequired ∧
        t'.isAutoRecoverableNonFeishuState = false) ?_ (fun _ _ he => he) ?_
  · refine Sat.next (targetById_eq h.get) (Sat.ite (fun hc => ?_) (fun hc => Sat.pure (.inl ⟨rfl, rfl, ?_⟩)))
    · simp only [Bool.and_eq_true, decide_eq_true_eq] at hc
      refine Sat.next (markRecovery_eq (h.unique hE) h.get _ _) (Sat.pure (.inr ⟨_, h.fence hE .operationInDoubt none
        (.inl (by rw [hc.2]; decide)) rfl (fun _ => .inl (by simp [slips, RecoveryReason.isAutomatic])), rfl, ?_⟩))
      simp [TargetRecord.isAutoRecoverableNonFeishuState, TargetRecord.markRecovery]
    · simp only [Bool.and_eq_true, decide_eq_true_eq, not_and] at hc
      by_cases ha : t.lifecycle = .active
      · by_contra hne
        exact hc (Option.isSome_iff_ne_none.2 hne) ha
      · exact (h.shape hE).idle ha
  · rintro fenced w₁ (⟨rfl, rfl, hidle⟩ | ⟨t₁, h₁, hl, hauto⟩)
    · refine Ends.bind (reconcileAbandonedOwnership_spec hE h hmir False.elim) (fun _ _ he => he.sound) ?_
      rintro b w₂ ⟨t₂, hr⟩
      exact hf false b t₂ w₂ ⟨hr.on, fun ha => ⟨rfl, hr.live ha, hr.mirrored, (hr.carried ha).operations.2.trans hidle⟩⟩
        (fun hk _ => hr.known hk)
    · have hna : t₁.lifecycle ≠ .active := by rw [hl]; decide
      refine Sat.next (reconcileAbandonedOwnership_eq h₁.get hna hauto) ?_
      exact hf fenced false t₁ _ ⟨h₁.ticks 1, fun ha => absurd ha hna⟩ (fun _ ha => absurd ha hna)

theorem outputCursorOf_spec (hE : env.Within B) {fenced : Bool} (h : Looked env B c id fenced t w) :
    Sat (Good env B c) (outputCursorOf env id) w (fun _ w' => ∃ t', On env B c (.at False) id t' w')
      (fun _ w' => Sound env B c none w') := by
  refine Sat.next (targetById_eq h.on.get) (Sat.ite (fun ha => ?_) (fun _ => Sat.pure ⟨t, h.on⟩))
  obtain ⟨-, hlive, -, hidle⟩ := h.live ha
  refine Sat.bind (prepareOutput_spec hE hlive trivial ha hidle) (fun _ _ he => he.sound) ?_
  rintro p w' ⟨t', h', -⟩
  exact Sat.pure ⟨t', h'.forget False.elim⟩

theorem saveIf_ends (hE : env.Within B) (h : On env B c (.at False) id t w) (changed : Bool) :
    Sat (Good env B c) (saveIf env changed) w (fun _ w' => Sound env B c none w' ∧ w'.mem.get? id = some t)
      (fun _ w' => Sound env B c none w') :=
  Sat.ite
    (fun _ => Sat.save hE (x := none) h.sound (fun id' he => by cases he) (fun hs => ⟨hs, h.get⟩)
      (fun _ _ _ hs => hs))
    (fun _ => Sat.pure ⟨h.sound, h.get⟩)

theorem Loaded.epochs (h : Loaded env B c w) : ∀ d ∈ w.disk, d.controlEpoch = w.mem.controlEpoch :=
  fun d hd => by rw [h.disk d hd]

theorem Loaded.after (h : Loaded env B c w) (ha : After w w') (hs : Sound env B c Option.none w') : Loaded env B c w' :=
  ⟨hs, by rw [ha.disk, ha.mem]; exact h.disk, by rw [ha.disk, ha.mem]; exact h.none, ha.disk.trans h.watch,
    h.start.trans ha.tick⟩

theorem EndsBy.resolve (hE : env.Within B) {n : Nat} (hd : env.Distinct n) (hl : Loaded env B c w) {session : ManagedSession} {tmuxInstanceId : String}
    {named same : TargetRecord → Bool}
    (hnamed : ∀ t, named t = true ↔ t.lifecycle ≠ .targetGone ∧ t.managedSession.name = session.name)
    (hs : B.session session = true) (hi : B.stored tmuxInstanceId 128 = true) {f : String → M α}
    [∀ id, Along Later (f id)]
    (hf : ∀ id t w', On env B c (.at False) id t w' → Mirrored id t w' → Ends env B c (f id) w') :
    EndsBy env B c n
      (invalidateTargets env ((w.mem.targets.filter (fun t => named t && !same t)).map (·.controlTargetId)) >>= fun _ =>
        (match w.mem.targets.find? (fun t => named t && same t) with
          | some t => pure t.controlTargetId
          | none => pushTarget env session tmuxInstanceId) >>= f) w := by
  have hw := (hl.sound.wellFormed hE).mem
  obtain ⟨w₁, heq, hr⟩ := invalidateTargets_spec hE
    ((w.mem.targets.filter (fun t => named t && !same t)).map (·.controlTargetId)) hl.sound hl.epochs (fun id hid => by
      obtain ⟨t, ht, rfl⟩ := List.mem_map.1 hid
      exact ⟨t, hw.get (List.mem_filter.1 ht).1⟩)
  refine Sat.next heq ?_
  cases hfound : w.mem.targets.find? (fun t => named t && same t) with
  | some t =>
    have hmem := List.mem_of_find?_eq_some hfound
    obtain ⟨h₀, hsav⟩ := hl.on (hw.get hmem)
    have hsame := List.find?_some hfound
    -- the record found is not among those retired
    have hnot : t.controlTargetId ∉ (w.mem.targets.filter (fun t => named t && !same t)).map (·.controlTargetId) := by
      intro hin
      obtain ⟨u, hu, hid⟩ := List.mem_map.1 hin
      obtain ⟨humem, hus⟩ := List.mem_filter.1 hu
      obtain rfl := hw.eq_of_id humem hmem hid
      simp_all
    have hget : w₁.mem.get? t.controlTargetId = some t := (hr.get _ hnot).trans h₀.get
    refine Sat.next rfl (Ends.by (hf _ t w₁ ⟨hr.sound, hget, by rw [hr.disk, hr.epoch]; exact h₀.epochs, hl.start.trans hr.tick,
      by rw [hr.disk]; exact h₀.watched, False.elim, False.elim, fun _ ho => by cases ho⟩
      ⟨by rw [hr.disk]; exact hsav.mirrored.same, by rw [hr.disk, hr.flags]; exact hsav.mirrored.new⟩) n)
  | none =>
    -- a live record of the session is of another incarnation, and was retired
    have hname : ∀ t ∈ w₁.mem.targets, t.lifecycle ≠ .targetGone → t.managedSession.name ≠ session.name := by
      intro t ht hgt hname
      by_cases hin : t.controlTargetId ∈ (w.mem.targets.filter (fun t => named t && !same t)).map (·.controlTargetId)
      · exact hgt (hr.gone t ht hin)
      · have hold := hr.old t ht hin
        have hns : named t = true := (hnamed t).2 ⟨hgt, hname⟩
        have hnone := List.find?_eq_none.1 hfound t hold
        refine hin (List.mem_map_of_mem (List.mem_filter.2 ⟨hold, ?_⟩))
        simp_all
    by_cases hn : w₁.tick < n
    · obtain ⟨id, t, w₂, hpush, hnew⟩ := pushTarget_spec hE hd hn hr.sound (by rw [hr.disk, hr.epoch]; exact hl.epochs)
        (hl.start.trans hr.tick) hname hs hi
      exact Sat.next hpush (Ends.by (hf id t w₂ hnew.on hnew.mirrored) n)
    · refine Sat.next (x := pushTarget env session tmuxInstanceId) rfl (EndsBy.over ?_)
      exact (not_lt.1 hn).trans_lt (Nat.lt_add_of_pos_right (Nat.succ_pos 2))

set_option synthInstance.maxSize 200000 in
theorem resolveTarget_ends (hE : env.Within B) {n : Nat} (hd : env.Distinct n) (h : Sound env B c none w)
    (hdisk : w.disk = c.disk) (hstart : c.start ≤ w.tick) (sessionName : String) :
    EndsBy env B c n (resolveTarget env sessionName) w := by
  refine EndsBy.locked hE h hdisk hstart (fun w₀ hl => ?_)
  refine EndsBy.bind (Sat.await (E := fun _ w' => Sound env B c none w') (Q := fun r w' => Loaded env B c w' ∧
      B.session r.managedSession = true ∧ B.stored r.tmuxInstanceId 128 = true) hl.sound
    (fun r w' ha hs hr => ⟨hl.after ha hs, hE.resolved _ _ hr.choose_spec⟩) (fun _ _ _ hs => hs))
    (fun _ _ he => he) ?_
  rintro resolved w₁ ⟨hl₁, hs, hi⟩
  refine Sat.next (x := Eff.get) rfl ?_
  refine EndsBy.resolve hE hd hl₁ (fun t => by simp) hs hi (fun id t w₂ h₂ hmir => ?_)
  refine Ends.look hE h₂ hmir (fun fenced b t₃ w₃ h₃ _ => ?_)
  refine Ends.bind (outputCursorOf_spec hE h₃) (fun _ _ he => he) ?_
  rintro cursor w₄ ⟨t₄, h₄⟩
  refine Ends.bind (saveIf_ends hE h₄ _) (fun _ _ he => he) ?_
  rintro - w₅ ⟨h₅, hget⟩
  exact Sat.next (x := controlEpoch) rfl (Sat.next (targetById_eq hget) (Sat.pure h₅))

theorem status_ends (hE : env.Within B) (h : Sound env B c none w) (hdisk : w.disk = c.disk) (hstart : c.start ≤ w.tick) :
    Ends env B c (status env id) w := by
  refine Sat.locked hE h hdisk hstart (fun _ _ hs => hs) (fun w₀ hl => ?_)
  refine Sat.targetById (fun _ => hl.sound) (fun t hget => ?_)
  obtain ⟨h₀, hsav⟩ := hl.on hget
  refine Ends.look hE h₀ hsav.mirrored (fun fenced b t₁ w₁ h₁ hk => ?_)
  refine Sat.next (targetById_eq h₁.on.get) ?_
  refine Ends.bind (Q := fun _ w' => ∃ t', Looked env B c id fenced t' w') (E := fun _ w' => Sound env B c none w')
    (Sat.ite (fun ha => ?_) (fun _ => Sat.pure ⟨t₁, h₁⟩)) (fun _ _ he => he) ?_
  · obtain ⟨hf, -, hmir, hidle⟩ := h₁.live ha
    refine (assertTargetCurrent_spec hE h₁.on hmir (hk hsav.known ha) False.elim).mono ?_ (fun _ _ he => he.sound)
    rintro - w' ⟨t', hlive, -⟩
    exact ⟨t', hlive.on.forget False.elim, fun _ => ⟨hf, hlive.on, hlive.mirrored, hlive.idle⟩⟩
  · rintro - w₂ ⟨t₂, h₂⟩
    refine Ends.bind (outputCursorOf_spec hE h₂) (fun _ _ he => he) ?_
    rintro cursor w₃ ⟨t₃, h₃⟩
    refine Ends.bind (saveIf_ends hE h₃ fenced) (fun _ _ he => he) ?_
    rintro - w₄ ⟨h₄, hget⟩
    unfold Ends Sat
    rw [view_eq hget]
    exact h₄

/-! ## `initializeContinuity` -/

theorem restartReason_automatic {reason : RecoveryReason} (hr : restartReason t = some reason)
    (ha : reason.isAutomatic = true) : t.lifecycle = .active ∧ t.drainsUntil = none := by
  unfold restartReason at hr
  split at hr
  · cases hr
  · rename_i hl
    refine ⟨not_not.1 hl, ?_⟩
    split at hr
    · obtain rfl := Option.some.inj hr
      cases ha
    · split at hr
      · obtain rfl := Option.some.inj hr
        cases ha
      · rename_i ho
        exact drainsUntil_eq_none (by rw [ho]; rfl)
      · cases hr

/-- **A restart does not slip**: what is fenced under an automatic reason was neither flagged nor draining. -/
theorem restartTargets_clean {epoch : String} : ∀ (ts : List TargetRecord) (tick : Nat) {tr : List Event}, Clean tr →
    (∀ t ∈ ts, t.lifecycle = .active → flagged t.controlTargetId tr = false) →
    (∀ t ∈ ts, t.drainsUntil = none → ∀ now, overdue (lastSaved tr) t.controlTargetId now = false) →
    Clean ((restartTargets env epoch tick ts).2 ++ tr)
  | [], _, _, hc, _, _ => hc
  | t :: ts, tick, tr, hc, hf, ho => by
    simp only [restartTargets, List.append_assoc]
    generalize hr : restartTarget epoch (env.now tick) (env.now (tick + 1)) (env.now (tick + 2)) t = r
    have hone : (∀ e ∈ r.2, e.isInert = true) ∧ Clean (r.2 ++ tr) := by
      subst hr
      rcases restartTarget_eq epoch (env.now tick) (env.now (tick + 1)) (env.now (tick + 2)) t with he | ⟨reason, hre, he⟩
      · rw [he]
        exact ⟨fun _ h => (List.not_mem_nil h).elim, hc⟩
      · rw [he]
        refine ⟨fenceEvents_isInert, ?_, hc.append inDoubtEvictions_slips⟩
        refine (slips_append_inert inDoubtEvictions_isInert _).trans ?_
        cases ha : reason.isAutomatic with
        | false => simp [slips, ha]
        | true =>
          obtain ⟨hl, hd⟩ := restartReason_automatic hre ha
          simp [slips, hf t List.mem_cons_self hl, ho t List.mem_cons_self hd]
    refine restartTargets_clean ts (tick + 3) hone.2 (fun u hu hl => ?_) (fun u hu hd now => ?_)
    · rw [flagged_append_inert hone.1]
      exact hf u (List.mem_cons_of_mem _ hu) hl
    · rw [lastSaved_append_inert hone.1]
      exact ho u (List.mem_cons_of_mem _ hu) hd now

theorem restartTargets_bounds (hE : env.Within B) {epoch : String} (he : B.stored epoch 128 = true) {ts : List TargetRecord}
    {tick : Nat} (h : ∀ t ∈ ts, B.target t = true) : ∀ t ∈ (restartTargets env epoch tick ts).1, B.target t = true := by
  induction ts generalizing tick with
  | nil => exact fun _ ht => (List.not_mem_nil ht).elim
  | cons t ts ih =>
    intro t' ht'
    simp only [restartTargets, List.mem_cons] at ht'
    rcases ht' with rfl | ht'
    · rcases restartTarget_eq epoch (env.now tick) (env.now (tick + 1)) (env.now (tick + 2)) t with hr | ⟨reason, -, hr⟩
      · rw [hr]
        exact h t List.mem_cons_self
      · rw [hr]
        exact Bounds.target_fenced (h t List.mem_cons_self) (hE.now _) (hE.now _) (hE.now _) he rfl
    · exact ih (fun u hu => h u (List.mem_cons_of_mem _ hu)) t' ht'

theorem initializeContinuity_ends (hE : env.Within B) (h : Sound env B c none w) (hdisk : w.disk = c.disk)
    (hstart : c.start ≤ w.tick) : Ends env B c (initializeContinuity env) w := by
  refine Sat.locked hE h hdisk hstart (fun _ _ hs => hs) (fun w₀ hl => ?_)
  refine Sat.next (x := randomUUID env) rfl (Sat.next (x := Eff.modify _) rfl ?_)
  have hw := (hl.sound.wellFormed hE).mem
  have hi : ∀ e ∈ (restartTargets env w₀.mem.controlEpoch (w₀.tick + 1) w₀.mem.targets).2, e.isInert = true := restartTargets_isInert _ _
  have hnp : ∀ e ∈ (restartTargets env w₀.mem.controlEpoch (w₀.tick + 1) w₀.mem.targets).2, ∀ id f a,
      e.produces id f a = false := fun e he id f a => Event.not_produces_of_isInert (hi e he) id f a
  -- the section's records are those of the state file
  have clean : Clean w₀.trace →
      Clean ((restartTargets env w₀.mem.controlEpoch (w₀.tick + 1) w₀.mem.targets).2 ++ w₀.trace) := by
    intro hc
    refine restartTargets_clean _ _ hc (fun t ht ha => ?_) (fun t ht hd now => ?_)
    · obtain ⟨h₀, hsav⟩ := hl.on (hw.get ht)
      exact h₀.unflagged hE hsav.mirrored ha hc
    · obtain ⟨h₀, hsav⟩ := hl.on (hw.get ht)
      by_contra hne
      simp only [overdue, Bool.not_eq_false, Option.any_eq_true] at hne
      obtain ⟨d, hdd, u, hu, x, hx, -⟩ := hne
      rw [hsav.mirrored.drains (h₀.sound.reach.saved.trans hdd) hu, hd] at hx
      cases hx
  have hs : Sound env B c none ({ w₀ with tick := w₀.tick + 1 }.restartContinuity env (env.randomUUID w₀.tick)) := by
    refine ⟨(hl.sound.toGood.ticks 1).step (n := 3 * w₀.mem.targets.length)
      (.restart env (w₀.tick + 1) (env.randomUUID w₀.tick) hl.disk (hE.uuid _)
        (restartTargets_bounds hE hw.epoch hw.bounds)) rfl rfl rfl rfl (fun id hid => ?_) hnp (fun hc => .inl (clean hc)),
      hl.sound.producers.append hnp⟩
    cases hi _ hid
  exact Ends.bind (Sat.save hE (Q := fun _ w' => Sound env B c none w') (x := none) hs (fun _ he => by cases he)
    (fun hs => hs) (fun _ _ _ hs => hs)) (fun _ _ he => he) (fun _ _ hs => Sat.pure hs)

end Terminal
end TmuxWorktree
