import TmuxWorktree.Outbox.Once
import TmuxWorktree.Outbox.Provenance
/-!
# Waiting — an entry that waits for its target is sent only after the target was confirmed
-/
namespace TmuxWorktree
namespace Outbox

variable {C : Core} {s s' : State} {l : Log} {a : Action} {e y : Entry}

/-! ## What is executed -/

theorem eligibleFrom_confirmed : ∀ {blocked : List LaneKey} {es : List Entry} {e : Entry}, e ∈ eligibleFrom blocked es →
    e.targetRevalidation = none
  | _, [], _, h => by cases h
  | blocked, x :: rest, e, h => by
    unfold eligibleFrom at h
    split at h
    case h_5 hx =>
      split at h
      · rename_i hfree
        rw [Bool.and_eq_true, Option.isNone_iff_eq_none] at hfree
        rcases List.mem_cons.mp h with rfl | h
        · exact hfree.2
        · exact eligibleFrom_confirmed h
      · exact eligibleFrom_confirmed h
    all_goals exact eligibleFrom_confirmed h

theorem Entry.waiting_queued (hv : e.valid C = true) (hw : e.targetRevalidation.isSome = true) : e.state = .queued :=
  (Entry.valid_iff.mp hv).2.2.2.2.2.1 hw

theorem executed_confirmed (hk : Kept C l) {command : Command} {attempt : Attempt} {delay : Option Nat}
    (h : .executeCommand command attempt delay ∈ (next C l.state a).2) :
    ∃ x ∈ l.state.entries, x.targetRevalidation = none ∧ command = x.command := by
  rcases next_cases (a := a) hk.sound with hsame | ⟨g, new, hch⟩
  · rw [hsame] at h
    cases h
  obtain ⟨x, hx, hid, hcmd⟩ := hch.executed command attempt delay h
  have hv := hk.sound.entries.valid x hx
  have hcall : (attempt.requestId, AttemptKind.execute) ∈ callsMade l.state (next C l.state a).2 x.createdOrder := by
    refine List.mem_flatMap.mpr ⟨_, h, ?_⟩
    simp only [Effect.calls]
    rw [hid, entry_any hk.sound hx, if_pos (decide_eq_true rfl)]
    exact List.mem_singleton.mpr rfl
  have hturn := hch.turn x hx
  generalize callsMade l.state (next C l.state a).2 x.createdOrder = calls at hcall hturn
  generalize g x = x' at hturn hcmd
  cases hturn with
  | dispatch ids budget _ r hel => exact ⟨x, hx, eligibleFrom_confirmed hel, hcmd⟩
  | retry v r _ hd hv' =>
    refine ⟨x, hx, ?_, hcmd⟩
    have hopen := hd.open_
    cases hw : x.targetRevalidation with
    | none => rfl
    | some pending =>
      rw [settled, x.waiting_queued hv (by rw [hw]; rfl)] at hopen
      cases hopen
  | query ids rs _ r hqu => cases List.mem_singleton.mp hcall
  | keep => cases hcall
  | interrupt => cases hcall
  | settle => cases hcall
  | reissue => cases hcall
  | move => cases hcall
  | suspend => cases hcall
  | confirm => cases hcall

/-! ## Confirmations -/

/-- **The action is the confirmation of the entry**, for the scope and the session that the entry has, and is applied. -/
def Confirms (C : Core) (s : State) (a : Action) (y : Entry) : Prop :=
  ∃ observed window, a = .confirmQueuedTarget y.id observed window y.scopeId y.sessionId ∧
    ∃ s' effects, reduce C s a = .applied s' effects

theorem confirmQueuedTarget_names {i : EntryId} {o w sc : String} {se : Option String} {effs : List Effect} (hs : s.Sound C)
    (h : confirmQueuedTarget C s i o w sc se = .applied s' effs) :
    ∃ e, s.entry i = some e ∧ sc = e.scopeId ∧ se = e.sessionId ∧ ∀ x ∈ s.entries, x ≠ e → x ∈ s'.entries := by
  unfold confirmQueuedTarget at h
  split at h
  · cases h
  rename_i e he
  split at h
  · cases h
  rename_i pending hp
  dsimp only at h
  split at h
  · cases h
  split at h
  · cases h
  split at h
  · cases h
  split at h
  · cases h
  rename_i htarget
  simp only [ne_eq, Bool.or_eq_true, decide_eq_true_eq, not_or, not_not, decide_not, Bool.not_eq_true',
    decide_eq_false_iff_not] at htarget
  obtain ⟨⟨hprop, hsc⟩, hse⟩ := htarget
  rw [hprop] at hsc hse
  iterate 4
    split at h
    · cases h
  refine ⟨e, he, hsc, hse, ?_⟩
  intro x hx hne
  obtain ⟨-, -, -, es, hes, hperm⟩ := apply_applied hs (fun _ => rfl) h
  obtain ⟨-, hes⟩ := mutate_replace hs.entries.ids hes
  cases hes
  have hid : x.id ≠ e.id := fun heq => hne (eq_of_map_nodup hs.entries.ids hx (State.entry_mem he).1 heq)
  exact hperm.mem_iff.mpr (List.mem_map.mpr ⟨x, hx, if_neg hid⟩)

/-! ## Runs -/

/-- The entry goes on in the state, with its scope and its session, and waits. -/
def StillWaits (s : State) (y : Entry) : Prop :=
  ∃ x ∈ s.entries, x.createdOrder = y.createdOrder ∧ x.scopeId = y.scopeId ∧ x.sessionId = y.sessionId ∧
    x.targetRevalidation.isSome = true

theorem Turn.stillWaits {y' : Entry} {calls : List Call} (h : Turn C s a y y' calls) (hv : y.valid C = true)
    (hw : y.targetRevalidation.isSome = true) (ha : ∀ i o w sc se, a ≠ .confirmQueuedTarget i o w sc se) :
    y'.targetRevalidation.isSome = true := by
  have hq := y.waiting_queued hv hw
  cases h with
  | keep => exact hw
  | dispatch ids budget _ r hel =>
    rw [eligibleFrom_confirmed hel] at hw
    cases hw
  | query ids rs _ r hqu =>
    rw [hq] at hqu
    cases hqu
  | interrupt i r _ hi =>
    rw [hq] at hi
    cases hi
  | settle v recovery _ t acc hi hopen hset =>
    rw [hq] at hopen
    cases hopen
  | retry v r _ hd hv' =>
    have hopen := hd.open_
    rw [hq] at hopen
    cases hopen
  | reissue v c w t _ hd hv' =>
    have hopen := hd.open_
    rw [hq] at hopen
    cases hopen
  | move => rfl
  | suspend p q o n w u l _ t hi ht =>
    rw [hq] at hi
    cases hi
  | confirm i o w sc se _ pending hq' hr ht => exact absurd rfl (ha i o w sc se)

/-- **One action**: the entry still waits, or the action confirms it. -/
theorem Log.step_waits (hk : Kept C l) (hy : y ∈ l.state.entries) (hw : y.targetRevalidation.isSome = true) :
    StillWaits (l.step C a).state y ∨ Confirms C l.state a y := by
  unfold Log.step
  cases hr : reduce C l.state a with
  | rejected reason =>
    refine .inl ⟨y, ?_, rfl, rfl, rfl, hw⟩
    simpa [next, hr] using hy
  | thrown =>
    refine .inl ⟨y, ?_, rfl, rfl, rfl, hw⟩
    simpa [next, hr] using hy
  | applied s' effs =>
    have hnext : (next C l.state a).1 = s' := by rw [next, hr]
    rw [hnext]
    by_cases ha : ∀ i o w sc se, a ≠ .confirmQueuedTarget i o w sc se
    · obtain ⟨g, new, hch⟩ := reduce_changed hk.sound hr
      have hturn := hch.turn y hy
      have hsame := hturn.progress.toSame
      exact .inl ⟨g y, hch.mem.mpr (.inl ⟨y, hy, rfl⟩), hsame.order, hsame.scopeId, hsame.sessionId,
        hturn.stillWaits (hk.sound.entries.valid y hy) hw ha⟩
    · push Not at ha
      obtain ⟨i, o, w, sc, se, rfl⟩ := ha
      obtain ⟨e, he, hsc, hse, hrest⟩ := confirmQueuedTarget_names hk.sound hr
      obtain ⟨-, rfl⟩ := State.entry_mem he
      by_cases hye : y = e
      · subst hye
        exact .inr ⟨o, w, by rw [hsc, hse], s', effs, hr⟩
      · exact .inl ⟨y, hrest y hy hye, rfl, rfl, rfl, hw⟩

/-- **A run of actions**: the entry still waits at its end, or was confirmed on the way. -/
theorem waits_run (actions : List Action) (hk : Kept C l) (hw : StillWaits l.state y) :
    StillWaits (actions.foldl (Log.step C) l).state y ∨
      ∃ before c after, actions = before ++ c :: after ∧
        ∃ x ∈ (before.foldl (Log.step C) l).state.entries, x.createdOrder = y.createdOrder ∧ x.scopeId = y.scopeId ∧
          x.sessionId = y.sessionId ∧ Confirms C (before.foldl (Log.step C) l).state c x := by
  induction actions generalizing l with
  | nil => exact .inl hw
  | cons a rest ih =>
    obtain ⟨x, hx, horder, hscope, hsession, hxw⟩ := hw
    rcases Log.step_waits (a := a) hk hx hxw with ⟨z, hz, hzo, hzs, hzt, hzw⟩ | hconf
    · rcases ih (Log.step_kept hk a) ⟨z, hz, hzo.trans horder, hzs.trans hscope, hzt.trans hsession, hzw⟩ with
        hstill | ⟨before, c, after, rfl, hfound⟩
      · exact .inl hstill
      · exact .inr ⟨a :: before, c, after, rfl, hfound⟩
    · exact .inr ⟨[], a, rest, rfl, x, hx, horder, hscope, hsession, hconf⟩

end Outbox
end TmuxWorktree
