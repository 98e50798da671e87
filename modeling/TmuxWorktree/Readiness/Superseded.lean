import TmuxWorktree.Readiness.Overlap
/-!
# Superseded — an `activate` that a later one overtook

It does no harm if it goes on after its first `await`.  After its second it consumes its receipt first and asks whether it
is still current only then; so it does harm unless the source is withdrawn already, and either the receipt is good or no
attempt is current.
-/
namespace TmuxWorktree
namespace Readiness

def World.superseded (w : World) (a : Nat) : Prop := ∃ b, a < b ∧ (w.calls b).isSome

/-- **What a superseded call leaves alone**: the source, the later attempts, and the record that one of them made
active. -/
structure Harmless (w w' : World) (a : Nat) : Prop where
  source : w'.closes = w.closes ∧ w'.sourceWithdrawn = w.sourceWithdrawn
  attempts : ∀ b, a < b → w.isCurrentAttempt b = true → w'.isCurrentAttempt b = true
  records : ∀ b, a < b → w.active = some b → w'.active = some b

/-- **The condition**: a call that is past its second `await` finds the source withdrawn, and a good receipt or no current
attempt. -/
def Untroubled (w : World) (a : Nat) : Prop :=
  ∀ receipt outcome, w.calls a = some (.seeded receipt outcome) →
    w.sourceWithdrawn = true ∧ (w.redeemable receipt = true ∨ ∀ b, w.isCurrentAttempt b = false)

theorem Sound.not_current {w : World} (h : Sound w) {a : Nat} (hs : w.superseded a) : w.currentAttempt ≠ some a := by
  obtain ⟨b, hab, hb⟩ := hs
  obtain ⟨p, hp⟩ := Option.isSome_iff_exists.mp hb
  intro hcurrent
  have hepoch : a = w.mutationEpoch := h.orderly.current a hcurrent
  have hle : b ≤ w.mutationEpoch := h.orderly.calls b p hp
  omega

theorem isCurrentAttempt_iff (w : World) (b : Nat) :
    w.isCurrentAttempt b = true ↔ w.disposed = false ∧ w.currentAttempt = some b ∧ b = w.mutationEpoch := by
  simp [World.isCurrentAttempt, and_assoc]

theorem Sound.isCurrentAttempt_of_superseded {w : World} (h : Sound w) {a : Nat} (hs : w.superseded a) :
    w.isCurrentAttempt a = false := by
  by_contra hcurrent
  exact h.not_current hs ((isCurrentAttempt_iff w a).mp (by simpa using hcurrent)).2.1

theorem finishAttempt_harmless {w : World} {a : Nat} (hne : w.currentAttempt ≠ some a) :
    w.finishAttempt a = w.setCall a (.settled (some false)) := by
  unfold World.finishAttempt
  rw [if_neg hne]

theorem finishUnless_harmless {w : World} {a : Nat} (hne : w.currentAttempt ≠ some a) (failed : Bool) :
    ∃ p, w.finishUnless failed a = w.setCall a p := by
  unfold World.finishUnless
  split
  · exact ⟨_, rfl⟩
  · exact ⟨_, finishAttempt_harmless hne⟩

theorem withdrawSource_kept {w : World} : w.withdrawSource.closes = w.closes ↔ w.sourceWithdrawn = true := by
  unfold World.withdrawSource
  split
  next h => simp [h]
  next h => simp [h]

theorem withdrawSource_of_withdrawn {w : World} (h : w.sourceWithdrawn = true) : w.withdrawSource = w := by
  unfold World.withdrawSource
  rw [if_pos h]

theorem retireRecord_kept {w : World} {a lease : Nat} (h : Fading w a lease) :
    (w.retireRecord a).closes = w.withdrawSource.closes ∧ (w.retireRecord a).sourceWithdrawn = true := by
  obtain ⟨r, hr, hlease, hretired, hreleased⟩ := h.record
  obtain ⟨r', -, -, hw⟩ := retireRecord_eq hr hlease hretired hreleased
  rw [hw]
  unfold World.withdrawSource
  split <;> split <;> simp_all [World.setRecord]

theorem withdrawSource_withdrawn (w : World) : w.withdrawSource.sourceWithdrawn = true := by
  unfold World.withdrawSource
  split
  next h => exact h
  next => rfl

theorem Lamp.withdraw_kept {w : World} (h : Lamp w) :
    w.withdraw.closes = w.withdrawSource.closes ∧ w.withdraw.sourceWithdrawn = true := by
  unfold World.withdraw
  rcases h with hidle | ⟨e, lease, hlit⟩
  · rw [hidle.active]
    exact ⟨rfl, withdrawSource_withdrawn w⟩
  · rw [hlit.active]
    obtain ⟨hcloses, hwithdrawn⟩ := retireRecord_kept hlit.fading.withdrawSource
    refine ⟨?_, hwithdrawn⟩
    rw [hcloses, withdrawSource_of_withdrawn (withdrawSource_withdrawn w)]

theorem isCurrentAttempt_congr {w w' : World} (h : w'.books = w.books) (b : Nat) :
    w'.isCurrentAttempt b = w.isCurrentAttempt b := by
  have hdisposed : w'.disposed = w.disposed := congrArg Books.disposed h
  have hcurrent : w'.currentAttempt = w.currentAttempt := congrArg Books.currentAttempt h
  have hepoch : w'.mutationEpoch = w.mutationEpoch := congrArg Books.mutationEpoch h
  unfold World.isCurrentAttempt
  rw [hdisposed, hcurrent, hepoch]

theorem Sound.current_later {w : World} (h : Sound w) {a b : Nat} (hs : w.superseded a) (hb : w.isCurrentAttempt b = true) :
    a < b := by
  obtain ⟨c, hac, hc⟩ := hs
  obtain ⟨p, hp⟩ := Option.isSome_iff_exists.mp hc
  have hepoch := ((isCurrentAttempt_iff w b).mp hb).2.2
  have hle : c ≤ w.mutationEpoch := h.orderly.calls c p hp
  omega

/-- **A superseded call with a good receipt**: it retires its own record, and the source with it. -/
theorem Sound.redeemed_harmless_iff {w : World} (h : Sound w) {a receipt : Nat} (hr : w.redeemable receipt = true) (p : Progress) :
    Harmless w (((w.leased a receipt).retireRecord a).setCall a p) a ↔ w.sourceWithdrawn = true := by
  have hidle := h.lamp.idle_of_redeemable hr
  obtain ⟨hcloses, hwithdrawn⟩ := retireRecord_kept (hidle.leased a receipt)
  have hsame : (w.leased a receipt).withdrawSource.closes = w.withdrawSource.closes := by
    unfold World.withdrawSource
    rw [show (w.leased a receipt).sourceWithdrawn = w.sourceWithdrawn from rfl]
    split <;> rfl
  constructor
  · intro hharmless
    have hkept : ((w.leased a receipt).retireRecord a).closes = w.closes := hharmless.source.1
    rw [hcloses, hsame] at hkept
    exact withdrawSource_kept.mp hkept
  · intro hsource
    refine ⟨⟨?_, ?_⟩, fun b _ hb => ?_, fun b _ hb => ?_⟩
    · show ((w.leased a receipt).retireRecord a).closes = w.closes
      rw [hcloses, hsame, withdrawSource_of_withdrawn hsource]
    · show ((w.leased a receipt).retireRecord a).sourceWithdrawn = w.sourceWithdrawn
      rw [hwithdrawn, hsource]
    · have hbooks := retireRecord_books (w.leased a receipt) a
      rw [show (((w.leased a receipt).retireRecord a).setCall a p).isCurrentAttempt b =
        ((w.leased a receipt).retireRecord a).isCurrentAttempt b from rfl, isCurrentAttempt_congr hbooks]
      exact hb
    · rw [hidle.active] at hb
      cases hb

/-- **A superseded call whose receipt is gone** fails closed over whatever is there. -/
theorem Sound.failed_harmless_iff {w : World} (h : Sound w) {a : Nat} (hs : w.superseded a) (p : Progress) :
    Harmless w (w.failClosed.1.setCall a p) a ↔ w.sourceWithdrawn = true ∧ ∀ b, w.isCurrentAttempt b = false := by
  have hinvalid := h.lamp.invalidateAttempt
  obtain ⟨hcloses, hwithdrawn⟩ := hinvalid.withdraw_kept
  have hsame : w.invalidateAttempt.withdrawSource.closes = w.withdrawSource.closes := by
    unfold World.withdrawSource
    rw [show w.invalidateAttempt.sourceWithdrawn = w.sourceWithdrawn from rfl]
    split <;> rfl
  rw [failClosed_eq]
  constructor
  · intro hharmless
    have hkept : w.invalidateAttempt.withdraw.closes = w.closes := hharmless.source.1
    rw [hcloses, hsame] at hkept
    refine ⟨withdrawSource_kept.mp hkept, fun b => ?_⟩
    by_contra hb
    have hcurrent : w.isCurrentAttempt b = true := by simpa using hb
    have hgone : (w.invalidateAttempt.withdraw.setCall a p).isCurrentAttempt b = true :=
      hharmless.attempts b (h.current_later hs hcurrent) hcurrent
    rw [show (w.invalidateAttempt.withdraw.setCall a p).isCurrentAttempt b =
      w.invalidateAttempt.withdraw.isCurrentAttempt b from rfl, isCurrentAttempt_congr (withdraw_books _)] at hgone
    simp [World.isCurrentAttempt, World.invalidateAttempt] at hgone
  · rintro ⟨hsource, hnone⟩
    refine ⟨⟨?_, ?_⟩, fun b _ hb => ?_, fun b _ hb => ?_⟩
    · show w.invalidateAttempt.withdraw.closes = w.closes
      rw [hcloses, hsame, withdrawSource_of_withdrawn hsource]
    · show w.invalidateAttempt.withdraw.sourceWithdrawn = w.sourceWithdrawn
      rw [hwithdrawn, hsource]
    · rw [hnone b] at hb
      cases hb
    · rcases h.lamp with hidle | ⟨e, lease, hlit⟩
      · rw [hidle.active] at hb
        cases hb
      · rw [hlit.shown] at hsource
        cases hsource

theorem verify_same (w : World) (outcome : Outcome) :
    (w.verify outcome).closes = w.closes ∧ (w.verify outcome).sourceWithdrawn = w.sourceWithdrawn ∧
      (w.verify outcome).active = w.active ∧ (w.verify outcome).books = w.books := by
  cases outcome <;> exact ⟨rfl, rfl, rfl, rfl⟩

theorem Harmless.of_eq {w v w' : World} {a : Nat} (hcloses : v.closes = w.closes)
    (hwithdrawn : v.sourceWithdrawn = w.sourceWithdrawn) (hactive : v.active = w.active)
    (hbooks : v.books = w.books) : Harmless v w' a ↔ Harmless w w' a := by
  constructor
  · intro h
    refine ⟨⟨by rw [h.source.1, hcloses], by rw [h.source.2, hwithdrawn]⟩, fun b hab hb => h.attempts b hab ?_, fun b hab hb =>
      h.records b hab (by rw [hactive, hb])⟩
    rw [isCurrentAttempt_congr hbooks, hb]
  · intro h
    refine ⟨⟨by rw [h.source.1, hcloses], by rw [h.source.2, hwithdrawn]⟩, fun b hab hb => h.attempts b hab ?_, fun b hab hb =>
      h.records b hab (by rw [← hactive, hb])⟩
    rw [← isCurrentAttempt_congr hbooks, hb]

/-- **A superseded call does no harm exactly under the condition.** -/
theorem Sound.harmless_iff {w : World} (h : Sound w) {a : Nat} (hs : w.superseded a) (answer : Option Bool) :
    Harmless w (w.resume a answer) a ↔ Untroubled w a := by
  have hne := h.not_current hs
  unfold World.resume
  split
  next receipt outcome hcall =>
    unfold World.resumeIssued
    rw [h.isCurrentAttempt_of_superseded hs]
    simp only [Bool.not_false, if_true]
    rw [finishAttempt_harmless hne]
    refine ⟨fun _ r o hro => ?_, fun _ => ⟨⟨rfl, rfl⟩, fun _ _ hb => hb, fun _ _ hb => hb⟩⟩
    rw [hcall] at hro
    cases hro
  next receipt outcome hcall =>
    have hv := h.verify outcome
    obtain ⟨hcloses, hwithdrawn, hactive, hbooks⟩ := verify_same w outcome
    have hsv : (w.verify outcome).superseded a := by
      obtain ⟨b, hab, hb⟩ := hs
      exact ⟨b, hab, by rw [show (w.verify outcome).calls = w.calls from congrArg Books.calls hbooks]; exact hb⟩
    have hnev := hv.not_current hsv
    have hredeem : (w.verify outcome).redeemable receipt = w.redeemable receipt := by
      cases outcome <;> rfl
    have hcurrent (b : Nat) : (w.verify outcome).isCurrentAttempt b = w.isCurrentAttempt b := isCurrentAttempt_congr hbooks b
    have hcondition : Untroubled w a ↔
        w.sourceWithdrawn = true ∧ (w.redeemable receipt = true ∨ ∀ b, w.isCurrentAttempt b = false) := by
      refine ⟨fun hu => hu receipt outcome hcall, fun hu r o hro => ?_⟩
      rw [hcall] at hro
      cases hro
      exact hu
    rw [hcondition, resumeSeeded_eq]
    dsimp only
    by_cases hr : w.redeemable receipt = true
    · rw [hredeem, if_pos hr, show ((w.verify outcome).leased a receipt).isCurrentAttempt a = (w.verify outcome).isCurrentAttempt a
        from rfl, hv.isCurrentAttempt_of_superseded hsv]
      simp only [Bool.not_false, Bool.true_or, if_true]
      have hnel : ((w.verify outcome).leased a receipt |>.retireRecord a).currentAttempt ≠ some a := by
        rw [show ((w.verify outcome).leased a receipt |>.retireRecord a).currentAttempt = (w.verify outcome).currentAttempt from
          congrArg Books.currentAttempt (retireRecord_books ((w.verify outcome).leased a receipt) a)]
        exact hnev
      obtain ⟨p, hp⟩ := finishUnless_harmless hnel (((w.verify outcome).leased a receipt |>.retireRecord a).cleanupFailed a)
      rw [hp, ← Harmless.of_eq hcloses hwithdrawn hactive hbooks, hv.redeemed_harmless_iff (by rw [hredeem, hr]), hwithdrawn]
      simp [hr]
    · rw [hredeem, if_neg hr]
      have hf := (h.free hcall (by simp)).verify outcome
      have hset : Sound ((w.verify outcome).setRecord a ⟨none, false, false, false, false, false⟩) :=
        ⟨hv.lamp.setRecord hf.dark rfl, hv.orderly, hv.settled⟩
      have hnef : ((w.verify outcome).setRecord a ⟨none, false, false, false, false, false⟩).failClosed.1.currentAttempt ≠
          some a := by
        intro hcontra
        rw [show ((w.verify outcome).setRecord a ⟨none, false, false, false, false, false⟩).failClosed.1.currentAttempt = none
          from congrArg Books.currentAttempt (failClosed_books _)] at hcontra
        cases hcontra
      obtain ⟨p, hp⟩ := finishUnless_harmless hnef
        ((w.verify outcome).setRecord a ⟨none, false, false, false, false, false⟩).failClosed.2
      rw [hp, ← Harmless.of_eq (v := (w.verify outcome).setRecord a ⟨none, false, false, false, false, false⟩) hcloses
        hwithdrawn hactive hbooks, hset.failed_harmless_iff hsv]
      have hcurrent' (b : Nat) : ((w.verify outcome).setRecord a ⟨none, false, false, false, false, false⟩).isCurrentAttempt b =
          w.isCurrentAttempt b := hcurrent b
      rw [show ((w.verify outcome).setRecord a ⟨none, false, false, false, false, false⟩).sourceWithdrawn = w.sourceWithdrawn
        from hwithdrawn]
      simp [hr, hcurrent']
  next hissued hseeded =>
    exact ⟨fun _ r o hro => absurd hro (hseeded r o), fun _ => ⟨⟨rfl, rfl⟩, fun _ _ hb => hb, fun _ _ hb => hb⟩⟩

/-! ## Every run -/

/-- **Overlapping activations.**  In every run one record at most is active, and the source is ready only under its live
lease; and the superseded calls of the run do no harm exactly if they meet the condition. -/
theorem overlapping_activations (steps : List Step) :
    (∀ e e' r r', (run steps).records e = some r → (run steps).records e' = some r' → r.active = true → r'.active = true →
      e = e') ∧
    ((run steps).published = true → ∃ e r lease, (run steps).active = some e ∧ (run steps).records e = some r ∧
      r.active = true ∧ r.lease = some lease ∧ (lease, e) ∈ (run steps).leases) ∧
    ((∀ before a answer, before ++ [.resume a answer] <+: steps → (run before).superseded a →
        Harmless (run before) (run (before ++ [.resume a answer])) a) ↔
      ∀ before a answer, before ++ [.resume a answer] <+: steps → (run before).superseded a → Untroubled (run before) a) := by
  have hstep (before : List Step) (a : Nat) (answer : Option Bool) :
      run (before ++ [.resume a answer]) = (run before).resume a answer := by
    unfold run
    rw [List.foldl_append]
    rfl
  refine ⟨fun e e' r r' hr hr' hlit hlit' => ?_, fun hpublished => ?_, ?_⟩
  · rcases (sound_run steps).lamp with hidle | ⟨e₀, lease, h⟩
    · rw [hidle.records e r hr] at hlit
      cases hlit
    · rw [h.records e r hr hlit, h.records e' r' hr' hlit']
  · rcases (sound_run steps).lamp with hidle | ⟨e, lease, h⟩
    · rw [hidle.published] at hpublished
      cases hpublished
    · obtain ⟨r, hr, hlease, -, -, hlit⟩ := h.record
      exact ⟨e, r, lease, h.active, hr, hlit, hlease, by rw [h.leases]; exact List.mem_singleton.mpr rfl⟩
  · constructor
    · intro h before a answer hprefix hs
      have hharmless := h before a answer hprefix hs
      rw [hstep] at hharmless
      exact ((sound_run before).harmless_iff hs answer).mp hharmless
    · intro h before a answer hprefix hs
      rw [hstep]
      exact ((sound_run before).harmless_iff hs answer).mpr (h before a answer hprefix hs)

/-- A second `activate` is called while the first one reads the store, and this read fails. -/
def overtakenSteps : List Step :=
  [.activate, .serve (.done true), .resume 1 none, .activate, .serve .failed]

/-- **The first call withdraws the source and ends the second one's attempt.** -/
theorem overtaken_harmed :
    (run overtakenSteps).superseded 1 ∧ (run overtakenSteps).isCurrentAttempt 2 = true ∧
      ¬ Harmless (run overtakenSteps) (run (overtakenSteps ++ [.resume 1 none])) 1 ∧
      (run (overtakenSteps ++ [.resume 1 none])).isCurrentAttempt 2 = false ∧
      (run (overtakenSteps ++ [.resume 1 none])).closes = (run overtakenSteps).closes + 1 := by
  have hclosed : (run (overtakenSteps ++ [.resume 1 none])).closes = 1 ∧ (run overtakenSteps).closes = 0 := by decide
  refine ⟨⟨2, by decide, by decide⟩, by decide, fun h => ?_, by decide, by rw [hclosed.1, hclosed.2]⟩
  have hkept := h.source.1
  rw [hclosed.1, hclosed.2] at hkept
  cases hkept

end Readiness
end TmuxWorktree
