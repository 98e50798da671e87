import TmuxWorktree.Outbox.Sound
/-!
# Provenance — the targets that an entry was confirmed for, and the one it waits for
-/
namespace TmuxWorktree
namespace Outbox

variable {C : Core} {e : Entry} {pending : Revalidation}

/-- The target that was confirmed last, the initial one before any confirmation. -/
def Provenance.lastConfirmed (p : Provenance) : Target :=
  (p.confirmedHistory.getLast?.map ConfirmedStep.confirmedTarget).getD p.initialTarget

theorem historyTail_eq : ∀ {i : Nat} {t tail : Target} {steps : List ConfirmedStep},
    historyTail C e i t steps = some tail → tail = (steps.getLast?.map ConfirmedStep.confirmedTarget).getD t
  | _, _, _, [], h => by
    cases h
    rfl
  | i, t, tail, step :: rest, h => by
    unfold historyTail at h
    split at h
    · rw [historyTail_eq h, List.getLast?_cons]
      cases rest.getLast? <;> rfl
    · cases h

/-- **An entry is a chain of targets**, from the initial one to the one confirmed last; what it is sent to is the last, or
the one it waits for. -/
structure Entry.Chained (C : Core) (e : Entry) : Prop where
  initial : e.targetProvenance.initialTarget.matchesFingerprint C e = true
  history : historyTail C e 0 e.targetProvenance.initialTarget e.targetProvenance.confirmedHistory =
    some e.targetProvenance.lastConfirmed
  current : e.targetRevalidation = none → e.target = e.targetProvenance.lastConfirmed
  waiting : ∀ pending, e.targetRevalidation = some pending →
    pending.proposedTarget = e.target ∧ pending.sourceConfirmedTarget = e.targetProvenance.lastConfirmed ∧
      pending.confirmationOrdinal = e.targetProvenance.confirmedHistory.length + 1 ∧
      e.target.matchesFingerprint C e = true ∧ e.target ≠ e.targetProvenance.lastConfirmed ∧
      e.target.scopeId = e.targetProvenance.lastConfirmed.scopeId ∧
      e.target.sessionId = e.targetProvenance.lastConfirmed.sessionId

theorem isValidFor_iff : e.targetProvenance.isValidFor C e = true ↔ e.Chained C := by
  unfold Provenance.isValidFor
  constructor
  · intro h
    rw [Bool.and_eq_true] at h
    obtain ⟨hinit, h⟩ := h
    split at h
    · cases h
    rename_i tail htail
    have hlast : tail = e.targetProvenance.lastConfirmed := historyTail_eq htail
    subst hlast
    refine ⟨hinit, htail, ?_, ?_⟩
    · intro hnone
      rw [hnone] at h
      exact of_decide_eq_true h
    · intro pending hp
      rw [hp] at h
      simp only [Bool.and_eq_true, decide_eq_true_eq] at h
      obtain ⟨⟨⟨⟨⟨⟨h₁, h₂⟩, h₃⟩, h₄⟩, h₅⟩, h₆⟩, h₇⟩ := h
      exact ⟨h₁, h₂, h₃, h₄, h₅, h₆, h₇⟩
  · intro h
    rw [h.history, h.initial, Bool.true_and]
    dsimp only
    cases hp : e.targetRevalidation with
    | none => exact decide_eq_true (h.current hp)
    | some pending =>
      obtain ⟨h₁, h₂, h₃, h₄, h₅, h₆, h₇⟩ := h.waiting pending hp
      simp only [Bool.and_eq_true, decide_eq_true_eq]
      exact ⟨⟨⟨⟨⟨⟨h₁, h₂⟩, h₃⟩, h₄⟩, h₅⟩, h₆⟩, h₇⟩

/-! ## Valid entries -/

theorem Entry.valid_iff : e.valid C = true ↔
    e.arguments.operation = e.operation ∧
      e.requestFingerprint = C.fingerprint e.operation e.dedupeWindowId e.expectedHostEpoch e.hostId e.scopeId e.sessionId
        e.arguments ∧
      (e.attempts.map Attempt.requestId).Nodup ∧ e.attempts.map Attempt.ordinal = List.range' 1 e.attempts.length ∧
      e.stateValid = true ∧ (e.targetRevalidation.isSome = true → e.state = .queued) ∧
      (e.reissuedFromCommandId.isNone = e.reissueLineageProof.isNone) ∧ e.Chained C := by
  unfold Entry.valid
  simp only [Bool.and_eq_true, decide_eq_true_eq, isValidFor_iff, Bool.or_eq_true]
  constructor
  · rintro ⟨⟨⟨⟨⟨⟨⟨⟨h₁, h₂⟩, h₃⟩, h₄⟩, h₅⟩, h₆⟩, -⟩, h₇⟩, h₈⟩
    refine ⟨h₁, h₂, h₃, h₄, h₅, ?_, h₇, h₈⟩
    intro hsome
    rcases h₆ with hnone | hq
    · rw [Option.isNone_iff_eq_none] at hnone
      simp [hnone] at hsome
    · exact hq
  · rintro ⟨h₁, h₂, h₃, h₄, h₅, h₆, h₇, h₈⟩
    refine ⟨⟨⟨⟨⟨⟨⟨⟨h₁, h₂⟩, h₃⟩, h₄⟩, h₅⟩, ?_⟩, ?_⟩, h₇⟩, h₈⟩
    · cases hp : e.targetRevalidation with
      | none => exact .inl rfl
      | some r => exact .inr (h₆ (by rw [hp]; rfl))
    · cases hp : e.targetRevalidation with
      | none => rfl
      | some r => exact decide_eq_true (h₈.waiting r hp).1

theorem Entry.valid_chained (h : e.valid C = true) : e.Chained C := (Entry.valid_iff.mp h).2.2.2.2.2.2.2

theorem Entry.valid_shape (h : e.valid C = true) : targetShape e.operation e.sessionId = true := by
  have hc := e.valid_chained h
  cases hp : e.targetRevalidation with
  | none =>
    have hs := (e.valid_provenance h).2
    have hm := hc.initial
    unfold Target.matchesFingerprint at hm
    rw [Bool.and_eq_true, ← hs] at hm
    exact hm.1
  | some r =>
    have hm := (hc.waiting r hp).2.2.2.1
    unfold Target.matchesFingerprint at hm
    rw [Bool.and_eq_true] at hm
    exact hm.1

end Outbox
end TmuxWorktree
