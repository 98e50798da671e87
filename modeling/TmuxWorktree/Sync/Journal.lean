import TmuxWorktree.Lib.Ends
import TmuxWorktree.Sync.Snapshot
/-!
# Journal — what the authorities and the stagings always satisfy

A release that is pending has a plan and a cursor that agree with its authority, and it excludes a staging.  Every row
that an operation writes keeps this, so the checks of the release journal never fail.
-/
namespace TmuxWorktree
namespace Sync

/-- The checks that a release obligation meets on its way. -/
def Fault.ofRelease : Fault → Bool
  | .afterReleaseWithoutObligation | .releaseWithoutPlan | .releaseCrossedNamespace | .releaseOutsideResyncing
  | .releaseCursorDisagrees | .queryWithoutCursor | .queryBelowWatermark | .queryReason | .releaseAlreadyPending
  | .releaseLost | .missingAfterRelease | .unknownReleaseReason | .missingResume | .missingCursor | .invalidResult => true
  | _ => false

/-- **The journal of an authority is in order.** -/
structure Authority.Journal (a : Authority) : Prop where
  paired : a.afterReleasePhase.isSome = a.pendingRelease.isSome
  names : ∀ o, a.pendingRelease = some o → o.namespace = a.namespace
  resyncing : a.pendingRelease.isSome → a.phase = .resyncing
  cursor : ∀ o, a.pendingRelease = some o → o.durableCursorEventSeq = a.cursorEventSeq
  query : a.afterReleasePhase = some .queryPendingCommands → ∃ c, a.cursorEventSeq = some c ∧ a.requiredThroughEventSeq ≤ c
  reason : ∀ o, a.pendingRelease = some o → a.afterReleasePhase = some .queryPendingCommands →
    o.reason = .completed ∨ o.reason = .snapshotRestartRequired

namespace Authority

variable {a : Authority}

theorem Journal.plan_none (h : a.Journal) (hp : a.pendingRelease = none) : a.afterReleasePhase = none := by
  have := h.paired
  rw [hp] at this
  exact Option.not_isSome_iff_eq_none.mp (by simpa using this)

theorem Journal.plan_some (h : a.Journal) {o : Obligation} (hp : a.pendingRelease = some o) :
    ∃ plan, a.afterReleasePhase = some plan := by
  have := h.paired
  rw [hp] at this
  exact Option.isSome_iff_exists.mp this

theorem Journal.validated (h : a.Journal) : a.validatedPendingRelease = .ok a.pendingRelease := by
  unfold validatedPendingRelease
  cases hp : a.pendingRelease with
  | none =>
    rw [h.plan_none hp]
    rfl
  | some o =>
    obtain ⟨plan, hplan⟩ := h.plan_some hp
    have hphase : a.phase = .resyncing := h.resyncing (by rw [hp]; rfl)
    simp only [hplan, present, h.names o hp, hphase, h.cursor o hp]
    cases plan with
    | restartSnapshot => rfl
    | queryPendingCommands =>
      obtain ⟨c, hc, hle⟩ := h.query hplan
      have hreason : (decide (o.reason = .completed) || decide (o.reason = .snapshotRestartRequired)) = true := by
        rcases h.reason o hp hplan with hr | hr <;> rw [hr] <;> decide
      simp [hc, hle, hreason, check, Bind.bind, Except.bind, Pure.pure, Except.pure]

theorem Journal.idle (hp : a.pendingRelease = none) (ha : a.afterReleasePhase = none) : a.Journal where
  paired := by rw [hp, ha]; rfl
  names := by simp [hp]
  resyncing := by simp [hp]
  cursor := by simp [hp]
  query := by simp [ha]
  reason := by simp [hp]

theorem Journal.restart {o : Obligation} (hp : a.pendingRelease = some o) (ha : a.afterReleasePhase = some .restartSnapshot)
    (hn : o.namespace = a.namespace) (hphase : a.phase = .resyncing) (hc : o.durableCursorEventSeq = a.cursorEventSeq) :
    a.Journal where
  paired := by rw [hp, ha]; rfl
  names := by
    intro o' ho
    rw [hp] at ho
    obtain rfl := Option.some.inj ho
    exact hn
  resyncing := fun _ => hphase
  cursor := by
    intro o' ho
    rw [hp] at ho
    obtain rfl := Option.some.inj ho
    exact hc
  query := by simp [ha]
  reason := by simp [ha]

theorem Journal.queried {o : Obligation} {c : Nat} (hp : a.pendingRelease = some o)
    (ha : a.afterReleasePhase = some .queryPendingCommands)
    (hn : o.namespace = a.namespace) (hphase : a.phase = .resyncing) (hc : o.durableCursorEventSeq = a.cursorEventSeq)
    (hcursor : a.cursorEventSeq = some c) (hle : a.requiredThroughEventSeq ≤ c)
    (hr : o.reason = .completed ∨ o.reason = .snapshotRestartRequired) : a.Journal where
  paired := by rw [hp, ha]; rfl
  names := by
    intro o' ho
    rw [hp] at ho
    obtain rfl := Option.some.inj ho
    exact hn
  resyncing := fun _ => hphase
  cursor := by
    intro o' ho
    rw [hp] at ho
    obtain rfl := Option.some.inj ho
    exact hc
  query := fun _ => ⟨c, hcursor, hle⟩
  reason := by
    intro o' ho _
    rw [hp] at ho
    obtain rfl := Option.some.inj ho
    exact hr

end Authority

/-- **The store is in order.** -/
structure Store.Sound (s : Store) : Prop where
  keys : (s.authorities.map Authority.namespace).Nodup
  journal : ∀ a ∈ s.authorities, a.Journal
  /-- One authority per connect identity. -/
  single : ∀ a ∈ s.authorities, ∀ b ∈ s.authorities, a.namespace.connectIdentity = b.namespace.connectIdentity → a = b
  /-- A pending release excludes a staging, and so does a live cache. -/
  unstaged : ∀ a ∈ s.authorities, a.pendingRelease.isSome ∨ a.phase = .live → s.snapshot a.namespace = none
  seated : ∀ a ∈ s.authorities, a.phase = .live → a.cursorEventSeq.isSome
  /-- Only an authority stages. -/
  hosted : ∀ n, (s.snapshot n).isSome → (s.authority n).isSome
  addressed : ∀ n, ∀ e ∈ (s.tables n).events, e.namespace = n

namespace Store

variable {s : Store} {n : Namespace} {a : Authority}

theorem mem_of_authority (h : s.authority n = some a) : a ∈ s.authorities := Keyed.mem_of_find h

theorem namespace_of_authority (h : s.authority n = some a) : a.namespace = n := Keyed.key_of_find h

theorem Sound.journal_of (hs : s.Sound) (h : s.authority n = some a) : a.Journal := hs.journal a (mem_of_authority h)

theorem Sound.authority_of_mem (hs : s.Sound) (h : a ∈ s.authorities) : s.authority a.namespace = some a :=
  Keyed.find_of_mem hs.keys h

theorem sound_empty : Store.empty.Sound where
  keys := List.nodup_nil
  journal := by simp [empty]
  single := by simp [empty]
  unstaged := by simp [empty]
  seated := by simp [empty]
  hosted := by simp [empty, snapshot]
  addressed := by simp [empty]

end Store
end Sync
end TmuxWorktree
