import TmuxWorktree.Sync.Sequence
/-!
# Watermark — an event that waits is at or below the watermark

An event raises the watermark of its authority before it waits, and nothing lowers the watermark while the event waits.
-/
namespace TmuxWorktree
namespace Sync

variable {C : Core} {s s' : Store} {n : Namespace} {a a' : Authority} {t' : Tables} {op : Op}

def Watched (a : Authority) (t : Tables) : Prop := ∀ e ∈ t.events, e.eventSeq ≤ a.requiredThroughEventSeq

theorem watched_nil {t : Tables} (h : t.events = []) : Watched a t := by
  intro e he
  rw [h] at he
  cases he

theorem Moved.watched (hw : Watched a (s.tables n)) (hmoved : Moved C s n a (s.tables n) op a' t') : Watched a' t' := by
  cases hmoved with
  | kept held pending phase required staging events =>
    rcases events with hsame | hnone | ⟨e, -, -, hmore, -, hle⟩
    · intro e he
      rw [hsame] at he
      exact Nat.le_trans (hw e he) required
    · exact watched_nil hnone
    · intro e' he'
      rw [hmore] at he'
      rcases List.mem_append.mp he' with he' | he'
      · exact Nat.le_trans (hw e' he') required
      · rw [List.mem_singleton.mp he']
        exact hle
  | released o held idle pending names required cleared => exact watched_nil cleared.2.2
  | dropped cache idle pending gone phase required => exact watched_nil rfl
  | matched cache idle pending unstaged phase required reached => exact watched_nil rfl
  | staged place idle phase taken => exact hw
  | @applied e _ _ place idle phase advances =>
    obtain ⟨f, -, -, ha'⟩ := advances.effect
    intro e' he'
    rw [advances.keeps.2.2] at he'
    rw [ha']
    exact Nat.le_trans (hw e' he') (Nat.le_max_left _ e.eventSeq)
  | committed idle staging sound written advanced names => exact watched_nil rfl
  | completed pending planned => exact hw

/-- Every authority of the store is above the events that wait for it. -/
def Store.Watched (s : Store) : Prop := ∀ n a, s.authority n = some a → Sync.Watched a (s.tables n)

/-- A turn keeps of every authority what its moves keep, and what a new one starts with. -/
theorem Turn.every {I : Authority → Tables → Prop} (hs : ∀ m b, s.authority m = some b → I b (s.tables m))
    (ht : Turn C s op s') (hmoved : ∀ m b b' t', s.authority m = some b → s'.tables m = t' → b'.Journal →
      Moved C s m b (s.tables m) op b' t' → I b' t') (hfounded : ∀ b, b.phase = .resyncing → I b {}) :
    ∀ m b, s'.authority m = some b → I b (s'.tables m) := by
  intro n b hb
  cases ht with
  | stays => exact hs n b hb
  | @moved _ _ m a a' t' before place journal moved =>
    by_cases hm : n = m
    · subst hm
      obtain rfl := Option.some.inj (hb.symm.trans place.here)
      rw [place.rows]
      exact hmoved n a b t' before place.rows journal moved
    · rw [(place.elsewhere n hm).1] at hb
      rw [(place.elsewhere n hm).2]
      exact hs n b hb
  | @founded _ h _ a' journal founded =>
    by_cases hm : n = h.namespace
    · subst hm
      obtain rfl := Option.some.inj (hb.symm.trans founded.here)
      rw [founded.rows]
      exact hfounded b founded.phase
    · by_cases hi : n.connectIdentity = h.namespace.connectIdentity
      · rw [(founded.others n hm hi).1] at hb
        cases hb
      · rw [(founded.elsewhere n hi).1] at hb
        rw [(founded.elsewhere n hi).2]
        exact hs n b hb
  | cleared profileId =>
    rw [authority_cleared] at hb
    rw [tables_cleared]
    split at hb
    · cases hb
    · rename_i hm
      rw [if_neg hm]
      exact hs n b hb

theorem Turn.watched (hs : s.Watched) (ht : Turn C s op s') : s'.Watched :=
  ht.every hs (fun m b _ _ hb _ _ hmoved => hmoved.watched (hs m b hb)) fun _ _ => watched_nil rfl

/-- **In every run the watermark covers what waits.** -/
theorem run_watched (C : Core) (ops : List Op) : (run C ops).Watched := by
  have hboth : (run C ops).Sound ∧ (run C ops).Watched := by
    have hempty : Store.empty.Watched := fun n a ha => by cases ha
    refine run_induction (I := fun s => s.Sound ∧ s.Watched) ⟨Store.sound_empty, hempty⟩
      (fun s op hs => ⟨after_sound hs.1 op, ?_⟩) ops
    unfold after
    split
    · rename_i h
      exact Turn.watched hs.2 ((step_turns hs.1 op).value h)
    · exact hs.2
  exact hboth.2

end Sync
end TmuxWorktree
