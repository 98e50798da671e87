import TmuxWorktree.Terminal.Paths
/-!
# Clock — questions are numbered in the order they are put

Every program of the authority only moves the tick forward.  So the questions of a run are those below its last tick,
and what is assumed of their answers need not be assumed of others: that the `randomUUID`s of a run are distinct, say.
-/
namespace TmuxWorktree
namespace Terminal

open Effect

def Later (w w' : World) : Prop := w.tick ≤ w'.tick

instance : Std.Refl Later := ⟨fun _ => le_rfl⟩

instance : IsTrans World Later := ⟨fun _ _ _ => le_trans⟩

variable (env : Env)

-- the instance of a section is a tree over its twenty binds
set_option synthInstance.maxSize 200000

theorem interleave_tick (ttlMs : Int) : ∀ (calls : List (Sync × Int)) (w : World), (w.interleave ttlMs calls).tick = w.tick
  | [], _ => rfl
  | _ :: rest, _ => interleave_tick ttlMs rest _

instance : Ambient Later where
  tick _ := Nat.le_succ _
  mem _ _ := le_rfl
  persist _ _ := le_rfl
  log _ _ := le_rfl
  owners _ _ := le_rfl

instance : Suspends env Later where
  suspend w := (Nat.le_succ _).trans (interleave_tick _ _ { w with tick := w.tick + 1 }).ge

instance : Prunes Later := ⟨fun _ _ _ => le_rfl⟩

instance (input : ExactInput) (externalEpoch : Nat) (id paneIdentity : String) :
    Along Later (reserveExact env input externalEpoch id paneIdentity) := by
  have hl : ∀ f, Along Later (modifyLocal f) := fun f => Along.modify (fun _ => le_rfl)
  unfold reserveExact; dsimp only; infer_instance

instance (id : String) (record : ClaimRecord) (output : Position) :
    Along Later (publishObservation env id record output) := by
  have hl : ∀ f, Along Later (modifyLocal f) := fun f => Along.modify (fun _ => le_rfl)
  unfold publishObservation; infer_instance

/-! ## Runs -/

theorem runSection_later (w : World) (s : Section) : Later w (runSection env w s) := by
  unfold runSection
  split
  · have h := Along.along (R := Later) (x := s.program env w.loc) { w with running := s.running }
    split <;> rename_i hr <;> rw [hr] at h <;> exact h
  · exact le_rfl

theorem runStep_later (w : World) (step : Step) : Later w (runStep env w step) := by
  cases step with
  | sync call => exact (Nat.le_succ _).trans (interleave_tick _ [_] { w with tick := w.tick + 1 }).ge
  | locked s => exact runSection_later env w s
  | die => exact le_rfl

/-- **The tick of a run only grows.** -/
theorem runFrom_later (steps : List Step) (w : World) : Later w (runFrom env w steps) := by
  induction steps generalizing w with
  | nil => exact le_rfl
  | cons step steps ih => exact (runStep_later env w step).trans (ih (runStep env w step))

end Terminal
end TmuxWorktree
