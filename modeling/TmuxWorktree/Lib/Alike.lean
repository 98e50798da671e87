import Mathlib.Logic.Basic
/-!
# Alike — two computations that end the same way

`Alike R x y`: `x` and `y` throw the same fault, refuse both, or give values that `R` relates.  The one names a reason when
it refuses, and the other does not.  The rules walk down two texts at once.
-/
namespace TmuxWorktree

variable {ε ρ α β γ δ : Type} {R R' : α → β → Prop}

inductive Alike (R : α → β → Prop) : Except ε (Except ρ α) → Except ε (Option β) → Prop where
  | throws (e : ε) : Alike R (.error e) (.error e)
  | refuses (reason : ρ) : Alike R (.ok (.error reason)) (.ok none)
  | takes {a : α} {b : β} (related : R a b) : Alike R (.ok (.ok a)) (.ok (some b))

namespace Alike

/-- Both begin with the same line. -/
theorem seq {x : Except ε γ} {f : γ → Except ε (Except ρ α)} {g : γ → Except ε (Option β)}
    (h : ∀ c, x = .ok c → Alike R (f c) (g c)) : Alike R (x >>= f) (x >>= g) := by
  cases x with
  | error e => exact .throws e
  | ok c => exact h c rfl

theorem ite {c : Prop} [Decidable c] {x x' : Except ε (Except ρ α)} {y y' : Except ε (Option β)}
    (ht : c → Alike R x y) (hf : ¬ c → Alike R x' y') : Alike R (if c then x else x') (if c then y else y') := by
  by_cases h : c
  · rw [if_pos h, if_pos h]
    exact ht h
  · rw [if_neg h, if_neg h]
    exact hf h

/-- What goes on from two computations that end alike. -/
theorem bind {α' β' : Type} {S : α' → β' → Prop} {x : Except ε (Except ρ α')} {y : Except ε (Option β')}
    {f : Except ρ α' → Except ε (Except ρ α)} {g : Option β' → Except ε (Option β)} (hxy : Alike S x y)
    (hrefuse : ∀ reason, Alike R (f (.error reason)) (g none)) (htake : ∀ a b, S a b → Alike R (f (.ok a)) (g (some b))) :
    Alike R (x >>= f) (y >>= g) := by
  cases hxy with
  | throws e => exact .throws e
  | refuses reason => exact hrefuse reason
  | takes related => exact htake _ _ related

end Alike
end TmuxWorktree
