import Mathlib.Logic.Basic
/-!
# Ends — how a computation that may fail ends

`Ends x Q E`: the value of `x` satisfies `Q`, or its error satisfies `E`.  The rules follow a `do` block, so that a proof
about a block walks down its text and states what each line gives.
-/
namespace TmuxWorktree

variable {ε α β : Type} {Q : α → Prop} {E : ε → Prop}

def Ends (x : Except ε α) (Q : α → Prop) (E : ε → Prop) : Prop :=
  match x with
  | .ok a => Q a
  | .error e => E e

namespace Ends

theorem ok {a : α} (h : Q a) : Ends (.ok a : Except ε α) Q E := h

theorem pure {a : α} (h : Q a) : Ends (Pure.pure a : Except ε α) Q E := h

theorem error {e : ε} (h : E e) : Ends (.error e : Except ε α) Q E := h

theorem bind {x : Except ε α} {f : α → Except ε β} {P : α → Prop} {Q : β → Prop} (hx : Ends x P E)
    (hf : ∀ a, P a → Ends (f a) Q E) : Ends (x >>= f) Q E := by
  cases x with
  | ok a => exact hf a hx
  | error e => exact hx

/-- The first line is known to end with a value. -/
theorem next {x : Except ε α} {f : α → Except ε β} {Q : β → Prop} {a : α} (hx : x = .ok a) (hf : Ends (f a) Q E) :
    Ends (x >>= f) Q E := by
  rw [hx]
  exact hf

/-- Whatever the first line ends with, its value is known to the rest. -/
theorem seq {x : Except ε α} {f : α → Except ε β} {Q : β → Prop} (hf : ∀ a, x = .ok a → Ends (f a) Q E)
    (he : ∀ e, x = .error e → E e) : Ends (x >>= f) Q E := by
  cases x with
  | ok a => exact hf a rfl
  | error e => exact he e rfl

theorem ite {c : Prop} [Decidable c] {x y : Except ε α} (ht : c → Ends x Q E) (hf : ¬ c → Ends y Q E) :
    Ends (if c then x else y) Q E := by
  by_cases h : c
  · rw [if_pos h]
    exact ht h
  · rw [if_neg h]
    exact hf h

theorem mono {x : Except ε α} {P : α → Prop} {F : ε → Prop} (h : Ends x P F) (hQ : ∀ a, P a → Q a)
    (hE : ∀ e, F e → E e) : Ends x Q E := by
  cases x with
  | ok a => exact hQ a h
  | error e => exact hE e h

theorem map {x : Except ε α} {f : α → β} {Q : β → Prop} (h : Ends x (fun a => Q (f a)) E) : Ends (x.map f) Q E := by
  cases x with
  | ok a => exact h
  | error e => exact h

theorem value {x : Except ε α} {a : α} (h : Ends x Q E) (hx : x = .ok a) : Q a := by
  rw [hx] at h
  exact h

theorem fault {x : Except ε α} {e : ε} (h : Ends x Q E) (hx : x = .error e) : E e := by
  rw [hx] at h
  exact h

end Ends
end TmuxWorktree
