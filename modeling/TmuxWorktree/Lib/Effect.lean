import Mathlib.Logic.Relation
import Mathlib.Order.Defs.Unbundled
/-!
# Effect — programs that throw, are caught, and can be cut off

`Eff W ε α` is a program over a world `W`.  A run ends in one of three ways: with a value, with an exception `ε`, or
cut off by a crash, which no handler of the program sees.  The world survives all three: a mutation made before a
`throw` is still there for the handler, as in a language with mutable objects.

`Sat` is the weakest precondition with one postcondition for each of the three ends.  Its rules follow the syntax of
a `do` block, so a proof about a program walks down its text.
-/
namespace TmuxWorktree
namespace Effect

/-- How a run ends. -/
inductive Outcome (ε α : Type) where
  | ok (a : α)
  | err (e : ε)
  | crash
  deriving DecidableEq, Repr

/-- **A program over `W`**: the world it leaves is there however it ends. -/
def Eff (W ε α : Type) : Type := W → Outcome ε α × W

variable {W ε α β : Type}

namespace Eff

instance : Monad (Eff W ε) where
  pure a := fun w => (.ok a, w)
  bind x f := fun w =>
    match x w with
    | (.ok a, w') => f a w'
    | (.err e, w') => (.err e, w')
    | (.crash, w') => (.crash, w')

-- a crash is not an exception: `tryCatch` lets it through
instance : MonadExceptOf ε (Eff W ε) where
  throw e := fun w => (.err e, w)
  tryCatch x h := fun w =>
    match x w with
    | (.ok a, w') => (.ok a, w')
    | (.err e, w') => h e w'
    | (.crash, w') => (.crash, w')

def get : Eff W ε W := fun w => (.ok w, w)

def modify (f : W → W) : Eff W ε Unit := fun w => (.ok (), f w)

/-- The program is cut off if `c` holds. -/
def crashIf (c : Bool) : Eff W ε Unit := fun w => if c then (.crash, w) else (.ok (), w)

/-- A result computed elsewhere, thrown if it is an exception. -/
def ofExcept (r : Except ε α) : Eff W ε α := fun w =>
  match r with
  | .ok a => (.ok a, w)
  | .error e => (.err e, w)

/-- The result of `x`, with its exception as a value. -/
def attempt (x : Eff W ε α) : Eff W ε (Except ε α) := fun w =>
  match x w with
  | (.ok a, w') => (.ok (.ok a), w')
  | (.err e, w') => (.ok (.error e), w')
  | (.crash, w') => (.crash, w')

/-- `require c e` goes on if `c` holds and throws `e` otherwise. -/
def require (c : Bool) (e : ε) : Eff W ε Unit := if c then pure () else throw e

/-- `f` on every element of a list, in order. -/
def forEach {γ : Type} (f : γ → Eff W ε Unit) : List γ → Eff W ε Unit
  | [] => pure ()
  | x :: xs => do
    f x
    forEach f xs

instance : LawfulMonad (Eff W ε) := LawfulMonad.mk' (Eff W ε)
  (fun x => by
    funext w
    show (match x w with | (.ok a, w') => _ | (.err e, w') => _ | (.crash, w') => _) = x w
    rcases x w with ⟨a | e | _, w'⟩ <;> rfl)
  (fun _ _ => rfl)
  (fun x f g => by
    funext w
    simp only [Bind.bind]
    rcases x w with ⟨a | e | _, w'⟩ <;> rfl)

/-- The run of a block whose first action is known to end with a value. -/
theorem bind_run {x : Eff W ε α} {f : α → Eff W ε β} {w v : W} {a : α} (h : x w = (.ok a, v)) :
    (x >>= f) w = f a v := by
  simp only [Bind.bind, h]

end Eff

open Eff

/-! ## Weakest preconditions -/

/-- **`x`, run from `w`, ends well**: in `Q` with a value, in `E` with an exception, in `C` when it is cut off. -/
def Sat (C : W → Prop) (x : Eff W ε α) (w : W) (Q : α → W → Prop) (E : ε → W → Prop) : Prop :=
  match x w with
  | (.ok a, w') => Q a w'
  | (.err e, w') => E e w'
  | (.crash, w') => C w'

variable {C : W → Prop} {Q : α → W → Prop} {E : ε → W → Prop} {w : W}

theorem Sat.imp {x : Eff W ε α} {C' : W → Prop} {P : α → W → Prop} {F : ε → W → Prop} (h : Sat C' x w P F)
    (hC : ∀ w', C' w' → C w') (hQ : ∀ a w', P a w' → Q a w') (hE : ∀ e w', F e w' → E e w') : Sat C x w Q E := by
  unfold Sat at *
  rcases hx : x w with ⟨a | e | _, w'⟩ <;> rw [hx] at h
  · exact hQ _ _ h
  · exact hE _ _ h
  · exact hC _ h

theorem Sat.mono {x : Eff W ε α} {P : α → W → Prop} {F : ε → W → Prop} (h : Sat C x w P F)
    (hQ : ∀ a w', P a w' → Q a w') (hE : ∀ e w', F e w' → E e w') : Sat C x w Q E := h.imp (fun _ hC => hC) hQ hE

theorem Sat.pure {a : α} (h : Q a w) : Sat C (Pure.pure a : Eff W ε α) w Q E := h

theorem Sat.throw {e : ε} (h : E e w) : Sat C (MonadExcept.throw e : Eff W ε α) w Q E := h

theorem Sat.bind {x : Eff W ε α} {f : α → Eff W ε β} {P : α → W → Prop} {F : ε → W → Prop} {Q : β → W → Prop}
    (h : Sat C x w P F) (hE : ∀ e w', F e w' → E e w') (hf : ∀ a w', P a w' → Sat C (f a) w' Q E) :
    Sat C (x >>= f) w Q E := by
  unfold Sat at h
  simp only [Sat, Bind.bind]
  rcases hx : x w with ⟨a | e | _, w'⟩ <;> rw [hx] at h
  · exact hf _ _ h
  · exact hE _ _ h
  · exact h

/-- The rule for a block whose exceptions the caller keeps as they are. -/
theorem Sat.step {x : Eff W ε α} {f : α → Eff W ε β} {P : α → W → Prop} {Q : β → W → Prop}
    (h : Sat C x w P E) (hf : ∀ a w', P a w' → Sat C (f a) w' Q E) : Sat C (x >>= f) w Q E :=
  h.bind (fun _ _ he => he) hf

/-- The rule for an action whose run from here is known. -/
theorem Sat.next {x : Eff W ε α} {f : α → Eff W ε β} {Q : β → W → Prop} {a : α} {w' : W} (hx : x w = (.ok a, w'))
    (hf : Sat C (f a) w' Q E) : Sat C (x >>= f) w Q E := by
  simp only [Sat, Bind.bind, hx]
  exact hf

theorem Sat.next_modify {f : W → W} {g : Unit → Eff W ε β} {Q : β → W → Prop} (hg : Sat C (g ()) (f w) Q E) :
    Sat C (Eff.modify f >>= g) w Q E := Sat.next rfl hg

theorem Sat.tryCatch {x : Eff W ε α} {h : ε → Eff W ε α} {F : ε → W → Prop}
    (hx : Sat C x w Q F) (hh : ∀ e w', F e w' → Sat C (h e) w' Q E) :
    Sat C (MonadExcept.tryCatch x h) w Q E := by
  unfold Sat at hx
  simp only [Sat, MonadExcept.tryCatch, tryCatchThe, MonadExceptOf.tryCatch]
  rcases hr : x w with ⟨a | e | _, w'⟩ <;> rw [hr] at hx
  · exact hx
  · exact hh _ _ hx
  · exact hx

theorem Sat.ite {c : Prop} [Decidable c] {x y : Eff W ε α} (ht : c → Sat C x w Q E) (hf : ¬ c → Sat C y w Q E) :
    Sat C (if c then x else y) w Q E := by
  by_cases hc : c
  · rw [if_pos hc]; exact ht hc
  · rw [if_neg hc]; exact hf hc

theorem Sat.modify {f : W → W} {Q : Unit → W → Prop} (h : Q () (f w)) : Sat C (Eff.modify f : Eff W ε Unit) w Q E := h

theorem Sat.crashIf {c : Bool} {Q : Unit → W → Prop} (hC : C w) (h : Q () w) :
    Sat C (Eff.crashIf c : Eff W ε Unit) w Q E := by
  unfold Sat Eff.crashIf
  cases c
  · exact h
  · exact hC

theorem Sat.ofExcept {r : Except ε α} (hok : ∀ a, r = .ok a → Q a w) (herr : ∀ e, r = .error e → E e w) :
    Sat C (Eff.ofExcept r : Eff W ε α) w Q E := by
  cases r with
  | ok a => exact hok a rfl
  | error e => exact herr e rfl

theorem Sat.require {c : Bool} {e : ε} {Q : Unit → W → Prop} (ht : c = true → Q () w) (hf : c = false → E e w) :
    Sat C (Eff.require c e : Eff W ε Unit) w Q E := by
  cases c
  · exact hf rfl
  · exact ht rfl

theorem Sat.attempt {x : Eff W ε α} {Q : Except ε α → W → Prop}
    (h : Sat C x w (fun a => Q (.ok a)) (fun e => Q (.error e))) : Sat C (Eff.attempt x) w Q E := by
  unfold Sat at h
  simp only [Sat, Eff.attempt]
  rcases hx : x w with ⟨a | e | _, w'⟩ <;> rw [hx] at h <;> exact h

/-- The rule for a walk of a list: what one visit keeps, the walk keeps. -/
theorem Sat.forEach {γ : Type} {f : γ → Eff W ε Unit} {I : W → Prop} {l : List γ} (hw : I w)
    (hf : ∀ x ∈ l, ∀ w', I w' → Sat C (f x) w' (fun _ => I) E) : Sat C (Eff.forEach f l) w (fun _ => I) E := by
  induction l generalizing w with
  | nil => exact hw
  | cons x xs ih =>
    exact (hf x List.mem_cons_self w hw).step fun _ w' hw' => ih hw' fun y hy => hf y (List.mem_cons_of_mem x hy)

/-- Two specifications of one program hold together. -/
theorem Sat.and {x : Eff W ε α} {C' : W → Prop} {P : α → W → Prop} {F : ε → W → Prop} (h : Sat C x w Q E)
    (h' : Sat C' x w P F) :
    Sat (fun w' => C w' ∧ C' w') x w (fun a w' => Q a w' ∧ P a w') (fun e w' => E e w' ∧ F e w') := by
  unfold Sat at *
  rcases hx : x w with ⟨a | e | _, w'⟩ <;> rw [hx] at h h' <;> exact ⟨h, h'⟩

/-! ## Guarantees -/

/-- **Every run of `x` moves the world along `R`**, however it ends. -/
class Along (R : W → W → Prop) (x : Eff W ε α) : Prop where
  along : ∀ w, R w (x w).2

section
variable {R : W → W → Prop}

/-- A program that moves along `R` ends where `R` leads. -/
theorem Sat.of_along {x : Eff W ε α} [h : Along R x] (hC : ∀ w', R w w' → C w') (hQ : ∀ a w', R w w' → Q a w')
    (hE : ∀ e w', R w w' → E e w') : Sat C x w Q E := by
  have hw := h.along w
  unfold Sat
  rcases hx : x w with ⟨a | e | _, w'⟩ <;> rw [hx] at hw
  · exact hQ _ _ hw
  · exact hE _ _ hw
  · exact hC _ hw

theorem Along.of_sat {x : Eff W ε α} (h : ∀ w, Sat (R w) x w (fun _ => R w) (fun _ => R w)) : Along R x := ⟨fun w => by
  have hw := h w
  unfold Sat at hw
  rcases hx : x w with ⟨a | e | _, w'⟩ <;> rw [hx] at hw <;> exact hw⟩

theorem Along.mono {R' : W → W → Prop} {x : Eff W ε α} (h : ∀ w w', R w w' → R' w w') (p : Along R x) : Along R' x :=
  ⟨fun w => h _ _ (p.along w)⟩

theorem Along.modify {f : W → W} (h : ∀ w, R w (f w)) : Along R (Eff.modify f : Eff W ε Unit) := ⟨h⟩

instance Along.bind [IsTrans W R] {x : Eff W ε α} {f : α → Eff W ε β} [p : Along R x]
    [q : ∀ a, Along R (f a)] : Along R (x >>= f) := ⟨fun w => by
  have h := p.along w
  simp only [Bind.bind]
  rcases hr : x w with ⟨a | e | _, w'⟩ <;> rw [hr] at h
  · exact IsTrans.trans _ _ _ h ((q a).along w')
  · exact h
  · exact h⟩

/-- `Along.bind` with its parts given by name. -/
theorem Along.seq [IsTrans W R] {x : Eff W ε α} {f : α → Eff W ε β} (p : Along R x) (q : ∀ a, Along R (f a)) :
    Along R (x >>= f) := Along.bind

instance Along.tryCatch [IsTrans W R] {x : Eff W ε α} {f : ε → Eff W ε α} [p : Along R x]
    [q : ∀ e, Along R (f e)] : Along R (MonadExcept.tryCatch x f) := ⟨fun w => by
  have h := p.along w
  simp only [MonadExcept.tryCatch, tryCatchThe, MonadExceptOf.tryCatch]
  rcases hr : x w with ⟨a | e | _, w'⟩ <;> rw [hr] at h
  · exact h
  · exact IsTrans.trans _ _ _ h ((q e).along w')
  · exact h⟩

instance Along.ite {c : Prop} [Decidable c] {x y : Eff W ε α} [p : Along R x] [q : Along R y] :
    Along R (if c then x else y) := by
  split
  · exact p
  · exact q

instance Along.attempt {x : Eff W ε α} [p : Along R x] : Along R (Eff.attempt x) := ⟨fun w => by
  have h := p.along w
  simp only [Eff.attempt]
  rcases hr : x w with ⟨a | e | _, w'⟩ <;> rw [hr] at h <;> exact h⟩

variable [Std.Refl R]

instance Along.pure (a : α) : Along R (Pure.pure a : Eff W ε α) := ⟨fun w => Std.Refl.refl w⟩

instance Along.throw (e : ε) : Along R (MonadExcept.throw e : Eff W ε α) := ⟨fun w => Std.Refl.refl w⟩

instance Along.get : Along R (Eff.get : Eff W ε W) := ⟨fun w => Std.Refl.refl w⟩

instance Along.crashIf (c : Bool) : Along R (Eff.crashIf c : Eff W ε Unit) := ⟨fun w => by
  unfold Eff.crashIf
  cases c <;> exact Std.Refl.refl w⟩

instance Along.ofExcept (r : Except ε α) : Along R (Eff.ofExcept r : Eff W ε α) := ⟨fun w => by
  unfold Eff.ofExcept
  cases r <;> exact Std.Refl.refl w⟩

instance Along.forEach [IsTrans W R] {γ : Type} {f : γ → Eff W ε Unit} {l : List γ} [p : ∀ x, Along R (f x)] :
    Along R (Eff.forEach f l) := by
  induction l with
  | nil => exact Along.pure ()
  | cons x xs ih => exact Along.bind

instance Along.require (c : Bool) (e : ε) : Along R (Eff.require c e : Eff W ε Unit) := by
  unfold Eff.require
  infer_instance

end

/-! ## Guarantees that carry facts -/

/-- **`x`, run from `w`, moves the world along `R`** and ends in `Q` with a value and in `E` with an exception. -/
def Goes (R : W → W → Prop) (x : Eff W ε α) (w : W) (Q : α → W → Prop) (E : W → Prop) : Prop :=
  Sat (R w) x w (fun a w' => R w w' ∧ Q a w') (fun _ w' => R w w' ∧ E w')

section
variable {R : W → W → Prop} {x : Eff W ε α} {f : α → Eff W ε β} {P : α → W → Prop} {Q : β → W → Prop} {E : W → Prop}

theorem Goes.seq [IsTrans W R] (h : Goes R x w P E) (hf : ∀ a w', R w w' → P a w' → Goes R (f a) w' Q E) :
    Goes R (x >>= f) w Q E := by
  refine Sat.step h fun a w' ⟨hw, hp⟩ => ?_
  exact (hf a w' hw hp).imp (fun _ h => IsTrans.trans _ _ _ hw h) (fun _ _ h => ⟨IsTrans.trans _ _ _ hw h.1, h.2⟩)
    (fun _ _ h => ⟨IsTrans.trans _ _ _ hw h.1, h.2⟩)

/-- An action whose run from here is known. -/
theorem Goes.next [IsTrans W R] {a : α} {w' : W} (hx : x w = (.ok a, w')) (hw : R w w') (hf : Goes R (f a) w' Q E) :
    Goes R (x >>= f) w Q E := by
  refine Sat.next hx ?_
  exact hf.imp (fun _ h => IsTrans.trans _ _ _ hw h) (fun _ _ h => ⟨IsTrans.trans _ _ _ hw h.1, h.2⟩)
    (fun _ _ h => ⟨IsTrans.trans _ _ _ hw h.1, h.2⟩)

theorem Goes.get [Std.Refl R] [IsTrans W R] {f : W → Eff W ε β} (hf : Goes R (f w) w Q E) :
    Goes R (Eff.get >>= f) w Q E := .next rfl (Std.Refl.refl w) hf

theorem Goes.modify [IsTrans W R] {g : W → W} {f : Unit → Eff W ε β} (h : R w (g w)) (hf : Goes R (f ()) (g w) Q E) :
    Goes R (Eff.modify g >>= f) w Q E := .next rfl h hf

theorem Goes.pure [Std.Refl R] {a : α} {Q : α → W → Prop} (h : Q a w) : Goes R (Pure.pure a : Eff W ε α) w Q E :=
  ⟨Std.Refl.refl w, h⟩

theorem Goes.throw [Std.Refl R] {e : ε} {Q : α → W → Prop} (h : E w) :
    Goes R (MonadExcept.throw e : Eff W ε α) w Q E := ⟨Std.Refl.refl w, h⟩

theorem Goes.mono {P Q : α → W → Prop} {E' : W → Prop} (h : Goes R x w P E') (hQ : ∀ a w', P a w' → Q a w')
    (hE : ∀ w', E' w' → E w') : Goes R x w Q E :=
  Sat.mono h (fun a w' h => ⟨h.1, hQ a w' h.2⟩) (fun _ w' h => ⟨h.1, hE w' h.2⟩)

theorem Goes.attempt {Q : Except ε α → W → Prop}
    (h : Goes R x w (fun a => Q (.ok a)) (fun w' => ∀ e, Q (.error e) w')) : Goes R (Eff.attempt x) w Q E :=
  Sat.attempt (Sat.mono h (fun _ _ h => h) fun e _ h => ⟨h.1, h.2 e⟩)

theorem Goes.of_along {Q : α → W → Prop} [Along R x] (hQ : ∀ a w', R w w' → Q a w') (hE : ∀ w', R w w' → E w') :
    Goes R x w Q E := Sat.of_along (fun _ h => h) (fun a _ h => ⟨h, hQ a _ h⟩) (fun _ _ h => ⟨h, hE _ h⟩)

theorem Goes.along (h : ∀ w, Goes R x w (fun _ _ => True) (fun _ => True)) : Along R x :=
  .of_sat fun w => Sat.mono (h w) (fun _ _ h => h.1) (fun _ _ h => h.1)

end

end Effect
end TmuxWorktree
