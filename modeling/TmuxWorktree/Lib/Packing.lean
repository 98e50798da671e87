import Mathlib.Algebra.GroupWithZero.Nat
import Mathlib.Data.List.Basic
import Mathlib.Data.List.Chain
/-!
# Packing — a list cut into parts, each as long as it may be

The items go into the open part while it fits, and the next one opens a new part.  The parts are the list again, each of
them fits, and each would not with the first item of the next.
-/
namespace TmuxWorktree
namespace Packing

variable {α : Type}

/-- The open part takes the item, or it is closed and the item opens the next. -/
def step (fits : List α → Bool) (p : List (List α) × List α) (x : α) : List (List α) × List α :=
  if p.2.isEmpty || fits (p.2 ++ [x]) then (p.1, p.2 ++ [x]) else (p.1 ++ [p.2], [x])

/-- **The parts of a list**; an empty list has one empty part. -/
def pack (fits : List α → Bool) (xs : List α) : List (List α) :=
  let p := xs.foldl (step fits) ([], [])
  p.1 ++ [p.2]

variable {fits : List α → Bool} {p : List (List α) × List α} {x : α} {xs : List α}

/-- What holds of the parts so far. -/
structure Packed (fits : List α → Bool) (xs : List α) (p : List (List α) × List α) : Prop where
  flatten : p.1.flatten ++ p.2 = xs
  nonempty : ∀ part ∈ p.1, part ≠ []
  opened : xs ≠ [] → p.2 ≠ []
  fitting : ∀ part ∈ p.1 ++ [p.2], part ≠ [] → (∀ x ∈ xs, fits [x] = true) → fits part = true
  full : (p.1 ++ [p.2]).IsChain fun part next => ∃ x, next.head? = some x ∧ fits (part ++ [x]) = false

theorem packed_nil : Packed fits [] ([], []) where
  flatten := rfl
  nonempty := by simp
  opened := by simp
  fitting := by simp
  full := by simp

theorem Packed.step (h : Packed fits xs p) : Packed fits (xs ++ [x]) (step fits p x) := by
  have hsub : ∀ {P : α → Prop}, (∀ y ∈ xs ++ [x], P y) → ∀ y ∈ xs, P y := fun hall y hy => hall y (List.mem_append_left _ hy)
  unfold Packing.step
  by_cases hopen : (p.2.isEmpty || fits (p.2 ++ [x])) = true
  · rw [if_pos hopen]
    refine ⟨?_, h.nonempty, by simp, ?_, ?_⟩
    · rw [← List.append_assoc, h.flatten]
    · intro part hpart hne hall
      rcases List.mem_append.mp hpart with hpart | hpart
      · exact h.fitting part (List.mem_append_left _ hpart) hne (hsub hall)
      · obtain rfl := List.mem_singleton.mp hpart
        rcases Bool.or_eq_true_iff.mp hopen with hempty | hfits
        · rw [List.isEmpty_iff.mp hempty]
          exact hall x (by simp)
        · exact hfits
    · have hfull := h.full
      rw [List.isChain_append] at hfull ⊢
      refine ⟨hfull.1, by simp, ?_⟩
      intro part hpart next hnext
      cases hnext
      cases hempty : p.2 with
      | nil =>
        -- an open part is empty only before the first item
        have hxs : xs = [] := by
          by_contra hne
          exact h.opened hne hempty
        have hflat := h.flatten
        rw [hempty, List.append_nil, hxs] at hflat
        exact absurd (List.flatten_eq_nil_iff.mp hflat part (List.mem_of_getLast? hpart))
          (h.nonempty part (List.mem_of_getLast? hpart))
      | cons y rest =>
        have := hfull.2.2 part hpart p.2 rfl
        rw [hempty] at this
        simpa using this
  · rw [if_neg hopen]
    simp only [Bool.or_eq_true, not_or, Bool.not_eq_true, List.isEmpty_eq_false_iff] at hopen
    refine ⟨?_, ?_, by simp, ?_, ?_⟩
    · rw [List.flatten_append, List.flatten_singleton, h.flatten]
    · intro part hpart
      rcases List.mem_append.mp hpart with hpart | hpart
      · exact h.nonempty part hpart
      · rw [List.mem_singleton.mp hpart]
        exact hopen.1
    · intro part hpart hne hall
      rcases List.mem_append.mp hpart with hpart | hpart
      · exact h.fitting part hpart hne (hsub hall)
      · rw [List.mem_singleton.mp hpart]
        exact hall x (by simp)
    · rw [List.isChain_append]
      refine ⟨h.full, by simp, ?_⟩
      intro part hpart next hnext
      cases hnext
      rw [List.getLast?_append, List.getLast?_singleton, Option.some_or] at hpart
      cases hpart
      exact ⟨x, rfl, hopen.2⟩

theorem packed (fits : List α → Bool) (xs : List α) : Packed fits xs (xs.foldl (step fits) ([], [])) := by
  induction xs using List.reverseRecOn with
  | nil => exact packed_nil
  | append_singleton xs x ih =>
    rw [List.foldl_append, List.foldl_cons, List.foldl_nil]
    exact ih.step

/-- **The parts are the list.** -/
theorem flatten_pack : (pack fits xs).flatten = xs := by
  have := (packed fits xs).flatten
  unfold pack
  simpa using this

/-- Each part fits, when each item does by itself. -/
theorem fits_of_mem {part : List α} (hall : ∀ x ∈ xs, fits [x] = true) (hpart : part ∈ pack fits xs) (hne : part ≠ []) :
    fits part = true :=
  (packed fits xs).fitting part hpart hne hall

/-- Only an empty list has an empty part. -/
theorem ne_nil_of_mem {part : List α} (hxs : xs ≠ []) (hpart : part ∈ pack fits xs) : part ≠ [] := by
  rcases List.mem_append.mp hpart with hpart | hpart
  · exact (packed fits xs).nonempty part hpart
  · rw [List.mem_singleton.mp hpart]
    exact (packed fits xs).opened hxs

/-- **No part could have taken the first item of the next.** -/
theorem full (fits : List α → Bool) (xs : List α) :
    (pack fits xs).IsChain fun part next => ∃ x, next.head? = some x ∧ fits (part ++ [x]) = false :=
  (packed fits xs).full

theorem pack_ne_nil : pack fits xs ≠ [] := by simp [pack]

/-- **Where neighbours weigh much, there are few parts.** -/
theorem chain_length {β : Type} {v w : β → Nat} {cap : Nat} {l : List β}
    (h : l.IsChain fun a b => cap ≤ v a + w a + w b) :
    cap * (l.length - 1) ≤ (l.map v).sum + 2 * (l.map w).sum := by
  have hheavy : ∀ {a : β} {l : List β}, (a :: l).IsChain (fun a b => cap ≤ v a + w a + w b) →
      cap * l.length + w a ≤ ((a :: l).map v).sum + 2 * ((a :: l).map w).sum := by
    intro a l h
    induction l generalizing a with
    | nil =>
      simp only [List.length_nil, List.map_cons, List.map_nil, List.sum_cons, List.sum_nil]
      omega
    | cons b rest ih =>
      obtain ⟨hcap, hrest⟩ := List.isChain_cons_cons.mp h
      have := ih hrest
      rw [List.length_cons, Nat.mul_succ]
      simp only [List.map_cons, List.sum_cons] at this ⊢
      omega
  cases l with
  | nil => simp
  | cons a rest =>
    have := hheavy h
    rw [List.length_cons, Nat.add_sub_cancel]
    omega

end Packing
end TmuxWorktree
