import Mathlib.Algebra.Order.BigOperators.Group.List
import Mathlib.Algebra.Order.Group.Nat
import Mathlib.Data.List.Nodup
import Mathlib.Algebra.Order.Ring.Nat
/-!
# Keyed — insertion-ordered maps as lists of their values

A list of values, each of which knows its key.  `put` on a key that is there keeps the key's place and `erase` keeps the
order of the others, so a walk of the list visits the values in the order their keys were first put.  The rules below
say what `find` reads after each operation; a proof about such a map needs nothing else of the list.
-/
namespace TmuxWorktree
namespace Keyed

variable {κ ν : Type} [DecidableEq κ] (key : ν → κ)

/-- The value at `k`. -/
def find (k : κ) (l : List ν) : Option ν := l.find? fun v => key v = k

/-- The value at `k`, if there is one, goes through `f`. -/
def update (k : κ) (f : ν → ν) (l : List ν) : List ν := l.map fun v => if key v = k then f v else v

/-- `v` is the value at its key from here on. -/
def put (v : ν) (l : List ν) : List ν :=
  if (find key (key v) l).isSome then update key (key v) (fun _ => v) l else l ++ [v]

/-- No value at `k` from here on. -/
def erase (k : κ) (l : List ν) : List ν := l.filter fun v => key v ≠ k

variable {key} {k k' : κ} {l : List ν} {v : ν} {f : ν → ν}

theorem find_nil : find key k ([] : List ν) = none := rfl

theorem find_cons : find key k (v :: l) = if key v = k then some v else find key k l := by
  unfold find
  by_cases h : key v = k <;> simp [h]

theorem key_of_find (h : find key k l = some v) : key v = k := by
  have := List.find?_some h
  simpa using this

theorem mem_of_find (h : find key k l = some v) : v ∈ l := List.mem_of_find?_eq_some h

theorem find_update_self (hf : ∀ u, key u = k → key (f u) = k) :
    find key k (update key k f l) = (find key k l).map f := by
  induction l with
  | nil => rfl
  | cons u l ih =>
    simp only [update, List.map_cons, find_cons] at ih ⊢
    by_cases hu : key u = k
    · simp [hu, hf u hu]
    · simp [hu, ih]

theorem find_update_ne (hf : ∀ u, key u = k → key (f u) = k) (h : k' ≠ k) :
    find key k' (update key k f l) = find key k' l := by
  induction l with
  | nil => rfl
  | cons u l ih =>
    simp only [update, List.map_cons, find_cons] at ih ⊢
    by_cases hu : key u = k
    · simp [hu, hf u hu, Ne.symm h, ih]
    · simp [hu, ih]

theorem update_none (h : find key k l = none) : update key k f l = l := by
  have hmiss : ∀ u ∈ l, (if key u = k then f u else u) = u := by
    intro u hu
    have hne : ¬ key u = k := by simpa using List.find?_eq_none.mp h u hu
    rw [if_neg hne]
  exact (List.map_congr_left hmiss).trans (List.map_id' l)

theorem find_append_single : find key k (l ++ [v]) = (find key k l).or (if key v = k then some v else none) := by
  unfold find
  rw [List.find?_append]
  by_cases h : key v = k <;> simp [h]

/-- A change of every value that keeps the keys. -/
theorem find_map {g : ν → ν} (hg : ∀ u, key (g u) = key u) : find key k (l.map g) = (find key k l).map g := by
  unfold find
  rw [List.find?_map]
  congr 2
  funext u
  simp [hg u]

theorem find_put_self : find key (key v) (put key v l) = some v := by
  unfold put
  split
  · rename_i h
    rw [find_update_self (fun _ _ => rfl)]
    obtain ⟨u, hu⟩ := Option.isSome_iff_exists.mp h
    rw [hu, Option.map_some]
  · rename_i h
    rw [find_append_single, Option.not_isSome_iff_eq_none.mp h]
    simp

theorem find_put_ne (h : k ≠ key v) : find key k (put key v l) = find key k l := by
  unfold put
  split
  · exact find_update_ne (fun _ _ => rfl) h
  · rw [find_append_single, if_neg (Ne.symm h), Option.or_none]

theorem mem_update {u : ν} (h : u ∈ update key k f l) : (∃ w ∈ l, u = f w) ∨ u ∈ l := by
  obtain ⟨w, hw, rfl⟩ := List.mem_map.mp h
  by_cases hk : key w = k
  · exact .inl ⟨w, hw, by simp [hk]⟩
  · exact .inr (by simpa [hk] using hw)

theorem mem_update_iff {u : ν} :
    u ∈ update key k f l ↔ (∃ w ∈ l, key w = k ∧ u = f w) ∨ (u ∈ l ∧ key u ≠ k) := by
  unfold update
  rw [List.mem_map]
  constructor
  · rintro ⟨w, hw, rfl⟩
    by_cases hk : key w = k
    · exact .inl ⟨w, hw, hk, by rw [if_pos hk]⟩
    · exact .inr ⟨by rwa [if_neg hk], by rwa [if_neg hk]⟩
  · rintro (⟨w, hw, hk, rfl⟩ | ⟨hu, hk⟩)
    · exact ⟨w, hw, if_pos hk⟩
    · exact ⟨u, hu, if_neg hk⟩

theorem mem_erase_iff {u : ν} : u ∈ erase key k l ↔ u ∈ l ∧ key u ≠ k := by
  unfold erase
  rw [List.mem_filter, decide_eq_true_iff]

/-- With distinct keys, what is in the list is found. -/
theorem find_of_mem (h : (l.map key).Nodup) (hv : v ∈ l) : find key (key v) l = some v := by
  induction l with
  | nil => cases hv
  | cons u l ih =>
    rw [List.map_cons, List.nodup_cons] at h
    rw [find_cons]
    rcases List.mem_cons.mp hv with rfl | hv
    · rw [if_pos rfl]
    · have hne : key u ≠ key v := fun heq => h.1 (List.mem_map.mpr ⟨v, hv, heq.symm⟩)
      rw [if_neg hne]
      exact ih h.2 hv

theorem eq_of_mem (h : (l.map key).Nodup) {u : ν} (hu : u ∈ l) (hv : v ∈ l) (hk : key u = key v) : u = v := by
  have hfound := find_of_mem h hu
  rw [hk, find_of_mem h hv] at hfound
  exact (Option.some.inj hfound).symm

theorem mem_put {u : ν} (h : u ∈ put key v l) : u = v ∨ u ∈ l := by
  unfold put at h
  split at h
  · exact (mem_update h).imp_left fun ⟨_, _, h⟩ => h
  · exact (List.mem_append.mp h).elim .inr fun h => .inl (List.mem_singleton.mp h)

theorem find_erase_self : find key k (erase key k l) = none := by
  unfold find erase
  rw [List.find?_eq_none]
  intro v hv
  simpa using (List.mem_filter.mp hv).2

theorem find_erase_ne (h : k' ≠ k) : find key k' (erase key k l) = find key k' l := by
  induction l with
  | nil => rfl
  | cons u l ih =>
    simp only [erase, List.filter_cons] at ih ⊢
    by_cases hu : key u = k
    · simp only [hu, ne_eq, not_true_eq_false, decide_false, Bool.false_eq_true, if_false, find_cons, Ne.symm h]
      exact ih
    · simp only [hu, ne_eq, not_false_eq_true, decide_true, if_true, find_cons, ih]

theorem keys_update (hf : ∀ u, key u = k → key (f u) = k) : (update key k f l).map key = l.map key := by
  unfold update
  rw [List.map_map]
  refine List.map_congr_left fun u _ => ?_
  by_cases hu : key u = k
  · simp [hu, hf u hu]
  · simp [hu]

theorem keys_put (h : (l.map key).Nodup) : ((put key v l).map key).Nodup := by
  unfold put
  split
  · rw [keys_update fun _ _ => rfl]
    exact h
  · rename_i hnone
    rw [List.map_append, List.map_singleton, List.nodup_append]
    refine ⟨h, by simp, fun a ha b hb hab => hnone ?_⟩
    obtain ⟨u, hu, hk⟩ := List.mem_map.mp ha
    rw [Option.isSome_iff_ne_none]
    intro hfind
    have hmiss := List.find?_eq_none.mp hfind u hu
    rw [List.mem_singleton.mp hb] at hab
    exact hmiss (decide_eq_true (hk.trans hab))

theorem keys_erase (h : (l.map key).Nodup) : ((erase key k l).map key).Nodup := by
  unfold erase
  exact h.sublist (List.filter_sublist.map key)

/-! With distinct keys, a map is one of its values and the others. -/

/-- No other value has the key. -/
theorem alone_of_nodup (h : ((v :: l).map key).Nodup) : erase key (key v) (v :: l) = l ∧ update key (key v) f l = l := by
  rw [List.map_cons, List.nodup_cons] at h
  have hne : ∀ u ∈ l, key u ≠ key v := fun u hu heq => h.1 (List.mem_map.mpr ⟨u, hu, heq⟩)
  constructor
  · unfold erase
    rw [List.filter_cons_of_neg (by simp), List.filter_eq_self]
    exact fun u hu => decide_eq_true (hne u hu)
  · exact update_none (List.find?_eq_none.mpr fun u hu heq => hne u hu (of_decide_eq_true heq))

theorem perm_erase (h : (l.map key).Nodup) (hv : find key k l = some v) : l.Perm (v :: erase key k l) := by
  induction l with
  | nil => cases hv
  | cons u l ih =>
    rw [find_cons] at hv
    by_cases hu : key u = k
    · rw [if_pos hu] at hv
      obtain rfl := Option.some.inj hv
      rw [← hu, (alone_of_nodup (f := id) h).1]
    · rw [if_neg hu] at hv
      have hcons : erase key k (u :: l) = u :: erase key k l := by simp [erase, hu]
      rw [hcons]
      rw [List.map_cons, List.nodup_cons] at h
      exact ((ih h.2 hv).cons u).trans (.swap v u _)

theorem perm_update (h : (l.map key).Nodup) (hv : find key k l = some v) :
    (update key k f l).Perm (f v :: erase key k l) := by
  induction l with
  | nil => cases hv
  | cons u l ih =>
    rw [find_cons] at hv
    by_cases hu : key u = k
    · rw [if_pos hu] at hv
      obtain rfl := Option.some.inj hv
      have hcons : update key k f (u :: l) = f u :: update key k f l := by simp [update, hu]
      rw [hcons, ← hu, (alone_of_nodup (f := f) h).1, (alone_of_nodup (f := f) h).2]
    · rw [if_neg hu] at hv
      have hcons : update key k f (u :: l) = u :: update key k f l := by simp [update, hu]
      have hcons' : erase key k (u :: l) = u :: erase key k l := by simp [erase, hu]
      rw [hcons, hcons']
      rw [List.map_cons, List.nodup_cons] at h
      exact ((ih h.2 hv).cons u).trans (.swap (f v) u _)

/-! A weight on the values adds up over the map. -/

variable {w : ν → Nat}

theorem sum_erase (h : (l.map key).Nodup) (hv : find key k l = some v) :
    ((erase key k l).map w).sum + w v = (l.map w).sum := by
  rw [((perm_erase h hv).map w).sum_eq, List.map_cons, List.sum_cons, Nat.add_comm]

theorem sum_update (h : (l.map key).Nodup) (hv : find key k l = some v) :
    ((update key k f l).map w).sum + w v = (l.map w).sum + w (f v) := by
  rw [((perm_update h hv).map w).sum_eq, List.map_cons, List.sum_cons, ← sum_erase h hv]
  omega

theorem sum_put_le (h : (l.map key).Nodup) : ((put key v l).map w).sum ≤ (l.map w).sum + w v := by
  unfold put
  split
  · rename_i hsome
    obtain ⟨u, hu⟩ := Option.isSome_iff_exists.mp hsome
    have := sum_update (f := fun _ => v) (w := w) h hu
    omega
  · simp

/-- A new key adds its value. -/
theorem sum_put_new (h : find key (key v) l = none) : ((put key v l).map w).sum = (l.map w).sum + w v := by
  unfold put
  rw [h]
  simp

/-- A known key changes its value. -/
theorem sum_put_old (h : (l.map key).Nodup) {u : ν} (hu : find key (key v) l = some u) :
    ((put key v l).map w).sum + w u = (l.map w).sum + w v := by
  unfold put
  rw [hu]
  exact sum_update h hu

theorem sum_erase_le : ((erase key k l).map w).sum ≤ (l.map w).sum := by
  unfold erase
  exact (List.filter_sublist.map w).sum_le_sum fun _ _ => Nat.zero_le _

end Keyed
end TmuxWorktree
