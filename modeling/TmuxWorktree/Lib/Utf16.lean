import Mathlib.Data.List.Basic
import Mathlib.Data.Fin.Basic
import Mathlib.Algebra.Order.Ring.Nat
/-!
# Utf16 — strings as sequences of code units

A string of JavaScript or of the JVM is a list of UTF-16 code units, in which a surrogate need not be one of a pair.
What a lone surrogate costs in UTF-8 depends on who encodes it, so it is a parameter of `utf8Length`; `trim` takes the
spaces to remove.
-/
namespace TmuxWorktree
namespace Utf16

abbrev CodeUnit := Fin 65536

instance (priority := 2000) neZero_units : NeZero 65536 := ⟨by decide⟩

def isHigh (c : CodeUnit) : Bool := 0xD800 ≤ c.val && c.val ≤ 0xDBFF

def isLow (c : CodeUnit) : Bool := 0xDC00 ≤ c.val && c.val ≤ 0xDFFF

def isSurrogate (c : CodeUnit) : Bool := 0xD800 ≤ c.val && c.val ≤ 0xDFFF

/-- The code units of a text in the Basic Multilingual Plane. -/
def ofString (s : String) : List CodeUnit := s.toList.map (fun c => Fin.ofNat 65536 c.toNat)

/-! ## Lengths -/

/-- The bytes of a code unit by itself; `lone` of them for a surrogate. -/
def unitBytes (lone : Nat) (c : CodeUnit) : Nat :=
  if isSurrogate c then lone else if c.val < 0x80 then 1 else if c.val < 0x800 then 2 else 3

/-- **The length in UTF-8**: a pair of surrogates is four bytes, a lone one `lone`. -/
def utf8Length (lone : Nat) : List CodeUnit → Nat
  | [] => 0
  | [c] => unitBytes lone c
  | c :: d :: s => if isHigh c && isLow d then 4 + utf8Length lone s else unitBytes lone c + utf8Length lone (d :: s)

/-- The number of code points; a lone surrogate is one. -/
def codePoints : List CodeUnit → Nat
  | [] => 0
  | [_] => 1
  | c :: d :: s => if isHigh c && isLow d then 1 + codePoints s else 1 + codePoints (d :: s)

/-- The number of surrogates that are not one of a pair. -/
def loneSurrogates : List CodeUnit → Nat
  | [] => 0
  | [c] => if isSurrogate c then 1 else 0
  | c :: d :: s =>
    if isHigh c && isLow d then loneSurrogates s else (if isSurrogate c then 1 else 0) + loneSurrogates (d :: s)

theorem unitBytes_eq (lone : Nat) (c : CodeUnit) :
    unitBytes lone c = unitBytes 0 c + lone * (if isSurrogate c then 1 else 0) := by
  unfold unitBytes
  by_cases h : isSurrogate c = true <;> simp [h]

/-- **What the lone surrogates cost.** -/
theorem utf8Length_eq (lone : Nat) (s : List CodeUnit) :
    utf8Length lone s = utf8Length 0 s + lone * loneSurrogates s := by
  induction s using utf8Length.induct with
  | case1 => rfl
  | case2 c => exact unitBytes_eq lone c
  | case3 c d s h ih =>
    simp only [utf8Length, loneSurrogates, h, if_true]
    omega
  | case4 c d s h ih =>
    simp only [utf8Length, loneSurrogates, h, if_false, Bool.false_eq_true]
    rw [ih, unitBytes_eq, Nat.mul_add]
    omega

theorem utf8Length_le {lone : Nat} (hlone : lone ≤ 3) (s : List CodeUnit) : utf8Length lone s ≤ 3 * s.length := by
  have hunit : ∀ c, unitBytes lone c ≤ 3 := fun c => by
    unfold unitBytes
    split
    · exact hlone
    · split
      · omega
      · split <;> omega
  induction s using utf8Length.induct with
  | case1 => exact Nat.le_refl 0
  | case2 c => exact hunit c
  | case3 c d s h ih =>
    simp only [utf8Length, h, if_true, List.length_cons]
    omega
  | case4 c d s h ih =>
    have hc := hunit c
    simp only [utf8Length, h, if_false, Bool.false_eq_true, List.length_cons] at ih ⊢
    omega

/-- A text of ASCII characters. -/
theorem utf8Length_ascii {lone : Nat} {s : List CodeUnit} (h : ∀ c ∈ s, c.val < 0x80) : utf8Length lone s = s.length := by
  have hunit : ∀ {c : CodeUnit}, c.val < 0x80 → isHigh c = false ∧ unitBytes lone c = 1 := fun {c} hc => by
    have hs : isSurrogate c = false := by
      simp only [isSurrogate, Bool.and_eq_false_iff, decide_eq_false_iff_not]
      omega
    refine ⟨?_, by simp [unitBytes, hs, hc]⟩
    simp only [isHigh, Bool.and_eq_false_iff, decide_eq_false_iff_not]
    omega
  induction s using utf8Length.induct with
  | case1 => rfl
  | case2 c => exact (hunit (h c (by simp))).2
  | case3 c d s hp ih =>
    rw [(hunit (h c (by simp))).1] at hp
    cases hp
  | case4 c d s hp ih =>
    have ih := ih (fun c hc => h c (by simp [hc]))
    have hc := (hunit (h c (by simp))).2
    simp only [utf8Length, hp, if_false, Bool.false_eq_true, List.length_cons, hc] at ih ⊢
    omega

/-! ## Trimming -/

/-- The string without the spaces at its ends. -/
def trim (space : CodeUnit → Bool) (s : List CodeUnit) : List CodeUnit :=
  ((s.dropWhile space).reverse.dropWhile space).reverse

/-- An end of the string is one of these. -/
def endsIn (p : CodeUnit → Bool) (s : List CodeUnit) : Bool := s.head?.any p || s.getLast?.any p

theorem dropWhile_eq_self {α : Type} {p : α → Bool} {s : List α} : s.dropWhile p = s ↔ s.head?.any p = false := by
  cases s with
  | nil => simp
  | cons a s =>
    by_cases h : p a = true
    · have hne : s.dropWhile p ≠ a :: s := fun he => by
        have hl := (List.dropWhile_sublist p (l := s)).length_le
        rw [he, List.length_cons] at hl
        omega
      simp [h, hne]
    · simp [h]

/-- **Trimming leaves the string as it is** if no end of it is a space. -/
theorem trim_eq_self {space : CodeUnit → Bool} {s : List CodeUnit} : trim space s = s ↔ endsIn space s = false := by
  unfold trim endsIn
  rw [Bool.or_eq_false_iff, ← dropWhile_eq_self (s := s), List.getLast?_eq_head?_reverse, ← dropWhile_eq_self]
  constructor
  · intro h
    have hlen : s.length ≤ (s.dropWhile space).length := by
      have hl := (List.dropWhile_sublist space (l := (s.dropWhile space).reverse)).length_le
      have he := congrArg List.length h
      rw [List.length_reverse] at hl he
      omega
    have hs : s.dropWhile space = s := (List.dropWhile_sublist space).eq_of_length_le hlen
    rw [hs] at h
    exact ⟨hs, by rw [← List.reverse_reverse (s.reverse.dropWhile space), h]⟩
  · rintro ⟨hs, hr⟩
    rw [hs, hr, List.reverse_reverse]

end Utf16
end TmuxWorktree
