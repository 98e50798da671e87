import TmuxWorktree.Lib.Printing
import Mathlib.Data.List.Sort
import Mathlib.Order.Lex
import Mathlib.Data.List.Lex
/-!
# Visit — the canonical JSON of a materialized value (`resourceState.ts`)

What is canonicalized is a value of JavaScript: an object is a cell of a heap, cells may be shared, and a cell may be
inside itself.  The keys of an object are written in the order of their code units.
-/
namespace TmuxWorktree
namespace Canonical

open Utf16 Grammar

/-! ## Unicode -/

/-- `hasWellFormedUnicode`.  Past the end of the string `charCodeAt` is `NaN`, and no comparison with it holds. -/
def hasWellFormedUnicode : Text → Bool
  | [] => true
  | c :: s =>
    if isHigh c then
      match s with
      | [] => true
      | d :: s => if d.val < 0xDC00 || 0xDFFF < d.val then false else hasWellFormedUnicode s
    else if isLow c then false
    else hasWellFormedUnicode s

/-- The string ends in a high surrogate: one unpaired surrogate, as no code unit follows it. -/
def endsHigh (s : Text) : Bool := s.getLast?.any isHigh

theorem isSurrogate_eq (c : CodeUnit) : isSurrogate c = (isHigh c || isLow c) := by
  simp only [isSurrogate, isHigh, isLow]
  rw [Bool.eq_iff_iff]
  simp only [Bool.and_eq_true, Bool.or_eq_true, decide_eq_true_eq]
  omega

theorem endsHigh_cons (c d : CodeUnit) (s : Text) : endsHigh (c :: d :: s) = endsHigh (d :: s) := by simp [endsHigh]

theorem endsHigh_pair (c : CodeUnit) {d : CodeUnit} (hd : isLow d = true) (s : Text) : endsHigh (c :: d :: s) = endsHigh s := by
  have hlow : isHigh d = false := by
    simp only [isLow, isHigh, Bool.and_eq_true, Bool.and_eq_false_iff, decide_eq_true_eq, decide_eq_false_iff_not] at hd ⊢
    omega
  cases s with
  | nil => simp [endsHigh, hlow]
  | cons e s => simp [endsHigh]

theorem endsHigh_le (s : Text) : (if endsHigh s then 1 else 0) ≤ loneSurrogates s := by
  induction s using codePoints.induct with
  | case1 => exact Nat.le_refl _
  | case2 c =>
    by_cases hc : isHigh c = true <;> simp [endsHigh, loneSurrogates, isSurrogate_eq, hc]
  | case3 c d s hpair ih =>
    rw [loneSurrogates, if_pos hpair, endsHigh_pair c (Bool.and_eq_true_iff.mp hpair).2]
    exact ih
  | case4 c d s hpair ih =>
    rw [loneSurrogates, if_neg hpair, endsHigh_cons]
    omega

/-- **The check misses one thing**: a high surrogate at the end. -/
theorem hasWellFormedUnicode_iff (s : Text) :
    hasWellFormedUnicode s = true ↔ loneSurrogates s = if endsHigh s then 1 else 0 := by
  induction s using codePoints.induct with
  | case1 => simp [hasWellFormedUnicode, loneSurrogates, endsHigh]
  | case2 c =>
    by_cases hc : isHigh c = true
    · simp [hasWellFormedUnicode, loneSurrogates, endsHigh, isSurrogate_eq, hc]
    · by_cases hl : isLow c = true <;> simp [hasWellFormedUnicode, loneSurrogates, endsHigh, isSurrogate_eq, hc, hl]
  | case3 c d s hpair ih =>
    obtain ⟨hc, hd⟩ := Bool.and_eq_true_iff.mp hpair
    have hrange : (d.val < 0xDC00 || 0xDFFF < d.val) = false := by
      simp only [isLow, Bool.and_eq_true, decide_eq_true_eq] at hd
      simp only [Bool.or_eq_false_iff, decide_eq_false_iff_not]
      omega
    rw [hasWellFormedUnicode, if_pos hc, loneSurrogates, if_pos hpair, endsHigh_pair c hd, hrange, if_neg (by simp)]
    exact ih
  | case4 c d s hpair ih =>
    have hle := endsHigh_le (d :: s)
    rw [loneSurrogates, if_neg hpair, endsHigh_cons]
    by_cases hc : isHigh c = true
    · -- the next code unit is no low surrogate: the check fails, and there is one surrogate too many
      have hd : isLow d = false := by simpa [hc] using hpair
      have hrange : (d.val < 0xDC00 || 0xDFFF < d.val) = true := by
        simp only [isLow, Bool.and_eq_false_iff, decide_eq_false_iff_not] at hd
        simp only [Bool.or_eq_true, decide_eq_true_eq]
        omega
      rw [hasWellFormedUnicode, if_pos hc, isSurrogate_eq, hc, hrange, if_pos rfl, Bool.true_or, if_pos rfl]
      simp only [Bool.false_eq_true, false_iff]
      omega
    · by_cases hl : isLow c = true
      · rw [hasWellFormedUnicode, if_neg hc, if_pos hl, isSurrogate_eq, hl, Bool.or_true, if_pos rfl]
        simp only [Bool.false_eq_true, false_iff]
        omega
      · have hs : isSurrogate c = false := by simp [isSurrogate_eq, hc, hl]
        rw [hasWellFormedUnicode, if_neg hc, if_neg hl, hs, if_neg (by simp), Nat.zero_add]
        exact ih

/-! ## The heap -/

/-- A value: an object is a cell, a number that is not finite is `none`, and `other` is `undefined`, a function, a symbol
or a `bigint`. -/
inductive Item (n : Nat) where
  | null
  | bool (b : Bool)
  | number (d : Option Binary64)
  | string (s : Text)
  | ref (cell : Fin n)
  | other

/-- An object: an array, a plain object with each key once, or an object with another prototype. -/
inductive Cell (n : Nat) where
  | array (items : List (Item n))
  | plain (fields : List (Text × Item n)) (once : (fields.map Prod.fst).Nodup)
  | exotic

abbrev Heap (n : Nat) := Fin n → Cell n

/-- The messages of `RelayV2MaterializedStateError`. -/
inductive Fault where
  | invalidString
  | invalidKey
  | nonFinite
  | nonJson
  | cyclic
  | nonPlain
  deriving DecidableEq, Repr

/-- The fields in the order of `Object.keys(record).sort()`. -/
def byKey {α : Type} (fields : List (Text × α)) : List (Text × α) := fields.insertionSort fun a b => a.1 ≤ b.1

def join : List Text → Text
  | [] => []
  | [s] => s
  | s :: parts => s ++ 0x2C :: join parts

/-- `visit`; `seen` are the cells that are being visited.  The error is `none` if it ran out of steps. -/
def visit {n : Nat} (heap : Heap n) : Nat → List (Fin n) → Item n → Except (Option Fault) Text
  | _, _, .null => .ok Value.null.text
  | _, _, .bool b => .ok (Value.bool b).text
  | _, _, .string s => if hasWellFormedUnicode s then .ok (quote s) else .error (some .invalidString)
  | _, _, .number (some d) => .ok (numberText d)
  | _, _, .number none => .error (some .nonFinite)
  | _, _, .other => .error (some .nonJson)
  | 0, _, .ref _ => .error none
  | steps + 1, seen, .ref cell =>
    if seen.contains cell then .error (some .cyclic)
    else
      match heap cell with
      | .array items => do
        let parts ← items.mapM (visit heap steps (cell :: seen))
        return 0x5B :: (join parts ++ [0x5D])
      | .exotic => .error (some .nonPlain)
      | .plain fields _ =>
        if fields.all (fun f => hasWellFormedUnicode f.1) then do
          let parts ← (byKey fields).mapM fun f => do return quote f.1 ++ 0x3A :: (← visit heap steps (cell :: seen) f.2)
          return 0x7B :: (join parts ++ [0x7D])
        else .error (some .invalidKey)

/-- `canonicalizeRelayV2MaterializedJson`: no more cells can be visited at a time than there are. -/
def canonicalizeRelayV2MaterializedJson {n : Nat} (heap : Heap n) (item : Item n) : Except (Option Fault) Text :=
  visit heap (n + 1) [] item

end Canonical
end TmuxWorktree
