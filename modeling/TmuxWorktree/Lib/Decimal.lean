import TmuxWorktree.Lib.Grammar
import Mathlib.Data.Nat.Digits.Lemmas
/-!
# Decimal — how JavaScript writes a number

`Number::toString` writes the fewest digits that are read back as the same double, and of those the nearest to it.  The
exact value of a double is a whole number of units of `10 ^ -1074`; so digits are cut off that number, until fewer would
round to another double.
-/
namespace TmuxWorktree
namespace Grammar

open Utf16

/-! ## Fractions -/

theorem nearest_mul {c : Nat} (hc : 0 < c) (p q : Nat) : Binary64.nearest (p * c) (q * c) = Binary64.nearest p q := by
  have hround (p q : Nat) : Binary64.roundHalfEven (p * c) (q * c) = Binary64.roundHalfEven p q := by
    unfold Binary64.roundHalfEven
    rw [Nat.mul_mod_mul_right, Nat.mul_div_mul_right p q hc, ← Nat.mul_assoc]
    simp only [Nat.mul_lt_mul_right hc]
  unfold Binary64.nearest
  rw [Nat.mul_div_mul_right p q hc]
  dsimp only
  rw [Nat.mul_right_comm q c, hround]

/-- The nearest double depends on the fraction only. -/
theorem nearest_congr {p q p' q' : Nat} (hq : 0 < q) (hq' : 0 < q') (h : p * q' = p' * q) :
    Binary64.nearest p q = Binary64.nearest p' q' := by
  rw [← nearest_mul hq' p q, h, Nat.mul_comm q q', nearest_mul hq]

theorem nearest_zero (q : Nat) : Binary64.nearest 0 q = 0 := by
  unfold Binary64.nearest Binary64.roundHalfEven
  simp

/-! ## Digits -/

def digitUnit (n : Nat) : CodeUnit := Fin.ofNat 65536 (48 + n)

/-- The decimal digits of a number. -/
def decimalText (n : Nat) : Text := (Nat.digits 10 n).reverse.map digitUnit

theorem digitUnit_val {n : Nat} (h : n < 10) : (digitUnit n).val = 48 + n := by
  simp only [digitUnit, Fin.ofNat]
  omega

theorem digits_append (s t : Text) : digits (s ++ t) = digits s * 10 ^ t.length + digits t := by
  have hfold (t : Text) (a : Nat) : t.foldl (fun n c => 10 * n + (c.val - 48)) a =
      a * 10 ^ t.length + t.foldl (fun n c => 10 * n + (c.val - 48)) 0 := by
    induction t generalizing a with
    | nil => simp
    | cons c t ih =>
      rw [List.foldl_cons, List.foldl_cons, ih, ih (10 * 0 + (c.val - 48)), List.length_cons, Nat.pow_succ]
      ring
  unfold digits
  rw [List.foldl_append, hfold t]

theorem digits_decimalText (n : Nat) : digits (decimalText n) = n := by
  have hfold (l : List Nat) (hl : ∀ d ∈ l, d < 10) : digits (l.reverse.map digitUnit) = Nat.ofDigits 10 l := by
    induction l with
    | nil => rfl
    | cons d l ih =>
      have hd := digitUnit_val (hl d (.head _))
      rw [List.reverse_cons, List.map_append, digits_append, ih fun d hd => hl d (.tail _ hd), Nat.ofDigits_cons]
      simp only [List.map_cons, List.map_nil, List.length_cons, List.length_nil, digits, List.foldl_cons, List.foldl_nil, hd]
      omega
  unfold decimalText
  rw [hfold _ fun d hd => Nat.digits_lt_base (by decide) hd, Nat.ofDigits_digits]

theorem allDigits_decimalText (n : Nat) : AllDigits (decimalText n) := by
  intro c hc
  obtain ⟨d, hd, rfl⟩ := List.mem_map.mp hc
  have hlt : d < 10 := Nat.digits_lt_base (by decide) (List.mem_reverse.mp hd)
  simp only [isDigit, digitUnit_val hlt, Bool.and_eq_true, decide_eq_true_eq]
  omega

/-- The first digit of a number that is not zero. -/
theorem decimalText_cons {n : Nat} (hn : n ≠ 0) : ∃ c ds, decimalText n = c :: ds ∧ c ≠ 0x30 := by
  have hne : Nat.digits 10 n ≠ [] := Nat.digits_ne_nil_iff_ne_zero.mpr hn
  have hlast := Nat.getLast_digit_ne_zero 10 hn
  have hlt : (Nat.digits 10 n).getLast hne < 10 := Nat.digits_lt_base (by decide) (List.getLast_mem hne)
  refine ⟨digitUnit ((Nat.digits 10 n).getLast hne), (Nat.digits 10 n).dropLast.reverse.map digitUnit, ?_, fun hc => ?_⟩
  · unfold decimalText
    conv_lhs => rw [← List.dropLast_append_getLast hne, List.reverse_append]
    rfl
  · have hval := congrArg Fin.val hc
    rw [digitUnit_val hlt] at hval
    exact hlast (by simpa using hval)

/-! ## The shortest digits -/

/-- The digits of the exact value, in units of `10 ^ -1074`. -/
def exactDigits (bits : Nat) : Nat := Binary64.scaled bits * 5 ^ 1074

/-- The bits of the double nearest to `s * 10 ^ shift`, in the same units. -/
def decimalBits (s shift : Nat) : Nat := Binary64.nearest (s * 10 ^ shift * 2 ^ 1074) (10 ^ 1074)

/-- The nearest number of `k` digits that is read back as the double, of the two next to its value. -/
def candidate (bits k : Nat) : Option (Nat × Nat) :=
  let shift := (Nat.digits 10 (exactDigits bits)).length - k
  let low := exactDigits bits / 10 ^ shift
  let excess := exactDigits bits % 10 ^ shift
  let nearLow := 2 * excess < 10 ^ shift || (2 * excess = 10 ^ shift && low % 2 = 0)
  if decimalBits low shift = bits && (nearLow || decimalBits (low + 1) shift ≠ bits) then some (low, shift)
  else if decimalBits (low + 1) shift = bits then
    if low + 1 = 10 ^ k then some (1, shift + k) else some (low + 1, shift)
  else none

/-- The fewest digits. -/
def shortest (bits : Nat) : Nat × Nat :=
  ((List.range (Nat.digits 10 (exactDigits bits)).length).findSome? fun i => candidate bits (i + 1)).getD (exactDigits bits, 0)

theorem candidate_bits {bits k : Nat} {x : Nat × Nat} (h : candidate bits k = some x) : decimalBits x.1 x.2 = bits := by
  unfold candidate at h
  dsimp only at h
  split at h
  next hlow =>
    cases h
    simp only [Bool.and_eq_true, decide_eq_true_eq] at hlow
    exact hlow.1
  next =>
    split at h
    next hhigh =>
      split at h
      next hcarry =>
        cases h
        rw [hcarry] at hhigh
        refine Eq.trans ?_ hhigh
        unfold decimalBits
        rw [Nat.one_mul, Nat.pow_add, Nat.mul_comm (10 ^ _) (10 ^ k)]
      next =>
        cases h
        exact hhigh
    next => cases h

/-- **The shortest digits are read back.** -/
theorem shortest_bits (bits : Nat) : decimalBits (shortest bits).1 (shortest bits).2 = bits := by
  unfold shortest
  cases hfind : (List.range (Nat.digits 10 (exactDigits bits)).length).findSome? fun i => candidate bits (i + 1) with
  | some x =>
    obtain ⟨i, -, hi⟩ := List.exists_of_findSome?_eq_some hfind
    exact candidate_bits hi
  | none =>
    dsimp only [Option.getD]
    unfold decimalBits exactDigits
    rw [Nat.pow_zero, Nat.mul_one, Nat.mul_assoc, ← Nat.mul_pow]
    exact Binary64.nearest_scaled (Nat.pow_pos (by decide)) bits

theorem shortest_ne_zero {bits : Nat} (h : bits ≠ 0) : (shortest bits).1 ≠ 0 := by
  intro hz
  have hbits := shortest_bits bits
  rw [hz] at hbits
  unfold decimalBits at hbits
  rw [Nat.zero_mul, Nat.zero_mul, nearest_zero] at hbits
  exact h hbits.symm

/-! ## The literal -/

/-- The number `s * 10 ^ (shift - 1074)` as `Number::toString` lays it out: plain digits, digits with a point, or digits
with an exponent. -/
def layout (negative : Bool) (s shift : Nat) : Literal :=
  let ds := decimalText s
  let k := ds.length
  let n : Int := k + shift - 1074
  if k ≤ n ∧ n ≤ 21 then ⟨negative, ds ++ List.replicate (n - k).toNat 0x30, none, none⟩
  else if 0 < n ∧ n ≤ 21 then ⟨negative, ds.take n.toNat, some (ds.drop n.toNat), none⟩
  else if -6 < n ∧ n ≤ 0 then ⟨negative, [0x30], some (List.replicate (-n).toNat 0x30 ++ ds), none⟩
  else ⟨negative, ds.take 1, if k = 1 then none else some (ds.drop 1), some (n - 1 < 0, decimalText (n - 1).natAbs)⟩

/-- `Number::toString`, as a literal; zero has no sign. -/
def numberLiteral (d : Binary64) : Literal :=
  if d.bits = 0 then ⟨false, [0x30], none, none⟩ else layout d.negative (shortest d.bits).1 (shortest d.bits).2

/-- A literal as JavaScript writes it: its exponent always has a sign. -/
def Literal.text (l : Literal) : Text :=
  (if l.negative then [0x2D] else []) ++ (l.whole ++ ((l.fraction.map (0x2E :: ·)).getD [] ++
    (l.exponent.map fun (negative, ds) => 0x65 :: (if negative then 0x2D else 0x2B) :: ds).getD []))

def numberText (d : Binary64) : Text := (numberLiteral d).text

/-- The parts of a literal are as the grammar has them. -/
structure Literal.Valid (l : Literal) : Prop where
  whole : l.whole = [0x30] ∨ ∃ c ds, l.whole = c :: ds ∧ c ≠ 0x30 ∧ AllDigits l.whole
  fraction : ∀ ds ∈ l.fraction, ds ≠ [] ∧ AllDigits ds
  exponent : ∀ e ∈ l.exponent, e.2 ≠ [] ∧ AllDigits e.2

/-- **A literal that is written is a number of the grammar.** -/
theorem Literal.Valid.number {l : Literal} (h : l.Valid) (r : Text) : Number (l.text ++ r) l r := by
  obtain ⟨negative, whole, fraction, exponent⟩ := l
  obtain ⟨hwhole, hfraction, hexponent⟩ := h
  dsimp only at hwhole hfraction hexponent
  have he : Exponent ((exponent.map fun (negative, ds) => 0x65 :: (if negative then 0x2D else 0x2B) :: ds).getD [] ++ r) exponent r := by
    cases exponent with
    | none => exact .none r
    | some e =>
      obtain ⟨hne, hds⟩ := hexponent e rfl
      obtain ⟨sign, ds⟩ := e
      refine .some (.inl rfl) ?_ hne hds
      cases sign with
      | true => exact .minus _
      | false => exact .plus _
  have hf : Fraction ((fraction.map (0x2E :: ·)).getD [] ++ ((exponent.map fun (negative, ds) =>
      0x65 :: (if negative then 0x2D else 0x2B) :: ds).getD [] ++ r)) fraction
      ((exponent.map fun (negative, ds) => 0x65 :: (if negative then 0x2D else 0x2B) :: ds).getD [] ++ r) := by
    cases fraction with
    | none => exact .none _
    | some ds =>
      obtain ⟨hne, hds⟩ := hfraction ds rfl
      exact .some hne hds _
  have hw (t : Text) : Whole (whole ++ t) whole t := by
    rcases hwhole with rfl | ⟨c, ds, rfl, hc, hds⟩
    · exact .zero t
    · exact .digits (hds c (.head _)) hc (fun d hd => hds d (.tail _ hd)) t
  refine ⟨_, _, _, ?_, hw _, hf, he⟩
  unfold Literal.text
  dsimp only
  rw [List.append_assoc, List.append_assoc, List.append_assoc]
  cases negative with
  | true => exact .minus _
  | false => exact .plus _

theorem allDigits_replicate (n : Nat) : AllDigits (List.replicate n 0x30) := by
  intro c hc
  rw [List.eq_of_mem_replicate hc]
  rfl

theorem allDigits_append {s t : Text} (hs : AllDigits s) (ht : AllDigits t) : AllDigits (s ++ t) := by
  intro c hc
  rcases List.mem_append.mp hc with h | h
  · exact hs c h
  · exact ht c h

theorem allDigits_take {s : Text} (h : AllDigits s) (n : Nat) : AllDigits (s.take n) := fun c hc => h c (List.mem_of_mem_take hc)

theorem allDigits_drop {s : Text} (h : AllDigits s) (n : Nat) : AllDigits (s.drop n) := fun c hc => h c (List.mem_of_mem_drop hc)

theorem layout_valid (negative : Bool) {s : Nat} (hs : s ≠ 0) (shift : Nat) : (layout negative s shift).Valid := by
  obtain ⟨c, ds, hcons, hc⟩ := decimalText_cons hs
  have hall := allDigits_decimalText s
  have hexp (m : Nat) (hm : m ≠ 0) : decimalText m ≠ [] := by
    obtain ⟨c, ds, hcons, -⟩ := decimalText_cons hm
    rw [hcons]
    simp
  unfold layout
  rw [hcons] at hall ⊢
  dsimp only
  split
  next =>
    exact ⟨.inr ⟨c, _, rfl, hc, allDigits_append hall (allDigits_replicate _)⟩, fun _ h => (by cases h), fun _ h => (by cases h)⟩
  next hplain =>
    split
    next hpoint =>
      obtain ⟨m, hm⟩ : ∃ m, (((c :: ds).length : Int) + shift - 1074).toNat = m + 1 := ⟨_, (Nat.succ_pred (by omega)).symm⟩
      rw [hm]
      refine ⟨.inr ⟨c, ds.take m, rfl, hc, allDigits_take hall (m + 1)⟩, fun f hf => ?_, fun _ h => (by cases h)⟩
      cases hf
      refine ⟨fun hnil => ?_, allDigits_drop hall (m + 1)⟩
      have := List.drop_eq_nil_iff.mp hnil
      omega
    next hpoint =>
      split
      next hsmall =>
        refine ⟨.inl rfl, fun f hf => ?_, fun _ h => (by cases h)⟩
        cases hf
        exact ⟨by simp, allDigits_append (allDigits_replicate _) hall⟩
      next hsmall =>
        refine ⟨.inr ⟨c, [], rfl, hc, allDigits_take hall 1⟩, fun f hf => ?_, fun e he => ?_⟩
        · split at hf
          next => cases hf
          next hlen =>
            cases hf
            refine ⟨fun hnil => ?_, allDigits_drop hall 1⟩
            have := List.drop_eq_nil_iff.mp hnil
            simp only [List.length_cons] at this hlen
            omega
        · cases he
          exact ⟨hexp _ (by omega), allDigits_decimalText _⟩

theorem digits_replicate (n : Nat) : digits (List.replicate n 0x30) = 0 := by
  induction n with
  | zero => rfl
  | succ n ih =>
    rw [List.replicate_succ, ← List.singleton_append, digits_append, ih]
    simp [digits]

/-- A literal with the same fraction has the same bits. -/
theorem literal_bits {l : Literal} {s shift : Nat}
    (h : l.significand * 10 ^ l.scale.toNat * 10 ^ 1074 = s * 10 ^ shift * 10 ^ (-l.scale).toNat) :
    l.bits = decimalBits s shift := by
  unfold Literal.bits decimalBits
  refine nearest_congr (Nat.pow_pos (by decide)) (Nat.pow_pos (by decide)) ?_
  rw [Nat.mul_right_comm, h, Nat.mul_right_comm]

theorem literal_bits_scale {l : Literal} {s shift : Nat} (hs : l.significand = s) (hscale : l.scale = (shift : Int) - 1074) :
    l.bits = decimalBits s shift := by
  apply literal_bits
  rw [hs, hscale, Nat.mul_assoc, Nat.mul_assoc, ← Nat.pow_add, ← Nat.pow_add]
  congr 2
  omega

theorem layout_bits (negative : Bool) {s : Nat} (hs : s ≠ 0) (shift : Nat) :
    (layout negative s shift).bits = decimalBits s shift := by
  have hdigits := digits_decimalText s
  have hlen : 1 ≤ (decimalText s).length := by
    obtain ⟨c, ds, hcons, -⟩ := decimalText_cons hs
    rw [hcons, List.length_cons]
    omega
  unfold layout
  dsimp only
  split
  next hplain =>
    apply literal_bits
    simp only [Literal.significand, Literal.scale, Option.getD_none, List.append_nil, List.length_nil, Nat.cast_zero, sub_zero,
      Int.toNat_zero, neg_zero, Nat.pow_zero, Nat.mul_one]
    rw [digits_append, hdigits, digits_replicate, List.length_replicate, Nat.add_zero, Nat.mul_assoc, ← Nat.pow_add]
    congr 2
    omega
  next hplain =>
    split
    next hpoint =>
      refine literal_bits_scale ?_ ?_
      · simp only [Literal.significand, Option.getD_some, List.take_append_drop]
        exact hdigits
      · simp only [Literal.scale, Option.getD_some, List.length_drop]
        omega
    next hpoint =>
      split
      next hsmall =>
        refine literal_bits_scale ?_ ?_
        · simp only [Literal.significand, Option.getD_some]
          rw [digits_append, digits_append, digits_replicate, hdigits]
          simp [digits]
        · simp only [Literal.scale, Option.getD_some, List.length_append, List.length_replicate]
          omega
      next hsmall =>
        refine literal_bits_scale ?_ ?_
        · unfold Literal.significand
          dsimp only
          split
          next hone =>
            rw [Option.getD_none, List.append_nil, List.take_of_length_le (by omega), hdigits]
          next hone => rw [Option.getD_some, List.take_append_drop, hdigits]
        · unfold Literal.scale
          dsimp only
          rw [digits_decimalText]
          have hfraction : ((if (decimalText s).length = 1 then none else some ((decimalText s).drop 1)).getD []).length =
              (decimalText s).length - 1 := by
            split
            next hone => rw [hone]; rfl
            next => rw [Option.getD_some, List.length_drop]
          rw [hfraction]
          by_cases hneg : ((decimalText s).length : Int) + shift - 1074 - 1 < 0
          · simp only [hneg, decide_true, if_true]
            omega
          · simp only [hneg, decide_false, Bool.false_eq_true, if_false]
            omega

/-- The double that its text is read as: zero has no sign. -/
def plain (d : Binary64) : Binary64 := if d.bits = 0 then ⟨false, d.bits, d.finite⟩ else d

theorem number_of_bits {l : Literal} {bits : Nat} (h : l.bits = bits) (hfinite : bits < Binary64.infinity) :
    l.number = some ⟨l.negative, bits, hfinite⟩ := by
  subst h
  exact dif_pos hfinite

theorem layout_negative (negative : Bool) (s shift : Nat) : (layout negative s shift).negative = negative := by
  unfold layout
  dsimp only
  split
  · rfl
  · split
    · rfl
    · split <;> rfl

theorem zero_bits : Literal.bits ⟨false, [0x30], none, none⟩ = 0 := by
  have hzero : Literal.significand ⟨false, [0x30], none, none⟩ = 0 := rfl
  unfold Literal.bits
  rw [hzero, Nat.zero_mul, Nat.zero_mul, nearest_zero]

/-- **A double that is written is read back.** -/
theorem numberLiteral_number (d : Binary64) : (numberLiteral d).number = some (plain d) := by
  unfold numberLiteral plain
  by_cases hz : d.bits = 0
  · rw [if_pos hz, if_pos hz]
    exact number_of_bits (zero_bits.trans hz.symm) d.finite
  · have hbits := (layout_bits d.negative (shortest_ne_zero hz) (shortest d.bits).2).trans (shortest_bits d.bits)
    rw [if_neg hz, if_neg hz, number_of_bits hbits d.finite, layout_negative]

/-- **`Number::toString` writes a number of the grammar.** -/
theorem numberText_reads (d : Binary64) (r : Text) : Number (numberText d ++ r) (numberLiteral d) r := by
  refine Literal.Valid.number ?_ r
  unfold numberLiteral
  split
  next => exact ⟨.inl rfl, fun _ h => (by cases h), fun _ h => (by cases h)⟩
  next hz =>
    have hne := shortest_ne_zero hz
    exact layout_valid _ hne _

theorem numberText_plain (d : Binary64) : numberText (plain d) = numberText d := by
  unfold numberText plain
  by_cases hz : d.bits = 0
  · rw [if_pos hz]
    unfold numberLiteral
    rw [if_pos hz, if_pos hz]
  · rw [if_neg hz]

example : numberText ⟨true, 0, by decide⟩ = [0x30] := by decide

end Grammar
end TmuxWorktree
