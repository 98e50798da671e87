import Mathlib.Tactic.Ring
/-!
# Binary64 — the finite doubles, and the double that is nearest to a fraction

The magnitude of a finite double is told by the 63 bits below its sign, read as a number: it grows with them.  In units of
the least positive double, `2 ^ -1074`, every magnitude is a natural number, and so is what is rounded.
-/
namespace TmuxWorktree
namespace Binary64

/-- The hidden bit, which is also the number of fractions to an exponent. -/
def hidden : Nat := 2 ^ 52

/-- The bits of the infinity. -/
def infinity : Nat := 2047 * hidden

/-- The magnitude that the bits tell, in units of `2 ^ -1074`. -/
def scaled (bits : Nat) : Nat :=
  if bits / hidden = 0 then bits else (hidden + bits % hidden) * 2 ^ (bits / hidden - 1)

/-- The natural number nearest to `p / q`, the even one of two. -/
def roundHalfEven (p q : Nat) : Nat :=
  if 2 * (p % q) < q then p / q else if q < 2 * (p % q) then p / q + 1 else p / q + p / q % 2

/-- The bits of the magnitude nearest to `p / q`, in units of `2 ^ -1074`: 53 significant bits are kept, and a carry out of
them goes into the exponent. -/
def nearest (p q : Nat) : Nat :=
  let shift := Nat.log2 (p / q) - 52
  shift * hidden + roundHalfEven p (q * 2 ^ shift)

theorem roundHalfEven_mul {q : Nat} (hq : 0 < q) (m : Nat) : roundHalfEven (m * q) q = m := by
  unfold roundHalfEven
  rw [Nat.mul_mod_left, Nat.mul_div_cancel m hq, if_pos (by omega)]

theorem log2_scaled {bits : Nat} : Nat.log2 (scaled bits) - 52 = bits / hidden - 1 := by
  unfold scaled
  split
  next h =>
    have hlt : bits < 2 ^ 52 := by
      rcases Nat.div_eq_zero_iff.mp h with h0 | hlt
      · simp [hidden] at h0
      · exact hlt
    rw [h]
    by_cases hz : bits = 0
    · rw [hz]
      rfl
    · have := (Nat.log2_lt hz).mpr hlt
      omega
  next h =>
    have hmod : bits % hidden < hidden := Nat.mod_lt _ (by decide)
    have hlog : Nat.log2 ((hidden + bits % hidden) * 2 ^ (bits / hidden - 1)) = 52 + (bits / hidden - 1) := by
      rw [Nat.log2_eq_iff (Nat.pos_iff_ne_zero.mp (Nat.mul_pos (Nat.add_pos_left (by decide) _) (Nat.two_pow_pos _)))]
      constructor
      · rw [Nat.pow_add]
        exact Nat.mul_le_mul_right _ (Nat.le_add_right _ _)
      · rw [show 52 + (bits / hidden - 1) + 1 = 53 + (bits / hidden - 1) by omega, Nat.pow_add]
        refine Nat.mul_lt_mul_of_pos_right ?_ (Nat.two_pow_pos _)
        have : (2 : Nat) ^ 53 = hidden + hidden := by decide
        omega
    rw [hlog]
    omega

/-- **A magnitude is nearest to itself**, whatever fraction it is written as. -/
theorem nearest_scaled {q : Nat} (hq : 0 < q) (bits : Nat) : nearest (scaled bits * q) q = bits := by
  unfold nearest
  rw [Nat.mul_div_cancel _ hq, log2_scaled]
  dsimp only
  have hround : roundHalfEven (scaled bits * q) (q * 2 ^ (bits / hidden - 1)) =
      if bits / hidden = 0 then bits else hidden + bits % hidden := by
    unfold scaled
    split
    next h =>
      rw [h, Nat.zero_sub, Nat.pow_zero, Nat.mul_one]
      exact roundHalfEven_mul hq bits
    next h =>
      rw [Nat.mul_assoc, Nat.mul_comm (2 ^ _) q]
      exact roundHalfEven_mul (Nat.mul_pos hq (Nat.two_pow_pos _)) _
  rw [hround]
  have hdiv := Nat.div_add_mod bits hidden
  split
  next h => simp [h]
  next h =>
    obtain ⟨k, hk⟩ := Nat.exists_eq_succ_of_ne_zero h
    rw [hk] at hdiv ⊢
    rw [Nat.mul_succ] at hdiv
    rw [Nat.succ_sub_one, Nat.mul_comm]
    omega

theorem roundHalfEven_le {p q b : Nat} (hq : 0 < q) (h : p ≤ b * q) : roundHalfEven p q ≤ b := by
  have hdiv := Nat.div_add_mod p q
  have hmod := Nat.mod_lt p hq
  have hle : p / q ≤ b := by
    rw [Nat.div_le_iff_le_mul hq]
    omega
  unfold roundHalfEven
  split
  · exact hle
  · -- not below the half: the quotient is below the bound, since nothing is left over at the bound
    have hlt : p / q < b := by
      by_contra hge
      have heq : p / q = b := Nat.le_antisymm hle (Nat.le_of_not_lt hge)
      rw [heq, Nat.mul_comm] at hdiv
      omega
    split
    · exact hlt
    · have := Nat.mod_lt (p / q) (show 0 < 2 by decide)
      omega

/-- **What is not too large is finite.** -/
theorem nearest_lt {p q k : Nat} (hq : 0 < q) (hk : k ≤ 2000) (h : p < 2 ^ k * q) : nearest p q < infinity := by
  have hfloor : p / q < 2 ^ k := (Nat.div_lt_iff_lt_mul hq).mpr h
  have hlog : Nat.log2 (p / q) ≤ k := by
    by_cases hz : p / q = 0
    · rw [hz]
      exact Nat.zero_le k
    · exact Nat.le_of_lt ((Nat.log2_lt hz).mpr hfloor)
  have hround : roundHalfEven p (q * 2 ^ (Nat.log2 (p / q) - 52)) ≤ 2 ^ 53 := by
    refine roundHalfEven_le (Nat.mul_pos hq (Nat.two_pow_pos _)) ?_
    have hp : p < 2 ^ (Nat.log2 (p / q) + 1) * q := (Nat.div_lt_iff_lt_mul hq).mp Nat.lt_log2_self
    have hpow : 2 ^ (Nat.log2 (p / q) + 1) ≤ 2 ^ 53 * 2 ^ (Nat.log2 (p / q) - 52) := by
      rw [← Nat.pow_add]
      exact Nat.pow_le_pow_right (by omega) (by omega)
    calc p ≤ 2 ^ (Nat.log2 (p / q) + 1) * q := Nat.le_of_lt hp
      _ ≤ 2 ^ 53 * 2 ^ (Nat.log2 (p / q) - 52) * q := Nat.mul_le_mul_right q hpow
      _ = 2 ^ 53 * (q * 2 ^ (Nat.log2 (p / q) - 52)) := by ring
  have hshift : (Nat.log2 (p / q) - 52) * hidden ≤ 2000 * hidden := Nat.mul_le_mul_right _ (by omega)
  have hbound : 2000 * hidden + 2 ^ 53 < infinity := by decide
  unfold nearest
  dsimp only
  omega

end Binary64

/-- A finite double, by its bits. -/
structure Binary64 where
  negative : Bool
  bits : Nat
  finite : bits < Binary64.infinity
  deriving DecidableEq

end TmuxWorktree
