import Mathlib.Data.List.Basic
import Mathlib.Algebra.Order.Ring.Nat
/-!
# Base64 — sextets and bytes

Decoding turns four sextets into three bytes, encoding three bytes into four sextets.  A text that does not end in a
full group has unused bits in its last sextet: it is what its bytes encode to exactly if these are zero.
-/
namespace TmuxWorktree
namespace Base64

/-- The bytes of a list of sextets; a single sextet at the end has not enough bits for one. -/
def decode : List Nat → List Nat
  | [] | [_] => []
  | [a, b] => [a * 4 + b / 16]
  | [a, b, c] => [a * 4 + b / 16, b % 16 * 16 + c / 4]
  | a :: b :: c :: d :: s => (a * 4 + b / 16) :: (b % 16 * 16 + c / 4) :: (c % 4 * 64 + d) :: decode s

/-- The sextets of a list of bytes, without padding. -/
def encode : List Nat → List Nat
  | [] => []
  | [x] => [x / 4, x % 4 * 16]
  | [x, y] => [x / 4, x % 4 * 16 + y / 16, y % 16 * 4]
  | x :: y :: z :: s => (x / 4) :: (x % 4 * 16 + y / 16) :: (y % 16 * 4 + z / 64) :: (z % 64) :: encode s

/-- The unused bits at the end are zero. -/
def canonical : List Nat → Bool
  | [] => true
  | [_] => false
  | [_, b] => b % 16 = 0
  | [_, _, c] => c % 4 = 0
  | _ :: _ :: _ :: _ :: s => canonical s

/-- **The round trip** holds exactly if the unused bits are zero. -/
theorem encode_decode_iff : ∀ {s : List Nat}, (∀ x ∈ s, x < 64) → (encode (decode s) = s ↔ canonical s = true)
  | [], _ => by simp [decode, encode, canonical]
  | [a], _ => by simp [decode, encode, canonical]
  | [a, b], h => by
    have hb := h b (by simp)
    have h1 : (a * 4 + b / 16) / 4 = a := by omega
    have h2 : (a * 4 + b / 16) % 4 * 16 = b ↔ b % 16 = 0 := by omega
    simp only [decode, encode, canonical, h1, h2, List.cons.injEq, and_true, true_and, decide_eq_true_eq]
  | [a, b, c], h => by
    have hb := h b (by simp)
    have hc := h c (by simp)
    have h1 : (a * 4 + b / 16) / 4 = a := by omega
    have h2 : (a * 4 + b / 16) % 4 * 16 + (b % 16 * 16 + c / 4) / 16 = b := by omega
    have h3 : (b % 16 * 16 + c / 4) % 16 * 4 = c ↔ c % 4 = 0 := by omega
    simp only [decode, encode, canonical, h1, h2, h3, List.cons.injEq, and_true, true_and, decide_eq_true_eq]
  | a :: b :: c :: d :: s, h => by
    have hb := h b (by simp)
    have hc := h c (by simp)
    have hd := h d (by simp)
    have h1 : (a * 4 + b / 16) / 4 = a := by omega
    have h2 : (a * 4 + b / 16) % 4 * 16 + (b % 16 * 16 + c / 4) / 16 = b := by omega
    have h3 : (b % 16 * 16 + c / 4) % 16 * 4 + (c % 4 * 64 + d) / 64 = c := by omega
    have h4 : (c % 4 * 64 + d) % 64 = d := by omega
    have hs : ∀ x ∈ s, x < 64 := fun x hx => h x (by simp [hx])
    simp only [decode, encode, canonical, h1, h2, h3, h4, List.cons.injEq, true_and]
    exact encode_decode_iff hs

theorem decode_lt : ∀ {s : List Nat}, (∀ x ∈ s, x < 64) → ∀ y ∈ decode s, y < 256
  | [], _, y, hy => by simp [decode] at hy
  | [a], _, y, hy => by simp [decode] at hy
  | [a, b], h, y, hy => by
    have ha := h a (by simp)
    have hb := h b (by simp)
    simp only [decode, List.mem_cons, List.not_mem_nil, or_false] at hy
    omega
  | [a, b, c], h, y, hy => by
    have ha := h a (by simp)
    have hb := h b (by simp)
    have hc := h c (by simp)
    simp only [decode, List.mem_cons, List.not_mem_nil, or_false] at hy
    omega
  | a :: b :: c :: d :: s, h, y, hy => by
    have ha := h a (by simp)
    have hb := h b (by simp)
    have hc := h c (by simp)
    have hd := h d (by simp)
    simp only [decode, List.mem_cons] at hy
    rcases hy with hy | hy | hy | hy
    · omega
    · omega
    · omega
    · exact decode_lt (fun x hx => h x (by simp [hx])) y hy

theorem encode_lt : ∀ {s : List Nat}, (∀ x ∈ s, x < 256) → ∀ y ∈ encode s, y < 64
  | [], _, y, hy => by simp [encode] at hy
  | [a], h, y, hy => by
    have ha := h a (by simp)
    simp only [encode, List.mem_cons, List.not_mem_nil, or_false] at hy
    omega
  | [a, b], h, y, hy => by
    have ha := h a (by simp)
    have hb := h b (by simp)
    simp only [encode, List.mem_cons, List.not_mem_nil, or_false] at hy
    omega
  | a :: b :: c :: s, h, y, hy => by
    have ha := h a (by simp)
    have hb := h b (by simp)
    have hc := h c (by simp)
    simp only [encode, List.mem_cons] at hy
    rcases hy with hy | hy | hy | hy | hy
    · omega
    · omega
    · omega
    · omega
    · exact encode_lt (fun x hx => h x (by simp [hx])) y hy

/-- A single sextet at the end is not canonical. -/
theorem canonical_length : ∀ {s : List Nat}, canonical s = true → s.length % 4 ≠ 1
  | [], _ => by simp
  | [a], h => by simp [canonical] at h
  | [a, b], _ => by simp
  | [a, b, c], _ => by simp
  | a :: b :: c :: d :: s, h => by
    have hs := canonical_length (s := s) h
    simp only [List.length_cons]
    omega

end Base64
end TmuxWorktree
