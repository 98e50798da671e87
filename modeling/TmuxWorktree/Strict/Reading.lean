import TmuxWorktree.Strict.Scans
import TmuxWorktree.Lib.Ends
/-!
# Reading — what the parser makes of a text

A parse that ends well has read a value of the grammar, within the limits, and its counters say what it read; and the
steps it is given are enough for it to end.
-/
namespace TmuxWorktree
namespace Strict

open Utf16 Grammar

/-! ## What is admitted -/

/-- An integer is safe, and any other number is finite. -/
def Allowed (l : Literal) : Prop := if l.isInteger = true then l.significand ≤ maxSafeInteger else l.number.isSome = true

mutual

/-- No object has a key twice, or more keys than it may, and the numbers are allowed. -/
def Lawful (maxDirectKeys : Nat) : Tree → Prop
  | .number l => Allowed l
  | .array items => lawfulItems maxDirectKeys items
  | .object fields => (fields.map Prod.fst).Nodup ∧ fields.length ≤ maxDirectKeys ∧ lawfulFields maxDirectKeys fields
  | _ => True

def lawfulItems (maxDirectKeys : Nat) : List Tree → Prop
  | [] => True
  | t :: items => Lawful maxDirectKeys t ∧ lawfulItems maxDirectKeys items

def lawfulFields (maxDirectKeys : Nat) : List (Text × Tree) → Prop
  | [] => True
  | (_, t) :: fields => Lawful maxDirectKeys t ∧ lawfulFields maxDirectKeys fields

end

theorem allowed_number {l : Literal} (h : Allowed l) : ∃ d, l.number = some d := by
  unfold Allowed at h
  split at h
  next hinteger =>
    have hscale : l.scale = 0 := by
      simp only [Literal.isInteger, Bool.and_eq_true, Option.isNone_iff_eq_none] at hinteger
      simp [Literal.scale, hinteger.1, hinteger.2]
    have hsafe : l.significand < 2 ^ 53 := Nat.lt_of_le_of_lt h (by decide)
    have hbits : l.bits < Binary64.infinity := by
      unfold Literal.bits
      rw [hscale, neg_zero, Int.toNat_zero, Nat.pow_zero, Nat.mul_one]
      generalize hk : 1074 = k
      refine Binary64.nearest_lt (k := 53 + k) Nat.one_pos (by omega) ?_
      rw [Nat.mul_one, Nat.pow_add]
      exact Nat.mul_lt_mul_of_pos_right hsafe (Nat.two_pow_pos k)
    exact ⟨⟨l.negative, l.bits, hbits⟩, by simp [Literal.number, hbits]⟩
  next => exact Option.isSome_iff_exists.mp h

mutual

theorem lawful_value {m : Nat} : ∀ {t : Tree}, Lawful m t → ∃ v, t.value = some v
  | .null, _ => ⟨_, rfl⟩
  | .bool _, _ => ⟨_, rfl⟩
  | .string _, _ => ⟨_, rfl⟩
  | .number l, h => by
    obtain ⟨d, hd⟩ := allowed_number h
    exact ⟨.number d, by rw [Tree.value, hd]; rfl⟩
  | .array items, h => by
    obtain ⟨vs, hvs⟩ := lawful_items h
    exact ⟨.array vs, by rw [Tree.value, hvs]; rfl⟩
  | .object fields, h => by
    obtain ⟨vs, hvs⟩ := lawful_fields h.2.2
    exact ⟨.object vs, by rw [Tree.value, hvs]; rfl⟩

theorem lawful_items {m : Nat} : ∀ {items : List Tree}, lawfulItems m items → ∃ vs, valueItems items = some vs
  | [], _ => ⟨[], rfl⟩
  | t :: items, h => by
    obtain ⟨v, hv⟩ := lawful_value h.1
    obtain ⟨vs, hvs⟩ := lawful_items h.2
    exact ⟨v :: vs, by rw [valueItems, hv, hvs]; rfl⟩

theorem lawful_fields {m : Nat} : ∀ {fields : List (Text × Tree)}, lawfulFields m fields → ∃ vs, valueFields fields = some vs
  | [], _ => ⟨[], rfl⟩
  | (k, t) :: fields, h => by
    obtain ⟨v, hv⟩ := lawful_value h.1
    obtain ⟨vs, hvs⟩ := lawful_fields h.2
    exact ⟨(k, v) :: vs, by rw [valueFields, hv, hvs]; rfl⟩

end

/-! ## What a parse leaves -/

/-- What `parseValue` returns: nothing for an array or an object that is not built. -/
def seen (build : Bool) (t : Tree) : Option Value :=
  match t with
  | .array _ => if build then t.value else none
  | .object _ => if build then t.value else none
  | _ => t.value

/-- The last string under the key `type`. -/
def typeFields : List (Text × Tree) → Option Text → Option Text
  | [], acc => acc
  | (k, .string s) :: fields, acc => typeFields fields (if k = typeKey then some s else acc)
  | _ :: fields, acc => typeFields fields acc

def typeOf (t : Tree) (acc : Option Text) : Option Text :=
  match t with
  | .object fields => typeFields fields acc
  | _ => acc

def isObject : Tree → Bool
  | .object _ => true
  | _ => false

def Parser.after (p : Parser) (depth : Nat) (root : Bool) (t : Tree) (r : Text) : Parser where
  rest := r
  totalKeys := p.totalKeys + t.keys
  totalNodes := p.totalNodes + t.nodes
  rootType := if depth = 0 then typeOf t p.rootType else p.rootType
  rootIsObject := p.rootIsObject || (root && isObject t)

def Parser.afterItems (p : Parser) (items : List Tree) (r : Text) : Parser :=
  { p with rest := r, totalKeys := p.totalKeys + keysItems items, totalNodes := p.totalNodes + nodesItems items }

def Parser.afterFields (p : Parser) (depth : Nat) (fields : List (Text × Tree)) (r : Text) : Parser :=
  { p with
    rest := r
    totalKeys := p.totalKeys + keysFields fields
    totalNodes := p.totalNodes + nodesFields fields
    rootType := if depth = 1 then typeFields fields p.rootType else p.rootType }

/-! ## Scalars -/

theorem parseString_ends {p : Parser} {s : Text} (hp : p.rest = 0x22 :: s) :
    Ends (parseString p) (fun x => ∃ r, Chars s x.1 r ∧ r.length < s.length ∧ x.2 = { p with rest := r }) (· ≠ none) := by
  unfold parseString
  rw [hp, List.drop_one, List.tail_cons]
  split
  next => exact Ends.error (by simp)
  next body r hscan =>
    obtain ⟨t, hun, hchars, hlen⟩ := scanString_sound hscan
    rw [hun]
    exact Ends.ok ⟨r, hchars, hlen, rfl⟩

theorem parseNumber_ends (p : Parser) :
    Ends (parseNumber p) (fun x => ∃ l r, Number p.rest l r ∧ r.length < p.rest.length ∧ Allowed l ∧
      x = (l.number.map .number, { p with rest := r })) (· ≠ none) := by
  unfold parseNumber
  split
  next => exact Ends.error (by simp)
  next l r hmatch =>
    obtain ⟨hnumber, hlen⟩ := matchNumber_sound hmatch
    refine Ends.ite (fun _ => Ends.error (by simp)) fun hsafe => ?_
    split
    next => exact Ends.error (by simp)
    next d hd =>
      refine Ends.ok ⟨l, r, hnumber, hlen, ?_, by rw [hd]; rfl⟩
      unfold Allowed
      split
      next hinteger => simpa [hinteger] using hsafe
      next => rw [hd]; rfl

theorem parseLiteral_ends (text : Text) (value : Value) (p : Parser) :
    Ends (parseLiteral text value p) (fun x => ∃ r, p.rest = text ++ r ∧ x = (some value, { p with rest := r })) (· ≠ none) := by
  unfold parseLiteral
  refine Ends.ite (fun h => Ends.ok ⟨p.rest.drop text.length, ?_, rfl⟩) fun _ => Ends.error (by simp)
  have hsplit := (List.take_append_drop text.length p.rest).symm
  rw [h] at hsplit
  exact hsplit

end Strict
end TmuxWorktree
