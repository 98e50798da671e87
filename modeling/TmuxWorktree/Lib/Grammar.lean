import TmuxWorktree.Lib.Utf16
import TmuxWorktree.Lib.Binary64
/-!
# Grammar — the texts of JSON (RFC 8259)

A text is a list of code units.  Each rule of the grammar relates a text to what its first part denotes and to what is
left of it.  What a text denotes is a tree, which still has the keys of an object in order and as often as they are
written, and its numbers as they are written.
-/
namespace TmuxWorktree
namespace Grammar

open Utf16

abbrev Text := List CodeUnit

/-! ## What a text denotes -/

/-- A number as it is written; the exponent has a sign and digits. -/
structure Literal where
  negative : Bool
  whole : Text
  fraction : Option Text
  exponent : Option (Bool × Text)
  deriving DecidableEq

inductive Tree where
  | null
  | bool (b : Bool)
  | number (l : Literal)
  | string (s : Text)
  | array (items : List Tree)
  | object (fields : List (Text × Tree))

/-- A value: its numbers are doubles. -/
inductive Value where
  | null
  | bool (b : Bool)
  | number (d : Binary64)
  | string (s : Text)
  | array (items : List Value)
  | object (fields : List (Text × Value))

/-! ## Numbers -/

def isDigit (c : CodeUnit) : Bool := 48 ≤ c.val && c.val ≤ 57

/-- The number that digits tell. -/
def digits (s : Text) : Nat := s.foldl (fun n c => 10 * n + (c.val - 48)) 0

namespace Literal

/-- It is written without a fraction and without an exponent. -/
def isInteger (l : Literal) : Bool := l.fraction.isNone && l.exponent.isNone

/-- The number is `significand * 10 ^ scale` but for its sign. -/
def significand (l : Literal) : Nat := digits (l.whole ++ l.fraction.getD [])

def scale (l : Literal) : Int :=
  (match l.exponent with
    | some (negative, s) => if negative then -(digits s : Int) else digits s
    | none => 0) - (l.fraction.getD []).length

/-- The bits of the double that is nearest. -/
def bits (l : Literal) : Nat := Binary64.nearest (l.significand * 10 ^ l.scale.toNat * 2 ^ 1074) (10 ^ (-l.scale).toNat)

/-- `Number`: the double, if it is not infinite. -/
def number (l : Literal) : Option Binary64 :=
  if h : l.bits < Binary64.infinity then some ⟨l.negative, l.bits, h⟩ else none

end Literal

/-! ## Values of trees -/

mutual

/-- The value of a tree, if its numbers are finite. -/
def Tree.value : Tree → Option Value
  | .null => some .null
  | .bool b => some (.bool b)
  | .number l => l.number.map .number
  | .string s => some (.string s)
  | .array items => (valueItems items).map .array
  | .object fields => (valueFields fields).map .object

def valueItems : List Tree → Option (List Value)
  | [] => some []
  | t :: items => do return (← t.value) :: (← valueItems items)

def valueFields : List (Text × Tree) → Option (List (Text × Value))
  | [] => some []
  | (k, t) :: fields => do return (k, ← t.value) :: (← valueFields fields)

end

/-! ## Whitespace and strings -/

def isSpace (c : CodeUnit) : Bool := c.val = 0x20 || c.val = 0x09 || c.val = 0x0D || c.val = 0x0A

inductive Space : Text → Text → Prop where
  | nil (s : Text) : Space s s
  | cons {c : CodeUnit} {s r : Text} (hc : isSpace c = true) (h : Space s r) : Space (c :: s) r

/-- A code unit that stands for itself in a string. -/
def isPlain (c : CodeUnit) : Bool := 0x20 ≤ c.val && c.val ≠ 0x22 && c.val ≠ 0x5C

/-- What the second character of an escape stands for. -/
def escaped (c : CodeUnit) : Option CodeUnit :=
  if c.val = 0x22 || c.val = 0x5C || c.val = 0x2F then some c
  else if c.val = 0x62 then some 0x08
  else if c.val = 0x66 then some 0x0C
  else if c.val = 0x6E then some 0x0A
  else if c.val = 0x72 then some 0x0D
  else if c.val = 0x74 then some 0x09
  else none

def hexDigit (c : CodeUnit) : Option Nat :=
  if 48 ≤ c.val && c.val ≤ 57 then some (c.val - 48)
  else if 65 ≤ c.val && c.val ≤ 70 then some (c.val - 55)
  else if 97 ≤ c.val && c.val ≤ 102 then some (c.val - 87)
  else none

/-- The code unit of four hexadecimal digits. -/
def hexUnit (a b c d : CodeUnit) : Option CodeUnit := do
  return Fin.ofNat 65536 ((((← hexDigit a) * 16 + (← hexDigit b)) * 16 + (← hexDigit c)) * 16 + (← hexDigit d))

/-- The rest of a string, after its opening quote and up to its closing one. -/
inductive Chars : Text → Text → Text → Prop where
  | close (r : Text) : Chars (0x22 :: r) [] r
  | plain {c : CodeUnit} {s t r : Text} (hc : isPlain c = true) (h : Chars s t r) : Chars (c :: s) (c :: t) r
  | escape {e c : CodeUnit} {s t r : Text} (he : escaped e = some c) (h : Chars s t r) : Chars (0x5C :: e :: s) (c :: t) r
  | unicode {a b c d u : CodeUnit} {s t r : Text} (hu : hexUnit a b c d = some u) (h : Chars s t r) :
      Chars (0x5C :: 0x75 :: a :: b :: c :: d :: s) (u :: t) r

/-! ## The parts of a number -/

inductive Minus : Text → Bool → Text → Prop where
  | plus (s : Text) : Minus s false s
  | minus (s : Text) : Minus (0x2D :: s) true s

def AllDigits (s : Text) : Prop := ∀ c ∈ s, isDigit c = true

inductive Whole : Text → Text → Text → Prop where
  | zero (r : Text) : Whole (0x30 :: r) [0x30] r
  | digits {c : CodeUnit} {ds : Text} (hc : isDigit c = true) (h0 : c ≠ 0x30) (hds : AllDigits ds) (r : Text) :
      Whole (c :: ds ++ r) (c :: ds) r

inductive Fraction : Text → Option Text → Text → Prop where
  | none (r : Text) : Fraction r none r
  | some {ds : Text} (hne : ds ≠ []) (hds : AllDigits ds) (r : Text) : Fraction (0x2E :: ds ++ r) (some ds) r

/-- The sign of an exponent. -/
inductive Sign : Text → Bool → Text → Prop where
  | none (s : Text) : Sign s false s
  | plus (s : Text) : Sign (0x2B :: s) false s
  | minus (s : Text) : Sign (0x2D :: s) true s

inductive Exponent : Text → Option (Bool × Text) → Text → Prop where
  | none (r : Text) : Exponent r none r
  | some {e : CodeUnit} {s ds : Text} {negative : Bool} {r : Text} (he : e = 0x65 ∨ e = 0x45)
      (hs : Sign s negative (ds ++ r)) (hne : ds ≠ []) (hds : AllDigits ds) : Exponent (e :: s) (some (negative, ds)) r

/-- `number = [ minus ] int [ frac ] [ exp ]`. -/
def Number (s : Text) (l : Literal) (r : Text) : Prop :=
  ∃ s₁ s₂ s₃, Minus s l.negative s₁ ∧ Whole s₁ l.whole s₂ ∧ Fraction s₂ l.fraction s₃ ∧ Exponent s₃ l.exponent r

/-! ## Values -/

mutual

inductive Reads : Text → Tree → Text → Prop where
  | null (r : Text) : Reads (0x6E :: 0x75 :: 0x6C :: 0x6C :: r) .null r
  | «true» (r : Text) : Reads (0x74 :: 0x72 :: 0x75 :: 0x65 :: r) (.bool true) r
  | «false» (r : Text) : Reads (0x66 :: 0x61 :: 0x6C :: 0x73 :: 0x65 :: r) (.bool false) r
  | number {s : Text} {l : Literal} {r : Text} (h : Number s l r) : Reads s (.number l) r
  | string {s t r : Text} (h : Chars s t r) : Reads (0x22 :: s) (.string t) r
  | noItems {s r : Text} (h : Space s (0x5D :: r)) : Reads (0x5B :: s) (.array []) r
  | array {s s' : Text} {items : List Tree} {r : Text} (hs : Space s s') (h : Elements s' items r) :
      Reads (0x5B :: s) (.array items) r
  | noFields {s r : Text} (h : Space s (0x7D :: r)) : Reads (0x7B :: s) (.object []) r
  | object {s s' : Text} {fields : List (Text × Tree)} {r : Text} (hs : Space s s') (h : Members s' fields r) :
      Reads (0x7B :: s) (.object fields) r

/-- The items of an array, up to its closing bracket. -/
inductive Elements : Text → List Tree → Text → Prop where
  | last {s : Text} {t : Tree} {s₁ r : Text} (ht : Reads s t s₁) (hs : Space s₁ (0x5D :: r)) : Elements s [t] r
  | cons {s : Text} {t : Tree} {s₁ s₂ s₃ : Text} {items : List Tree} {r : Text} (ht : Reads s t s₁)
      (hs : Space s₁ (0x2C :: s₂)) (hs' : Space s₂ s₃) (h : Elements s₃ items r) : Elements s (t :: items) r

/-- The members of an object, up to its closing brace. -/
inductive Members : Text → List (Text × Tree) → Text → Prop where
  | last {s k s₁ s₂ s₃ : Text} {t : Tree} {s₄ r : Text} (hk : Chars s k s₁) (hc : Space s₁ (0x3A :: s₂)) (hs : Space s₂ s₃)
      (ht : Reads s₃ t s₄) (he : Space s₄ (0x7D :: r)) : Members (0x22 :: s) [(k, t)] r
  | cons {s k s₁ s₂ s₃ : Text} {t : Tree} {s₄ s₅ s₆ : Text} {fields : List (Text × Tree)} {r : Text} (hk : Chars s k s₁)
      (hc : Space s₁ (0x3A :: s₂)) (hs : Space s₂ s₃) (ht : Reads s₃ t s₄) (he : Space s₄ (0x2C :: s₅)) (hs' : Space s₅ s₆)
      (h : Members s₆ fields r) : Members (0x22 :: s) ((k, t) :: fields) r

end

/-- **A JSON text**: a value between whitespace. -/
def Document (s : Text) (t : Tree) : Prop := ∃ s₁ s₂, Space s s₁ ∧ Reads s₁ t s₂ ∧ Space s₂ []

/-! ## Sizes -/

mutual

/-- The values in a tree. -/
def Tree.nodes : Tree → Nat
  | .array items => 1 + nodesItems items
  | .object fields => 1 + nodesFields fields
  | _ => 1

def nodesItems : List Tree → Nat
  | [] => 0
  | t :: items => t.nodes + nodesItems items

def nodesFields : List (Text × Tree) → Nat
  | [] => 0
  | (_, t) :: fields => t.nodes + nodesFields fields

end

mutual

/-- The keys in a tree. -/
def Tree.keys : Tree → Nat
  | .array items => keysItems items
  | .object fields => keysFields fields
  | _ => 0

def keysItems : List Tree → Nat
  | [] => 0
  | t :: items => t.keys + keysItems items

def keysFields : List (Text × Tree) → Nat
  | [] => 0
  | (_, t) :: fields => 1 + t.keys + keysFields fields

end

mutual

/-- How deep the arrays and objects of a tree nest. -/
def Tree.depth : Tree → Nat
  | .array items => 1 + depthItems items
  | .object fields => 1 + depthFields fields
  | _ => 0

def depthItems : List Tree → Nat
  | [] => 0
  | t :: items => max t.depth (depthItems items)

def depthFields : List (Text × Tree) → Nat
  | [] => 0
  | (_, t) :: fields => max t.depth (depthFields fields)

end

end Grammar
end TmuxWorktree
