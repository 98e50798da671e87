import TmuxWorktree.Lib.Json
import Mathlib.Data.List.Sort
/-!
# JsonKeys — reading the fields of an object, and putting its keys in order

A parser reads an object by its keys, whatever their order.  A canonical writer sorts them, in each object below a value.
-/
namespace TmuxWorktree
namespace Json

/-! ## Reading -/

/-- The value of a key. -/
def get? (k : String) : Json → Option Json
  | obj fields => (fields.find? fun f => f.1 = k).map Prod.snd
  | _ => none

def string? : Json → Option String
  | str s => some s
  | name s => some s
  | _ => none

def int? : Json → Option Nat
  | int n => some n
  | _ => none

def bool? : Json → Option Bool
  | bool b => some b
  | _ => none

def items? : Json → Option (List Json)
  | arr items => some items
  | _ => none

section Reading

variable (s : String) (n : Nat) (b : Bool) (o : Option String) (items : List Json)

@[simp] theorem string?_str : (str s).string? = some s := rfl

@[simp] theorem string?_name : (name s).string? = some s := rfl

@[simp] theorem string?_opt : (opt str o).string? = o := by cases o <;> rfl

@[simp] theorem int?_int : (int n).int? = some n := rfl

@[simp] theorem bool?_bool : (bool b).bool? = some b := rfl

@[simp] theorem items?_arr : (arr items).items? = some items := rfl

end Reading

/-! ## Keys in order -/

/-- Fields by their keys; a key occurs once. -/
def byKey {α : Type} (fields : List (String × α)) : List (String × α) := fields.insertionSort fun a b => a.1 ≤ b.1

mutual

/-- **The value with the keys of each object in order.** -/
def sorted : Json → Json
  | arr items => arr (sortedItems items)
  | obj fields => obj (byKey (sortedFields fields))
  | null => null
  | bool b => bool b
  | int n => int n
  | str s => str s
  | name s => name s

def sortedItems : List Json → List Json
  | [] => []
  | v :: rest => v.sorted :: sortedItems rest

def sortedFields : List (String × Json) → List (String × Json)
  | [] => []
  | (k, v) :: rest => (k, v.sorted) :: sortedFields rest

end

theorem sortedItems_eq (items : List Json) : sortedItems items = items.map sorted := by
  induction items with
  | nil => rfl
  | cons v rest ih => rw [sortedItems, ih, List.map_cons]

theorem sortedFields_eq (fields : List (String × Json)) : sortedFields fields = fields.map (Prod.map id sorted) := by
  induction fields with
  | nil => rfl
  | cons f rest ih => rw [sortedFields, ih, List.map_cons, Prod.map, id]

/-- A function of the values does not change the order. -/
theorem byKey_map {α β : Type} (f : α → β) (fields : List (String × α)) :
    byKey (fields.map (Prod.map id f)) = (byKey fields).map (Prod.map id f) := by
  unfold byKey
  exact (List.map_insertionSort _ _ (Prod.map id f) fields fun a _ b _ => Iff.rfl).symm

theorem byKey_byKey {α : Type} (fields : List (String × α)) : byKey (byKey fields) = byKey fields := by
  have : IsTrans (String × α) fun a b => a.1 ≤ b.1 := ⟨fun _ _ _ => String.le_trans⟩
  have : Std.Total fun a b : String × α => a.1 ≤ b.1 := ⟨fun a b => String.le_total a.1 b.1⟩
  exact List.Pairwise.insertionSort_eq (List.pairwise_insertionSort _ _)

mutual

/-- **Keys in order stay in order.** -/
theorem sorted_sorted : ∀ v : Json, v.sorted.sorted = v.sorted
  | null | bool _ | int _ | str _ | name _ => rfl
  | arr items => by rw [sorted, sorted, sortedItems_sortedItems items]
  | obj fields => by
    rw [sorted, sorted, sortedFields_eq (byKey _), ← byKey_map, ← sortedFields_eq, sortedFields_sortedFields fields,
      byKey_byKey]

theorem sortedItems_sortedItems : ∀ items : List Json, sortedItems (sortedItems items) = sortedItems items
  | [] => rfl
  | v :: rest => by rw [sortedItems, sortedItems, sorted_sorted v, sortedItems_sortedItems rest]

theorem sortedFields_sortedFields : ∀ fields : List (String × Json),
    sortedFields (sortedFields fields) = sortedFields fields
  | [] => rfl
  | (k, v) :: rest => by rw [sortedFields, sortedFields, sorted_sorted v, sortedFields_sortedFields rest]

end

/-! ## Texts of parts -/

/-- The parts with a comma between each two. -/
def commas : List String → String
  | [] => ""
  | [a] => a
  | a :: b :: rest => a ++ "," ++ commas (b :: rest)

theorem textItems_eq (items : List Json) : textItems items = commas (items.map text) := by
  induction items with
  | nil => rfl
  | cons v rest ih =>
    cases rest with
    | nil => rfl
    | cons u rest =>
      rw [textItems, ih]
      rfl

theorem textFields_eq (fields : List (String × Json)) :
    textFields fields = commas (fields.map fun f => named f.1 ++ ":" ++ f.2.text) := by
  induction fields with
  | nil => rfl
  | cons f rest ih =>
    cases rest with
    | nil => rfl
    | cons g rest =>
      rw [textFields, ih]
      rfl

/-! ## Escapes -/

/-- The escape of a character, by its number. -/
theorem escape_eq (c : Char) : escape c =
    if c.toNat = 0x22 then ['\\', '"'] else if c.toNat = 0x5C then ['\\', '\\']
    else if c.toNat = 0x08 then ['\\', 'b'] else if c.toNat = 0x09 then ['\\', 't']
    else if c.toNat = 0x0A then ['\\', 'n'] else if c.toNat = 0x0C then ['\\', 'f']
    else if c.toNat = 0x0D then ['\\', 'r']
    else if c.toNat < 0x20 then ['\\', 'u', '0', '0', hexDigit (c.toNat / 16), hexDigit (c.toNat % 16)] else [c] := by
  unfold escape
  split <;> simp_all


/-- An escape has at most six bytes. -/
theorem escape_bytes (c : Char) : ((escape c).map Char.utf8Size).sum ≤ 6 * c.utf8Size := by
  have hpos : 6 * 1 ≤ 6 * c.utf8Size := Nat.mul_le_mul_left 6 (Char.utf8Size_pos c)
  unfold escape
  split
  all_goals try exact le_trans (by decide) hpos
  split
  · have hhex : ∀ n < 16, (hexDigit n).utf8Size = 1 := by decide
    have hlt : c.toNat < 32 := ‹_›
    have hzero : '0'.utf8Size = 1 ∧ '\\'.utf8Size = 1 ∧ 'u'.utf8Size = 1 := by decide
    simp only [List.map_cons, List.map_nil, List.sum_cons, List.sum_nil, hhex (c.toNat / 16) (by omega),
      hhex (c.toNat % 16) (by omega), hzero]
    omega
  · simp only [List.map_cons, List.map_nil, List.sum_cons, List.sum_nil]
    omega

/-- A quoted string has at most six bytes for each byte of it. -/
theorem str_bytes (s : String) : (str s).bytes ≤ 6 * s.utf8ByteSize + 2 := by
  have hsum : ∀ l : List Char, ((l.flatMap escape).map Char.utf8Size).sum ≤ 6 * (l.map Char.utf8Size).sum := by
    intro l
    induction l with
    | nil => simp
    | cons c rest ih =>
      have := escape_bytes c
      rw [List.flatMap_cons, List.map_append, List.sum_append, List.map_cons, List.sum_cons]
      omega
  have hs := hsum s.toList
  have hsize : s.utf8ByteSize = (s.toList.map Char.utf8Size).sum := by
    rw [← utf8ByteSize_ofList, String.ofList_toList]
  rw [bytes, hsize]
  omega

end Json
end TmuxWorktree
