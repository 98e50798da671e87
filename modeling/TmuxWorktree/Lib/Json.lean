import Mathlib.Data.List.Basic
import Mathlib.Algebra.Order.Ring.Nat
/-!
# Json — the canonical text of a value

A canonical text has no spaces and the keys of each object in order.  The values here are written with their keys in
order, so `text` has nothing to sort, and the keys are names without a character to escape.
-/
namespace TmuxWorktree

inductive Json where
  | null
  | bool (b : Bool)
  | int (n : Nat)
  | str (s : String)
  | name (s : String)
  | arr (items : List Json)
  | obj (fields : List (String × Json))

namespace Json

/-- The value of an optional field. -/
def opt {α : Type} (f : α → Json) : Option α → Json
  | none => null
  | some a => f a

def hexDigit (n : Nat) : Char := if n < 10 then Char.ofNat (48 + n) else Char.ofNat (87 + n)

/-- The short escapes, `\u` for the other control characters, and the character itself for the rest. -/
def escape (c : Char) : List Char :=
  match c.toNat with
  | 0x22 => ['\\', '"']
  | 0x5C => ['\\', '\\']
  | 0x08 => ['\\', 'b']
  | 0x09 => ['\\', 't']
  | 0x0A => ['\\', 'n']
  | 0x0C => ['\\', 'f']
  | 0x0D => ['\\', 'r']
  | n => if n < 0x20 then ['\\', 'u', '0', '0', hexDigit (n / 16), hexDigit (n % 16)] else [c]

/-- A name has no character to escape. -/
def named (s : String) : String := "\"" ++ s ++ "\""

def quoted (s : String) : String := named (String.ofList (s.toList.flatMap escape))

mutual

/-- **The canonical text.** -/
def text : Json → String
  | null => "null"
  | bool b => if b then "true" else "false"
  | int n => toString n
  | str s => quoted s
  | name s => named s
  | arr items => "[" ++ textItems items ++ "]"
  | obj fields => "\x7b" ++ textFields fields ++ "\x7d"

def textItems : List Json → String
  | [] => ""
  | [v] => v.text
  | v :: u :: rest => v.text ++ "," ++ textItems (u :: rest)

def textFields : List (String × Json) → String
  | [] => ""
  | [(k, v)] => named k ++ ":" ++ v.text
  | (k, v) :: f :: rest => named k ++ ":" ++ v.text ++ "," ++ textFields (f :: rest)

end

mutual

/-- **The UTF-8 bytes of the canonical text**, without the text. -/
def bytes : Json → Nat
  | null => 4
  | bool b => if b then 4 else 5
  | int n => (toString n).utf8ByteSize
  | str s => ((s.toList.flatMap escape).map Char.utf8Size).sum + 2
  | name s => s.utf8ByteSize + 2
  | arr items => bytesItems items + 2
  | obj fields => bytesFields fields + 2

def bytesItems : List Json → Nat
  | [] => 0
  | [v] => v.bytes
  | v :: u :: rest => v.bytes + 1 + bytesItems (u :: rest)

def bytesFields : List (String × Json) → Nat
  | [] => 0
  | [(k, v)] => k.utf8ByteSize + 3 + v.bytes
  | (k, v) :: f :: rest => k.utf8ByteSize + 3 + v.bytes + 1 + bytesFields (f :: rest)

end

theorem utf8ByteSize_ofList (l : List Char) : (String.ofList l).utf8ByteSize = (l.map Char.utf8Size).sum := by
  induction l with
  | nil => rfl
  | cons c l ih =>
    have hcons : String.ofList (c :: l) = String.ofList [c] ++ String.ofList l := by
      rw [← String.ofList_append]
      rfl
    rw [hcons, String.utf8ByteSize_append, ih]
    simp

theorem comma : ",".utf8ByteSize = 1 := by decide

theorem colon : ":".utf8ByteSize = 1 := by decide

theorem named_bytes (s : String) : (named s).utf8ByteSize = s.utf8ByteSize + 2 := by
  have hquote : "\"".utf8ByteSize = 1 := by decide
  rw [named, String.utf8ByteSize_append, String.utf8ByteSize_append]
  omega

mutual

/-- The count is the size of the text. -/
theorem text_bytes : ∀ v : Json, v.text.utf8ByteSize = v.bytes
  | null => by
    have : "null".utf8ByteSize = 4 := by decide
    simpa [text, bytes]
  | bool true => by
    have : "true".utf8ByteSize = 4 := by decide
    simpa [text, bytes]
  | bool false => by
    have : "false".utf8ByteSize = 5 := by decide
    simpa [text, bytes]
  | int n => by simp [text, bytes]
  | str s => by rw [text, bytes, quoted, named_bytes, utf8ByteSize_ofList]
  | name s => by rw [text, bytes, named_bytes]
  | arr items => by
    have : "[".utf8ByteSize = 1 ∧ "]".utf8ByteSize = 1 := by decide
    rw [text, bytes, String.utf8ByteSize_append, String.utf8ByteSize_append, textItems_bytes]
    omega
  | obj fields => by
    have : "\x7b".utf8ByteSize = 1 ∧ "\x7d".utf8ByteSize = 1 := by decide
    rw [text, bytes, String.utf8ByteSize_append, String.utf8ByteSize_append, textFields_bytes]
    omega

theorem textItems_bytes : ∀ items : List Json, (textItems items).utf8ByteSize = bytesItems items
  | [] => rfl
  | [v] => by rw [textItems, bytesItems, text_bytes v]
  | v :: u :: rest => by
    rw [textItems, bytesItems, String.utf8ByteSize_append, String.utf8ByteSize_append, text_bytes v,
      textItems_bytes (u :: rest), comma]

theorem textFields_bytes : ∀ fields : List (String × Json), (textFields fields).utf8ByteSize = bytesFields fields
  | [] => rfl
  | [(k, v)] => by
    rw [textFields, bytesFields, String.utf8ByteSize_append, String.utf8ByteSize_append, text_bytes v, named_bytes, colon]
  | (k, v) :: f :: rest => by
    rw [textFields, bytesFields, String.utf8ByteSize_append, String.utf8ByteSize_append, String.utf8ByteSize_append,
      String.utf8ByteSize_append, text_bytes v, named_bytes, textFields_bytes (f :: rest), colon, comma]

end

/-- An array has its items and a comma between each two. -/
theorem bytesItems_eq (items : List Json) : bytesItems items = (items.map bytes).sum + (items.length - 1) := by
  induction items with
  | nil => rfl
  | cons v rest ih =>
    cases rest with
    | nil => simp [bytesItems]
    | cons u rest =>
      rw [bytesItems, ih]
      simp only [List.map_cons, List.sum_cons, List.length_cons, Nat.add_one_sub_one]
      omega

/-- The UTF-16 code units of a text. -/
def units (s : String) : Nat := (s.toList.map fun c => if c.toNat < 0x10000 then 1 else 2).sum

end Json
end TmuxWorktree
