import TmuxWorktree.Lib.Decimal
/-!
# Printing — the text that `JSON.stringify` writes

No whitespace, the fields of an object in the order they have, and strings with as few escapes as can be: a surrogate that
is not one of a pair is escaped.  What is written is a text of the grammar, and denotes the value it was written from, up
to the sign of zero.
-/
namespace TmuxWorktree
namespace Grammar

open Utf16

/-! ## Strings -/

/-- A hexadecimal digit, in lower case. -/
def hexLower (n : Nat) : CodeUnit := if n < 10 then Fin.ofNat 65536 (48 + n) else Fin.ofNat 65536 (87 + n)

/-- `UnicodeEscape`. -/
def unicodeEscape (c : CodeUnit) : Text :=
  [0x5C, 0x75, hexLower (c.val / 4096), hexLower (c.val / 256 % 16), hexLower (c.val / 16 % 16), hexLower (c.val % 16)]

/-- A code unit that is not of a pair, in a quoted string. -/
def quoteUnit (c : CodeUnit) : Text :=
  if c.val = 0x08 then [0x5C, 0x62]
  else if c.val = 0x09 then [0x5C, 0x74]
  else if c.val = 0x0A then [0x5C, 0x6E]
  else if c.val = 0x0C then [0x5C, 0x66]
  else if c.val = 0x0D then [0x5C, 0x72]
  else if c.val = 0x22 || c.val = 0x5C then [0x5C, c]
  else if c.val < 0x20 || isSurrogate c then unicodeEscape c
  else [c]

def quoteBody : Text → Text
  | [] => []
  | [c] => quoteUnit c
  | c :: d :: s => if isHigh c && isLow d then c :: d :: quoteBody s else quoteUnit c ++ quoteBody (d :: s)

/-- `QuoteJSONString`. -/
def quote (s : Text) : Text := 0x22 :: (quoteBody s ++ [0x22])

theorem hexDigit_hexLower {n : Nat} (h : n < 16) : hexDigit (hexLower n) = some n := by
  unfold hexLower
  split
  next hlt =>
    simp only [hexDigit, Fin.ofNat]
    rw [if_pos (by simp only [Bool.and_eq_true, decide_eq_true_eq]; omega)]
    congr 1
    omega
  next hge =>
    simp only [hexDigit, Fin.ofNat]
    rw [if_neg (by simp only [Bool.and_eq_true, decide_eq_true_eq]; omega),
      if_neg (by simp only [Bool.and_eq_true, decide_eq_true_eq]; omega),
      if_pos (by simp only [Bool.and_eq_true, decide_eq_true_eq]; omega)]
    congr 1
    omega

theorem unicodeEscape_chars (c : CodeUnit) {s t r : Text} (h : Chars s t r) : Chars (unicodeEscape c ++ s) (c :: t) r := by
  have hunit : hexUnit (hexLower (c.val / 4096)) (hexLower (c.val / 256 % 16)) (hexLower (c.val / 16 % 16)) (hexLower (c.val % 16)) =
      some c := by
    have hlt := c.isLt
    unfold hexUnit
    rw [hexDigit_hexLower (by omega), hexDigit_hexLower (by omega), hexDigit_hexLower (by omega), hexDigit_hexLower (by omega)]
    simp only [Option.bind_eq_bind, Option.bind_some, Option.pure_def]
    congr 1
    apply Fin.ext
    simp only [Fin.ofNat]
    omega
  exact .unicode hunit h

theorem quoteUnit_chars (c : CodeUnit) {s t r : Text} (h : Chars s t r) : Chars (quoteUnit c ++ s) (c :: t) r := by
  have hval {n : Nat} (hn : n < 65536) (hc : c.val = n) : c = ⟨n, hn⟩ := Fin.ext hc
  unfold quoteUnit
  split
  next hc => rw [hval (by omega) hc]; exact .escape rfl h
  next =>
    split
    next hc => rw [hval (by omega) hc]; exact .escape rfl h
    next =>
      split
      next hc => rw [hval (by omega) hc]; exact .escape rfl h
      next =>
        split
        next hc => rw [hval (by omega) hc]; exact .escape rfl h
        next =>
          split
          next hc => rw [hval (by omega) hc]; exact .escape rfl h
          next =>
            split
            next hc =>
              refine .escape ?_ h
              simp only [Bool.or_eq_true, decide_eq_true_eq] at hc
              unfold escaped
              rw [if_pos (by simp only [Bool.or_eq_true, decide_eq_true_eq]; omega)]
            next hquote =>
              split
              next => exact unicodeEscape_chars c h
              next hplain =>
                refine .plain ?_ h
                simp only [Bool.or_eq_true, decide_eq_true_eq, not_or] at hquote hplain
                simp only [isPlain, Bool.and_eq_true, decide_eq_true_eq, ne_eq]
                omega

/-- **A string that is quoted is read back.** -/
theorem quoteBody_chars (s r : Text) : Chars (quoteBody s ++ 0x22 :: r) s r := by
  have hsurrogate {c : CodeUnit} (hc : isHigh c = true ∨ isLow c = true) : isPlain c = true := by
    simp only [isHigh, isLow, Bool.and_eq_true, decide_eq_true_eq] at hc
    simp only [isPlain, Bool.and_eq_true, decide_eq_true_eq, ne_eq]
    omega
  induction s using quoteBody.induct with
  | case1 => exact .close r
  | case2 c => exact quoteUnit_chars c (.close r)
  | case3 c d s hpair ih =>
    rw [quoteBody, if_pos hpair]
    obtain ⟨hc, hd⟩ := Bool.and_eq_true_iff.mp hpair
    exact .plain (hsurrogate (.inl hc)) (.plain (hsurrogate (.inr hd)) ih)
  | case4 c d s hpair ih =>
    rw [quoteBody, if_neg hpair, List.append_assoc]
    exact quoteUnit_chars c ih

/-! ## Values -/

mutual

/-- `JSON.stringify`. -/
def Value.text : Value → Text
  | .null => [0x6E, 0x75, 0x6C, 0x6C]
  | .bool true => [0x74, 0x72, 0x75, 0x65]
  | .bool false => [0x66, 0x61, 0x6C, 0x73, 0x65]
  | .number d => numberText d
  | .string s => quote s
  | .array items => 0x5B :: (itemsText items ++ [0x5D])
  | .object fields => 0x7B :: (fieldsText fields ++ [0x7D])

def itemsText : List Value → Text
  | [] => []
  | [v] => v.text
  | v :: items => v.text ++ 0x2C :: itemsText items

def fieldsText : List (Text × Value) → Text
  | [] => []
  | [(k, v)] => quote k ++ 0x3A :: v.text
  | (k, v) :: fields => quote k ++ 0x3A :: (v.text ++ 0x2C :: fieldsText fields)

end

mutual

/-- The tree of what is written. -/
def Value.tree : Value → Tree
  | .null => .null
  | .bool b => .bool b
  | .number d => .number (numberLiteral d)
  | .string s => .string s
  | .array items => .array (treeItems items)
  | .object fields => .object (treeFields fields)

def treeItems : List Value → List Tree
  | [] => []
  | v :: items => v.tree :: treeItems items

def treeFields : List (Text × Value) → List (Text × Tree)
  | [] => []
  | (k, v) :: fields => (k, v.tree) :: treeFields fields

end

mutual

/-- The value without the signs of its zeros. -/
def Value.plain : Value → Value
  | .number d => .number (Grammar.plain d)
  | .array items => .array (plainItems items)
  | .object fields => .object (plainFields fields)
  | v => v

def plainItems : List Value → List Value
  | [] => []
  | v :: items => v.plain :: plainItems items

def plainFields : List (Text × Value) → List (Text × Value)
  | [] => []
  | (k, v) :: fields => (k, v.plain) :: plainFields fields

end

mutual

/-- **What is written denotes the value**, but for the signs of its zeros. -/
theorem tree_value : ∀ v : Value, v.tree.value = some v.plain
  | .null => rfl
  | .bool _ => rfl
  | .number d => by rw [Value.tree, Tree.value, numberLiteral_number]; rfl
  | .string _ => rfl
  | .array items => by rw [Value.tree, Tree.value, treeItems_value items]; rfl
  | .object fields => by rw [Value.tree, Tree.value, treeFields_value fields]; rfl

theorem treeItems_value : ∀ items : List Value, valueItems (treeItems items) = some (plainItems items)
  | [] => rfl
  | v :: items => by rw [treeItems, valueItems, tree_value v, treeItems_value items]; rfl

theorem treeFields_value : ∀ fields : List (Text × Value), valueFields (treeFields fields) = some (plainFields fields)
  | [] => rfl
  | (k, v) :: fields => by rw [treeFields, valueFields, tree_value v, treeFields_value fields]; rfl

end

mutual

/-- **What is written is a text of the grammar.** -/
theorem text_reads : ∀ (v : Value) (r : Text), Reads (v.text ++ r) v.tree r
  | .null, r => .null r
  | .bool true, r => .true r
  | .bool false, r => .false r
  | .number d, r => .number (numberText_reads d r)
  | .string s, r => by
    rw [Value.text, quote, List.cons_append, List.append_assoc]
    exact .string (quoteBody_chars s r)
  | .array [], r => .noItems (.nil _)
  | .array (v :: items), r => by
    rw [Value.text, List.cons_append, List.append_assoc]
    exact .array (.nil _) (items_read (v :: items) r (List.cons_ne_nil v items))
  | .object [], r => .noFields (.nil _)
  | .object (f :: fields), r => by
    rw [Value.text, List.cons_append, List.append_assoc]
    exact .object (.nil _) (fields_read (f :: fields) r (List.cons_ne_nil f fields))

theorem items_read : ∀ (items : List Value) (r : Text), items ≠ [] → Elements (itemsText items ++ 0x5D :: r) (treeItems items) r
  | [], _, h => absurd rfl h
  | [v], r, _ => .last (text_reads v _) (.nil _)
  | v :: w :: items, r, _ => by
    rw [itemsText.eq_3 v (w :: items) (by simp), List.append_assoc]
    exact .cons (text_reads v _) (.nil _) (.nil _) (items_read (w :: items) r (List.cons_ne_nil w items))

theorem fields_read : ∀ (fields : List (Text × Value)) (r : Text), fields ≠ [] →
    Members (fieldsText fields ++ 0x7D :: r) (treeFields fields) r
  | [], _, h => absurd rfl h
  | [(k, v)], r, _ => by
    rw [fieldsText, quote, List.cons_append, List.cons_append, List.append_assoc, List.append_assoc]
    exact .last (quoteBody_chars k _) (.nil _) (.nil _) (text_reads v _) (.nil _)
  | (k, v) :: f :: fields, r, _ => by
    rw [fieldsText.eq_3 k v (f :: fields) (by simp), quote, List.cons_append, List.cons_append, List.append_assoc, List.append_assoc]
    simp only [List.cons_append, List.nil_append, List.append_assoc]
    exact .cons (quoteBody_chars k _) (.nil _) (.nil _) (text_reads v _) (.nil _) (.nil _)
      (fields_read (f :: fields) r (List.cons_ne_nil f fields))

end

mutual

/-- The sign of a zero is not written. -/
theorem text_plain : ∀ v : Value, v.plain.text = v.text
  | .null => rfl
  | .bool _ => rfl
  | .number d => by rw [Value.plain, Value.text, Value.text, numberText_plain]
  | .string _ => rfl
  | .array items => by rw [Value.plain, Value.text, Value.text, itemsText_plain items]
  | .object fields => by rw [Value.plain, Value.text, Value.text, fieldsText_plain fields]

theorem itemsText_plain : ∀ items : List Value, itemsText (plainItems items) = itemsText items
  | [] => rfl
  | [v] => by rw [plainItems, plainItems, itemsText, itemsText, text_plain v]
  | v :: w :: items => by
    have ih := itemsText_plain (w :: items)
    rw [plainItems] at ih
    rw [plainItems, plainItems, itemsText.eq_3 v.plain (w.plain :: plainItems items) (by simp),
      itemsText.eq_3 v (w :: items) (by simp), text_plain v, ih]

theorem fieldsText_plain : ∀ fields : List (Text × Value), fieldsText (plainFields fields) = fieldsText fields
  | [] => rfl
  | [(k, v)] => by rw [plainFields, plainFields, fieldsText, fieldsText, text_plain v]
  | (k, v) :: (k', w) :: fields => by
    have ih := fieldsText_plain ((k', w) :: fields)
    rw [plainFields] at ih
    rw [plainFields, plainFields, fieldsText.eq_3 k v.plain ((k', w.plain) :: plainFields fields) (by simp),
      fieldsText.eq_3 k v ((k', w) :: fields) (by simp), text_plain v, ih]

end

/-- **A value that is written is a document.** -/
theorem text_document (v : Value) : Document v.text v.tree := by
  refine ⟨v.text, [], .nil _, ?_, .nil []⟩
  have h := text_reads v []
  rwa [List.append_nil] at h

end Grammar
end TmuxWorktree
