import TmuxWorktree.Lib.Utf16
/-!
# Utf8 — the characters of a string, and their bytes

A string of UTF-16 code units is written in UTF-8 by its characters.  A surrogate that is not one of a pair is no
character; it is written as U+FFFD.  So two strings have the same bytes exactly when they have the same characters.
-/
namespace TmuxWorktree
namespace Utf16

/-- The character of a code unit that is not one of a pair. -/
def unitChar (c : CodeUnit) : Char := if isSurrogate c then '\uFFFD' else Char.ofNat c.val

/-- The character of a pair of surrogates. -/
def pairChar (c d : CodeUnit) : Char := Char.ofNat (0x10000 + (c.val - 0xD800) * 0x400 + (d.val - 0xDC00))

/-- **The characters of a string**, with U+FFFD for a lone surrogate. -/
def characters : List CodeUnit → List Char
  | [] => []
  | [c] => [unitChar c]
  | c :: d :: s => if isHigh c && isLow d then pairChar c d :: characters s else unitChar c :: characters (d :: s)

/-- The bytes of characters. -/
def encode (l : List Char) : List UInt8 := l.flatMap String.utf8EncodeChar

/-- The bytes of a string. -/
def utf8 (s : List CodeUnit) : List UInt8 := encode (characters s)

/-! ## Bytes -/

/-- **Bytes tell the characters.** -/
theorem encode_length_le (l : List Char) : (encode l).length ≤ 4 * l.length := by
  induction l with
  | nil => simp [encode]
  | cons c l ih =>
    have hc := c.utf8Size_le_four
    simp only [encode, List.flatMap_cons, List.length_append, String.length_utf8EncodeChar, List.length_cons] at ih ⊢
    omega

theorem characters_length_le (s : List CodeUnit) : (characters s).length ≤ s.length := by
  induction s using characters.induct with
  | case1 => simp [characters]
  | case2 c => simp [characters]
  | case3 c d s hpair ih =>
    rw [characters, if_pos hpair]
    simp only [List.length_cons]
    omega
  | case4 c d s hpair ih =>
    rw [characters, if_neg hpair]
    simp only [List.length_cons] at ih ⊢
    omega

theorem utf8_length_le (s : List CodeUnit) : (utf8 s).length ≤ 4 * s.length :=
  Nat.le_trans (encode_length_le _) (Nat.mul_le_mul_left 4 (characters_length_le s))

theorem encode_injective : Function.Injective encode := fun a b h => by
  have hbytes : a.utf8Encode = b.utf8Encode := congrArg List.toByteArray h
  have hdecode := congrArg ByteArray.utf8Decode? hbytes
  rw [List.utf8Decode?_utf8Encode, List.utf8Decode?_utf8Encode] at hdecode
  simpa using hdecode

/-! ## Characters -/

theorem isHigh_surrogate {c : CodeUnit} (h : isHigh c = true) : isSurrogate c = true := by
  simp only [isHigh, isSurrogate, Bool.and_eq_true, decide_eq_true_eq] at h ⊢
  omega

theorem isLow_surrogate {c : CodeUnit} (h : isLow c = true) : isSurrogate c = true := by
  simp only [isLow, isSurrogate, Bool.and_eq_true, decide_eq_true_eq] at h ⊢
  omega

theorem isHigh_eq_false {c : CodeUnit} (h : isSurrogate c = false) : isHigh c = false := by
  by_contra hc
  rw [isHigh_surrogate (eq_true_of_ne_false hc)] at h
  cases h

theorem isLow_eq_false {c : CodeUnit} (h : isSurrogate c = false) : isLow c = false := by
  by_contra hc
  rw [isLow_surrogate (eq_true_of_ne_false hc)] at h
  cases h

theorem characters_cons {c : CodeUnit} (h : isSurrogate c = false) (s : List CodeUnit) :
    characters (c :: s) = unitChar c :: characters s := by
  cases s with
  | nil => rfl
  | cons d s => rw [characters, isHigh_eq_false h, Bool.false_and, if_neg Bool.false_ne_true]

/-- A code unit that is no surrogate parts the characters of a string. -/
theorem characters_append {c : CodeUnit} (h : isSurrogate c = false) (s t : List CodeUnit) :
    characters (s ++ c :: t) = characters s ++ unitChar c :: characters t := by
  induction s using characters.induct with
  | case1 => exact characters_cons h t
  | case2 d =>
    have hpair : ¬(isHigh d && isLow c) = true := by simp [isLow_eq_false h]
    show characters (d :: c :: t) = unitChar d :: unitChar c :: characters t
    rw [characters, if_neg hpair, characters_cons h]
  | case3 d e s hpair ih =>
    rw [List.cons_append, List.cons_append, characters, characters, if_pos hpair, if_pos hpair, ih, List.cons_append]
  | case4 d e s hpair ih =>
    rw [List.cons_append, List.cons_append, characters, characters, if_neg hpair, if_neg hpair, ← List.cons_append, ih,
      List.cons_append]

theorem loneSurrogates_plain {s : List CodeUnit} (h : ∀ c ∈ s, isSurrogate c = false) : loneSurrogates s = 0 := by
  induction s using characters.induct with
  | case1 => rfl
  | case2 c => simp [loneSurrogates, h c (by simp)]
  | case3 c d s hpair ih =>
    rw [isHigh_eq_false (h c (by simp))] at hpair
    cases hpair
  | case4 c d s hpair ih =>
    rw [loneSurrogates, if_neg hpair, ih (fun e he => h e (List.mem_cons_of_mem _ he)), h c (by simp)]
    rfl

/-! ## Strings whose surrogates are paired -/

theorem toNat_ofNat {n : Nat} (h : n.isValidChar) : (Char.ofNat n).toNat = n := by
  unfold Char.ofNat
  rw [dif_pos h]
  rfl

theorem toNat_unitChar {c : CodeUnit} (h : isSurrogate c = false) : (unitChar c).toNat = c.val := by
  have hlt := c.isLt
  have hvalid : c.val.isValidChar := by
    simp only [isSurrogate, Bool.and_eq_false_iff, decide_eq_false_iff_not] at h
    unfold Nat.isValidChar
    omega
  rw [unitChar, if_neg (by rw [h]; exact Bool.false_ne_true), toNat_ofNat hvalid]

theorem toNat_pairChar {c d : CodeUnit} (hc : isHigh c = true) (hd : isLow d = true) :
    (pairChar c d).toNat = 0x10000 + (c.val - 0xD800) * 0x400 + (d.val - 0xDC00) := by
  simp only [isHigh, isLow, Bool.and_eq_true, decide_eq_true_eq] at hc hd
  have hvalid : (0x10000 + (c.val - 0xD800) * 0x400 + (d.val - 0xDC00)).isValidChar := by
    unfold Nat.isValidChar
    omega
  rw [pairChar, toNat_ofNat hvalid]

theorem unitChar_injective {c d : CodeUnit} (hc : isSurrogate c = false) (hd : isSurrogate d = false)
    (h : unitChar c = unitChar d) : c = d := by
  have hn := congrArg Char.toNat h
  rw [toNat_unitChar hc, toNat_unitChar hd] at hn
  exact Fin.ext hn

theorem pairChar_injective {c d c' d' : CodeUnit} (hc : isHigh c = true) (hd : isLow d = true) (hc' : isHigh c' = true)
    (hd' : isLow d' = true) (h : pairChar c d = pairChar c' d') : c = c' ∧ d = d' := by
  have hn := congrArg Char.toNat h
  rw [toNat_pairChar hc hd, toNat_pairChar hc' hd'] at hn
  simp only [isHigh, isLow, Bool.and_eq_true, decide_eq_true_eq] at hc hd hc' hd'
  exact ⟨Fin.ext (by omega), Fin.ext (by omega)⟩

theorem unitChar_ne_pairChar {c d e : CodeUnit} (hc : isSurrogate c = false) (hd : isHigh d = true) (he : isLow e = true) :
    unitChar c ≠ pairChar d e := fun h => by
  have hn := congrArg Char.toNat h
  have hlt := c.isLt
  rw [toNat_unitChar hc, toNat_pairChar hd he] at hn
  omega

/-- The first of a string without lone surrogates: it is a pair, or no surrogate. -/
theorem loneSurrogates_cons {c d : CodeUnit} {s : List CodeUnit} (hpair : ¬(isHigh c && isLow d) = true)
    (h : loneSurrogates (c :: d :: s) = 0) : isSurrogate c = false ∧ loneSurrogates (d :: s) = 0 := by
  rw [loneSurrogates, if_neg hpair] at h
  by_cases hc : isSurrogate c = true
  · rw [if_pos hc] at h
    omega
  · rw [if_neg hc] at h
    exact ⟨eq_false_of_ne_true hc, by omega⟩

theorem loneSurrogates_single {c : CodeUnit} (h : loneSurrogates [c] = 0) : isSurrogate c = false := by
  by_contra hc
  rw [loneSurrogates, if_pos (eq_true_of_ne_false hc)] at h
  cases h

/-- **A string without lone surrogates is told by its characters.** -/
theorem characters_injective : ∀ {s t : List CodeUnit}, loneSurrogates s = 0 → loneSurrogates t = 0 →
    characters s = characters t → s = t := by
  intro s
  induction s using characters.induct with
  | case1 =>
    intro t _ _ h
    rcases t with _ | ⟨c, _ | ⟨d, t⟩⟩
    · rfl
    · cases h
    · rw [characters, characters] at h
      split at h <;> cases h
  | case2 c =>
    intro t hs ht h
    have hc := loneSurrogates_single hs
    rcases t with _ | ⟨d, _ | ⟨e, t⟩⟩
    · cases h
    · rw [unitChar_injective hc (loneSurrogates_single ht) (List.cons.inj h).1]
    · rw [characters, characters] at h
      split at h
      · next hpair =>
        rw [Bool.and_eq_true] at hpair
        exact absurd (List.cons.inj h).1 (unitChar_ne_pairChar hc hpair.1 hpair.2)
      · have htail := (List.cons.inj h).2
        rcases t with _ | ⟨f, t⟩
        · cases htail
        · rw [characters] at htail
          split at htail <;> cases htail
  | case3 c d s hpair ih =>
    intro t hs ht h
    rw [loneSurrogates, if_pos hpair] at hs
    have hcd := Bool.and_eq_true_iff.mp hpair
    rw [characters, if_pos hpair] at h
    rcases t with _ | ⟨e, _ | ⟨f, t⟩⟩
    · cases h
    · exact absurd (List.cons.inj h).1.symm (unitChar_ne_pairChar (loneSurrogates_single ht) hcd.1 hcd.2)
    · by_cases hpair' : (isHigh e && isLow f) = true
      · have hef := Bool.and_eq_true_iff.mp hpair'
        rw [characters, if_pos hpair'] at h
        rw [loneSurrogates, if_pos hpair'] at ht
        obtain ⟨hhead, htail⟩ := List.cons.inj h
        obtain ⟨rfl, rfl⟩ := pairChar_injective hcd.1 hcd.2 hef.1 hef.2 hhead
        rw [ih hs ht htail]
      · rw [characters, if_neg hpair'] at h
        exact absurd (List.cons.inj h).1.symm (unitChar_ne_pairChar (loneSurrogates_cons hpair' ht).1 hcd.1 hcd.2)
  | case4 c d s hpair ih =>
    intro t hs ht h
    obtain ⟨hc, hs⟩ := loneSurrogates_cons hpair hs
    rw [characters, if_neg hpair] at h
    rcases t with _ | ⟨e, _ | ⟨f, t⟩⟩
    · cases h
    · have htail : characters (d :: s) = [] := (List.cons.inj h).2
      cases s with
      | nil => cases htail
      | cons f s =>
        rw [characters] at htail
        split at htail <;> cases htail
    · by_cases hpair' : (isHigh e && isLow f) = true
      · have hef := Bool.and_eq_true_iff.mp hpair'
        rw [characters, if_pos hpair'] at h
        exact absurd (List.cons.inj h).1 (unitChar_ne_pairChar hc hef.1 hef.2)
      · rw [characters, if_neg hpair'] at h
        obtain ⟨he, ht⟩ := loneSurrogates_cons hpair' ht
        obtain ⟨hhead, htail⟩ := List.cons.inj h
        rw [unitChar_injective hc he hhead, ih hs ht htail]

theorem loneSurrogates_append {s : List CodeUnit} (h : loneSurrogates s = 0) (t : List CodeUnit) :
    loneSurrogates (s ++ t) = loneSurrogates t := by
  induction s using characters.induct with
  | case1 => rfl
  | case2 c =>
    have hc := loneSurrogates_single h
    cases t with
    | nil => exact h
    | cons d t =>
      show loneSurrogates (c :: d :: t) = loneSurrogates (d :: t)
      rw [loneSurrogates, isHigh_eq_false hc, Bool.false_and, if_neg Bool.false_ne_true, hc, if_neg Bool.false_ne_true, Nat.zero_add]
  | case3 c d s hpair ih =>
    rw [loneSurrogates, if_pos hpair] at h
    rw [List.cons_append, List.cons_append, loneSurrogates, if_pos hpair, ih h]
  | case4 c d s hpair ih =>
    obtain ⟨hc, hs⟩ := loneSurrogates_cons hpair h
    rw [List.cons_append, List.cons_append, loneSurrogates, if_neg hpair, hc, if_neg Bool.false_ne_true, Nat.zero_add,
      ← List.cons_append, ih hs]

/-! ## Reading bytes -/

/-- The code units of a character. -/
def units (c : Char) : List CodeUnit :=
  if c.toNat < 0x10000 then [Fin.ofNat 65536 c.toNat]
  else [Fin.ofNat 65536 (0xD800 + (c.toNat - 0x10000) / 0x400), Fin.ofNat 65536 (0xDC00 + (c.toNat - 0x10000) % 0x400)]

/-- The string of bytes that are strict UTF-8. -/
def decode (bytes : List UInt8) : Option (List CodeUnit) :=
  bytes.toByteArray.utf8Decode?.map fun chars => chars.toList.flatMap units

theorem units_unitChar {c : CodeUnit} (h : isSurrogate c = false) : units (unitChar c) = [c] := by
  have hlt := c.isLt
  unfold units
  rw [toNat_unitChar h, if_pos hlt]
  simp

theorem units_pairChar {c d : CodeUnit} (hc : isHigh c = true) (hd : isLow d = true) : units (pairChar c d) = [c, d] := by
  unfold units
  rw [toNat_pairChar hc hd, if_neg (by omega)]
  simp only [isHigh, isLow, Bool.and_eq_true, decide_eq_true_eq] at hc hd
  have hhigh : (Fin.ofNat 65536 (0xD800 + (0x10000 + (c.val - 0xD800) * 0x400 + (d.val - 0xDC00) - 0x10000) / 0x400)) = c := by
    apply Fin.ext
    simp only [Fin.ofNat]
    omega
  have hlow : (Fin.ofNat 65536 (0xDC00 + (0x10000 + (c.val - 0xD800) * 0x400 + (d.val - 0xDC00) - 0x10000) % 0x400)) = d := by
    apply Fin.ext
    simp only [Fin.ofNat]
    omega
  rw [hhigh, hlow]

theorem units_characters {s : List CodeUnit} (h : loneSurrogates s = 0) : (characters s).flatMap units = s := by
  induction s using characters.induct with
  | case1 => rfl
  | case2 c =>
    show (characters [c]).flatMap units = [c]
    rw [characters, List.flatMap_singleton, units_unitChar (loneSurrogates_single h)]
  | case3 c d s hpair ih =>
    rw [loneSurrogates, if_pos hpair] at h
    have hcd := Bool.and_eq_true_iff.mp hpair
    rw [characters, if_pos hpair, List.flatMap_cons, ih h, units_pairChar hcd.1 hcd.2]
    rfl
  | case4 c d s hpair ih =>
    obtain ⟨hc, hs⟩ := loneSurrogates_cons hpair h
    rw [characters, if_neg hpair, List.flatMap_cons, ih hs, units_unitChar hc]
    rfl

/-- **A string without lone surrogates is read from its bytes.** -/
theorem decode_utf8 {s : List CodeUnit} (h : loneSurrogates s = 0) : decode (utf8 s) = some s := by
  have hbytes : (utf8 s).toByteArray = (characters s).utf8Encode := rfl
  rw [decode, hbytes, List.utf8Decode?_utf8Encode, Option.map_some, List.toList_toArray, units_characters h]

end Utf16
end TmuxWorktree
