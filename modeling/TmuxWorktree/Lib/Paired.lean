import TmuxWorktree.Lib.Printing
import TmuxWorktree.Lib.Utf8
/-!
# Paired — the texts that are written hold no lone surrogate

`JSON.stringify` is well formed: it escapes a surrogate that is not one of a pair.  So its text survives UTF-8.
-/
namespace TmuxWorktree
namespace Grammar

open Utf16

/-- The surrogates of the text are pairs. -/
def Paired (s : Text) : Prop := loneSurrogates s = 0

theorem Paired.append {s t : Text} (hs : Paired s) (ht : Paired t) : Paired (s ++ t) :=
  (loneSurrogates_append hs t).trans ht

theorem Paired.of_plain {s : Text} (h : ∀ c ∈ s, isSurrogate c = false) : Paired s := loneSurrogates_plain h

theorem Paired.cons {c : CodeUnit} (hc : isSurrogate c = false) {s : Text} (hs : Paired s) : Paired (c :: s) :=
  Paired.append (s := [c]) (.of_plain (by simpa using hc)) hs

/-! ## Strings -/

theorem hexLower_plain {n : Nat} (h : n < 16) : isSurrogate (hexLower n) = false := by
  have hval : (hexLower n).val = if n < 10 then 48 + n else 87 + n := by
    unfold hexLower
    split <;> simp only [Fin.ofNat] <;> omega
  simp only [isSurrogate, Bool.and_eq_false_iff, decide_eq_false_iff_not, hval]
  split <;> omega

theorem unicodeEscape_plain (c : CodeUnit) : ∀ d ∈ unicodeEscape c, isSurrogate d = false := by
  have hlt := c.isLt
  simp only [unicodeEscape, List.mem_cons, List.not_mem_nil, or_false, forall_eq_or_imp, forall_eq]
  exact ⟨rfl, rfl, hexLower_plain (by omega), hexLower_plain (by omega), hexLower_plain (by omega), hexLower_plain (by omega)⟩

theorem quoteUnit_plain (c : CodeUnit) : ∀ d ∈ quoteUnit c, isSurrogate d = false := by
  unfold quoteUnit
  split
  · simp only [List.mem_cons, List.not_mem_nil, or_false, forall_eq_or_imp, forall_eq]; exact ⟨rfl, rfl⟩
  · split
    · simp only [List.mem_cons, List.not_mem_nil, or_false, forall_eq_or_imp, forall_eq]; exact ⟨rfl, rfl⟩
    · split
      · simp only [List.mem_cons, List.not_mem_nil, or_false, forall_eq_or_imp, forall_eq]; exact ⟨rfl, rfl⟩
      · split
        · simp only [List.mem_cons, List.not_mem_nil, or_false, forall_eq_or_imp, forall_eq]; exact ⟨rfl, rfl⟩
        · split
          · simp only [List.mem_cons, List.not_mem_nil, or_false, forall_eq_or_imp, forall_eq]; exact ⟨rfl, rfl⟩
          · split
            · next hquote =>
              simp only [Bool.or_eq_true, decide_eq_true_eq] at hquote
              have hc : isSurrogate c = false := by
                simp only [isSurrogate, Bool.and_eq_false_iff, decide_eq_false_iff_not]
                omega
              simp only [List.mem_cons, List.not_mem_nil, or_false, forall_eq_or_imp, forall_eq]
              exact ⟨rfl, hc⟩
            · split
              · exact unicodeEscape_plain c
              · next hcontrol =>
                simp only [Bool.or_eq_true, decide_eq_true_eq, not_or] at hcontrol
                simpa using eq_false_of_ne_true hcontrol.2

theorem quoteBody_paired (s : Text) : Paired (quoteBody s) := by
  induction s using quoteBody.induct with
  | case1 => rfl
  | case2 c => exact .of_plain (quoteUnit_plain c)
  | case3 c d s hpair ih =>
    rw [quoteBody, if_pos hpair]
    show loneSurrogates (c :: d :: quoteBody s) = 0
    rw [loneSurrogates, if_pos hpair]
    exact ih
  | case4 c d s hpair ih =>
    rw [quoteBody, if_neg hpair]
    exact .append (.of_plain (quoteUnit_plain c)) ih

theorem quote_paired (s : Text) : Paired (quote s) :=
  .cons rfl (.append (quoteBody_paired s) (.cons rfl rfl))

/-! ## Numbers -/

theorem digits_paired {s : Text} (h : AllDigits s) : Paired s :=
  .of_plain fun c hc => by
    have hdigit := h c hc
    simp only [isDigit, Bool.and_eq_true, decide_eq_true_eq] at hdigit
    simp only [isSurrogate, Bool.and_eq_false_iff, decide_eq_false_iff_not]
    omega

theorem Literal.Valid.paired {l : Literal} (h : l.Valid) : Paired l.text := by
  obtain ⟨negative, whole, fraction, exponent⟩ := l
  obtain ⟨hwhole, hfraction, hexponent⟩ := h
  unfold Literal.text
  refine .append ?_ (.append ?_ (.append ?_ ?_))
  · cases negative <;> rfl
  · rcases hwhole with rfl | ⟨_, _, -, -, h⟩
    · rfl
    · exact digits_paired h
  · cases fraction with
    | none => rfl
    | some ds => exact .cons rfl (digits_paired (hfraction ds rfl).2)
  · cases exponent with
    | none => rfl
    | some e =>
      obtain ⟨sign, ds⟩ := e
      refine .cons rfl (.cons ?_ (digits_paired (hexponent (sign, ds) rfl).2))
      cases sign <;> rfl

theorem numberText_paired (d : Binary64) : Paired (numberText d) := by
  unfold numberText numberLiteral
  split
  · rfl
  · next h => exact (layout_valid d.negative (shortest_ne_zero h) _).paired

/-! ## Values -/

mutual

/-- **A text that is written has no lone surrogate.** -/
theorem text_paired : ∀ v : Value, Paired v.text
  | .null => rfl
  | .bool true => rfl
  | .bool false => rfl
  | .number d => numberText_paired d
  | .string s => quote_paired s
  | .array items => .cons rfl (.append (itemsText_paired items) rfl)
  | .object fields => .cons rfl (.append (fieldsText_paired fields) rfl)

theorem itemsText_paired : ∀ items : List Value, Paired (itemsText items)
  | [] => rfl
  | [v] => by rw [itemsText]; exact text_paired v
  | v :: w :: items => by
    rw [itemsText.eq_3 v (w :: items) (by simp)]
    exact .append (text_paired v) (.cons rfl (itemsText_paired (w :: items)))

theorem fieldsText_paired : ∀ fields : List (Text × Value), Paired (fieldsText fields)
  | [] => rfl
  | [(k, v)] => by rw [fieldsText]; exact .append (quote_paired k) (.cons rfl (text_paired v))
  | (k, v) :: f :: fields => by
    rw [fieldsText.eq_3 k v (f :: fields) (by simp)]
    exact .append (quote_paired k) (.cons rfl (.append (text_paired v) (.cons rfl (fieldsText_paired (f :: fields)))))

end

end Grammar
end TmuxWorktree
