import TmuxWorktree.Codec.Schema
/-!
# Agreement — where the two validators differ

For each helper the values on which the host and the Android app differ, exactly: a string that ends in a space of one
language only, or that is near a byte limit with lone surrogates in it; a negative zero, or an unsafe double where the
bounds admit it; a fraction against an integer literal; a length that overflows an `Int`.  The validators of records
agree on every value that has no such field.
-/
namespace TmuxWorktree
namespace Codec

open Utf16

/-! ## Checks -/

section
variable {α β : Type} {x y : Check α} {f g : α → Check β}

@[simp] theorem rejectIf_bind_ok {c : Bool} {e : FailureClass} {f : Unit → Check α} {a : α} :
    (rejectIf c e >>= f) = .ok a ↔ c = false ∧ f () = .ok a := by
  cases c with
  | false => simp [rejectIf, Bind.bind, Except.bind, Pure.pure, Except.pure]
  | true => simp [rejectIf, Bind.bind, Except.bind, throw, throwThe, MonadExceptOf.throw]

/-- **Both accept, with the same result, or both reject.** -/
def Match (x y : Check α) : Prop := ∀ a, x = .ok a ↔ y = .ok a

theorem Match.refl (x : Check α) : Match x x := fun _ => Iff.rfl

theorem Match.accepts (h : Match x y) : Accepts x ↔ Accepts y := exists_congr h

theorem bind_ok {b : β} : (x >>= f) = .ok b ↔ ∃ a, x = .ok a ∧ f a = .ok b := by
  cases x with
  | error e => simp [Bind.bind, Except.bind]
  | ok a => simp [Bind.bind, Except.bind]

theorem Match.bind (h : Match x y) (hf : ∀ a, y = .ok a → Match (f a) (g a)) : Match (x >>= f) (y >>= g) := by
  intro b
  rw [bind_ok, bind_ok]
  constructor
  · rintro ⟨a, ha, hb⟩
    exact ⟨a, (h a).1 ha, (hf a ((h a).1 ha) b).1 hb⟩
  · rintro ⟨a, ha, hb⟩
    exact ⟨a, (h a).2 ha, (hf a ha b).2 hb⟩

theorem Match.step (hf : ∀ a, x = .ok a → Match (f a) (g a)) : Match (x >>= f) (x >>= g) := (Match.refl x).bind hf

theorem Match.ite {c : Prop} [Decidable c] {x' y' : Check α} (ht : c → Match x x') (hf : ¬ c → Match y y') :
    Match (if c then x else y) (if c then x' else y') := by
  by_cases h : c
  · rw [if_pos h, if_pos h]
    exact ht h
  · rw [if_neg h, if_neg h]
    exact hf h

end

/-! ## Strings -/

def isCommonSpace (c : CodeUnit) : Bool :=
  (0x09 ≤ c.val && c.val ≤ 0x0D) || (0x2000 ≤ c.val && c.val ≤ 0x200A) ||
    [0x20, 0xA0, 0x1680, 0x2028, 0x2029, 0x202F, 0x205F, 0x3000].contains c.val

def isByteOrderMark (c : CodeUnit) : Bool := c.val = 0xFEFF

def isInformationSeparator (c : CodeUnit) : Bool := 0x1C ≤ c.val && c.val ≤ 0x1F

theorem isSpace_eq (c : CodeUnit) : Ts.isSpace c = (isCommonSpace c || isByteOrderMark c) := by
  simp only [Ts.isSpace, isCommonSpace, isByteOrderMark, List.contains_cons, List.contains_nil, Bool.or_false]
  rw [Bool.eq_iff_iff]
  simp only [Bool.or_eq_true, Bool.and_eq_true, decide_eq_true_eq, beq_iff_eq]
  omega

theorem isWhitespace_eq (c : CodeUnit) : Kotlin.isWhitespace c = (isCommonSpace c || isInformationSeparator c) := by
  simp only [Kotlin.isWhitespace, isCommonSpace, isInformationSeparator, List.contains_cons, List.contains_nil,
    Bool.or_false]
  rw [Bool.eq_iff_iff]
  simp only [Bool.or_eq_true, Bool.and_eq_true, decide_eq_true_eq, beq_iff_eq]
  omega

theorem endsIn_or {p q r : CodeUnit → Bool} (h : ∀ c, r c = (p c || q c)) (s : List CodeUnit) :
    endsIn r s = (endsIn p s || endsIn q s) := by
  unfold endsIn
  cases s.head? <;> cases s.getLast? <;> simp [h, Bool.or_comm, Bool.or_left_comm]

def Plausible (options : StringOptions) (s : List CodeUnit) : Prop :=
  (options.allowEmpty = true ∨ s ≠ []) ∧ (options.allowNul = true ∨ 0 ∉ s) ∧
    ∀ m ∈ options.maxCharacters, codePoints s ≤ m

def Fits (options : StringOptions) (bytes : Nat) : Prop := ∀ m ∈ options.maxBytes, bytes ≤ m

theorem checkString_ok {options : StringOptions} {s a : JsonString} {empty spaces bytes characters : Bool}
    {e₁ e₂ e₃ e₄ e₅ : FailureClass} (hempty : empty = true ↔ s.units = [])
    (hchars : characters = false ↔ ∀ m ∈ options.maxCharacters, codePoints s.units ≤ m) :
    ((do
      rejectIf (!options.allowEmpty && empty) e₁
      rejectIf (!options.allowNul && s.units.contains 0) e₂
      rejectIf (!options.allowOuterWhitespace && spaces) e₃
      rejectIf bytes e₄
      rejectIf characters e₅
      return s : Check JsonString) = .ok a) ↔
    s = a ∧ Plausible options s.units ∧ (options.allowOuterWhitespace = true ∨ spaces = false) ∧ bytes = false := by
  have he : (!options.allowEmpty && empty) = false ↔ options.allowEmpty = true ∨ s.units ≠ [] := by
    rw [Ne, ← hempty]
    cases options.allowEmpty <;> simp
  have hn : (!options.allowNul && s.units.contains 0) = false ↔ options.allowNul = true ∨ 0 ∉ s.units := by
    cases options.allowNul <;> simp
  have ho : (!options.allowOuterWhitespace && spaces) = false ↔ options.allowOuterWhitespace = true ∨ spaces = false := by
    cases options.allowOuterWhitespace <;> simp
  simp only [rejectIf_bind_ok, he, hn, ho, hchars, Plausible, Pure.pure, Except.pure, Except.ok.injEq]
  constructor
  · rintro ⟨h1, h2, h3, h4, h5, rfl⟩
    exact ⟨rfl, ⟨h1, h2, h5⟩, h3, h4⟩
  · rintro ⟨rfl, ⟨h1, h2, h5⟩, h3, h4⟩
    exact ⟨h1, h2, h3, h4, h5, rfl⟩

theorem stringValue_ok {options : StringOptions} {v : Value} {s : JsonString} : Ts.stringValue options v = .ok s ↔
    v = .string s ∧ Plausible options s.units ∧
      (options.allowOuterWhitespace = true ∨
        (endsIn isCommonSpace s.units = false ∧ endsIn isByteOrderMark s.units = false)) ∧
      Fits options (utf8Length 3 s.units) := by
  cases v with
  | string t =>
    have hspace : decide (trim Ts.isSpace t.units ≠ t.units) = false ↔
        endsIn isCommonSpace t.units = false ∧ endsIn isByteOrderMark t.units = false := by
      rw [decide_eq_false_iff_not, not_not, trim_eq_self, endsIn_or isSpace_eq, Bool.or_eq_false_iff]
    have hbytes : options.maxBytes.any (fun m => m < utf8Length 3 t.units) = false ↔ Fits options (utf8Length 3 t.units) := by
      simp [Fits, Option.any_eq_false]
    refine (checkString_ok (by simp) (by simp [Option.any_eq_false])).trans ?_
    rw [hspace, hbytes, Value.string.injEq]
    constructor
    · rintro ⟨rfl, h⟩
      exact ⟨rfl, h⟩
    · rintro ⟨rfl, h⟩
      exact ⟨rfl, h⟩
  | _ => simp [Ts.stringValue, throw, throwThe, MonadExceptOf.throw]

theorem codePoints_le (s : List CodeUnit) : codePoints s ≤ s.length := by
  induction s using codePoints.induct with
  | case1 => exact Nat.le_refl 0
  | case2 c => exact Nat.le_refl 1
  | case3 c d s h ih =>
    simp only [codePoints, h, if_true, List.length_cons]
    omega
  | case4 c d s h ih =>
    simp only [codePoints, h, if_false, Bool.false_eq_true, List.length_cons] at ih ⊢
    omega

theorem JsonString.short_of (s : JsonString) :
    utf8Length 1 s.units ≤ Kotlin.maxInt ∧ codePoints s.units ≤ Kotlin.maxInt := by
  have h1 : utf8Length 1 s.units ≤ 3 * s.units.length := utf8Length_le (by omega) s.units
  have h2 := codePoints_le s.units
  have h3 := s.short
  unfold Kotlin.maxInt
  unfold maxStringLength at h3
  omega

theorem getD_lt_false {o : Option Nat} {d n : Nat} (h : n ≤ d) : decide (o.getD d < n) = false ↔ ∀ m ∈ o, n ≤ m := by
  cases o with
  | none => simpa using h
  | some m => simp

theorem jsonString_ok {options : StringOptions} {v : Value} {s : JsonString} : Kotlin.jsonString options v = .ok s ↔
    v = .string s ∧ Plausible options s.units ∧
      (options.allowOuterWhitespace = true ∨
        (endsIn isCommonSpace s.units = false ∧ endsIn isInformationSeparator s.units = false)) ∧
      Fits options (utf8Length 1 s.units) := by
  cases v with
  | string t =>
    have hspace : decide (trim Kotlin.isWhitespace t.units ≠ t.units) = false ↔
        endsIn isCommonSpace t.units = false ∧ endsIn isInformationSeparator t.units = false := by
      rw [decide_eq_false_iff_not, not_not, trim_eq_self, endsIn_or isWhitespace_eq, Bool.or_eq_false_iff]
    refine (checkString_ok (by simp) (getD_lt_false t.short_of.2)).trans ?_
    rw [hspace, getD_lt_false t.short_of.1, Value.string.injEq]
    constructor
    · rintro ⟨rfl, h⟩
      exact ⟨rfl, h⟩
    · rintro ⟨rfl, h⟩
      exact ⟨rfl, h⟩
  | _ => simp [Kotlin.jsonString, throw, throwThe, MonadExceptOf.throw]

/-- **Where the string helpers differ**: white space of one language only at an end, or lone surrogates whose two or
three bytes make the difference to the limit. -/
def StringSlip (options : StringOptions) (v : Value) : Prop :=
  ∃ s, v = .string s ∧ Plausible options s.units ∧
    ((options.allowOuterWhitespace = false ∧ endsIn isCommonSpace s.units = false ∧
        endsIn isInformationSeparator s.units = true ∧ endsIn isByteOrderMark s.units = false ∧
        Fits options (utf8Length 3 s.units)) ∨
      (options.allowOuterWhitespace = false ∧ endsIn isCommonSpace s.units = false ∧
        endsIn isByteOrderMark s.units = true ∧ endsIn isInformationSeparator s.units = false ∧
        Fits options (utf8Length 1 s.units)) ∨
      ((options.allowOuterWhitespace = true ∨ (endsIn isCommonSpace s.units = false ∧
          endsIn isInformationSeparator s.units = false ∧ endsIn isByteOrderMark s.units = false)) ∧
        Fits options (utf8Length 1 s.units) ∧ ¬ Fits options (utf8Length 3 s.units)))

theorem Fits.kotlin {options : StringOptions} {s : List CodeUnit} (h : Fits options (utf8Length 3 s)) :
    Fits options (utf8Length 1 s) := fun m hm => by
  have h3 := h m hm
  rw [utf8Length_eq] at h3 ⊢
  omega

/-- **`stringValue` and `jsonString` agree** exactly off the slips. -/
theorem string_match {options : StringOptions} {v : Value} (h : ¬ StringSlip options v) :
    Match (Ts.stringValue options v) (Kotlin.jsonString options v) := by
  intro s
  rw [stringValue_ok, jsonString_ok]
  constructor
  · rintro ⟨rfl, hp, hs, hf⟩
    refine ⟨rfl, hp, ?_, hf.kotlin⟩
    by_contra hk
    rw [not_or, Bool.not_eq_true, not_and, Bool.not_eq_false] at hk
    have hs := hs.resolve_left (by simp [hk.1])
    exact h ⟨s, rfl, hp, .inl ⟨hk.1, hs.1, hk.2 hs.1, hs.2, hf⟩⟩
  · rintro ⟨rfl, hp, hs, hf⟩
    have hspace : options.allowOuterWhitespace = true ∨
        (endsIn isCommonSpace s.units = false ∧ endsIn isByteOrderMark s.units = false) := by
      by_contra hk
      rw [not_or, Bool.not_eq_true, not_and, Bool.not_eq_false] at hk
      have hs := hs.resolve_left (by simp [hk.1])
      exact h ⟨s, rfl, hp, .inr (.inl ⟨hk.1, hs.1, hk.2 hs.1, hs.2, hf⟩)⟩
    refine ⟨rfl, hp, hspace, ?_⟩
    by_contra hk
    refine h ⟨s, rfl, hp, .inr (.inr ⟨?_, hf, hk⟩)⟩
    rcases hs with hs | hs
    · exact .inl hs
    · exact hspace.imp_right (fun hj => ⟨hs.1, hs.2, hj.2⟩)

theorem string_accepts_iff (options : StringOptions) (v : Value) :
    (Accepts (Ts.stringValue options v) ↔ Accepts (Kotlin.jsonString options v)) ↔ ¬ StringSlip options v := by
  refine ⟨fun hiff => ?_, fun h => (string_match h).accepts⟩
  rintro ⟨s, rfl, hp, ⟨ho, hc, hi, hb, hf⟩ | ⟨ho, hc, hb, hi, hf⟩ | ⟨hs, hf, hn⟩⟩
  · obtain ⟨t, ht⟩ := hiff.1 ⟨s, stringValue_ok.2 ⟨rfl, hp, .inr ⟨hc, hb⟩, hf⟩⟩
    obtain ⟨heq, -, hs, -⟩ := jsonString_ok.1 ht
    obtain rfl := Value.string.inj heq
    simp [ho, hi] at hs
  · obtain ⟨t, ht⟩ := hiff.2 ⟨s, jsonString_ok.2 ⟨rfl, hp, .inr ⟨hc, hi⟩, hf⟩⟩
    obtain ⟨heq, -, hs, -⟩ := stringValue_ok.1 ht
    obtain rfl := Value.string.inj heq
    simp [ho, hb] at hs
  · obtain ⟨t, ht⟩ := hiff.2 ⟨s, jsonString_ok.2 ⟨rfl, hp, hs.imp_right (fun h => ⟨h.1, h.2.1⟩), hf⟩⟩
    obtain ⟨heq, -, -, hf'⟩ := stringValue_ok.1 ht
    obtain rfl := Value.string.inj heq
    exact hn hf'

/-! ## Numbers -/

/-- **Where the integer helpers differ**: a negative zero, or a double beyond the safe integers that the bounds admit. -/
def IntegerSlip (minimum maximum : Int) (v : Value) : Prop :=
  ∃ n, v = .number n ∧
    ((n.js.isNegativeZero = true ∧ minimum ≤ 0 ∧ 0 ≤ maximum) ∨
      ∃ d, n = .decimal d ∧ d.isInteger = true ∧ maxSafeInteger < d.trunc.natAbs ∧ minLong ≤ d.trunc ∧
        d.trunc ≤ maxLong + 1 ∧ minimum ≤ min maxLong d.trunc ∧ min maxLong d.trunc ≤ maximum)

theorem integer_ok {minimum maximum k : Int} {v : Value} : Ts.integer minimum maximum v = .ok k ↔
    ∃ n, v = .number n ∧ n.js.isInteger = true ∧ n.js.trunc.natAbs ≤ maxSafeInteger ∧ n.js.isNegativeZero = false ∧
      n.js.trunc = k ∧ minimum ≤ k ∧ k ≤ maximum := by
  cases v with
  | number n =>
    simp only [Ts.integer, rejectIf_bind_ok, Pure.pure, Except.pure, Except.ok.injEq, Bool.or_eq_false_iff,
      Bool.not_eq_false', Double.isSafeInteger, Bool.and_eq_true, decide_eq_true_eq, decide_eq_false_iff_not, not_lt,
      Value.number.injEq, exists_eq_left']
    constructor
    · rintro ⟨⟨⟨h1, h2⟩, h3⟩, ⟨h4, h5⟩, rfl⟩
      exact ⟨h1, h2, h3, rfl, h4, h5⟩
    · rintro ⟨h1, h2, h3, rfl, h4, h5⟩
      exact ⟨⟨⟨h1, h2⟩, h3⟩, ⟨h4, h5⟩, rfl⟩
  | _ => simp [Ts.integer, throw, throwThe, MonadExceptOf.throw]

theorem integer_js (negative : Bool) (magnitude : Nat) (safe : magnitude ≤ maxSafeInteger) :
    (Number.integer negative magnitude safe).js.isInteger = true ∧
      (Number.integer negative magnitude safe).js.trunc = (if negative then -(magnitude : Int) else magnitude) := by
  refine ⟨by simp [Number.js, Double.isInteger], ?_⟩
  cases negative <;> simp [Number.js, Double.trunc, Double.sign]

theorem integralValue_double {d : Double} {k : Int} : Kotlin.integralValue (.double d) = .ok k ↔
    d.isInteger = true ∧ minLong ≤ d.trunc ∧ d.trunc ≤ maxLong + 1 ∧ min maxLong d.trunc = k := by
  simp only [Kotlin.integralValue, rejectIf_bind_ok, KotlinNumber.toLong, Pure.pure, Except.pure, Except.ok.injEq,
    Bool.not_eq_false', Bool.or_eq_false_iff, decide_eq_false_iff_not, not_lt]
  unfold minLong maxLong
  constructor
  · rintro ⟨h1, ⟨h2, h3⟩, h4⟩
    exact ⟨h1, h3, h2, by omega⟩
  · rintro ⟨h1, h2, h3, h4⟩
    exact ⟨h1, ⟨h3, h2⟩, by omega⟩

theorem jsonInteger_ok {minimum maximum k : Int} {v : Value} : Kotlin.jsonInteger minimum maximum v = .ok k ↔
    ∃ n, v = .number n ∧ Kotlin.integralValue n.kotlin = .ok k ∧ minimum ≤ k ∧ k ≤ maximum := by
  cases v with
  | number n =>
    refine bind_ok.trans ?_
    simp only [rejectIf_bind_ok, Pure.pure, Except.pure, Except.ok.injEq, Bool.or_eq_false_iff, decide_eq_false_iff_not,
      not_lt, Value.number.injEq, exists_eq_left']
    constructor
    · rintro ⟨_, hk, ⟨h1, h2⟩, rfl⟩
      exact ⟨hk, h1, h2⟩
    · rintro ⟨hk, h1, h2⟩
      exact ⟨k, hk, ⟨h1, h2⟩, rfl⟩
  | _ => simp [Kotlin.jsonInteger, throw, throwThe, MonadExceptOf.throw]

theorem trunc_of_negativeZero {d : Double} (h : d.isNegativeZero = true) : d.isInteger = true ∧ d.trunc = 0 := by
  simp only [Double.isNegativeZero, Bool.and_eq_true, decide_eq_true_eq] at h
  simp [Double.isInteger, Double.trunc, h.2]

/-- **What Kotlin makes of a number that is a safe integer in JavaScript.** -/
theorem integralValue_of_safe {n : Number} (h : n.js.isInteger = true) (hs : n.js.trunc.natAbs ≤ maxSafeInteger) :
    Kotlin.integralValue n.kotlin = .ok n.js.trunc := by
  cases n with
  | integer negative magnitude safe =>
    rw [(integer_js negative magnitude safe).2]
    rfl
  | decimal d =>
    have hs : d.trunc.natAbs ≤ 9007199254740991 := hs
    refine integralValue_double.2 ⟨h, ?_⟩
    unfold minLong maxLong
    simp only [Number.js]
    omega

theorem integer_of_integralValue {n : Number} {k : Int} (h : Kotlin.integralValue n.kotlin = .ok k) :
    n.js.isInteger = true ∧ ((n.js.trunc.natAbs ≤ maxSafeInteger ∧ n.js.trunc = k) ∨
      ∃ d, n = .decimal d ∧ maxSafeInteger < d.trunc.natAbs ∧ minLong ≤ d.trunc ∧ d.trunc ≤ maxLong + 1 ∧
        min maxLong d.trunc = k) := by
  cases n with
  | integer negative magnitude safe =>
    obtain ⟨h1, h2⟩ := integer_js negative magnitude safe
    have hk : (if negative then -(magnitude : Int) else magnitude) = k := Except.ok.inj h
    refine ⟨h1, .inl ⟨?_, h2.trans hk⟩⟩
    rw [h2]
    cases negative <;> simpa using safe
  | decimal d =>
    obtain ⟨h1, h2, h3, h4⟩ := integralValue_double.1 h
    refine ⟨h1, ?_⟩
    by_cases hs : d.trunc.natAbs ≤ maxSafeInteger
    · refine .inl ⟨hs, ?_⟩
      unfold maxSafeInteger at hs
      unfold maxLong at h4
      simp only [Number.js]
      omega
    · exact .inr ⟨d, rfl, by omega, h2, h3, h4⟩

theorem integer_match {minimum maximum : Int} {v : Value} (h : ¬ IntegerSlip minimum maximum v) :
    Match (Ts.integer minimum maximum v) (Kotlin.jsonInteger minimum maximum v) := by
  intro k
  rw [integer_ok, jsonInteger_ok]
  constructor
  · rintro ⟨n, rfl, hi, hs, -, rfl, hb⟩
    exact ⟨n, rfl, integralValue_of_safe hi hs, hb⟩
  · rintro ⟨n, rfl, hk, hmin, hmax⟩
    obtain ⟨hi, ⟨hs, rfl⟩ | ⟨d, rfl, hs, hlo, hhi, rfl⟩⟩ := integer_of_integralValue hk
    · refine ⟨n, rfl, hi, hs, ?_, rfl, hmin, hmax⟩
      by_contra hz
      rw [Bool.not_eq_false] at hz
      rw [(trunc_of_negativeZero hz).2] at hmin hmax
      exact h ⟨n, rfl, .inl ⟨hz, hmin, hmax⟩⟩
    · exact absurd ⟨.decimal d, rfl, .inr ⟨d, rfl, hi, hs, hlo, hhi, hmin, hmax⟩⟩ h

theorem integer_accepts_iff (minimum maximum : Int) (v : Value) :
    (Accepts (Ts.integer minimum maximum v) ↔ Accepts (Kotlin.jsonInteger minimum maximum v)) ↔
      ¬ IntegerSlip minimum maximum v := by
  refine ⟨fun hiff => ?_, fun h => (integer_match h).accepts⟩
  rintro ⟨n, rfl, ⟨hz, hmin, hmax⟩ | ⟨d, rfl, hi, hs, hlo, hhi, hmin, hmax⟩⟩
  · obtain ⟨hi, ht⟩ := trunc_of_negativeZero hz
    have hk := integralValue_of_safe hi (by rw [ht]; decide)
    obtain ⟨k, hk⟩ := hiff.2 ⟨_, jsonInteger_ok.2 ⟨n, rfl, hk, by omega, by omega⟩⟩
    obtain ⟨n', hn, -, -, hz', -⟩ := integer_ok.1 hk
    obtain rfl := Value.number.inj hn
    rw [hz] at hz'
    cases hz'
  · have hk : Kotlin.integralValue (Number.decimal d).kotlin = .ok _ := integralValue_double.2 ⟨hi, hlo, hhi, rfl⟩
    obtain ⟨k, hk⟩ := hiff.2 ⟨_, jsonInteger_ok.2 ⟨_, rfl, hk, hmin, hmax⟩⟩
    obtain ⟨n', hn, -, hs', -⟩ := integer_ok.1 hk
    obtain rfl := Value.number.inj hn
    simp only [Number.js] at hs'
    omega

/-! ## Literals -/

/-- **Where the literal helpers differ**: a fraction that is cut to the expected integer. -/
def LiteralSlip (v : Value) (expected : Literal) : Prop :=
  ∃ d k safe, v = .number (.decimal d) ∧ expected = .int k safe ∧ d.isInteger = false ∧ d.trunc = k

theorem toLong_eq_iff {d : Double} {k : Int} (hk : k.natAbs ≤ maxSafeInteger) :
    (KotlinNumber.double d).toLong = k ↔ d.trunc = k := by
  unfold maxSafeInteger at hk
  simp only [KotlinNumber.toLong, minLong, maxLong]
  omega

theorem literal_number {n : Number} {k : Int} (hk : k.natAbs ≤ maxSafeInteger) :
    ((n.js.isInteger && n.js.trunc = k) = true ↔ n.kotlin.toLong = k) ↔
      ¬ ∃ d, n = .decimal d ∧ d.isInteger = false ∧ d.trunc = k := by
  cases n with
  | integer negative magnitude safe =>
    obtain ⟨h1, h2⟩ := integer_js negative magnitude safe
    simp [h1, h2, Number.kotlin, KotlinNumber.toLong]
  | decimal d =>
    have hjs : ((d.isInteger && decide (d.trunc = k)) = true ↔ (KotlinNumber.double d).toLong = k) ↔
        ¬ (d.isInteger = false ∧ d.trunc = k) := by
      rw [toLong_eq_iff hk, Bool.and_eq_true, decide_eq_true_eq]
      cases d.isInteger <;> simp
    rw [show (∃ d', Number.decimal d = .decimal d' ∧ d'.isInteger = false ∧ d'.trunc = k) ↔ (d.isInteger = false ∧ d.trunc = k)
      by simp]
    exact hjs

theorem ite_ok {c : Prop} [Decidable c] {e : FailureClass} : (if c then return () else throw e : Check Unit) = .ok () ↔ c := by
  by_cases h : c <;> simp [h, throw, throwThe, MonadExceptOf.throw, Pure.pure, Except.pure]

theorem accepts_unit {x : Check Unit} : Accepts x ↔ x = .ok () := ⟨fun ⟨_, h⟩ => h, fun h => ⟨(), h⟩⟩

theorem literal_accepts_iff (v : Value) (expected : Literal) :
    (Accepts (Ts.literal v expected) ↔ Accepts (Kotlin.jsonLiteral v expected)) ↔ ¬ LiteralSlip v expected := by
  have hother : Ts.literal v expected = Kotlin.jsonLiteral v expected → (∀ n k safe, v = .number n → expected ≠ .int k safe) →
      ((Accepts (Ts.literal v expected) ↔ Accepts (Kotlin.jsonLiteral v expected)) ↔ ¬ LiteralSlip v expected) := by
    intro heq hne
    rw [heq]
    refine iff_of_true Iff.rfl ?_
    rintro ⟨d, k, safe, hv, he, -⟩
    exact hne _ k safe hv he
  cases v <;> cases expected
  case number.int n k safe =>
    rw [accepts_unit, accepts_unit]
    simp only [Ts.literal, Kotlin.jsonLiteral, ite_ok, literal_number safe, LiteralSlip, Value.number.injEq,
      Literal.int.injEq]
    refine not_congr ⟨?_, ?_⟩
    · rintro ⟨d, h⟩
      exact ⟨d, k, safe, h.1, rfl, h.2⟩
    · rintro ⟨d, _, _, hn, rfl, h⟩
      exact ⟨d, hn, h⟩
  all_goals exact hother rfl (fun n k safe hv he => by simp at hv he)

theorem literal_match {v : Value} {expected : Literal} (h : ¬ LiteralSlip v expected) :
    Match (Ts.literal v expected) (Kotlin.jsonLiteral v expected) := fun _ => by
  rw [← accepts_unit, ← accepts_unit]
  exact (literal_accepts_iff v expected).2 h

/-! ## Base64 -/

theorem sextet_unit {a : Alphabet} {c : CodeUnit} {k : Nat} (h : a.sextet c = some k) : k < 64 ∧ a.unit k = c := by
  have hc := c.isLt
  simp only [Alphabet.sextet, Bool.and_eq_true, decide_eq_true_eq] at h
  have hcase : k < 64 ∧ (if k < 26 then k + 65 else if k < 52 then k + 71 else if k < 62 then k - 4
      else if k = 62 then a.plus else a.slash) = c.val := by
    split at h
    · obtain rfl := Option.some.inj h
      exact ⟨by omega, by rw [if_pos (by omega)]; omega⟩
    · split at h
      · obtain rfl := Option.some.inj h
        exact ⟨by omega, by rw [if_neg (by omega), if_pos (by omega)]; omega⟩
      · split at h
        · obtain rfl := Option.some.inj h
          exact ⟨by omega, by rw [if_neg (by omega), if_neg (by omega), if_pos (by omega)]; omega⟩
        · split at h
          · obtain rfl := Option.some.inj h
            exact ⟨by omega, by simp_all⟩
          · split at h
            · obtain rfl := Option.some.inj h
              exact ⟨by omega, by simp_all⟩
            · cases h
  refine ⟨hcase.1, Fin.ext ?_⟩
  rw [Alphabet.unit, hcase.2]
  exact Nat.mod_eq_of_lt hc

theorem has_sextet {a : Alphabet} {c : CodeUnit} (h : a.has c = true) : ∃ k, a.sextet c = some k :=
  Option.isSome_iff_exists.1 h

theorem has_plain {a : Alphabet} (ha : a = standard ∨ a = urlSafe) {c : CodeUnit} (h : a.has c = true) :
    48 ≤ c.val ∧ c.val ≤ 122 ∧ c.val ≠ 61 ∨ c.val = 43 ∨ c.val = 47 ∨ c.val = 45 := by
  obtain ⟨k, hk⟩ := has_sextet h
  have hp : (a.plus = 43 ∧ a.slash = 47) ∨ (a.plus = 45 ∧ a.slash = 95) := by
    rcases ha with rfl | rfl
    · exact .inl ⟨rfl, rfl⟩
    · exact .inr ⟨rfl, rfl⟩
  simp only [Alphabet.sextet, Bool.and_eq_true, decide_eq_true_eq] at hk
  split at hk
  · omega
  · split at hk
    · omega
    · split at hk
      · omega
      · split at hk
        · omega
        · split at hk
          · omega
          · cases hk

/-- What a text of the regular expression is made of: `l` are its sextets. -/
structure Shape (s : List CodeUnit) (l : List Nat) : Prop where
  sextets : (s.filter (fun c => !isPad c)).mapM standard.sextet = some l
  lt : ∀ x ∈ l, x < 64
  units : s = l.map standard.unit ++ List.replicate ((3 - (Base64.decode l).length % 3) % 3) 61
  tail : l.length % 4 ≠ 1
  bits : Base64.canonical l = !unusedBits s

theorem padding_append {s t : List CodeUnit} (ht : 2 ≤ t.length) : padding (s ++ t) = padding t := by
  unfold padding
  rw [List.reverse_append]
  match hr : t.reverse with
  | [] => rw [← List.length_reverse, hr] at ht; simp at ht
  | [a] => rw [← List.length_reverse, hr] at ht; simp at ht
  | a :: b :: r => rfl

theorem padding_le (s : List CodeUnit) : padding s ≤ 2 := by
  unfold padding
  split
  · split
    · omega
    · split <;> omega
  · split <;> omega
  · omega

theorem unusedBits_append {s t : List CodeUnit} (ht : 4 ≤ t.length) : unusedBits (s ++ t) = unusedBits t := by
  have hp : padding (s ++ t) = padding t := padding_append (by omega)
  have hf : finalSextet (s ++ t) = finalSextet t := by
    have hle := padding_le t
    unfold finalSextet
    rw [hp, List.reverse_append, List.getElem?_append_left (by rw [List.length_reverse]; omega)]
  unfold unusedBits
  rw [hp, hf]

theorem isPad_of_has {c : CodeUnit} (h : standard.has c = true) : isPad c = false := by
  have hc := has_plain (.inl rfl) h
  simp only [isPad, decide_eq_false_iff_not]
  omega

theorem regex_length : ∀ {s : List CodeUnit}, base64Regex s = true → s ≠ [] → 4 ≤ s.length
  | [], _, h => absurd rfl h
  | [_], h, _ => by simp [base64Regex] at h
  | [_, _], h, _ => by simp [base64Regex] at h
  | [_, _, _], h, _ => by simp [base64Regex] at h
  | _ :: _ :: _ :: _ :: _, _, _ => by simp

theorem Shape.nil : Shape [] [] := ⟨rfl, List.forall_mem_nil _, rfl, by decide, rfl⟩

/-- **A full group in front.** -/
theorem Shape.group {a b c d : CodeUnit} {s : List CodeUnit} {l : List Nat} (h : Shape s l)
    (hs : unusedBits (a :: b :: c :: d :: s) = unusedBits s) (ha : standard.has a = true) (hb : standard.has b = true)
    (hc : standard.has c = true) (hd : standard.has d = true) : ∃ l, Shape (a :: b :: c :: d :: s) l := by
  obtain ⟨ka, hka⟩ := has_sextet ha
  obtain ⟨kb, hkb⟩ := has_sextet hb
  obtain ⟨kc, hkc⟩ := has_sextet hc
  obtain ⟨kd, hkd⟩ := has_sextet hd
  obtain ⟨hla, hua⟩ := sextet_unit hka
  obtain ⟨hlb, hub⟩ := sextet_unit hkb
  obtain ⟨hlc, huc⟩ := sextet_unit hkc
  obtain ⟨hld, hud⟩ := sextet_unit hkd
  refine ⟨ka :: kb :: kc :: kd :: l, ?_, ?_, ?_, ?_, ?_⟩
  · simp [isPad_of_has ha, isPad_of_has hb, isPad_of_has hc, isPad_of_has hd, hka, hkb, hkc, hkd, h.sextets]
  · intro x hx
    simp only [List.mem_cons] at hx
    rcases hx with rfl | rfl | rfl | rfl | hx
    · exact hla
    · exact hlb
    · exact hlc
    · exact hld
    · exact h.lt x hx
  · have hu := h.units
    simp only [List.map_cons, hua, hub, huc, hud, Base64.decode, List.length_cons, List.cons_append]
    rw [show ((Base64.decode l).length + 1 + 1 + 1) % 3 = (Base64.decode l).length % 3 by omega, ← hu]
  · have ht := h.tail
    simp only [List.length_cons]
    omega
  · rw [hs, ← h.bits]
    rfl

theorem eq_of_isPad {c : CodeUnit} (h : isPad c = true) : c = 61 := Fin.ext (of_decide_eq_true h)

/-- **The last group**: full, or with one or two characters of padding. -/
theorem Shape.last {a b c d : CodeUnit} (h : base64Regex [a, b, c, d] = true) : ∃ l, Shape [a, b, c, d] l := by
  simp only [base64Regex, Bool.and_eq_true, Bool.or_eq_true] at h
  obtain ⟨⟨ha, hb⟩, ⟨hc, hd | hd⟩ | ⟨hc, hd⟩⟩ := h
  · refine Shape.nil.group ?_ ha hb hc hd
    simp [unusedBits, padding, isPad_of_has hd]
  · obtain ⟨ka, hka⟩ := has_sextet ha
    obtain ⟨kb, hkb⟩ := has_sextet hb
    obtain ⟨kc, hkc⟩ := has_sextet hc
    obtain ⟨hla, hua⟩ := sextet_unit hka
    obtain ⟨hlb, hub⟩ := sextet_unit hkb
    obtain ⟨hlc, huc⟩ := sextet_unit hkc
    refine ⟨[ka, kb, kc], ?_, ?_, ?_, by simp, ?_⟩
    · simp [isPad_of_has ha, isPad_of_has hb, isPad_of_has hc, hd, hka, hkb, hkc]
    · intro x hx
      simp only [List.mem_cons, List.not_mem_nil, or_false] at hx
      rcases hx with rfl | rfl | rfl
      · exact hla
      · exact hlb
      · exact hlc
    · simp [hua, hub, huc, Base64.decode, eq_of_isPad hd]
    · simp [Base64.canonical, unusedBits, padding, finalSextet, hd, isPad_of_has hc, hkc]
  · obtain ⟨ka, hka⟩ := has_sextet ha
    obtain ⟨kb, hkb⟩ := has_sextet hb
    obtain ⟨hla, hua⟩ := sextet_unit hka
    obtain ⟨hlb, hub⟩ := sextet_unit hkb
    refine ⟨[ka, kb], ?_, ?_, ?_, by simp, ?_⟩
    · simp [isPad_of_has ha, isPad_of_has hb, hc, hd, hka, hkb]
    · intro x hx
      simp only [List.mem_cons, List.not_mem_nil, or_false] at hx
      rcases hx with rfl | rfl
      · exact hla
      · exact hlb
    · simp [hua, hub, Base64.decode, eq_of_isPad hc, eq_of_isPad hd]
    · simp [Base64.canonical, unusedBits, padding, finalSextet, hc, hd, hkb]

/-- **Every text of the regular expression has a shape.** -/
theorem base64Regex_shape (s : List CodeUnit) : base64Regex s = true → ∃ l, Shape s l := by
  induction s using base64Regex.induct with
  | case1 => exact fun _ => ⟨[], Shape.nil⟩
  | case2 a b c d => exact Shape.last
  | case3 a b c d s hne ih =>
    intro h
    have hs : s ≠ [] := fun hs => hne hs
    obtain ⟨e, r, rfl⟩ := List.exists_cons_of_ne_nil hs
    rw [base64Regex] at h
    · simp only [Bool.and_eq_true] at h
      obtain ⟨⟨⟨⟨ha, hb⟩, hc⟩, hd⟩, hr⟩ := h
      obtain ⟨l, hl⟩ := ih hr
      exact hl.group (unusedBits_append (s := [a, b, c, d]) (regex_length hr hs)) ha hb hc hd
    · exact hne
  | case4 s h1 h2 h3 =>
    intro h
    have hlen := regex_length h (fun hs => h1 hs)
    match s, hlen with
    | a :: b :: c :: d :: t, _ => exact (h3 a b c d t rfl).elim

theorem unit_spec (a : Alphabet) (ha : a = standard ∨ a = urlSafe) :
    ∀ k < 64, a.sextet (a.unit k) = some k ∧ 43 ≤ (a.unit k).val ∧ (a.unit k).val ≤ 122 := by
  rcases ha with rfl | rfl <;> decide

theorem map_unit_injective {a : Alphabet} (ha : a = standard ∨ a = urlSafe) {l l' : List Nat} (hl : ∀ x ∈ l, x < 64)
    (hl' : ∀ x ∈ l', x < 64) (h : l.map a.unit = l'.map a.unit) : l = l' := by
  have hback : ∀ {l : List Nat}, (∀ x ∈ l, x < 64) → (l.map a.unit).map a.sextet = l.map some := by
    intro l hl
    rw [List.map_map]
    exact List.map_congr_left (fun x hx => (unit_spec a ha x (hl x hx)).1)
  have hs := hback hl
  rw [h, hback hl'] at hs
  exact (List.map_injective_iff.2 (Option.some_injective Nat) hs).symm

theorem roundTrip_iff {a : Alphabet} (ha : a = standard ∨ a = urlSafe) {l : List Nat} (hl : ∀ x ∈ l, x < 64) :
    (Base64.encode (Base64.decode l)).map a.unit = l.map a.unit ↔ Base64.canonical l = true := by
  rw [← Base64.encode_decode_iff hl]
  exact ⟨map_unit_injective ha (Base64.encode_lt (Base64.decode_lt hl)) hl, fun h => by rw [h]⟩

theorem Shape.range {s : List CodeUnit} {l : List Nat} (h : Shape s l) : ∀ c ∈ s, 43 ≤ c.val ∧ c.val ≤ 122 := by
  intro c hc
  rw [h.units, List.mem_append, List.mem_map] at hc
  rcases hc with ⟨k, hk, rfl⟩ | hc
  · exact (unit_spec standard (.inl rfl) k (h.lt k hk)).2
  · rw [List.eq_of_mem_replicate hc]
    decide

theorem endsIn_eq_false {p : CodeUnit → Bool} {s : List CodeUnit} (h : ∀ c ∈ s, p c = false) : endsIn p s = false := by
  unfold endsIn
  rw [Bool.or_eq_false_iff, Option.any_eq_false, Option.any_eq_false]
  exact ⟨fun c hc => by simp [h c (List.mem_of_head? hc)], fun c hc => by simp [h c (List.mem_of_getLast? hc)]⟩

theorem ascii_plain {s : List CodeUnit} (h : ∀ c ∈ s, 43 ≤ c.val ∧ c.val ≤ 122) :
    endsIn Ts.isSpace s = false ∧ endsIn Kotlin.isWhitespace s = false ∧ 0 ∉ s := by
  have hcommon : ∀ c ∈ s, isCommonSpace c = false := fun c hc => by
    have hc := h c hc
    simp only [isCommonSpace, List.contains_cons, List.contains_nil, Bool.or_false, Bool.or_eq_false_iff,
      Bool.and_eq_false_iff, decide_eq_false_iff_not, beq_eq_false_iff_ne]
    omega
  refine ⟨endsIn_eq_false (fun c hc => ?_), endsIn_eq_false (fun c hc => ?_), fun h0 => ?_⟩
  · have hr := h c hc
    simp only [isSpace_eq, hcommon c hc, isByteOrderMark, Bool.false_or, decide_eq_false_iff_not]
    omega
  · have hr := h c hc
    simp only [isWhitespace_eq, hcommon c hc, isInformationSeparator, Bool.false_or, Bool.and_eq_false_iff,
      decide_eq_false_iff_not]
    omega
  · have h0 := (h 0 h0).1
    simp at h0

theorem Shape.decode {s : List CodeUnit} {l : List Nat} (h : Shape s l) :
    Kotlin.decode standard s = some (Base64.decode l) := by
  simp only [Kotlin.decode, h.sextets, h.tail, if_false]

theorem Shape.roundTrip {s : List CodeUnit} {l : List Nat} (h : Shape s l) :
    decide (Kotlin.encodeToString standard true (Base64.decode l) ≠ s) = unusedBits s := by
  have hc := roundTrip_iff (.inl rfl) h.lt
  have hb := h.bits
  have henc : Kotlin.encodeToString standard true (Base64.decode l) = s ↔ Base64.canonical l = true := by
    rw [← hc]
    nth_rewrite 1 [h.units]
    simp only [Kotlin.encodeToString, if_true]
    exact ⟨List.append_cancel_right, fun h => by rw [h]⟩
  rw [hb] at henc
  by_cases hu : unusedBits s = true
  · simp_all
  · simp_all

/-- **`canonicalBase64` and `jsonCanonicalBase64` agree** on every value. -/
theorem base64_match (maxDecodedBytes : Int) (v : Value) :
    Match (Ts.canonicalBase64 maxDecodedBytes v) (Kotlin.jsonCanonicalBase64 maxDecodedBytes v) := by
  cases v with
  | string s =>
    intro t
    simp only [Ts.canonicalBase64, Kotlin.jsonCanonicalBase64, rejectIf_bind_ok]
    by_cases hr : base64Regex s.units = true
    · obtain ⟨l, hl⟩ := base64Regex_shape _ hr
      obtain ⟨h1, h2, -⟩ := ascii_plain hl.range
      have hempty : s.units.isEmpty = decide (s.units.length = 0) := by cases s.units <;> rfl
      have ht₁ : decide (trim Ts.isSpace s.units ≠ s.units) = false := by simp [trim_eq_self.2 h1]
      have ht₂ : decide (trim Kotlin.isWhitespace s.units ≠ s.units) = false := by simp [trim_eq_self.2 h2]
      rw [ht₁, ht₂, hempty, hl.decode]
      simp only [rejectIf_bind_ok, hl.roundTrip]
    · simp [hr]
  | _ => exact Match.refl _

/-! ## URL-safe Base64 -/

theorem standard_replaceUrlSafe {c : CodeUnit} (h : urlSafe.has c = true) :
    standard.sextet (replaceUrlSafe c) = urlSafe.sextet c := by
  have hc := has_plain (.inr rfl) h
  unfold replaceUrlSafe
  by_cases h1 : c.val = 45
  · rw [if_pos h1]
    simp [Alphabet.sextet, urlSafe, h1]
    decide
  · by_cases h2 : c.val = 95
    · rw [if_neg h1, if_pos h2]
      simp [Alphabet.sextet, urlSafe, h2]
      decide
    · rw [if_neg h1, if_neg h2]
      have hp : c.val ≠ 43 ∧ c.val ≠ 47 := by
        obtain ⟨k, hk⟩ := has_sextet h
        simp only [Alphabet.sextet, urlSafe, Bool.and_eq_true, decide_eq_true_eq] at hk
        constructor
        · intro h3
          simp [h3] at hk
        · intro h3
          simp [h3] at hk
      simp [Alphabet.sextet, standard, urlSafe, h1, h2, hp]

theorem sextets_of_all {a : Alphabet} {s : List CodeUnit} (h : s.all a.has = true) :
    s.mapM a.sextet = some (s.filterMap a.sextet) ∧ (∀ x ∈ s.filterMap a.sextet, x < 64) ∧
      (s.filterMap a.sextet).map a.unit = s := by
  induction s with
  | nil => exact ⟨rfl, List.forall_mem_nil _, rfl⟩
  | cons c s ih =>
    rw [List.all_cons, Bool.and_eq_true] at h
    obtain ⟨k, hk⟩ := has_sextet h.1
    obtain ⟨hlt, hunit⟩ := sextet_unit hk
    obtain ⟨h1, h2, h3⟩ := ih h.2
    refine ⟨by simp [hk, h1], ?_, by simp [hk, hunit, h3]⟩
    rw [List.filterMap_cons_some hk]
    exact List.forall_mem_cons.2 ⟨hlt, h2⟩

theorem urlText {s : List CodeUnit} (h : base64UrlRegex s = true) :
    (∀ c ∈ s, 43 ≤ c.val ∧ c.val ≤ 122 ∧ c.val ≠ 61) ∧ s ≠ [] ∧ s.all urlSafe.has = true := by
  simp only [base64UrlRegex, Bool.and_eq_true, decide_eq_true_eq] at h
  refine ⟨fun c hc => ?_, fun hs => ?_, h.2⟩
  · have hp := has_plain (.inr rfl) (List.all_eq_true.1 h.2 c hc)
    omega
  · rw [hs] at h
    simp at h

/-- **The round trip of `canonicalBase64Url`** goes over the standard alphabet. -/
theorem bufferFrom_padded {s : List CodeUnit} (h : s.all urlSafe.has = true) (n : Nat) :
    Ts.bufferFrom (s.map replaceUrlSafe ++ List.replicate n 61) = Base64.decode (s.filterMap urlSafe.sextet) := by
  have hmap : (s.map replaceUrlSafe).filterMap standard.sextet = s.filterMap urlSafe.sextet := by
    rw [List.filterMap_map]
    exact List.filterMap_congr (fun c hc => standard_replaceUrlSafe (List.all_eq_true.1 h c hc))
  have hpad : (List.replicate n (61 : CodeUnit)).filterMap standard.sextet = [] := by
    rw [List.filterMap_eq_nil_iff]
    intro c hc
    rw [List.eq_of_mem_replicate hc]
    decide
  rw [Ts.bufferFrom, List.filterMap_append, hmap, hpad, List.append_nil]

/-- A URL-safe text that is canonical, of at most 2048 characters. -/
def UrlText (s : JsonString) : Prop :=
  base64UrlRegex s.units = true ∧ s.units.length ≤ 2048 ∧ Base64.canonical (s.units.filterMap urlSafe.sextet) = true

theorem urlString_ok {v : Value} {s : JsonString} (h : base64UrlRegex s.units = true) :
    (Ts.stringValue base64UrlOptions v = .ok s ↔ v = .string s ∧ s.units.length ≤ 2048) ∧
      (Kotlin.jsonString base64UrlOptions v = .ok s ↔ v = .string s ∧ s.units.length ≤ 2048) := by
  obtain ⟨hr, hne, -⟩ := urlText h
  obtain ⟨h1, h2, h3⟩ := ascii_plain (fun c hc => ⟨(hr c hc).1, (hr c hc).2.1⟩)
  rw [endsIn_or isSpace_eq, Bool.or_eq_false_iff] at h1
  rw [endsIn_or isWhitespace_eq, Bool.or_eq_false_iff] at h2
  have hp : Plausible base64UrlOptions s.units := ⟨.inr hne, .inr h3, fun m hm => by cases hm⟩
  have hf : ∀ lone, Fits base64UrlOptions (utf8Length lone s.units) ↔ s.units.length ≤ 2048 := fun lone => by
    rw [utf8Length_ascii (fun c hc => by have := hr c hc; omega)]
    exact ⟨fun h => h _ rfl, fun h m hm => by cases hm; exact h⟩
  rw [stringValue_ok, jsonString_ok, hf, hf]
  exact ⟨⟨fun h => ⟨h.1, h.2.2.2⟩, fun h => ⟨h.1, hp, .inr h1, h.2⟩⟩,
    ⟨fun h => ⟨h.1, h.2.2.2⟩, fun h => ⟨h.1, hp, .inr h2, h.2⟩⟩⟩

theorem contains_pad {s : List CodeUnit} (h : base64UrlRegex s = true) : s.contains 61 = false := by
  rw [Bool.eq_false_iff, Ne, List.contains_iff_mem]
  intro hm
  exact ((urlText h).1 61 hm).2.2 rfl

theorem expectedLength_any {o : Option Int} {f : Int → Int} {n : Nat} :
    o.any (fun k => (n : Int) ≠ f k) = false ↔ ∀ k ∈ o, (n : Int) = f k := by
  simp [Option.any_eq_false]

theorem urlRoundTrip_iff {s : List CodeUnit} (h : s.all urlSafe.has = true) :
    (Base64.encode (Base64.decode (s.filterMap urlSafe.sextet))).map urlSafe.unit = s ↔
      Base64.canonical (s.filterMap urlSafe.sextet) = true := by
  obtain ⟨-, hlt, hunits⟩ := sextets_of_all h
  rw [← roundTrip_iff (.inr rfl) hlt, hunits]

theorem canonicalBase64Url_ok {decodedBytes : Option Int} {v : Value} {s : JsonString} :
    Ts.canonicalBase64Url decodedBytes v = .ok s ↔
      v = .string s ∧ UrlText s ∧ ∀ n ∈ decodedBytes, (s.units.length : Int) = Ts.expectedLength n := by
  refine bind_ok.trans ?_
  simp only [rejectIf_bind_ok, Pure.pure, Except.pure, Except.ok.injEq, Bool.or_eq_false_iff, Bool.not_eq_false',
    expectedLength_any, decide_eq_false_iff_not, not_not, UrlText]
  constructor
  · rintro ⟨_, hs, ⟨hr, -⟩, hn, hrt, rfl⟩
    rw [bufferFrom_padded (urlText hr).2.2, urlRoundTrip_iff (urlText hr).2.2] at hrt
    obtain ⟨hv, hlen⟩ := (urlString_ok hr).1.1 hs
    exact ⟨hv, ⟨hr, hlen, hrt⟩, hn⟩
  · rintro ⟨hv, ⟨hr, hlen, hrt⟩, hn⟩
    refine ⟨s, (urlString_ok hr).1.2 ⟨hv, hlen⟩, ⟨hr, contains_pad hr⟩, hn, ?_, rfl⟩
    rw [bufferFrom_padded (urlText hr).2.2, urlRoundTrip_iff (urlText hr).2.2]
    exact hrt

theorem decode_urlSafe {s : List CodeUnit} (h : base64UrlRegex s = true) : Kotlin.decode urlSafe s =
    if (s.filterMap urlSafe.sextet).length % 4 = 1 then none else some (Base64.decode (s.filterMap urlSafe.sextet)) := by
  have hfilter : s.filter (fun c => !isPad c) = s := by
    rw [List.filter_eq_self]
    intro c hc
    have hne := ((urlText h).1 c hc).2.2
    simp [isPad, hne]
  simp only [Kotlin.decode, hfilter, (sextets_of_all (urlText h).2.2).1]

theorem jsonCanonicalBase64Url_ok {decodedBytes : Option Int} {v : Value} {s : JsonString} :
    Kotlin.jsonCanonicalBase64Url decodedBytes v = .ok s ↔
      v = .string s ∧ UrlText s ∧ ∀ n ∈ decodedBytes, (s.units.length : Int) = Kotlin.expectedLength n := by
  have hencode : ∀ bytes, Kotlin.encodeToString urlSafe false bytes = (Base64.encode bytes).map urlSafe.unit := fun bytes => by
    simp [Kotlin.encodeToString]
  refine bind_ok.trans ?_
  simp only [rejectIf_bind_ok, Bool.or_eq_false_iff, Bool.not_eq_false', expectedLength_any, UrlText]
  constructor
  · rintro ⟨t, hs, ⟨hr, -⟩, hn, hd⟩
    rw [decode_urlSafe hr] at hd
    by_cases htail : (t.units.filterMap urlSafe.sextet).length % 4 = 1
    · simp [htail, throw, throwThe, MonadExceptOf.throw] at hd
    · simp only [htail, if_false, rejectIf_bind_ok, hencode, decide_eq_false_iff_not, not_not, Pure.pure, Except.pure,
        Except.ok.injEq, urlRoundTrip_iff (urlText hr).2.2] at hd
      obtain ⟨hrt, rfl⟩ := hd
      obtain ⟨hv, hlen⟩ := (urlString_ok hr).2.1 hs
      exact ⟨hv, ⟨hr, hlen, hrt⟩, hn⟩
  · rintro ⟨hv, ⟨hr, hlen, hrt⟩, hn⟩
    refine ⟨s, (urlString_ok hr).2.2 ⟨hv, hlen⟩, ⟨hr, contains_pad hr⟩, hn, ?_⟩
    rw [decode_urlSafe hr, if_neg (Base64.canonical_length hrt)]
    simp only [rejectIf_bind_ok, hencode, decide_eq_false_iff_not, not_not, Pure.pure, Except.pure, and_true,
      urlRoundTrip_iff (urlText hr).2.2]
    exact hrt

/-- **Where the URL-safe helpers differ**: the expected length overflows an `Int`. -/
def UrlSlip (decodedBytes : Option Int) (v : Value) : Prop :=
  ∃ s n, v = .string s ∧ UrlText s ∧ decodedBytes = some n ∧
    ¬ ((s.units.length : Int) = Ts.expectedLength n ↔ (s.units.length : Int) = Kotlin.expectedLength n)

theorem url_accepts_iff (decodedBytes : Option Int) (v : Value) :
    (Accepts (Ts.canonicalBase64Url decodedBytes v) ↔ Accepts (Kotlin.jsonCanonicalBase64Url decodedBytes v)) ↔
      ¬ UrlSlip decodedBytes v := by
  simp only [Accepts, canonicalBase64Url_ok, jsonCanonicalBase64Url_ok]
  constructor
  · rintro hiff ⟨s, n, rfl, ht, rfl, hne⟩
    refine hne ⟨fun h => ?_, fun h => ?_⟩
    · obtain ⟨t, hv, -, hn⟩ := hiff.1 ⟨s, rfl, ht, fun k hk => by cases hk; exact h⟩
      obtain rfl := Value.string.inj hv
      exact hn n rfl
    · obtain ⟨t, hv, -, hn⟩ := hiff.2 ⟨s, rfl, ht, fun k hk => by cases hk; exact h⟩
      obtain rfl := Value.string.inj hv
      exact hn n rfl
  · intro h
    refine exists_congr (fun s => and_congr_right (fun hv => and_congr_right (fun ht => ?_)))
    refine forall_congr' (fun n => forall_congr' (fun hn => ?_))
    by_contra hne
    exact h ⟨s, n, hv, ht, hn, hne⟩

/-! ## Records -/

/-- No text of the record slips, each with the options of its key. -/
def TextsAgree (o : Object) (keys : List (String × StringOptions)) : Prop :=
  ∀ e ∈ keys, ∀ v, get? o e.1 = some v → ¬ StringSlip e.2 v

def IntegersAgree (o : Object) (keys : List String) : Prop :=
  ∀ key ∈ keys, ∀ v, get? o key = some v → ¬ IntegerSlip 0 maxSafeInteger v

/-- What `validateProject` reads. -/
def ProjectAgrees (v : Value) : Prop :=
  ∀ o, v = .object o → TextsAgree o [("name", nameOptions), ("path", outerOptions 4096), ("branch", outerOptions 255)]

/-- What `capabilities` reads. -/
def CapabilitiesAgree (v : Value) : Prop :=
  ∀ items, v = .array items → items.length ≤ 64 → ∀ x ∈ items, ¬ StringSlip idOptions x

/-- What `validateScope` reads. -/
def ScopeAgrees (v : Value) : Prop :=
  ∀ o, v = .object o → TextsAgree o [("scopeId", idOptions), ("displayName", outerOptions 128)] ∧
    ∀ items, get? o "projects" = some (.array items) → items.length ≤ 256 → ∀ x ∈ items, ProjectAgrees x

/-- What `validateStructuredError` reads. -/
def ErrorAgrees (v : Value) : Prop :=
  ∀ o, v = .object o → TextsAgree o [("code", nameOptions), ("message", outerOptions 4096)] ∧
    IntegersAgree o ["retryAfterMs"] ∧
    ∀ d code, get? o "details" = some (.object d) → get? o "code" = some (.string code) →
      code.units = ofString "HOST_EPOCH_MISMATCH" →
      TextsAgree d [("expectedHostEpoch", idOptions), ("actualHostEpoch", idOptions)]

/-- What `validateSession` reads. -/
def SessionAgrees (v : Value) : Prop :=
  ∀ o, v = .object o →
    TextsAgree o [("scopeId", idOptions), ("sessionId", idOptions), ("displayName", outerOptions 128),
      ("project", nameOptions), ("label", outerOptions 128), ("cwd", outerOptions 4096)] ∧
    IntegersAgree o ["windowCount", "createdAtMs", "activityAtMs"]

theorem object_ok {v : Value} {o : Object} (h : object v = .ok o) : v = .object o := by
  cases v with
  | object o' => rw [Except.ok.inj h]
  | _ => cases h

theorem field_ok {o : Object} {name : String} {v : Value} (h : field o name = .ok v) : get? o name = some v := by
  unfold field at h
  cases hg : get? o name with
  | none => rw [hg] at h; cases h
  | some v' => rw [hg] at h; rw [Except.ok.inj h]

section
variable {o : Object} {keys : List (String × StringOptions)} {β : Type}

theorem TextsAgree.step (h : TextsAgree o keys) {name : String} {options : StringOptions} (hm : (name, options) ∈ keys)
    {f g : JsonString → Check β}
    (hf : ∀ s, get? o name = some (.string s) → Match (f s) (g s)) :
    Match (do let v ← field o name; let s ← Ts.stringValue options v; f s)
      (do let v ← field o name; let s ← Kotlin.jsonString options v; g s) := by
  refine Match.step (fun v hv => (string_match (h _ hm v (field_ok hv))).bind (fun s hs => hf s ?_))
  rw [field_ok hv, (jsonString_ok.1 hs).1]

theorem IntegersAgree.step {keys : List String} (h : IntegersAgree o keys) {name : String} (hm : name ∈ keys)
    {f g : Int → Check β} (hf : ∀ k, Match (f k) (g k)) :
    Match (do let v ← field o name; let k ← Ts.integer 0 maxSafeInteger v; f k)
      (do let v ← field o name; let k ← Kotlin.jsonInteger 0 maxSafeInteger v; g k) :=
  Match.step (fun v hv => (integer_match (h _ hm v (field_ok hv))).bind (fun k _ => hf k))

theorem nullable_match {α : Type} {f g : Value → Check α} {v : Value} (h : Match (f v) (g v)) :
    Match (nullable f v) (nullable g v) := by
  cases v with
  | null => exact Match.refl _
  | _ => exact h.bind (fun _ _ => Match.refl _)

theorem ifPresent_match {α : Type} {f g : Value → Check α} {name : String}
    (h : ∀ v, get? o name = some v → Match (f v) (g v)) : Match (ifPresent o name f) (ifPresent o name g) := by
  unfold ifPresent
  cases hv : get? o name with
  | none => exact Match.refl _
  | some v => exact (h v hv).bind (fun _ _ => Match.refl _)

end

theorem foldlM_match {σ : Type} {f g : σ → Value → Check σ} (items : List Value)
    (h : ∀ x ∈ items, ∀ s, Match (f s x) (g s x)) : ∀ s, Match (items.foldlM f s) (items.foldlM g s) := by
  induction items with
  | nil => exact fun s => Match.refl _
  | cons x items ih =>
    intro s
    rw [List.foldlM_cons, List.foldlM_cons]
    exact (h x (by simp) s).bind (fun s' _ => ih (fun y hy => h y (by simp [hy])) s')

theorem array_match {σ : Type} {f g : σ → Value → Check σ} {maximum : Nat} {init : σ} {v : Value}
    (h : ∀ items, v = .array items → items.length ≤ maximum → ∀ x ∈ items, ∀ s, Match (f s x) (g s x)) :
    Match (array maximum f init v) (array maximum g init v) := by
  cases v with
  | array items =>
    refine Match.step (fun _ hr => (foldlM_match items (fun x hx s => h items rfl ?_ x hx s) init).bind
      (fun _ _ => Match.refl _))
    by_contra hlt
    rw [not_le] at hlt
    simp [rejectIf, hlt, throw, throwThe, MonadExceptOf.throw] at hr
  | _ => exact Match.refl _

theorem capabilities_match {v : Value} (h : CapabilitiesAgree v) : Match (Ts.capabilities v) (Kotlin.jsonCapabilities v) :=
  array_match (fun items hv hlen x hx _ => (string_match (h items hv hlen x hx)).bind (fun _ _ => Match.refl _))

theorem validateProject_match {v : Value} (h : ProjectAgrees v) :
    Match (Ts.helpers.validateProject v) (Kotlin.helpers.validateProject v) := by
  refine Match.step (fun o ho => Match.step (fun _ _ => ?_))
  have ht := h o (object_ok ho)
  refine ht.step (by simp) (fun _ _ => ht.step (by simp) (fun _ _ => ifPresent_match (fun v hv => ?_)))
  exact string_match (ht ("branch", outerOptions 255) (by simp) v hv)

theorem validateScope_match {v : Value} (h : ScopeAgrees v) : Match (Ts.validateScope v) (Kotlin.validateScope v) := by
  refine Match.step (fun o ho => Match.step (fun _ _ => ?_))
  obtain ⟨ht, hp⟩ := h o (object_ok ho)
  refine ht.step (by simp) (fun _ _ => ht.step (by simp) (fun _ _ => ?_))
  refine Match.step (fun _ _ => Match.step (fun _ _ => Match.step (fun _ _ => Match.step (fun _ _ => ?_))))
  refine Match.step (fun projects hv => array_match (fun items hitems hlen x hx _ => validateProject_match ?_))
  exact hp items (by rw [field_ok hv, hitems]) hlen x hx

theorem literal_bool_match (v : Value) (b : Bool) : Match (Ts.literal v (.bool b)) (Kotlin.jsonLiteral v (.bool b)) :=
  literal_match (fun ⟨_, _, _, _, h, _⟩ => by cases h)

theorem errorDetails_match {code : JsonString} {d : Object} (h : code.units = ofString "HOST_EPOCH_MISMATCH" →
      TextsAgree d [("expectedHostEpoch", idOptions), ("actualHostEpoch", idOptions)]) :
    Match (Ts.helpers.errorDetails code d) (Kotlin.helpers.errorDetails code d) := by
  refine Match.ite (fun hc => Match.step (fun _ _ => ?_)) (fun _ => Match.ite (fun _ => ?_) (fun _ => ?_))
  · exact (h hc).step (by simp) (fun _ _ => (h hc).step (by simp) (fun _ _ => Match.refl _))
  · exact Match.refl _
  · refine Match.ite (fun _ => Match.step (fun _ _ => Match.step (fun _ _ => ?_))) (fun _ => Match.ite (fun _ => ?_)
      (fun _ => Match.refl _))
    · exact literal_bool_match _ true
    · exact Match.step (fun _ _ => Match.step (fun _ _ => literal_bool_match _ true))

theorem validateStructuredError_match {v : Value} (h : ErrorAgrees v) :
    Match (Ts.validateStructuredError v) (Kotlin.validateStructuredError v) := by
  refine Match.step (fun o ho => Match.step (fun _ _ => ?_))
  obtain ⟨ht, hi, hd⟩ := h o (object_ok ho)
  refine ht.step (by simp) (fun code hcode => Match.step (fun _ _ => ht.step (by simp) (fun _ _ => ?_)))
  refine Match.step (fun _ _ => Match.step (fun _ _ => Match.step (fun _ _ => Match.step (fun _ _ => ?_))))
  refine Match.bind (ifPresent_match (fun v hv => nullable_match ?_)) (fun _ _ => ?_)
  · exact integer_match (hi "retryAfterMs" (by simp) v hv)
  · cases hg : get? o "details" with
    | none => exact Match.refl _
    | some details =>
      cases details with
      | object d => exact Match.step (fun d' hd' => errorDetails_match (fun hc => by
          obtain rfl := Except.ok.inj hd'
          exact hd _ code hg hcode hc))
      | _ => exact Match.refl _

theorem exact_present {o : Object} {required optional : List String} (h : exact o required optional = .ok ()) {name : String}
    (hm : name ∈ required) : ∃ v, get? o name = some v := by
  have hr : required.any (fun key => (get? o key).isNone) = false := by
    unfold exact at h
    rw [rejectIf_bind_ok] at h
    exact h.1
  rw [List.any_eq_false] at hr
  exact Option.ne_none_iff_exists'.1 (by simpa using hr name hm)

theorem TextsAgree.nullable_step {o : Object} {keys : List (String × StringOptions)} {β : Type} (h : TextsAgree o keys)
    {name : String} {options : StringOptions} (hm : (name, options) ∈ keys) (hp : ∃ v, get? o name = some v)
    {f g : Option JsonString → Check β} (hf : ∀ s, Match (f s) (g s)) :
    Match (do let v ← field o name; let s ← nullable (Ts.stringValue options) v; f s)
      (do let s ← Kotlin.optionalString o name options; g s) := by
  obtain ⟨v, hv⟩ := hp
  have hfield : field o name = .ok v := by simp [field, hv, Pure.pure, Except.pure]
  have hkotlin : Kotlin.optionalString o name options = nullable (Kotlin.jsonString options) v := by
    simp only [Kotlin.optionalString, hv]
    cases v <;> rfl
  rw [hfield, hkotlin]
  exact (nullable_match (string_match (h _ hm v hv))).bind (fun s _ => hf s)

theorem literal_string_match (v : Value) (t : String) :
    Match (Ts.literal v (.string t)) (Kotlin.jsonLiteral v (.string t)) :=
  literal_match (fun ⟨_, _, _, _, h, _⟩ => by cases h)

theorem validateSession_match {v : Value} (h : SessionAgrees v) :
    Match (Ts.validateSession v) (Kotlin.validateSession v) := by
  refine Match.step (fun o ho => Match.step (fun _ he => ?_))
  obtain ⟨ht, hi⟩ := h o (object_ok ho)
  have hp : ∀ {name}, name ∈ sessionKeys → ∃ v, get? o name = some v := exact_present he
  refine ht.step (by simp) (fun _ _ => ht.step (by simp) (fun _ _ => Match.step (fun _ _ => Match.step (fun _ _ => ?_))))
  refine ht.step (by simp) (fun _ _ => Match.step (fun _ _ => (literal_string_match _ _).bind (fun _ _ => ?_)))
  refine ht.nullable_step (by simp) (hp (by decide)) (fun _ => ?_)
  refine ht.nullable_step (by simp) (hp (by decide)) (fun _ => ?_)
  refine ht.nullable_step (by simp) (hp (by decide)) (fun _ => Match.step (fun _ _ => ?_))
  refine Match.step (fun _ _ => Match.step (fun _ _ => hi.step (by simp) (fun _ => hi.step (by simp) (fun _ => ?_))))
  exact hi.step (by simp) (fun _ => Match.refl _)

def sampleText (units : List CodeUnit) (h : units.length ≤ maxStringLength) : Value := .string ⟨units, h⟩

def sampleCapabilities : Value := .array [sampleText [116, 119] (by decide)]

def twoAndAHalf : Double := ⟨false, 5, -1, by decide, by decide⟩

end Codec
end TmuxWorktree
