import TmuxWorktree.Strict.Parser
import Mathlib.Data.List.TakeWhile
/-!
# Scans — whitespace, strings and numbers, against the grammar

Each scanner of the parser takes what its rule of the grammar allows, and it takes it all: what follows a number is not
part of one.
-/
namespace TmuxWorktree
namespace Strict

open Utf16 Grammar

/-! ## Whitespace -/

def NoSpace (r : Text) : Prop := ∀ c ∈ r.head?, isSpace c = false

theorem space_dropWhile (s : Text) : Space s (s.dropWhile isSpace) := by
  induction s with
  | nil => exact .nil []
  | cons c s ih =>
    by_cases hc : isSpace c = true
    · rw [List.dropWhile_cons_of_pos hc]
      exact .cons hc ih
    · rw [List.dropWhile_cons_of_neg hc]
      exact .nil _

theorem dropWhile_space {s r : Text} (h : Space s r) (hr : NoSpace r) : s.dropWhile isSpace = r := by
  induction h with
  | nil s =>
    cases s with
    | nil => rfl
    | cons c s =>
      have hc : isSpace c = false := hr c rfl
      rw [List.dropWhile_cons_of_neg (by simp [hc])]
  | cons hc _ ih =>
    rw [List.dropWhile_cons_of_pos hc]
    exact ih hr

theorem space_length {s r : Text} (h : Space s r) : r.length ≤ s.length := by
  induction h with
  | nil => exact Nat.le_refl _
  | cons _ _ ih => exact Nat.le_succ_of_le ih

/-! ## Strings -/

theorem escaped_isSome (e : CodeUnit) :
    (escaped e).isSome = [0x22, 0x5C, 0x2F, 0x62, 0x66, 0x6E, 0x72, 0x74].contains e.val := by
  unfold escaped
  split
  next h =>
    simp only [Bool.or_eq_true, decide_eq_true_eq] at h
    rcases h with (h | h) | h <;> simp [h]
  next h =>
    simp only [Bool.or_eq_true, decide_eq_true_eq, not_or] at h
    obtain ⟨⟨h₁, h₂⟩, h₃⟩ := h
    split
    next h => simp [h]
    next h₄ =>
      split
      next h => simp [h]
      next h₅ =>
        split
        next h => simp [h]
        next h₆ =>
          split
          next h => simp [h]
          next h₇ =>
            split
            next h => simp [h]
            next h₈ => simp [h₁, h₂, h₃, h₄, h₅, h₆, h₇, h₈]

theorem hexUnit_isSome (x y z w : CodeUnit) :
    (hexUnit x y z w).isSome = [x, y, z, w].all fun d => (hexDigit d).isSome := by
  unfold hexUnit
  cases hx : hexDigit x <;> cases hy : hexDigit y <;> cases hz : hexDigit z <;> cases hw : hexDigit w <;>
    simp [hx, hy, hz, hw]

theorem eq_of_val {c : CodeUnit} {n : Nat} (hn : n < 65536) (h : c.val = n) : c = ⟨n, hn⟩ := Fin.ext h

theorem isPlain_of {c : CodeUnit} (hq : ¬ c.val = 0x22) (hlt : ¬ c.val < 0x20) (hb : ¬ c.val = 0x5C) : isPlain c = true := by
  simp only [isPlain, Bool.and_eq_true, decide_eq_true_eq, ne_eq]
  omega

/-- **What is scanned is a string of the grammar**, and `JSON.parse` takes it. -/
theorem scanString_sound : ∀ {s body r : Text}, scanString s = some (body, r) →
    ∃ t, unescape body = some t ∧ Chars s t r ∧ r.length < s.length := by
  intro s
  induction s using scanString.induct with
  | case1 =>
    intro body r h
    cases h
  | case2 c s hc =>
    intro body r h
    rw [scanString.eq_def] at h
    dsimp only at h
    rw [if_pos hc] at h
    cases h
    rw [eq_of_val (by omega) hc]
    exact ⟨[], rfl, .close _, by simp⟩
  | case3 c s hc hlt =>
    intro body r h
    rw [scanString.eq_def] at h
    dsimp only at h
    rw [if_neg hc, if_pos hlt] at h
    cases h
  | case4 c hc hlt hb =>
    intro body r h
    rw [scanString.eq_def] at h
    dsimp only at h
    rw [if_neg hc, if_neg hlt, if_pos hb] at h
    cases h
  | case5 c hc hlt hb e he x y z w s hall ih =>
    intro body r h
    rw [scanString.eq_def] at h
    dsimp only at h
    rw [if_neg hc, if_neg hlt, if_pos hb] at h
    simp only [he, hall, if_true, Option.map_eq_some_iff, Prod.mk.injEq, Prod.exists] at h
    obtain ⟨body', r', hscan, rfl, rfl⟩ := h
    obtain ⟨t, hun, hchars, hlen⟩ := ih hscan
    obtain ⟨u, hu⟩ := Option.isSome_iff_exists.mp ((hexUnit_isSome x y z w).trans hall)
    refine ⟨u :: t, ?_, ?_, by simp only [List.length_cons]; omega⟩
    · rw [unescape.eq_def]
      dsimp only
      rw [if_pos hb]
      simp only [he, if_true, hu, hun, Option.bind_eq_bind, Option.bind_some, Option.pure_def]
    · rw [eq_of_val (by omega) hb, eq_of_val (by omega) he]
      exact .unicode hu hchars
  | case6 c hc hlt hb e he x y z w s hall =>
    intro body r h
    rw [scanString.eq_def] at h
    dsimp only at h
    rw [if_neg hc, if_neg hlt, if_pos hb] at h
    simp only [he, if_true, if_neg hall] at h
    cases h
  | case7 c hc hlt hb e s he hshort =>
    intro body r h
    rw [scanString.eq_def] at h
    dsimp only at h
    rw [if_neg hc, if_neg hlt, if_pos hb] at h
    simp only [he, if_true] at h
    cases h
  | case8 c hc hlt hb e s he hmem ih =>
    intro body r h
    rw [scanString.eq_def] at h
    dsimp only at h
    rw [if_neg hc, if_neg hlt, if_pos hb] at h
    simp only [he, hmem, if_true, if_false, Option.map_eq_some_iff, Prod.mk.injEq, Prod.exists] at h
    obtain ⟨body', r', hscan, rfl, rfl⟩ := h
    obtain ⟨t, hun, hchars, hlen⟩ := ih hscan
    obtain ⟨u, hu⟩ := Option.isSome_iff_exists.mp ((escaped_isSome e).trans hmem)
    refine ⟨u :: t, ?_, ?_, by simp only [List.length_cons]; omega⟩
    · rw [unescape.eq_def]
      dsimp only
      rw [if_pos hb]
      simp only [he, if_false, hu, hun, Option.bind_eq_bind, Option.bind_some, Option.pure_def]
    · rw [eq_of_val (by omega) hb]
      exact .escape hu hchars
  | case9 c hc hlt hb e s he hmem =>
    intro body r h
    rw [scanString.eq_def] at h
    dsimp only at h
    rw [if_neg hc, if_neg hlt, if_pos hb] at h
    simp only [he, if_false, if_neg hmem] at h
    cases h
  | case10 c s hc hlt hb ih =>
    intro body r h
    rw [scanString.eq_def] at h
    dsimp only at h
    rw [if_neg hc, if_neg hlt, if_neg hb] at h
    simp only [Option.map_eq_some_iff, Prod.mk.injEq, Prod.exists] at h
    obtain ⟨body', r', hscan, rfl, rfl⟩ := h
    obtain ⟨t, hun, hchars, hlen⟩ := ih hscan
    have hplain := isPlain_of hc hlt hb
    refine ⟨c :: t, ?_, .plain hplain hchars, by simp only [List.length_cons]; omega⟩
    rw [unescape.eq_def]
    dsimp only
    rw [if_neg hb, if_pos hplain, hun]
    rfl

/-- **A string of the grammar is scanned**, and to its end. -/
theorem scanString_complete {s t r : Text} (h : Chars s t r) : ∃ body, scanString s = some (body, r) ∧ unescape body = some t := by
  induction h with
  | close r => exact ⟨[], by rw [scanString.eq_def]; rfl, rfl⟩
  | @plain c s t r hc _ ih =>
    obtain ⟨body, hscan, hun⟩ := ih
    have hplain := hc
    simp only [isPlain, Bool.and_eq_true, decide_eq_true_eq, ne_eq] at hplain
    obtain ⟨⟨hlt, hq⟩, hb⟩ := hplain
    refine ⟨c :: body, ?_, ?_⟩
    · rw [scanString.eq_def]
      dsimp only
      rw [if_neg hq, if_neg (by omega), if_neg hb, hscan]
      rfl
    · rw [unescape.eq_def]
      dsimp only
      rw [if_neg hb, if_pos hc, hun]
      rfl
  | @escape e c s t r he _ ih =>
    obtain ⟨body, hscan, hun⟩ := ih
    have hmem : [0x22, 0x5C, 0x2F, 0x62, 0x66, 0x6E, 0x72, 0x74].contains e.val = true := by
      rw [← escaped_isSome, he]
      rfl
    have hne : ¬ e.val = 0x75 := by
      intro hcontra
      rw [hcontra] at hmem
      exact absurd hmem (by decide)
    refine ⟨0x5C :: e :: body, ?_, ?_⟩
    · rw [scanString.eq_def]
      dsimp only
      rw [if_neg (by decide), if_neg (by decide), if_pos (show (0x5C : CodeUnit).val = 0x5C from rfl)]
      simp only [hne, hmem, if_false, if_true, hscan, Option.map_some]
    · rw [unescape.eq_def]
      dsimp only
      rw [if_pos (show (0x5C : CodeUnit).val = 0x5C from rfl)]
      simp only [hne, if_false, he, hun, Option.bind_eq_bind, Option.bind_some, Option.pure_def]
  | @unicode x y z w u s t r hu _ ih =>
    obtain ⟨body, hscan, hun⟩ := ih
    have hall : ([x, y, z, w].all fun d => (hexDigit d).isSome) = true := by
      rw [← hexUnit_isSome, hu]
      rfl
    refine ⟨0x5C :: 0x75 :: x :: y :: z :: w :: body, ?_, ?_⟩
    · rw [scanString.eq_def]
      dsimp only
      rw [if_neg (by decide), if_neg (by decide), if_pos (show (0x5C : CodeUnit).val = 0x5C from rfl)]
      simp only [show ((0x75 : CodeUnit).val = 0x75) = True from eq_true rfl, hall, if_true, hscan, Option.map_some]
    · rw [unescape.eq_def]
      dsimp only
      rw [if_pos (show (0x5C : CodeUnit).val = 0x5C from rfl)]
      simp only [show ((0x75 : CodeUnit).val = 0x75) = True from eq_true rfl, if_true, hu, hun, Option.bind_eq_bind,
        Option.bind_some, Option.pure_def]

/-! ## Numbers -/

def NumberEnd (r : Text) : Prop :=
  ∀ c ∈ r.head?, isDigit c = false ∧ c.val ≠ 0x2E ∧ c.val ≠ 0x65 ∧ c.val ≠ 0x45

def NoDigit (r : Text) : Prop := ∀ c ∈ r.head?, isDigit c = false

theorem takeWhile_digits {ds r : Text} (hds : AllDigits ds) (hr : NoDigit r) :
    (ds ++ r).takeWhile isDigit = ds ∧ (ds ++ r).dropWhile isDigit = r := by
  induction ds with
  | nil =>
    cases r with
    | nil => exact ⟨rfl, rfl⟩
    | cons c r =>
      have hc : ¬ isDigit c = true := by simp [hr c rfl]
      exact ⟨List.takeWhile_cons_of_neg hc, List.dropWhile_cons_of_neg hc⟩
  | cons d ds ih =>
    have hd := hds d (.head _)
    obtain ⟨htake, hdrop⟩ := ih fun c hc => hds c (.tail _ hc)
    rw [List.cons_append, List.takeWhile_cons_of_pos hd, List.dropWhile_cons_of_pos hd, htake, hdrop]
    exact ⟨rfl, rfl⟩

theorem allDigits_takeWhile (s : Text) : AllDigits (s.takeWhile isDigit) := fun _ hc => List.mem_takeWhile_imp hc

theorem matchMinus_sound (s : Text) : Minus s (matchMinus s).1 (matchMinus s).2 ∧ (matchMinus s).2.length ≤ s.length := by
  cases s with
  | nil => exact ⟨.plus [], Nat.le_refl _⟩
  | cons c s =>
    unfold matchMinus
    dsimp only
    split
    next h =>
      rw [eq_of_val (by omega) h]
      exact ⟨.minus s, Nat.le_succ _⟩
    next => exact ⟨.plus _, Nat.le_refl _⟩

theorem matchWhole_sound {s w r : Text} (h : matchWhole s = some (w, r)) : Whole s w r ∧ r.length < s.length := by
  cases s with
  | nil => cases h
  | cons c s =>
    unfold matchWhole at h
    dsimp only at h
    split at h
    next hc =>
      cases h
      rw [eq_of_val (by omega) hc]
      exact ⟨.zero _, by simp⟩
    next hc =>
      split at h
      next hd =>
        cases h
        have hwhole := Whole.digits hd (fun h0 => hc (by rw [h0]; rfl)) (allDigits_takeWhile s) (s.dropWhile isDigit)
        rw [List.cons_append, List.takeWhile_append_dropWhile] at hwhole
        exact ⟨hwhole, Nat.lt_succ_of_le (List.dropWhile_sublist _).length_le⟩
      next => cases h

theorem matchFraction_sound (s : Text) :
    Fraction s (matchFraction s).1 (matchFraction s).2 ∧ (matchFraction s).2.length ≤ s.length := by
  cases s with
  | nil => exact ⟨.none [], Nat.le_refl _⟩
  | cons c s =>
    unfold matchFraction
    dsimp only
    split
    next h =>
      simp only [Bool.and_eq_true, decide_eq_true_eq] at h
      have hfraction := Fraction.some h.2 (allDigits_takeWhile s) (s.dropWhile isDigit)
      rw [List.cons_append, List.takeWhile_append_dropWhile] at hfraction
      rw [eq_of_val (by omega) h.1]
      exact ⟨hfraction, Nat.le_succ_of_le (List.dropWhile_sublist _).length_le⟩
    next => exact ⟨.none _, Nat.le_refl _⟩

theorem matchSign_sound (s : Text) : Sign s (matchSign s).1 (matchSign s).2 ∧ (matchSign s).2.length ≤ s.length := by
  cases s with
  | nil => exact ⟨.none [], Nat.le_refl _⟩
  | cons c s =>
    unfold matchSign
    dsimp only
    split
    next h =>
      rw [eq_of_val (by omega) h]
      exact ⟨.plus s, Nat.le_succ _⟩
    next =>
      split
      next h =>
        rw [eq_of_val (by omega) h]
        exact ⟨.minus s, Nat.le_succ _⟩
      next => exact ⟨.none _, Nat.le_refl _⟩

theorem matchExponent_sound (s : Text) :
    Exponent s (matchExponent s).1 (matchExponent s).2 ∧ (matchExponent s).2.length ≤ s.length := by
  cases s with
  | nil => exact ⟨.none [], Nat.le_refl _⟩
  | cons c s =>
    obtain ⟨hsign, hlen⟩ := matchSign_sound s
    unfold matchExponent
    dsimp only
    split
    next h =>
      simp only [Bool.and_eq_true, Bool.or_eq_true, decide_eq_true_eq] at h
      refine ⟨.some (h.1.imp (eq_of_val (by omega)) (eq_of_val (by omega))) ?_ h.2 (allDigits_takeWhile _), ?_⟩
      · rw [List.takeWhile_append_dropWhile]
        exact hsign
      · exact Nat.le_succ_of_le (Nat.le_trans (List.dropWhile_sublist _).length_le hlen)
    next => exact ⟨.none _, Nat.le_refl _⟩

/-- **What the regular expression matches is a number of the grammar.** -/
theorem matchNumber_sound {s r : Text} {l : Literal} (h : matchNumber s = some (l, r)) : Number s l r ∧ r.length < s.length := by
  unfold matchNumber at h
  dsimp only at h
  obtain ⟨hminus, hlen⟩ := matchMinus_sound s
  split at h
  next => cases h
  next w s' hw =>
    obtain ⟨hwhole, hlen'⟩ := matchWhole_sound hw
    obtain ⟨hfraction, hlen''⟩ := matchFraction_sound s'
    obtain ⟨hexponent, hrest⟩ := matchExponent_sound (matchFraction s').2
    cases h
    exact ⟨⟨_, _, _, hminus, hwhole, hfraction, hexponent⟩, by omega⟩

theorem matchExponent_complete {s r : Text} {e : Option (Bool × Text)} (h : Exponent s e r) (hr : NumberEnd r) :
    matchExponent s = (e, r) := by
  cases h with
  | none =>
    cases s with
    | nil => rfl
    | cons c s =>
      obtain ⟨-, -, he, hE⟩ := hr c rfl
      unfold matchExponent
      simp [he, hE]
  | @some e s ds negative r he hs hne hds =>
    obtain ⟨htake, hdrop⟩ := takeWhile_digits hds fun c hc => (hr c hc).1
    have hsign : matchSign s = (negative, ds ++ r) := by
      cases hs with
      | none =>
        obtain ⟨d, ds', rfl⟩ := List.exists_cons_of_ne_nil hne
        have hd : isDigit d = true := hds d (.head _)
        simp only [isDigit, Bool.and_eq_true, decide_eq_true_eq] at hd
        unfold matchSign
        rw [List.cons_append]
        dsimp only
        rw [if_neg (by omega), if_neg (by omega)]
      | plus => rfl
      | minus => rfl
    have hletter : (e.val = 0x65 ∨ e.val = 0x45) := he.imp (fun h => by rw [h]; rfl) (fun h => by rw [h]; rfl)
    unfold matchExponent
    dsimp only
    rw [hsign]
    dsimp only
    rw [htake, hdrop, if_pos (by simpa [hne] using hletter)]

theorem exponent_head {s r : Text} {e : Option (Bool × Text)} (h : Exponent s e r) (hr : NumberEnd r) :
    ∀ c ∈ s.head?, isDigit c = false ∧ c.val ≠ 0x2E := by
  cases h with
  | none => exact fun c hc => ⟨(hr c hc).1, (hr c hc).2.1⟩
  | some he =>
    intro c hc
    cases hc
    rcases he with rfl | rfl <;> exact ⟨rfl, by decide⟩

theorem matchFraction_complete {s r : Text} {f : Option Text} (h : Fraction s f r)
    (hr : ∀ c ∈ r.head?, isDigit c = false ∧ c.val ≠ 0x2E) : matchFraction s = (f, r) := by
  cases h with
  | none =>
    cases s with
    | nil => rfl
    | cons c s =>
      have hc := (hr c rfl).2
      unfold matchFraction
      simp [hc]
  | @some ds hne hds =>
    obtain ⟨htake, hdrop⟩ := takeWhile_digits hds fun c hc => (hr c hc).1
    rw [List.cons_append]
    unfold matchFraction
    dsimp only
    rw [htake, hdrop, if_pos (by simpa using hne)]

theorem fraction_head {s r : Text} {f : Option Text} (h : Fraction s f r)
    (hr : ∀ c ∈ r.head?, isDigit c = false ∧ c.val ≠ 0x2E) : NoDigit s := by
  cases h with
  | none => exact fun c hc => (hr c hc).1
  | some =>
    intro c hc
    cases hc
    rfl

theorem matchWhole_complete {s w r : Text} (h : Whole s w r) (hr : NoDigit r) : matchWhole s = some (w, r) := by
  cases h with
  | zero => rfl
  | @digits c ds hc h0 hds =>
    obtain ⟨htake, hdrop⟩ := takeWhile_digits hds hr
    rw [List.cons_append]
    unfold matchWhole
    dsimp only
    rw [if_neg (fun h => h0 (eq_of_val (by omega) h)), if_pos hc, htake, hdrop]

theorem whole_head {s w r : Text} (h : Whole s w r) : ∃ c s', s = c :: s' ∧ isDigit c = true := by
  cases h with
  | zero => exact ⟨_, _, rfl, rfl⟩
  | digits hc => exact ⟨_, _, rfl, hc⟩

/-- **A number of the grammar is matched**, and to its end. -/
theorem matchNumber_complete {s r : Text} {l : Literal} (h : Number s l r) (hr : NumberEnd r) :
    matchNumber s = some (l, r) := by
  obtain ⟨s₁, s₂, s₃, hminus, hwhole, hfraction, hexponent⟩ := h
  have hhead := exponent_head hexponent hr
  have hm : matchMinus s = (l.negative, s₁) := by
    generalize l.negative = b at hminus
    cases hminus with
    | plus =>
      obtain ⟨c, s', rfl, hc⟩ := whole_head hwhole
      simp only [isDigit, Bool.and_eq_true, decide_eq_true_eq] at hc
      unfold matchMinus
      dsimp only
      rw [if_neg (by omega)]
    | minus => rfl
  unfold matchNumber
  rw [hm]
  dsimp only
  rw [matchWhole_complete hwhole (fraction_head hfraction hhead)]
  dsimp only
  rw [matchFraction_complete hfraction hhead]
  dsimp only
  rw [matchExponent_complete hexponent hr]

theorem number_head {s r : Text} {l : Literal} (h : Number s l r) : ∃ c s', s = c :: s' ∧ (isDigit c = true ∨ c = 0x2D) := by
  obtain ⟨s₁, s₂, s₃, hminus, hwhole, -⟩ := h
  generalize l.negative = b at hminus
  cases hminus with
  | plus =>
    obtain ⟨c, s', hs, hc⟩ := whole_head hwhole
    exact ⟨c, s', hs, .inl hc⟩
  | minus => exact ⟨_, _, rfl, .inr rfl⟩

end Strict
end TmuxWorktree
