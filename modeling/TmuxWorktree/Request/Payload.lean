import TmuxWorktree.Request.Parser
import TmuxWorktree.Canonical.Canon
import TmuxWorktree.Strict.Unique
import TmuxWorktree.Lib.Utf8
/-!
# Payload — an agent message on its way to the backend (`authority.ts`)

`handleV1` joins the message, the submit flag and the runtime settings by NULs, and `executeInput` takes them apart again.
It does so from the end: the flag has one character and the settings are JSON, which holds no NUL, so that the NULs of the
message do no harm.
-/
namespace TmuxWorktree
namespace Request

open Utf16 Grammar
open Canonical (Parses)

/-! ## The payload of `handleV1` -/

/-- `replace(/\r\n/g, "\n")`. -/
def replaceCrLf : Text → Text
  | [] => []
  | [c] => [c]
  | c :: d :: s => if c.val = 0x0D ∧ d.val = 0x0A then 0x0A :: replaceCrLf s else c :: replaceCrLf (d :: s)

/-- `replace(/\r/g, "\n")`. -/
def replaceCr (s : Text) : Text := s.map fun c => if c.val = 0x0D then 0x0A else c

def normalized (message : Text) : Text := replaceCr (replaceCrLf message)

/-- The settings, as an object of JavaScript. -/
def RuntimeSettings.value (settings : RuntimeSettings) : Value :=
  .object [(ofString "model", settings.model.elim .null .string),
    (ofString "reasoningEffort", settings.reasoningEffort.elim .null fun e => .string (ofString e.text)),
    (ofString "mode", .string (ofString settings.mode.text))]

/-- The character of the submit flag. -/
def flag (submit : Bool) : CodeUnit := if submit then 0x31 else 0x30

/-- What follows the message: the flag, and the settings if there are any. -/
def trailer (submit : Bool) (runtime : Option RuntimeSettings) : Text :=
  flag submit :: runtime.elim [] fun settings => 0x00 :: settings.value.text

def AgentMessage.payload (r : AgentMessage) : Text := normalized r.message ++ 0x00 :: trailer r.submit r.runtime

/-! ## The decoding of `executeInput` -/

/-- `s.slice(s.lastIndexOf("\0") + 1)`. -/
def finalSegment (s : Text) : Text := (s.reverse.takeWhile (fun c => c.val ≠ 0)).reverse

/-- `s.slice(0, s.lastIndexOf("\0"))`; the index is -1 if there is no NUL. -/
def beforeFinal (s : Text) : Text :=
  if s.any (fun c => c.val = 0) then ((s.reverse.dropWhile (fun c => c.val ≠ 0)).drop 1).reverse else s.dropLast

/-- What the backend is handed. -/
structure Sent where
  message : Text
  submit : Bool
  runtime : Option Value

def sent (messageAndSubmit : Text) (runtime : Option Value) : Sent :=
  ⟨beforeFinal messageAndSubmit, finalSegment messageAndSubmit = [0x31], runtime⟩

/-- The settings are there if the final segment starts as an object does; `JSON.parse` reads them. -/
inductive Decodes (encoded : Text) : Sent → Prop where
  | bare (h : (finalSegment encoded).head? ≠ some 0x7B) : Decodes encoded (sent encoded none)
  | runtime {u : Value} (h : (finalSegment encoded).head? = some 0x7B) (hu : Parses (finalSegment encoded) u) :
    Decodes encoded (sent (beforeFinal encoded) (some u))

/-! ## Segments -/

theorem reverse_segment (a b : Text) : (a ++ 0x00 :: b).reverse = b.reverse ++ 0x00 :: a.reverse := by simp

theorem finalSegment_append {b : Text} (hb : ∀ c ∈ b, c.val ≠ 0) (a : Text) : finalSegment (a ++ 0x00 :: b) = b := by
  unfold finalSegment
  rw [reverse_segment, List.takeWhile_append_of_pos (by simpa using hb), List.takeWhile_cons_of_neg (by decide),
    List.append_nil, List.reverse_reverse]

theorem beforeFinal_append {b : Text} (hb : ∀ c ∈ b, c.val ≠ 0) (a : Text) : beforeFinal (a ++ 0x00 :: b) = a := by
  unfold beforeFinal
  rw [if_pos (by simp), reverse_segment, List.dropWhile_append_of_pos (by simpa using hb),
    List.dropWhile_cons_of_neg (by decide), List.drop_one, List.tail_cons, List.reverse_reverse]

/-! ## The text of the settings -/

/-- A code unit of a text that holds neither control characters nor surrogates. -/
def IsClear (c : CodeUnit) : Prop := 0x20 ≤ c.val ∧ isSurrogate c = false

instance : DecidablePred IsClear := fun c => inferInstanceAs (Decidable (0x20 ≤ c.val ∧ isSurrogate c = false))

theorem hexLower_clear {n : Nat} (h : n < 16) : IsClear (hexLower n) := by
  have hval : (hexLower n).val = if n < 10 then 48 + n else 87 + n := by
    unfold hexLower
    split <;> simp only [Fin.ofNat] <;> omega
  simp only [IsClear, isSurrogate, Bool.and_eq_false_iff, decide_eq_false_iff_not, hval]
  split <;> omega

theorem quoteUnit_clear {c : CodeUnit} (h : isSurrogate c = false) : ∀ d ∈ quoteUnit c, IsClear d := by
  have hlt := c.isLt
  have hfixed : IsClear 0x5C ∧ IsClear 0x62 ∧ IsClear 0x74 ∧ IsClear 0x6E ∧ IsClear 0x66 ∧ IsClear 0x72 ∧ IsClear 0x75 := by
    decide
  obtain ⟨h5C, h62, h74, h6E, h66, h72, h75⟩ := hfixed
  unfold quoteUnit
  split
  · simp [h5C, h62]
  · split
    · simp [h5C, h74]
    · split
      · simp [h5C, h6E]
      · split
        · simp [h5C, h66]
        · split
          · simp [h5C, h72]
          · split
            · next hquote =>
              simp only [Bool.or_eq_true, decide_eq_true_eq] at hquote
              have hc : IsClear c := ⟨by omega, h⟩
              simp [h5C, hc]
            · split
              · simp only [unicodeEscape, List.mem_cons, List.not_mem_nil, or_false, forall_eq_or_imp, forall_eq]
                exact ⟨h5C, h75, hexLower_clear (by omega), hexLower_clear (by omega), hexLower_clear (by omega),
                  hexLower_clear (by omega)⟩
              · next hcontrol =>
                simp only [Bool.or_eq_true, decide_eq_true_eq, not_or] at hcontrol
                have hc : IsClear c := ⟨by omega, h⟩
                simp [hc]

theorem quote_clear {s : Text} (h : ∀ c ∈ s, isSurrogate c = false) : ∀ d ∈ quote s, IsClear d := by
  have hbody : ∀ d ∈ quoteBody s, IsClear d := by
    induction s using quoteBody.induct with
    | case1 => simp [quoteBody]
    | case2 c => exact quoteUnit_clear (h c (by simp))
    | case3 c d s hpair ih =>
      rw [isHigh_eq_false (h c (by simp))] at hpair
      cases hpair
    | case4 c d s hpair ih =>
      rw [quoteBody, if_neg hpair]
      intro e he
      rcases List.mem_append.mp he with he | he
      · exact quoteUnit_clear (h c (by simp)) e he
      · exact ih (fun c hc => h c (List.mem_cons_of_mem _ hc)) e he
  have hq : IsClear 0x22 := by decide
  intro d hd
  unfold quote at hd
  simp only [List.mem_cons, List.mem_append, List.not_mem_nil, or_false] at hd
  rcases hd with rfl | hd | rfl
  · exact hq
  · exact hbody d hd
  · exact hq

/-- A model that the parser takes. -/
def RuntimeSettings.Legible (settings : RuntimeSettings) : Prop := ∀ m ∈ settings.model, ∀ c ∈ m, isModelUnit c = true

theorem isSurrogate_model {c : CodeUnit} (h : isModelUnit c = true) : isSurrogate c = false := by
  simp only [isModelUnit, isDigit, Bool.or_eq_true, Bool.and_eq_true, decide_eq_true_eq] at h
  simp only [isSurrogate, Bool.and_eq_false_iff, decide_eq_false_iff_not]
  omega

theorem names_clear : (∀ c ∈ ofString "model" ++ ofString "reasoningEffort" ++ ofString "mode", isSurrogate c = false) ∧
    (∀ e : ReasoningEffort, ∀ c ∈ ofString e.text, isSurrogate c = false) ∧
    ∀ m : RuntimeMode, ∀ c ∈ ofString m.text, isSurrogate c = false := by
  have hplain {s : Text} (h : s.all (fun c => !isSurrogate c) = true) : ∀ c ∈ s, isSurrogate c = false := by
    simpa using h
  refine ⟨hplain (by decide), fun e => ?_, fun m => ?_⟩
  · cases e <;> exact hplain (by decide)
  · cases m <;> exact hplain (by decide)

theorem text_eq (settings : RuntimeSettings) : settings.value.text =
    0x7B :: (quote (ofString "model") ++ 0x3A :: ((settings.model.elim .null .string : Value).text ++ 0x2C ::
      (quote (ofString "reasoningEffort") ++ 0x3A ::
        ((settings.reasoningEffort.elim .null fun e => .string (ofString e.text) : Value).text ++ 0x2C ::
          (quote (ofString "mode") ++ 0x3A :: quote (ofString settings.mode.text)))) ++ [0x7D])) := by
  simp only [RuntimeSettings.value, Value.text, fieldsText, List.append_assoc, List.cons_append]

theorem text_clear {settings : RuntimeSettings} (h : settings.Legible) : ∀ c ∈ settings.value.text, IsClear c := by
  have hnull : ∀ c ∈ Value.null.text, IsClear c := by
    have hletters : IsClear 0x6E ∧ IsClear 0x75 ∧ IsClear 0x6C := by decide
    rw [Value.text]
    simp [hletters]
  have hpunct : IsClear 0x7B ∧ IsClear 0x3A ∧ IsClear 0x2C ∧ IsClear 0x7D := by decide
  have hmodel : ∀ c ∈ (settings.model.elim .null .string : Value).text, IsClear c := by
    cases hm : settings.model with
    | none => exact hnull
    | some m => exact quote_clear fun c hc => isSurrogate_model (h m hm c hc)
  have heffort : ∀ c ∈ (settings.reasoningEffort.elim .null fun e => .string (ofString e.text) : Value).text, IsClear c := by
    cases settings.reasoningEffort with
    | none => exact hnull
    | some e => exact quote_clear (names_clear.2.1 e)
  have hmode := quote_clear (names_clear.2.2 settings.mode)
  have hnames := names_clear.1
  simp only [List.mem_append, or_imp, forall_and] at hnames
  have h₁ := quote_clear hnames.1.1
  have h₂ := quote_clear hnames.1.2
  have h₃ := quote_clear hnames.2
  rw [text_eq]
  simp only [List.forall_mem_cons, List.forall_mem_append]
  exact ⟨hpunct.1, h₁, hpunct.2.1, ⟨hmodel, hpunct.2.2.1, h₂, hpunct.2.1, heffort, hpunct.2.2.1, h₃, hpunct.2.1, hmode⟩,
    hpunct.2.2.2, by simp⟩

/-! ## The round trip -/

theorem value_plain (settings : RuntimeSettings) : settings.value.plain = settings.value := by
  cases hmodel : settings.model <;> cases heffort : settings.reasoningEffort <;>
    simp [RuntimeSettings.value, Value.plain, plainFields, hmodel, heffort]

theorem parses_settings (settings : RuntimeSettings) (u : Value) : Parses settings.value.text u ↔ u = settings.value := by
  constructor
  · rintro ⟨tree, hdocument, hvalue⟩
    rw [Strict.document_unique (text_document settings.value) hdocument, tree_value, value_plain] at hvalue
    exact (Option.some.inj hvalue).symm
  · rintro rfl
    exact ⟨_, text_document settings.value, by rw [tree_value, value_plain]⟩

theorem text_head (settings : RuntimeSettings) : settings.value.text.head? = some 0x7B := by
  rw [text_eq, List.head?_cons]

theorem flag_ne_zero (submit : Bool) : ∀ c ∈ [flag submit], c.val ≠ 0 := by
  cases submit <;> simp [flag]

theorem sent_flag (m : Text) (submit : Bool) (runtime : Option Value) :
    sent (m ++ 0x00 :: [flag submit]) runtime = ⟨m, submit, runtime⟩ := by
  have hne := flag_ne_zero submit
  unfold sent
  rw [beforeFinal_append hne, finalSegment_append hne]
  cases submit <;> rfl

theorem clear_ne_zero {s : Text} (h : ∀ c ∈ s, IsClear c) : ∀ c ∈ s, c.val ≠ 0 := fun c hc => by
  have hge := (h c hc).1
  omega

/-- **`executeInput` decodes what `handleV1` wrote**, for every message. -/
theorem decodes_payload {r : AgentMessage} (h : ∀ settings ∈ r.runtime, settings.Legible) (out : Sent) :
    Decodes r.payload out ↔ out = ⟨normalized r.message, r.submit, r.runtime.map RuntimeSettings.value⟩ := by
  cases hruntime : r.runtime with
  | none =>
    have hpayload : r.payload = normalized r.message ++ 0x00 :: [flag r.submit] := by
      rw [AgentMessage.payload, hruntime]
      rfl
    have hhead : (finalSegment r.payload).head? ≠ some 0x7B := by
      rw [hpayload, finalSegment_append (flag_ne_zero r.submit)]
      cases r.submit <;> simp [flag]
    constructor
    · intro hdecodes
      cases hdecodes with
      | bare => rw [hpayload, sent_flag]; rfl
      | runtime hbrace => exact absurd hbrace hhead
    · rintro rfl
      have hbare := Decodes.bare hhead
      rw [hpayload, sent_flag] at hbare
      rw [hpayload]
      exact hbare
  | some settings =>
    have hpayload : r.payload = (normalized r.message ++ 0x00 :: [flag r.submit]) ++ 0x00 :: settings.value.text := by
      rw [AgentMessage.payload, hruntime, List.append_assoc]
      rfl
    have hne := clear_ne_zero (text_clear (h settings hruntime))
    have hfinal : finalSegment r.payload = settings.value.text := by rw [hpayload, finalSegment_append hne]
    have hbefore : beforeFinal r.payload = normalized r.message ++ 0x00 :: [flag r.submit] := by
      rw [hpayload, beforeFinal_append hne]
    have hbrace : (finalSegment r.payload).head? = some 0x7B := by rw [hfinal, text_head]
    constructor
    · intro hdecodes
      cases hdecodes with
      | bare hbare => exact absurd hbrace hbare
      | runtime _ hu =>
        rw [hfinal, parses_settings] at hu
        rw [hbefore, sent_flag, hu]
        rfl
    · rintro rfl
      have hparses : Parses (finalSegment r.payload) settings.value := by rw [hfinal, parses_settings]
      have hdecodes := Decodes.runtime hbrace hparses
      rwa [hbefore, sent_flag] at hdecodes

end Request
end TmuxWorktree
