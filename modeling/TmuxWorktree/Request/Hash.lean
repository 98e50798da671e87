import TmuxWorktree.Request.Payload
/-!
# Hash — the payload hash of an operation (`authority.ts`)

The hash is over bytes, so of a message it sees the characters: an unpaired surrogate is hashed as U+FFFD.  The kind and
the pane hold no NUL and are told from the front, the flag and the settings hold none and are told from the end, and the
message is what is left between them.
-/
namespace TmuxWorktree
namespace Request

open Utf16 Grammar
open Terminal (OperationKind)

def kindText : OperationKind → String
  | .raw => "raw"
  | .agentMessage => "agent-message"
  | .resize => "resize"
  | .scroll => "scroll"
  | .lifecycleKill => "lifecycle-kill"

/-- What `payloadHash` gives to SHA-256. -/
def hashed (kind : OperationKind) (pane : Text) (payload : List UInt8) : List UInt8 :=
  utf8 (ofString "tmux-worktree/terminal-control/operation/v1\x00") ++ (utf8 (ofString (kindText kind)) ++ 0 :: (utf8 pane ++ 0 :: payload))

def payloadHash (sha256 : List UInt8 → String) (kind : OperationKind) (pane : Text) (payload : List UInt8) : String :=
  sha256 (hashed kind pane payload)

def AgentMessage.hashed (r : AgentMessage) : List UInt8 := Request.hashed .agentMessage r.pane (utf8 r.payload)

def AgentMessage.hash (sha256 : List UInt8 → String) (r : AgentMessage) : String :=
  payloadHash sha256 .agentMessage r.pane (utf8 r.payload)

/-! ## Separators -/

section Separators

variable {α : Type} {x : α} {a b a' b' : List α}

theorem split_last (hb : x ∉ b) (hb' : x ∉ b') (h : a ++ x :: b = a' ++ x :: b') : a = a' ∧ b = b' := by
  rcases List.append_eq_append_iff.mp h with ⟨c, rfl, hc⟩ | ⟨c, rfl, hc⟩
  · cases c with
    | nil => exact ⟨(List.append_nil a).symm, (List.cons.inj hc).2⟩
    | cons y c => exact absurd ((List.cons.inj hc).2 ▸ by simp) hb
  · cases c with
    | nil => exact ⟨List.append_nil a', (List.cons.inj hc).2.symm⟩
    | cons y c => exact absurd ((List.cons.inj hc).2 ▸ by simp) hb'

theorem split_first (ha : x ∉ a) (ha' : x ∉ a') (h : a ++ x :: b = a' ++ x :: b') : a = a' ∧ b = b' := by
  have hreverse := congrArg List.reverse h
  simp only [List.reverse_append, List.reverse_cons, List.append_assoc, List.singleton_append] at hreverse
  obtain ⟨hb, ha⟩ := split_last (by simpa using ha) (by simpa using ha') hreverse
  exact ⟨List.reverse_injective ha, List.reverse_injective hb⟩

end Separators

/-! ## The kind and the pane -/

theorem kind_plain (kind : OperationKind) : (0 : UInt8) ∉ utf8 (ofString (kindText kind)) := by
  cases kind <;> decide

theorem kind_injective {kind kind' : OperationKind} (h : utf8 (ofString (kindText kind)) = utf8 (ofString (kindText kind'))) :
    kind = kind' := by
  revert h
  cases kind <;> cases kind' <;> decide

theorem isSurrogate_digit {c : CodeUnit} (h : isDigit c = true) : isSurrogate c = false := by
  simp only [isDigit, Bool.and_eq_true, decide_eq_true_eq] at h
  simp only [isSurrogate, Bool.and_eq_false_iff, decide_eq_false_iff_not]
  omega

theorem utf8_cons {c : CodeUnit} (h : isSurrogate c = false) (s : Text) :
    utf8 (c :: s) = String.utf8EncodeChar (unitChar c) ++ utf8 s := by
  rw [utf8, characters_cons h]
  rfl

theorem digits_plain {s : Text} (h : ∀ c ∈ s, isDigit c = true) : (0 : UInt8) ∉ utf8 s := by
  induction s with
  | nil => simp [utf8, characters, encode]
  | cons c s ih =>
    have hc := h c (by simp)
    have hplain := isSurrogate_digit hc
    have hval : (unitChar c).val.toNat = c.val := toNat_unitChar hplain
    have hrange : 48 ≤ c.val ∧ c.val ≤ 57 := by
      simpa only [isDigit, Bool.and_eq_true, decide_eq_true_eq] using hc
    have hbytes : String.utf8EncodeChar (unitChar c) = [UInt8.ofNat c.val] := by
      unfold String.utf8EncodeChar
      simp only [hval]
      rw [if_pos (by omega)]
    have hne : (0 : UInt8) ≠ UInt8.ofNat c.val := by
      intro heq
      have hnat := congrArg UInt8.toNat heq
      rw [UInt8.toNat_ofNat_of_lt' (by simp [UInt8.size]; omega)] at hnat
      simp at hnat
      omega
    rw [utf8_cons hplain, hbytes]
    simp only [List.singleton_append, List.mem_cons, not_or]
    exact ⟨hne, ih fun d hd => h d (List.mem_cons_of_mem _ hd)⟩

theorem loneSurrogates_digits {s : Text} (h : ∀ c ∈ s, isDigit c = true) : loneSurrogates s = 0 :=
  loneSurrogates_plain fun c hc => isSurrogate_digit (h c hc)

theorem hashed_kind {kind kind' : OperationKind} {pane pane' : Text} {payload payload' : List UInt8}
    (h : hashed kind pane payload = hashed kind' pane' payload') :
    kind = kind' ∧ utf8 pane ++ 0 :: payload = utf8 pane' ++ 0 :: payload' := by
  obtain ⟨hkind, hrest⟩ := split_first (kind_plain kind) (kind_plain kind') (List.append_cancel_left h)
  exact ⟨kind_injective hkind, hrest⟩

/-- **What is hashed tells the kind, the pane and the payload.** -/
theorem hashed_injective {kind kind' : OperationKind} {pane pane' : Text} {payload payload' : List UInt8}
    (hpane : ∀ c ∈ pane, isDigit c = true) (hpane' : ∀ c ∈ pane', isDigit c = true)
    (h : hashed kind pane payload = hashed kind' pane' payload') : kind = kind' ∧ pane = pane' ∧ payload = payload' := by
  obtain ⟨hkind, hrest⟩ := hashed_kind h
  obtain ⟨hbytes, hpayload⟩ := split_first (digits_plain hpane) (digits_plain hpane') hrest
  have hcharacters := encode_injective hbytes
  exact ⟨hkind, characters_injective (loneSurrogates_digits hpane) (loneSurrogates_digits hpane') hcharacters, hpayload⟩

/-! ## The payload -/

theorem unitChar_ne_zero {s : Text} (h : ∀ c ∈ s, IsClear c) : unitChar 0x00 ∉ s.map unitChar := by
  intro hmem
  obtain ⟨c, hc, heq⟩ := List.mem_map.mp hmem
  have hclear := h c hc
  have hval := congrArg Char.toNat heq
  rw [toNat_unitChar hclear.2, toNat_unitChar (by decide)] at hval
  have hge := hclear.1
  simp at hval
  omega

theorem characters_plain {s : Text} (h : ∀ c ∈ s, isSurrogate c = false) : characters s = s.map unitChar := by
  induction s with
  | nil => rfl
  | cons c s ih =>
    rw [characters_cons (h c (by simp)), ih fun d hd => h d (List.mem_cons_of_mem _ hd)]
    rfl

theorem flag_clear (submit : Bool) : ∀ c ∈ [flag submit], IsClear c := by
  cases submit <;> simp only [List.mem_singleton, forall_eq, flag] <;> decide

theorem characters_bare {r : AgentMessage} (h : r.runtime = none) :
    characters r.payload = characters (normalized r.message) ++ unitChar 0x00 :: [flag r.submit].map unitChar := by
  rw [AgentMessage.payload, trailer, h, Option.elim_none, characters_append (by decide),
    characters_plain fun c hc => (flag_clear r.submit c hc).2]

theorem characters_settings {r : AgentMessage} {settings : RuntimeSettings} (h : r.runtime = some settings)
    (hlegible : settings.Legible) :
    characters r.payload = (characters (normalized r.message) ++ unitChar 0x00 :: [flag r.submit].map unitChar) ++
      unitChar 0x00 :: settings.value.text.map unitChar := by
  rw [AgentMessage.payload, trailer, h, Option.elim_some, characters_append (by decide), List.append_assoc]
  congr 2
  rw [characters_plain]
  · rfl
  · intro c hc
    rcases List.mem_cons.mp hc with rfl | hc
    · exact (flag_clear r.submit _ (by simp)).2
    · rcases List.mem_cons.mp hc with rfl | hc
      · decide
      · exact (text_clear hlegible c hc).2

theorem map_unitChar_injective {s t : Text} (hs : ∀ c ∈ s, IsClear c) (ht : ∀ c ∈ t, IsClear c)
    (h : s.map unitChar = t.map unitChar) : s = t := by
  rw [← characters_plain fun c hc => (hs c hc).2, ← characters_plain fun c hc => (ht c hc).2] at h
  exact characters_injective (loneSurrogates_plain fun c hc => (hs c hc).2) (loneSurrogates_plain fun c hc => (ht c hc).2) h

theorem flag_injective {submit submit' : Bool} (h : [flag submit].map unitChar = [flag submit'].map unitChar) :
    submit = submit' := by
  have hflag := map_unitChar_injective (flag_clear submit) (flag_clear submit') h
  revert hflag
  cases submit <;> cases submit' <;> decide

theorem value_injective {settings settings' : RuntimeSettings} (h : settings.value = settings'.value) :
    settings = settings' := by
  obtain ⟨model, effort, mode⟩ := settings
  obtain ⟨model', effort', mode'⟩ := settings'
  simp only [RuntimeSettings.value, Value.object.injEq, List.cons.injEq, Prod.mk.injEq, true_and, and_true,
    Value.string.injEq] at h
  obtain ⟨hmodel, heffort, hmode⟩ := h
  have hmodels : model = model' := by
    cases model <;> cases model' <;> simp_all
  have hmodes : mode = mode' := by
    revert hmode
    cases mode <;> cases mode' <;> decide
  have hefforts : effort = effort' := by
    cases effort with
    | none => cases effort' <;> simp_all
    | some e =>
      cases effort' with
      | none => simp_all
      | some e' =>
        simp only [Option.elim_some, Value.string.injEq] at heffort
        congr 1
        revert heffort
        cases e <;> cases e' <;> decide
  rw [hmodels, hmodes, hefforts]

theorem text_injective {settings settings' : RuntimeSettings} (h : settings.value.text = settings'.value.text) :
    settings = settings' := by
  have hparses : Canonical.Parses settings'.value.text settings.value := h ▸ (parses_settings settings settings.value).mpr rfl
  exact value_injective ((parses_settings settings' settings.value).mp hparses)

theorem text_ne_flag {settings : RuntimeSettings} (hlegible : settings.Legible) (submit : Bool) :
    settings.value.text.map unitChar ≠ [flag submit].map unitChar := by
  intro h
  have htext := map_unitChar_injective (text_clear hlegible) (flag_clear submit) h
  have hhead := text_head settings
  rw [htext] at hhead
  revert hhead
  cases submit <;> decide

/-- **The characters of the payload tell those of the message, the flag and the settings.** -/
theorem payload_characters {r q : AgentMessage} (hr : ∀ settings ∈ r.runtime, settings.Legible)
    (hq : ∀ settings ∈ q.runtime, settings.Legible) (h : characters r.payload = characters q.payload) :
    characters (normalized r.message) = characters (normalized q.message) ∧ r.submit = q.submit ∧ r.runtime = q.runtime := by
  cases hrr : r.runtime with
  | none =>
    rw [characters_bare hrr] at h
    cases hqr : q.runtime with
    | none =>
      rw [characters_bare hqr] at h
      obtain ⟨hmessage, hflag⟩ := split_last (unitChar_ne_zero (flag_clear r.submit)) (unitChar_ne_zero (flag_clear q.submit)) h
      exact ⟨hmessage, flag_injective hflag, rfl⟩
    | some settings =>
      have hlegible := hq settings hqr
      rw [characters_settings hqr hlegible] at h
      have hlast := split_last (unitChar_ne_zero (flag_clear r.submit)) (unitChar_ne_zero (text_clear hlegible)) h
      exact absurd hlast.2.symm (text_ne_flag hlegible r.submit)
  | some settings =>
    have hlegible := hr settings hrr
    rw [characters_settings hrr hlegible] at h
    cases hqr : q.runtime with
    | none =>
      rw [characters_bare hqr] at h
      have hlast := split_last (unitChar_ne_zero (text_clear hlegible)) (unitChar_ne_zero (flag_clear q.submit)) h
      exact absurd hlast.2 (text_ne_flag hlegible q.submit)
    | some settings' =>
      have hlegible' := hq settings' hqr
      rw [characters_settings hqr hlegible'] at h
      obtain ⟨hfront, htext⟩ := split_last (unitChar_ne_zero (text_clear hlegible)) (unitChar_ne_zero (text_clear hlegible')) h
      obtain ⟨hmessage, hflag⟩ := split_last (unitChar_ne_zero (flag_clear r.submit)) (unitChar_ne_zero (flag_clear q.submit)) hfront
      have hsettings := text_injective (map_unitChar_injective (text_clear hlegible) (text_clear hlegible') htext)
      exact ⟨hmessage, flag_injective hflag, congrArg some hsettings⟩

theorem payload_characters_of_agree {r q : AgentMessage}
    (hmessage : characters (normalized r.message) = characters (normalized q.message)) (hsubmit : r.submit = q.submit)
    (hruntime : r.runtime = q.runtime) : characters r.payload = characters q.payload := by
  rw [AgentMessage.payload, AgentMessage.payload, characters_append (by decide), characters_append (by decide), hmessage,
    hsubmit, hruntime]

/-! ## What the parser lets through -/

theorem bind_ok {α β : Type} {x : Parse α} {f : α → Parse β} {b : β} (h : x >>= f = .ok b) : ∃ a, x = .ok a ∧ f a = .ok b := by
  cases x with
  | error e => cases h
  | ok a => exact ⟨a, rfl, h⟩

theorem pane_digits {value : Option Value} {p : Text} (h : pane value = .ok p) : ∀ c ∈ p, isDigit c = true := by
  obtain ⟨parsed, -, h⟩ := bind_ok h
  split at h
  next hpane =>
    cases h
    simp only [isPane, isDecimal, Bool.and_eq_true] at hpane
    exact List.all_eq_true.mp hpane.1.1.1
  next => cases h

theorem runtimeModel_legible {value : Option Value} {model : Option Text} (h : runtimeModel value = .ok model) :
    ∀ m ∈ model, ∀ c ∈ m, isModelUnit c = true := by
  unfold runtimeModel at h
  split at h
  · cases h
    intro m hm
    cases hm
  · obtain ⟨parsed, -, h⟩ := bind_ok h
    split at h
    next hall =>
      cases h
      intro m hm
      cases hm
      exact List.all_eq_true.mp hall
    next => cases h

theorem agentRuntimeSettings_legible {value : Value} {settings : RuntimeSettings} (h : agentRuntimeSettings value = .ok settings) :
    settings.Legible := by
  unfold agentRuntimeSettings at h
  split at h
  · split at h
    · obtain ⟨model, hmodel, h⟩ := bind_ok h
      obtain ⟨effort, -, h⟩ := bind_ok h
      split at h
      · split at h
        · cases h
        · cases h
          exact runtimeModel_legible hmodel
      · cases h
    · cases h
  · cases h

/-- What the theorems below need of a request. -/
structure AgentMessage.Valid (r : AgentMessage) : Prop where
  pane : ∀ c ∈ r.pane, isDigit c = true
  runtime : ∀ settings ∈ r.runtime, settings.Legible

theorem parseAgentMessage_valid {record : Record} {requestId : Text} {r : AgentMessage}
    (h : parseAgentMessage record requestId = .ok r) : r.Valid := by
  unfold parseAgentMessage at h
  split at h
  · split at h
    · split at h
      · cases h
      · split at h
        · obtain ⟨lease, -, h⟩ := bind_ok h
          obtain ⟨operationId, -, h⟩ := bind_ok h
          obtain ⟨pane, hpane, h⟩ := bind_ok h
          obtain ⟨runtime, hruntime, h⟩ := bind_ok h
          cases h
          refine ⟨pane_digits hpane, ?_⟩
          rintro settings rfl
          cases hfield : field record "runtime" with
          | none => rw [hfield] at hruntime; cases hruntime
          | some value =>
            rw [hfield] at hruntime
            obtain ⟨parsed, hparsed, hsome⟩ := bind_ok hruntime
            cases hsome
            exact agentRuntimeSettings_legible hparsed
        · cases h
    · cases h
  · cases h

theorem parse_valid {value : Value} {r : AgentMessage} (h : parseTerminalControlRequest value = .ok (some r)) : r.Valid := by
  unfold parseTerminalControlRequest at h
  split at h
  · split at h
    · split at h
      · obtain ⟨requestId, -, h⟩ := bind_ok h
        obtain ⟨type, -, h⟩ := bind_ok h
        split at h
        · obtain ⟨parsed, hparsed, h⟩ := bind_ok h
          cases h
          exact parseAgentMessage_valid hparsed
        · cases h
      · cases h
    · cases h
  · cases h

/-! ## Two requests -/

/-- **An agent message reaches the backend as it was sent, and its hash tells it from others as far as its characters do.** -/
theorem agent_message_faithful (sha256 : List UInt8 → String) {v w : Value} {r q : AgentMessage}
    (hr : parseTerminalControlRequest v = .ok (some r)) (hq : parseTerminalControlRequest w = .ok (some q))
    (hfree : sha256 r.hashed = sha256 q.hashed → r.hashed = q.hashed) :
    (∀ out, Decodes r.payload out ↔ out = ⟨normalized r.message, r.submit, r.runtime.map RuntimeSettings.value⟩) ∧
    (r.hash sha256 = q.hash sha256 ↔ r.pane = q.pane ∧
      characters (normalized r.message) = characters (normalized q.message) ∧ r.submit = q.submit ∧ r.runtime = q.runtime) ∧
    (loneSurrogates (normalized r.message) = 0 → loneSurrogates (normalized q.message) = 0 →
      (r.hash sha256 = q.hash sha256 ↔ r.pane = q.pane ∧ normalized r.message = normalized q.message ∧ r.submit = q.submit ∧
        r.runtime = q.runtime)) ∧
    ∀ kind pane payload, kind ≠ .agentMessage →
      (sha256 r.hashed = sha256 (hashed kind pane payload) → r.hashed = hashed kind pane payload) →
      r.hash sha256 ≠ payloadHash sha256 kind pane payload := by
  have hvr := parse_valid hr
  have hvq := parse_valid hq
  have hcharacters : r.hash sha256 = q.hash sha256 ↔ r.pane = q.pane ∧
      characters (normalized r.message) = characters (normalized q.message) ∧ r.submit = q.submit ∧ r.runtime = q.runtime := by
    constructor
    · intro h
      obtain ⟨-, hpane, hpayload⟩ := hashed_injective hvr.pane hvq.pane (hfree h)
      exact ⟨hpane, payload_characters hvr.runtime hvq.runtime (encode_injective hpayload)⟩
    · rintro ⟨hpane, hmessage, hsubmit, hruntime⟩
      have hpayload := payload_characters_of_agree hmessage hsubmit hruntime
      rw [AgentMessage.hash, AgentMessage.hash, hpane, utf8, utf8, hpayload]
  refine ⟨fun out => decodes_payload hvr.runtime out, hcharacters, fun hlone hlone' => ?_, fun kind pane payload hkind hfree h => ?_⟩
  · rw [hcharacters]
    constructor
    · rintro ⟨hpane, hmessage, hrest⟩
      exact ⟨hpane, characters_injective hlone hlone' hmessage, hrest⟩
    · rintro ⟨hpane, hmessage, hrest⟩
      exact ⟨hpane, congrArg characters hmessage, hrest⟩
  · exact hkind (hashed_kind (hfree h)).1.symm

/-- A request of a dashboard, as `JSON.parse` reads it. -/
def dashboardRequest (message : Text) (submit : Bool) (runtime : List (Text × Value)) : Value :=
  .object ([(ofString "protocolVersion", .number one), (ofString "requestId", .string (ofString "q")),
    (ofString "type", .string (ofString "input.agent-message")),
    (ofString "lease", .object [(ofString "controlTargetId", .string (ofString "t")),
      (ofString "controlEpoch", .string (ofString "e")), (ofString "leaseId", .string (ofString "l")),
      (ofString "fence", .string (ofString "3")),
      (ofString "owner", .object [(ofString "kind", .string (ofString "dashboard")),
        (ofString "instanceId", .string (ofString "d"))]),
      (ofString "expiresAt", .string (ofString "2025-11-19T08:00:00.123Z"))]),
    (ofString "operationId", .string (ofString "o")), (ofString "pane", .string (ofString "0")),
    (ofString "message", .string message), (ofString "submit", .bool submit)] ++ runtime)

def dashboardMessage (message : Text) (submit : Bool) (runtime : Option RuntimeSettings) : AgentMessage :=
  ⟨ofString "q", ⟨ofString "t", ofString "e", ofString "l", ofString "3", ⟨.dashboard, ofString "d"⟩,
    ofString "2025-11-19T08:00:00.123Z"⟩, ofString "o", ofString "0", message, submit, runtime⟩

def planSettings : RuntimeSettings := ⟨some (ofString "gpt-5"), some .high, .plan⟩

def sampleSha256 (bytes : List UInt8) : String :=
  if bytes = (dashboardMessage (ofString "a\x00\x7bb\r\n1") true (some planSettings)).hashed then
    "adffcece9d35f4528205f5d7463fcf4db719298e30d88d4e7604427da8b7c39a"
  else if bytes = (dashboardMessage (ofString "a") false none).hashed then
    "bddae913fc566c8c807637bd2c04543135ca3289c4f4a2844cc5c02e9892c17e"
  else ""

theorem agent_message_faithful_example :
    let r := dashboardMessage (ofString "a\x00\x7bb\r\n1") true (some planSettings)
    let q := dashboardMessage (ofString "a") false none
    (∀ out, Decodes r.payload out ↔ out = ⟨ofString "a\x00\x7bb\n1", true, some planSettings.value⟩) ∧
      r.hash sampleSha256 ≠ q.hash sampleSha256 := by
  have hr : parseTerminalControlRequest (dashboardRequest (ofString "a\x00\x7bb\r\n1") true [(ofString "runtime", planSettings.value)]) =
      .ok (some (dashboardMessage (ofString "a\x00\x7bb\r\n1") true (some planSettings))) := by rfl
  have hq : parseTerminalControlRequest (dashboardRequest (ofString "a") false []) =
      .ok (some (dashboardMessage (ofString "a") false none)) := by rfl
  have hdiffer : (dashboardMessage (ofString "a") false none).hashed ≠
      (dashboardMessage (ofString "a\x00\x7bb\r\n1") true (some planSettings)).hashed := fun heq => by
    have hvr := parse_valid hr
    have hvq := parse_valid hq
    have hpayload := (hashed_injective hvq.pane hvr.pane heq).2.2
    cases (payload_characters hvq.runtime hvr.runtime (encode_injective hpayload)).2.2
  have hfree : sampleSha256 (dashboardMessage (ofString "a\x00\x7bb\r\n1") true (some planSettings)).hashed =
      sampleSha256 (dashboardMessage (ofString "a") false none).hashed →
      (dashboardMessage (ofString "a\x00\x7bb\r\n1") true (some planSettings)).hashed =
        (dashboardMessage (ofString "a") false none).hashed := by
    intro h
    rw [sampleSha256, sampleSha256, if_pos rfl, if_neg hdiffer, if_pos rfl] at h
    revert h
    decide
  have hmain := agent_message_faithful sampleSha256 hr hq hfree
  refine ⟨hmain.1, fun h => ?_⟩
  have hruntime := (hmain.2.1.mp h).2.2.2
  cases hruntime

/-- **Two unpaired surrogates are one to the hash**, whatever the hash function. -/
theorem lone_surrogates_collide : ∃ v w r q, parseTerminalControlRequest v = .ok (some r) ∧
    parseTerminalControlRequest w = .ok (some q) ∧ normalized r.message ≠ normalized q.message ∧
    ∀ sha256, r.hash sha256 = q.hash sha256 := by
  refine ⟨dashboardRequest [0xD800] true [], dashboardRequest [0xD801] true [], dashboardMessage [0xD800] true none,
    dashboardMessage [0xD801] true none, rfl, rfl, by decide, fun sha256 => ?_⟩
  have hbytes : (dashboardMessage [0xD800] true none).hashed = (dashboardMessage [0xD801] true none).hashed := by decide
  exact congrArg sha256 hbytes

end Request
end TmuxWorktree
