import TmuxWorktree.Stored.Save
/-!
# Reload — the state that is loaded again (`store.ts`)

What is read of a text that was written differs from what was written only in the sign of a zero, which no test of the
parser sees.
-/
namespace TmuxWorktree
namespace Stored

open Utf16 Grammar
open Request (Record field isRecord exactKeys)
open Canonical (Parses)

/-! ## The sign of a zero -/

theorem plainItems_map (items : List Value) : plainItems items = items.map Value.plain := by
  induction items with
  | nil => rfl
  | cons v items ih => rw [plainItems, ih, List.map_cons]

theorem plainFields_map (fields : Record) : plainFields fields = fields.map fun f => (f.1, f.2.plain) := by
  induction fields with
  | nil => rfl
  | cons f fields ih => rw [plainFields, ih, List.map_cons]

theorem field_plain (record : Record) (key : String) : field (plainFields record) key = (field record key).map Value.plain := by
  unfold field
  rw [plainFields_map, ← List.map_reverse, List.find?_map, Option.map_map, Option.map_map]
  rfl

theorem exactKeys_plain (record : Record) (must may : List String) :
    exactKeys (plainFields record) must may = exactKeys record must may :=
  exactKeys_congr (by rw [plainFields_map, List.map_map]; rfl) must may

def element (v : Value) : Except Text Text :=
  match v with
  | .null => return []
  | v => jsString v

theorem joined_one (v : Value) : joined [v] = element v := by
  cases v <;> simp [joined, element]

theorem joined_cons (v w : Value) (items : List Value) :
    joined (v :: w :: items) = do return (← element v) ++ 0x2C :: (← joined (w :: items)) := by
  cases v <;> simp [joined, element]

theorem element_plain {v : Value} (h : jsString v.plain = jsString v) : element v.plain = element v := by
  cases v with
  | null => rfl
  | _ => exact h

mutual

theorem jsString_plain : ∀ v : Value, jsString v.plain = jsString v
  | .null => rfl
  | .bool _ => rfl
  | .number d => by rw [Value.plain, jsString, jsString, numberText_plain]
  | .string _ => rfl
  | .array items => by rw [Value.plain, jsString, jsString, joined_plain items]
  | .object record => by rw [Value.plain, jsString, jsString, field_plain, Option.isSome_map]

theorem joined_plain : ∀ items : List Value, joined (plainItems items) = joined items
  | [] => rfl
  | [v] => by rw [plainItems, plainItems, joined_one, joined_one, element_plain (jsString_plain v)]
  | v :: w :: items => by
    have ih := joined_plain (w :: items)
    rw [plainItems] at ih
    rw [plainItems, plainItems, joined_cons, joined_cons, element_plain (jsString_plain v), ih]

end

/-! ## Tests -/

theorem isRecord_plain (v : Value) : isRecord v.plain = (isRecord v).map plainFields := by
  cases v <;> rfl

theorem onRecord_plain {test : Record → Test} (h : ∀ record, test (plainFields record) = test record) (v : Option Value) :
    onRecord (v.map Value.plain) test = onRecord v test := by
  cases v with
  | none => rfl
  | some v => cases v <;> simp [onRecord, isRecord, Value.plain, h]

theorem onText_plain (v : Option Value) (test : Text → Bool) : onText (v.map Value.plain) test = onText v test := by
  cases v with
  | none => rfl
  | some v => cases v <;> rfl

theorem equals_plain (v : Option Value) (name : String) : equals (v.map Value.plain) name = equals v name := by
  cases v with
  | none => rfl
  | some v => cases v <;> rfl

theorem includes_plain (names : List String) (v : Option Value) : includes names (v.map Value.plain) = includes names v := by
  cases v with
  | none => rfl
  | some v => simp only [Option.map_some, includes, jsString_plain]

theorem whenPresent_plain {test : Value → Test} (h : ∀ v, test v.plain = test v) (v : Option Value) :
    whenPresent (v.map Value.plain) test = whenPresent v test := by
  cases v <;> simp [whenPresent, h]

theorem whenPresent_option (test : Option Value → Test) (h : ∀ v, test (v.map Value.plain) = test v) (v : Option Value) :
    whenPresent (v.map Value.plain) (fun u => test (some u)) = whenPresent v fun u => test (some u) :=
  whenPresent_plain (fun u => h (some u)) v

theorem isArrayOf_plain (test : Value → Test) (h : ∀ v, test v.plain = test v) (v : Option Value) :
    isArrayOf (v.map Value.plain) test = isArrayOf v test := by
  cases v with
  | none => rfl
  | some v =>
    cases v with
    | array items =>
      have hmap : (items.map Value.plain).map test = items.map test := by
        rw [List.map_map]
        exact List.map_congr_left fun v _ => h v
      simp only [Option.map_some, Value.plain, plainItems_map, isArrayOf, hmap]
    | _ => rfl

theorem member_plain (v : Option Value) (key : String) : member (v.map Value.plain) key = (member v key).map Value.plain := by
  cases v with
  | none => rfl
  | some v => cases v <;> simp [member, isRecord, Value.plain, field_plain]

theorem memberText_plain (v : Value) (key : String) : memberText v.plain key = memberText v key := by
  have h := member_plain (some v) key
  rw [Option.map_some] at h
  unfold memberText
  rw [h]
  cases member (some v) key with
  | none => rfl
  | some u => cases u <;> rfl

theorem elements_plain (v : Option Value) : elements (v.map Value.plain) = (elements v).map Value.plain := by
  cases v with
  | none => rfl
  | some v =>
    cases v with
    | array items => simp only [Option.map_some, Value.plain, plainItems_map, elements]
    | _ => rfl

theorem isCursor_plain (v : Value) : isCursor v.plain = isCursor v := by
  cases v with
  | number d =>
    simp only [Value.plain, isCursor, plain]
    split <;> simp_all
  | _ => rfl

section Tests

variable (v : Option Value)

theorem isStoredString_plain (max : Nat) : isStoredString (v.map Value.plain) max = isStoredString v max := onText_plain v _

theorem isDecimalString_plain : isDecimalString (v.map Value.plain) = isDecimalString v := onText_plain v _

theorem isCanonicalTimestamp_plain : isCanonicalTimestamp (v.map Value.plain) = isCanonicalTimestamp v := onText_plain v _

theorem isHash_plain : isHash (v.map Value.plain) = isHash v := onText_plain v _

theorem isOwner_plain : isOwner (v.map Value.plain) = isOwner v :=
  onRecord_plain (fun record => by
    simp only [field_plain, exactKeys_plain, includes_plain, isStoredString_plain]) v

theorem isDrainProof_plain : isDrainProof (v.map Value.plain) = isDrainProof v :=
  onRecord_plain (fun record => by
    simp only [field_plain, exactKeys_plain, includes_plain, isStoredString_plain, isCanonicalTimestamp_plain]) v

theorem isHandoff_plain : isHandoff (v.map Value.plain) = isHandoff v :=
  onRecord_plain (fun record => by
    simp only [field_plain, exactKeys_plain, isStoredString_plain, isCanonicalTimestamp_plain, isOwner_plain,
      whenPresent_option isDrainProof isDrainProof_plain]) v

theorem isOwnership_plain : isOwnership (v.map Value.plain) = isOwnership v :=
  onRecord_plain (fun record => by
    simp only [field_plain, exactKeys_plain, isDecimalString_plain, isStoredString_plain, isCanonicalTimestamp_plain, equals_plain,
      isOwner_plain, isHandoff_plain]) v

theorem isOperation_plain (inFlight : Bool) : isOperation (v.map Value.plain) inFlight = isOperation v inFlight :=
  onRecord_plain (fun record => by
    simp only [field_plain, exactKeys_plain, isDecimalString_plain, isHash_plain, isStoredString_plain, isCanonicalTimestamp_plain,
      equals_plain, includes_plain, whenPresent_plain isCursor_plain,
      whenPresent_option (fun generation => isStoredString generation 128) fun v => isStoredString_plain v 128]) v

theorem isRecovery_plain : isRecovery (v.map Value.plain) = isRecovery v :=
  onRecord_plain (fun record => by
    simp only [field_plain, exactKeys_plain, isStoredString_plain, isCanonicalTimestamp_plain, includes_plain,
      whenPresent_option (includes ownerKinds) (includes_plain ownerKinds),
      whenPresent_option (fun id => isStoredString id 192) fun v => isStoredString_plain v 192]) v

theorem isManagedSession_plain : isManagedSession (v.map Value.plain) = isManagedSession v :=
  onRecord_plain (fun record => by
    simp only [field_plain, exactKeys_plain, isStoredString_plain, isCanonicalTimestamp_plain, equals_plain]) v

theorem isBackend_plain : isBackend (v.map Value.plain) = isBackend v :=
  onRecord_plain (fun record => by
    simp only [field_plain, exactKeys_plain, isStoredString_plain, equals_plain]) v

end Tests

theorem operationIds_plain (record : Record) : operationIds (plainFields record) = operationIds record := by
  unfold operationIds
  rw [field_plain, elements_plain, List.map_map]
  exact List.map_congr_left fun v _ => memberText_plain v _

theorem isTarget_plain (v : Value) : isTarget v.plain = isTarget v := by
  have hflight (record : Record) (v : Option Value) :
      whenPresent (v.map Value.plain) (fun u => .ok (!(operationIds record).contains (memberText u "operationId"))) =
        whenPresent v fun u => .ok (!(operationIds record).contains (memberText u "operationId")) :=
    whenPresent_plain (fun u => by rw [memberText_plain]) v
  exact onRecord_plain (fun record => by
    simp only [field_plain, exactKeys_plain, isDecimalString_plain, isStoredString_plain, isCanonicalTimestamp_plain, equals_plain,
      includes_plain, isManagedSession_plain, isBackend_plain, isOwnership_plain, operationIds_plain, member_plain,
      isArrayOf_plain (fun operation => isOperation (some operation) false) fun v => isOperation_plain (some v) false,
      whenPresent_option (fun operation => isOperation operation true) fun v => isOperation_plain v true,
      whenPresent_option isRecovery isRecovery_plain, Option.isSome_map, Option.isNone_map, hflight record]) (some v)

theorem accepted_plain {state : Value} {record : Record} {targets : List Value} (h : Accepted state record targets) :
    Accepted state.plain (plainFields record) (targets.map Value.plain) := by
  have hone : (Value.number Request.one).plain = .number Request.one := rfl
  refine ⟨?_, ?_, ?_, ?_, ?_, ?_, ?_⟩
  · rw [h.value]
    rfl
  · rw [exactKeys_plain]
    exact h.keys
  · rw [field_plain, h.version, Option.map_some, hone]
  · rw [field_plain, isStoredString_plain]
    exact h.epoch
  · rw [field_plain, h.array, Option.map_some, Value.plain, plainItems_map]
  · intro target hmem
    obtain ⟨written, hwritten, rfl⟩ := List.mem_map.mp hmem
    rw [isTarget_plain]
    exact h.valid written hwritten
  · have hids : (targets.map Value.plain).map (fun target => memberText target "controlTargetId") =
        targets.map fun target => memberText target "controlTargetId" := by
      rw [List.map_map]
      exact List.map_congr_left fun target _ => memberText_plain target _
    rw [hids]
    exact h.ids

/-! ## Saving and loading -/

/-- **A text that is written, and a line feed, is read as what was written.** -/
theorem parses_line (v u : Value) : Parses (v.text ++ [0x0A]) u ↔ u = v.plain := by
  have hdocument : Document (v.text ++ [0x0A]) v.tree :=
    ⟨v.text ++ [0x0A], [0x0A], .nil _, text_reads v [0x0A], .cons rfl (.nil [])⟩
  constructor
  · rintro ⟨tree, htree, hvalue⟩
    rw [Strict.document_unique hdocument htree, tree_value] at hvalue
    exact (Option.some.inj hvalue).symm
  · rintro rfl
    exact ⟨_, hdocument, tree_value v⟩

/-- A state, and what it is after all but the 64 most recently updated targets that are gone have been removed and the
journals of those that are kept emptied. -/
def Compacted (state loaded : Value) : Prop :=
  ∃ record, ∃ targets kept : List Value, state = .object record ∧ field record "targets" = some (.array targets) ∧
    kept.Sublist targets ∧
    (∀ target ∈ targets, isGone target = false → target ∈ kept) ∧
    (kept.filter isGone).length = min maxRetiredTargets (targets.filter isGone).length ∧
    (∀ gone ∈ targets, isGone gone = true → gone ∉ kept → ∀ target ∈ kept, isGone target = true →
      updatedAtMs gone ≤ updatedAtMs target) ∧
    loaded = (Value.object (set record "targets" (.array (kept.map settled)))).plain

/-- What is saved of the state is loaded as the compacted state. -/
def Reloads (localeCompare : Text → Text → Int) (state : Value) : Prop :=
  ∃ contents loaded, saveTerminalControlState localeCompare state = .ok contents ∧
    (∀ u, Loads contents u ↔ u = loaded) ∧ Compacted state loaded

theorem accepted_reloads {localeCompare : Text → Text → Int} (hcompare : Consistent localeCompare) {state : Value}
    {record : Record} {targets : List Value} (h : Accepted state record targets) : Reloads localeCompare state := by
  have hparse : parseTerminalControlState state = .ok state := parse_ok.mpr ⟨rfl, record, targets, h⟩
  have hcompact := accepted_compact localeCompare h
  have hplain := accepted_plain hcompact
  refine ⟨(compact localeCompare state).text ++ [0x0A], (compact localeCompare state).plain, ?_, fun u => ?_, ?_⟩
  · unfold saveTerminalControlState
    simp only [hparse, bind, Except.bind, parse_ok.mpr ⟨rfl, _, _, hcompact⟩]
    rfl
  · constructor
    · rintro ⟨v, hv, hu⟩
      rw [(parses_line _ _).mp hv] at hu
      exact (parse_ok.mp hu).1
    · rintro rfl
      exact ⟨_, (parses_line _ _).mpr rfl, parse_ok.mpr ⟨rfl, _, _, hplain⟩⟩
  · refine ⟨record, targets, keptTargets localeCompare targets, h.value, h.array, List.filter_sublist, ?_,
      kept_gone_count h.ids, ?_, ?_⟩
    · intro target hmem hgone
      exact List.mem_filter.mpr ⟨hmem, by rw [hgone]; rfl⟩
    · intro gone hgone hg hdropped target hkept hk
      exact dropped_gone hcompare h.ids hgone hg hdropped hkept hk
    · rw [hcompact.value, compactTargets_eq]

/-- **An accepted state is one of its type, and is loaded as it was saved, exactly when the names that the parser compares
through `String` are strings.** -/
theorem accepted_state {localeCompare : Text → Text → Int} (hcompare : Consistent localeCompare) {state : Value}
    (h : parseTerminalControlState state = .ok state) :
    (terminalControlState state ∧ Reloads localeCompare state) ↔ ∀ t ∈ tags state, text t := by
  obtain ⟨-, record, targets, haccepted⟩ := parse_ok.mp h
  rw [state_shape h]
  exact and_iff_left (accepted_reloads hcompare haccepted)

def idleState (lifecycle : Value) : Value :=
  .object [(ofString "version", .number Request.one), (ofString "controlEpoch", .string (ofString "e")),
    (ofString "targets", .array [.object [(ofString "controlTargetId", .string (ofString "t")), (ofString "lifecycle", lifecycle),
      (ofString "managedSession", .object [(ofString "name", .string (ofString "s")),
        (ofString "kind", .string (ofString "terminal")), (ofString "createdAt", .string (ofString "2025-11-19T08:00:00.123Z"))]),
      (ofString "backend", .object [(ofString "kind", .string (ofString "tmux")),
        (ofString "tmuxInstanceId", .string (ofString "i"))]),
      (ofString "outputGeneration", .string (ofString "g")),
      (ofString "ownership", .object [(ofString "state", .string (ofString "FREE")), (ofString "fence", .string (ofString "0"))]),
      (ofString "revision", .string (ofString "1")), (ofString "completedOperations", .array []),
      (ofString "updatedAt", .string (ofString "2025-11-19T08:00:00.123Z"))]])]

/-- Strings compared by their first code units, which suffices for strings of one. -/
def firstUnit (s t : Text) : Int := ((s.headD 0).val : Int) - (t.headD 0).val

theorem accepted_state_example :
    terminalControlState (idleState (.string (ofString "TARGET_GONE"))) ∧
      Reloads firstUnit (idleState (.string (ofString "TARGET_GONE"))) := by
  have hcompare : Consistent firstUnit := ⟨fun s t => by unfold firstUnit; omega, fun s t u => by unfold firstUnit; omega⟩
  have hparse : parseTerminalControlState (idleState (.string (ofString "TARGET_GONE"))) =
      .ok (idleState (.string (ofString "TARGET_GONE"))) := rfl
  have htags : tags (idleState (.string (ofString "TARGET_GONE"))) = [.string (ofString "TARGET_GONE")] := rfl
  refine (accepted_state hcompare hparse).mpr fun t ht => ?_
  rw [htags, List.mem_singleton] at ht
  exact ⟨_, ht⟩

/-- **A lifecycle in an array passes for a lifecycle.** -/
theorem array_lifecycle_accepted : ∃ state, parseTerminalControlState state = .ok state ∧ ¬terminalControlState state := by
  refine ⟨idleState (.array [.string (ofString "ACTIVE")]), rfl, fun h => ?_⟩
  have hparse : parseTerminalControlState (idleState (.array [.string (ofString "ACTIVE")])) =
      .ok (idleState (.array [.string (ofString "ACTIVE")])) := rfl
  have htags : tags (idleState (.array [.string (ofString "ACTIVE")])) = [.array [.string (ofString "ACTIVE")]] := rfl
  obtain ⟨s, hs⟩ := (state_shape hparse).mp h (.array [.string (ofString "ACTIVE")]) (by rw [htags]; simp)
  cases hs

end Stored
end TmuxWorktree
