import TmuxWorktree.Canonical.Form
/-!
# Canon — canonical texts are canonical (`resourceState.ts`)

A value that is accepted has one canonical text, the text of its normal form.  So the text tells the value up to the order
of keys, and reading it gives the value back.  What is accepted is every value without a fault, but for one slip: a high
surrogate at the end of a string or of a key goes unnoticed.
-/
namespace TmuxWorktree
namespace Canonical

open Utf16 Grammar Strict

section
variable {n : Nat} {heap : Heap n} {item x : Item n} {steps : Nat} {seen : List (Fin n)} {t : Text}

/-! ## What an item denotes -/

mutual

theorem Denotes.unique : ∀ {x : Item n} {v w : Value}, Denotes heap x v → Denotes heap x w → w = v
  | _, _, _, .null, h => by cases h; rfl
  | _, _, _, .bool _, h => by cases h; rfl
  | _, _, _, .number _, h => by cases h; rfl
  | _, _, _, .string _, h => by cases h; rfl
  | _, _, _, .array hc hvs, h => by
    cases h with
    | array hc' hws =>
      cases hc.symm.trans hc'
      rw [DenotesItems.unique hvs hws]
    | object hc' _ => cases hc.symm.trans hc'
  | _, _, _, .object hc hvs, h => by
    cases h with
    | array hc' _ => cases hc.symm.trans hc'
    | object hc' hws =>
      cases hc.symm.trans hc'
      rw [DenotesFields.unique hvs hws]

theorem DenotesItems.unique : ∀ {items : List (Item n)} {vs ws : List Value}, DenotesItems heap items vs →
    DenotesItems heap items ws → ws = vs
  | _, _, _, .nil, h => by cases h; rfl
  | _, _, _, .cons hx hvs, h => by
    cases h with
    | cons hx' hws => rw [Denotes.unique hx hx', DenotesItems.unique hvs hws]

theorem DenotesFields.unique : ∀ {fields : List (Text × Item n)} {vs ws : List (Text × Value)},
    DenotesFields heap fields vs → DenotesFields heap fields ws → ws = vs
  | _, _, _, .nil, h => by cases h; rfl
  | _, _, _, .cons hx hvs, h => by
    cases h with
    | cons hx' hws => rw [Denotes.unique hx hx', DenotesFields.unique hvs hws]

end

open Classical in
noncomputable def unfolded (heap : Heap n) (x : Item n) : Value := if h : ∃ v, Denotes heap x v then h.choose else .null

theorem denotes_unfolded {v : Value} (h : Denotes heap x v) : Denotes heap x (unfolded heap x) ∧ unfolded heap x = v := by
  have hex : ∃ v, Denotes heap x v := ⟨v, h⟩
  have hu : Denotes heap x (unfolded heap x) := by
    unfold unfolded
    rw [dif_pos hex]
    exact hex.choose_spec
  exact ⟨hu, (hu.unique h).symm⟩

structure Written (heap : Heap n) (x : Item n) (t : Text) : Prop where
  denotes : Denotes heap x (unfolded heap x)
  once : Once (unfolded heap x)
  text : t = (normal (unfolded heap x)).text

theorem Written.of_denotes {v : Value} (h : Denotes heap x v) (ho : Once v) (ht : t = (normal v).text) : Written heap x t := by
  obtain ⟨hu, heq⟩ := denotes_unfolded h
  exact ⟨hu, heq ▸ ho, by rw [heq]; exact ht⟩

/-! ## Lists of texts -/

theorem itemsText_join (vs : List Value) : itemsText vs = join (vs.map Value.text) := by
  induction vs with
  | nil => rfl
  | cons v vs ih =>
    cases vs with
    | nil => rfl
    | cons w vs =>
      rw [itemsText.eq_3 v (w :: vs) (by simp), ih]
      rfl

theorem fieldsText_join (fs : List (Text × Value)) :
    fieldsText fs = join (fs.map fun f => quote f.1 ++ 0x3A :: f.2.text) := by
  induction fs with
  | nil => rfl
  | cons f fs ih =>
    obtain ⟨k, v⟩ := f
    cases fs with
    | nil => rfl
    | cons g fs =>
      rw [fieldsText.eq_3 k v (g :: fs) (by simp), ih]
      simp [join]

theorem normalItems_map (vs : List Value) : normalItems vs = vs.map normal := by
  induction vs with
  | nil => rfl
  | cons v vs ih => rw [normalItems, ih, List.map_cons]

theorem denotesItems_map {items : List (Item n)} (h : ∀ x ∈ items, Denotes heap x (unfolded heap x)) :
    DenotesItems heap items (items.map (unfolded heap)) := by
  induction items with
  | nil => exact .nil
  | cons x items ih =>
    exact .cons (h x List.mem_cons_self) (ih fun y hy => h y (List.mem_cons_of_mem x hy))

theorem denotesFields_map {fields : List (Text × Item n)} (h : ∀ f ∈ fields, Denotes heap f.2 (unfolded heap f.2)) :
    DenotesFields heap fields (fields.map fun f => (f.1, unfolded heap f.2)) := by
  induction fields with
  | nil => exact .nil
  | cons f fields ih =>
    exact .cons (h f List.mem_cons_self) (ih fun y hy => h y (List.mem_cons_of_mem f hy))

theorem onceItems_map {items : List (Item n)} (h : ∀ x ∈ items, Once (unfolded heap x)) :
    OnceItems (items.map (unfolded heap)) := by
  induction items with
  | nil => exact .nil
  | cons x items ih =>
    exact .cons (h x List.mem_cons_self) (ih fun y hy => h y (List.mem_cons_of_mem x hy))

theorem onceFields_map {fields : List (Text × Item n)} (h : ∀ f ∈ fields, Once (unfolded heap f.2)) :
    OnceFields (fields.map fun f => (f.1, unfolded heap f.2)) := by
  induction fields with
  | nil => exact .nil
  | cons f fields ih =>
    exact .cons (h f List.mem_cons_self) (ih fun y hy => h y (List.mem_cons_of_mem f hy))

theorem forall₂_map {α β : Type} {R : α → β → Prop} {g : α → β} {l : List α} {l' : List β} (h : List.Forall₂ R l l')
    (hg : ∀ a ∈ l, ∀ b, R a b → b = g a) : l' = l.map g := by
  induction h with
  | nil => rfl
  | @cons a b l l' hab _ ih =>
    rw [List.map_cons, ← hg a List.mem_cons_self b hab, ← ih fun a' ha' => hg a' (List.mem_cons_of_mem a ha')]

/-! ## The canonical text -/

theorem written_leaf (h : visit heap steps seen item = .ok t) (hleaf : ∀ cell, item ≠ .ref cell) : Written heap item t := by
  cases item with
  | null =>
    rw [visit] at h
    exact .of_denotes .null .null (Except.ok.inj h).symm
  | bool b =>
    rw [visit] at h
    exact .of_denotes (.bool b) (.bool b) (Except.ok.inj h).symm
  | number d =>
    cases d with
    | none =>
      rw [visit] at h
      cases h
    | some d =>
      rw [visit] at h
      exact .of_denotes (.number d) (.number d) (Except.ok.inj h).symm
  | string s =>
    rw [visit] at h
    split at h
    · exact .of_denotes (.string s) (.string s) (Except.ok.inj h).symm
    · cases h
  | ref cell => exact absurd rfl (hleaf cell)
  | other =>
    rw [visit] at h
    cases h

/-- **A visit that ends well writes the normal form of what the item denotes.** -/
theorem visit_written (h : visit heap steps seen item = .ok t) : Written heap item t := by
  induction steps generalizing seen item t with
  | zero =>
    cases item with
    | ref cell => cases h
    | _ => exact written_leaf h fun cell => nofun
  | succ steps ih =>
    cases item with
    | ref cell =>
      by_cases hs : cell ∈ seen
      · rw [visit, if_pos (by simpa using hs)] at h
        cases h
      cases hc : heap cell with
      | array items =>
        rw [visit_array hc hs] at h
        obtain ⟨parts, hparts, rfl⟩ := map_ok h
        have hitems := mapM_ok.mp hparts
        have hw : ∀ x ∈ items, ∃ u, Written heap x u := fun x hx => by
          obtain ⟨u, hu⟩ := forall₂_left hitems hx
          exact ⟨u, ih hu⟩
        refine .of_denotes (.array hc (denotesItems_map fun x hx => (hw x hx).choose_spec.denotes))
          (.array (onceItems_map fun x hx => (hw x hx).choose_spec.once)) ?_
        rw [normal, Value.text, itemsText_join, normalItems_map, List.map_map, List.map_map,
          forall₂_map (g := fun x => (normal (unfolded heap x)).text) hitems fun x _ u hu => (ih hu).text]
        rfl
      | exotic =>
        rw [visit, if_neg (by simpa using hs), hc] at h
        cases h
      | plain fields once =>
        rw [visit_plain hc hs] at h
        split at h
        swap
        · cases h
        obtain ⟨parts, hparts, rfl⟩ := map_ok h
        have hfields := mapM_ok.mp hparts
        have hw : ∀ f ∈ fields, ∃ u, Written heap f.2 u := fun f hf => by
          obtain ⟨u, hu⟩ := forall₂_left hfields (mem_byKey.mpr hf)
          obtain ⟨u', hu', _⟩ := visitField_ok.mp hu
          exact ⟨u', ih hu'⟩
        refine .of_denotes (.object hc (denotesFields_map fun f hf => (hw f hf).choose_spec.denotes))
          (.object (by rw [List.map_map]; exact once) (onceFields_map fun f hf => (hw f hf).choose_spec.once)) ?_
        have hkeys : byKey (normalFields (fields.map fun f => (f.1, unfolded heap f.2))) =
            (byKey fields).map fun f => (f.1, normal (unfolded heap f.2)) := by
          rw [normalFields_map, List.map_map]
          exact byKey_map (fun x => normal (unfolded heap x)) fields
        rw [normal, Value.text, fieldsText_join, hkeys, List.map_map,
          forall₂_map (g := fun f => quote f.1 ++ 0x3A :: (normal (unfolded heap f.2)).text) hfields fun f _ u hu => by
            obtain ⟨u', hu', rfl⟩ := visitField_ok.mp hu
            rw [(ih hu').text]]
        rfl
    | _ => exact written_leaf h fun cell => nofun

/-! ## Canonical JSON -/

/-- A canonical text is read as `u`. -/
def Parses (t : Text) (u : Value) : Prop := ∃ tree, Document t tree ∧ tree.value = some u

theorem parses_text (v : Value) (u : Value) : Parses (normal v).text u ↔ u = form v := by
  constructor
  · rintro ⟨tree, htree, hu⟩
    rw [document_unique (text_document (normal v)) htree, tree_value] at hu
    exact (Option.some.inj hu).symm
  · rintro rfl
    exact ⟨_, text_document _, tree_value _⟩

theorem text_eq_iff {v w : Value} (hv : Once v) : (normal v).text = (normal w).text ↔ Same v w := by
  rw [same_iff_form hv]
  constructor
  · exact text_injective
  · intro h
    -- a text does not tell the sign of a zero
    rw [← text_plain (normal v), ← text_plain (normal w)]
    exact congrArg Value.text h

end

/-- **Canonical JSON.**  A value is refused exactly when it has a string or key with an unpaired surrogate, a number that
is not finite, a cycle or an object that is not plain, if no string or key in it ends in a high surrogate or it has another
fault; two texts are equal exactly when the values are the same up to the order of keys; and a text is read as the value. -/
theorem canonical_json {n m : Nat} (heap : Heap n) (heap' : Heap m) (item : Item n) (item' : Item m) :
    (canonicalizeRelayV2MaterializedJson heap item ≠ .error none ∧
      (((∃ f, canonicalizeRelayV2MaterializedJson heap item = .error f) ↔
          Contains (fun s => loneSurrogates s ≠ 0) heap item) ↔
        (∀ s, HasText heap item s → endsHigh s = false) ∨
          Contains (fun s => loneSurrogates s ≠ if endsHigh s then 1 else 0) heap item)) ∧
    (∀ t t' : Text,
      canonicalizeRelayV2MaterializedJson heap item = .ok t → canonicalizeRelayV2MaterializedJson heap' item' = .ok t' →
      ∃ v w, Denotes heap item v ∧ Denotes heap' item' w ∧ (t = t' ↔ Same v w)) ∧
    (∀ t : Text, canonicalizeRelayV2MaterializedJson heap item = .ok t →
      ∃ v, Denotes heap item v ∧ (∃ u, Parses t u) ∧ ∀ u, Parses t u → Same u v) := by
  refine ⟨⟨visit_ne_none (.root heap item), ?_⟩, fun t t' h h' => ?_, fun t h => ?_⟩
  · have hbad : ∀ s, hasWellFormedUnicode s = false ↔ loneSurrogates s ≠ if endsHigh s then 1 else 0 := fun s => by
      rw [← Bool.not_eq_true, hasWellFormedUnicode_iff]
    have hthrows : (∃ f, canonicalizeRelayV2MaterializedJson heap item = .error f) ↔
        Contains (fun s => loneSurrogates s ≠ if endsHigh s then 1 else 0) heap item := by
      rw [← show (fun s => hasWellFormedUnicode s = false) = _ from funext fun s => propext (hbad s), ← throws_iff]
      constructor
      · rintro ⟨f, hf⟩
        cases f with
        | none => exact absurd hf (visit_ne_none (.root heap item))
        | some f => exact ⟨f, hf⟩
      · rintro ⟨f, hf⟩
        exact ⟨_, hf⟩
    -- what the check refuses has an unpaired surrogate
    have hmore : ∀ s, (loneSurrogates s ≠ if endsHigh s then 1 else 0) → loneSurrogates s ≠ 0 := fun s hs => by
      have hle := endsHigh_le s
      split at hs <;> simp_all <;> omega
    rw [hthrows]
    constructor
    · intro hiff
      by_cases hends : ∀ s, HasText heap item s → endsHigh s = false
      · exact .inl hends
      · obtain ⟨s, hs⟩ := not_forall.mp hends
        obtain ⟨htext, hend⟩ := Classical.not_imp.mp hs
        have hle := endsHigh_le s
        rw [if_pos (by simpa using hend)] at hle
        exact .inr (hiff.mpr (.of_text htext (by omega)))
    · rintro (hends | hother)
      · refine ⟨fun h => h.mono fun s _ hs => hmore s hs, fun h => h.mono fun s htext hs => ?_⟩
        rw [hends s htext]
        exact hs
      · exact ⟨fun h => h.mono fun s _ hs => hmore s hs, fun _ => hother⟩
  · have hw := visit_written h
    have hw' := visit_written h'
    refine ⟨_, _, hw.denotes, hw'.denotes, ?_⟩
    rw [hw.text, hw'.text]
    exact text_eq_iff hw.once
  · have hw := visit_written h
    refine ⟨_, hw.denotes, ?_⟩
    rw [hw.text]
    refine ⟨⟨_, (parses_text _ _).mpr rfl⟩, fun u hu => ?_⟩
    rw [(parses_text _ u).mp hu]
    exact same_of_form _ (form_idem _)

/-- A lone high surrogate is written. -/
theorem lone_high_written : ¬ ∀ {n : Nat} (heap : Heap n) (item : Item n),
    (∃ f, canonicalizeRelayV2MaterializedJson heap item = .error f) ↔
      Contains (fun s => loneSurrogates s ≠ 0) heap item := by
  intro h
  have hbad : Contains (fun s => loneSurrogates s ≠ 0) (Fin.elim0 : Heap 0) (.string [0xD800]) :=
    ⟨_, .here, .string (by decide)⟩
  obtain ⟨f, hf⟩ := (h (Fin.elim0 : Heap 0) (.string [0xD800])).mpr hbad
  have hok : canonicalizeRelayV2MaterializedJson (Fin.elim0 : Heap 0) (.string [0xD800]) = .ok (quote [0xD800]) := rfl
  rw [hok] at hf
  cases hf

end Canonical
end TmuxWorktree
