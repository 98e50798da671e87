import TmuxWorktree.Canonical.Faults
import TmuxWorktree.Strict.Unique
/-!
# Form — the canonical text of a value (`resourceState.ts`)

What an item of a heap unfolds to is a JSON value.  Its canonical text is the text of its `normal` form, in which every
object has its fields in the order of their keys, and two values have the same normal form exactly when they are the same
up to the order of keys.
-/
namespace TmuxWorktree
namespace Canonical

open Utf16 Grammar

/-! ## The value of an item -/

mutual

/-- The value that an item unfolds to. -/
inductive Denotes {n : Nat} (heap : Heap n) : Item n → Value → Prop where
  | null : Denotes heap .null .null
  | bool (b : Bool) : Denotes heap (.bool b) (.bool b)
  | number (d : Binary64) : Denotes heap (.number (some d)) (.number d)
  | string (s : Text) : Denotes heap (.string s) (.string s)
  | array {cell : Fin n} {items : List (Item n)} {vs : List Value} (h : heap cell = .array items)
      (hvs : DenotesItems heap items vs) : Denotes heap (.ref cell) (.array vs)
  | object {cell : Fin n} {fields : List (Text × Item n)} {once : (fields.map Prod.fst).Nodup} {vs : List (Text × Value)}
      (h : heap cell = .plain fields once) (hvs : DenotesFields heap fields vs) : Denotes heap (.ref cell) (.object vs)

inductive DenotesItems {n : Nat} (heap : Heap n) : List (Item n) → List Value → Prop where
  | nil : DenotesItems heap [] []
  | cons {x : Item n} {v : Value} {items : List (Item n)} {vs : List Value} (h : Denotes heap x v)
      (hvs : DenotesItems heap items vs) : DenotesItems heap (x :: items) (v :: vs)

inductive DenotesFields {n : Nat} (heap : Heap n) : List (Text × Item n) → List (Text × Value) → Prop where
  | nil : DenotesFields heap [] []
  | cons {k : Text} {x : Item n} {v : Value} {fields : List (Text × Item n)} {vs : List (Text × Value)} (h : Denotes heap x v)
      (hvs : DenotesFields heap fields vs) : DenotesFields heap ((k, x) :: fields) ((k, v) :: vs)

end

/-! ## Sameness -/

mutual

/-- **The same JSON value**, whatever the order of keys; zero has no sign. -/
inductive Same : Value → Value → Prop where
  | null : Same .null .null
  | bool (b : Bool) : Same (.bool b) (.bool b)
  | number {d e : Binary64} (h : Grammar.plain d = Grammar.plain e) : Same (.number d) (.number e)
  | string (s : Text) : Same (.string s) (.string s)
  | array {vs ws : List Value} (h : SameItems vs ws) : Same (.array vs) (.array ws)
  | object {vs ws : List (Text × Value)} (h : SameFields vs ws) : Same (.object vs) (.object ws)

inductive SameItems : List Value → List Value → Prop where
  | nil : SameItems [] []
  | cons {v w : Value} {vs ws : List Value} (h : Same v w) (hvs : SameItems vs ws) : SameItems (v :: vs) (w :: ws)

/-- Each field is somewhere among the others. -/
inductive SameFields : List (Text × Value) → List (Text × Value) → Prop where
  | nil : SameFields [] []
  | cons {k : Text} {v w : Value} {vs ws ws' : List (Text × Value)} (h : Same v w) (hvs : SameFields vs (ws ++ ws')) :
      SameFields ((k, v) :: vs) (ws ++ (k, w) :: ws')

end

mutual

/-- No object has a key twice. -/
inductive Once : Value → Prop where
  | null : Once .null
  | bool (b : Bool) : Once (.bool b)
  | number (d : Binary64) : Once (.number d)
  | string (s : Text) : Once (.string s)
  | array {vs : List Value} (h : OnceItems vs) : Once (.array vs)
  | object {vs : List (Text × Value)} (hk : (vs.map Prod.fst).Nodup) (h : OnceFields vs) : Once (.object vs)

inductive OnceItems : List Value → Prop where
  | nil : OnceItems []
  | cons {v : Value} {vs : List Value} (h : Once v) (hvs : OnceItems vs) : OnceItems (v :: vs)

inductive OnceFields : List (Text × Value) → Prop where
  | nil : OnceFields []
  | cons {k : Text} {v : Value} {vs : List (Text × Value)} (h : Once v) (hvs : OnceFields vs) : OnceFields ((k, v) :: vs)

end

/-! ## The normal form -/

mutual

/-- Every object has its fields in the order of their keys. -/
def normal : Value → Value
  | .array items => .array (normalItems items)
  | .object fields => .object (byKey (normalFields fields))
  | v => v

def normalItems : List Value → List Value
  | [] => []
  | v :: items => normal v :: normalItems items

def normalFields : List (Text × Value) → List (Text × Value)
  | [] => []
  | (k, v) :: fields => (k, normal v) :: normalFields fields

end

theorem normalFields_map (fields : List (Text × Value)) : normalFields fields = fields.map fun f => (f.1, normal f.2) := by
  induction fields with
  | nil => rfl
  | cons f fields ih => rw [normalFields, ih, List.map_cons]

theorem plainFields_map (fields : List (Text × Value)) : plainFields fields = fields.map fun f => (f.1, f.2.plain) := by
  induction fields with
  | nil => rfl
  | cons f fields ih => rw [plainFields, ih, List.map_cons]

theorem byKey_map {α β : Type} (f : α → β) (fields : List (Text × α)) :
    byKey (fields.map fun x => (x.1, f x.2)) = (byKey fields).map fun x => (x.1, f x.2) :=
  (List.map_insertionSort (fun a b : Text × α => a.1 ≤ b.1) (fun a b : Text × β => a.1 ≤ b.1) (fun x => (x.1, f x.2)) fields
    fun _ _ _ _ => Iff.rfl).symm

instance keyTotal {α : Type} : Std.Total fun a b : Text × α => a.1 ≤ b.1 := ⟨fun a b => le_total a.1 b.1⟩

instance keyTrans {α : Type} : IsTrans (Text × α) fun a b => a.1 ≤ b.1 := ⟨fun _ _ _ h h' => le_trans h h'⟩

theorem byKey_perm {α : Type} (fields : List (Text × α)) : (byKey fields).Perm fields := List.perm_insertionSort _ fields

theorem byKey_idem {α : Type} (fields : List (Text × α)) : byKey (byKey fields) = byKey fields :=
  (List.pairwise_insertionSort (fun a b : Text × α => a.1 ≤ b.1) fields).insertionSort_eq

theorem byKey_congr {α : Type} {l l' : List (Text × α)} (h : l.Perm l') (hn : (l.map Prod.fst).Nodup) : byKey l = byKey l' := by
  have hp : (byKey l).Perm (byKey l') := (byKey_perm l).trans (h.trans (byKey_perm l').symm)
  refine List.Perm.eq_of_pairwise (fun a b ha hb hab hba => ?_)
    (List.pairwise_insertionSort (fun a b : Text × α => a.1 ≤ b.1) l)
    (List.pairwise_insertionSort (fun a b : Text × α => a.1 ≤ b.1) l') hp
  have ha' : a ∈ l := mem_byKey.mp ha
  have hb' : b ∈ l := h.mem_iff.mpr (mem_byKey.mp hb)
  exact List.inj_on_of_nodup_map hn ha' hb' (le_antisymm hab hba)

/-- What is left of a value once neither order of keys nor signs of zeros count. -/
def form (v : Value) : Value := (normal v).plain

theorem form_object (fields : List (Text × Value)) :
    form (.object fields) = .object (byKey (fields.map fun f => (f.1, form f.2))) := by
  unfold form
  rw [normal, Value.plain, plainFields_map, normalFields_map, ← byKey_map, List.map_map]
  rfl

theorem form_array (items : List Value) : form (.array items) = .array (items.map form) := by
  unfold form
  rw [normal, Value.plain]
  congr 1
  induction items with
  | nil => rfl
  | cons v items ih => rw [normalItems, plainItems, ih, List.map_cons]

/-! ## Same values have the same form -/

mutual

theorem Same.form_eq : ∀ {v w : Value}, Same v w → Once v → form v = form w
  | _, _, .null, _ => rfl
  | _, _, .bool _, _ => rfl
  | _, _, .number h, _ => congrArg Value.number h
  | _, _, .string _, _ => rfl
  | _, _, .array h, .array ho => by rw [form_array, form_array, SameItems.form_eq h ho]
  | _, _, .object h, .object hk ho => by
    rw [form_object, form_object, byKey_congr (SameFields.form_perm h ho)]
    rwa [List.map_map]

theorem SameItems.form_eq : ∀ {vs ws : List Value}, SameItems vs ws → OnceItems vs → vs.map form = ws.map form
  | _, _, .nil, _ => rfl
  | _, _, .cons h hvs, .cons ho hos => by rw [List.map_cons, List.map_cons, Same.form_eq h ho, SameItems.form_eq hvs hos]

theorem SameFields.form_perm : ∀ {vs ws : List (Text × Value)}, SameFields vs ws → OnceFields vs →
    (vs.map fun f => (f.1, form f.2)).Perm (ws.map fun f => (f.1, form f.2))
  | _, _, .nil, _ => .nil
  | _, _, .cons h hvs, .cons ho hos => by
    have hrest := SameFields.form_perm hvs hos
    rw [List.map_cons, List.map_append, List.map_cons, Same.form_eq h ho]
    rw [List.map_append] at hrest
    exact (hrest.cons _).trans List.perm_middle.symm

end

mutual

theorem same_of_form : ∀ (v : Value) {w : Value}, form v = form w → Same v w
  | .null, w, h => by cases w <;> cases h; exact .null
  | .bool b, w, h => by cases w <;> cases h; exact .bool b
  | .number d, w, h => by
    cases w with
    | number e => exact .number (Value.number.inj h)
    | _ => cases h
  | .string s, w, h => by cases w <;> cases h; exact .string s
  | .array vs, w, h => by
    cases w with
    | array ws =>
      rw [form_array, form_array] at h
      exact .array (sameItems_of_form vs (Value.array.inj h))
    | _ => cases h
  | .object vs, w, h => by
    cases w with
    | object ws =>
      rw [form_object, form_object] at h
      refine .object (sameFields_of_form vs ?_)
      have h' := Value.object.inj h
      exact (byKey_perm _).symm.trans (h' ▸ byKey_perm _)
    | _ => cases h

theorem sameItems_of_form : ∀ (vs : List Value) {ws : List Value}, vs.map form = ws.map form → SameItems vs ws
  | [], ws, h => by
    rw [List.map_nil, eq_comm, List.map_eq_nil_iff] at h
    rw [h]
    exact .nil
  | v :: vs, ws, h => by
    cases ws with
    | nil => cases h
    | cons w ws =>
      rw [List.map_cons, List.map_cons] at h
      exact .cons (same_of_form v (List.cons.inj h).1) (sameItems_of_form vs (List.cons.inj h).2)

theorem sameFields_of_form : ∀ (vs : List (Text × Value)) {ws : List (Text × Value)},
    (vs.map fun f => (f.1, form f.2)).Perm (ws.map fun f => (f.1, form f.2)) → SameFields vs ws
  | [], ws, h => by
    rw [List.map_nil, List.nil_perm, List.map_eq_nil_iff] at h
    rw [h]
    exact .nil
  | (k, v) :: vs, ws, h => by
    have hmem : (k, form v) ∈ ws.map fun f => (f.1, form f.2) := h.mem_iff.mp List.mem_cons_self
    obtain ⟨⟨k', w⟩, hw, heq⟩ := List.mem_map.mp hmem
    obtain ⟨rfl, hform⟩ := Prod.mk.inj heq
    obtain ⟨l, l', rfl⟩ := List.append_of_mem hw
    refine .cons (same_of_form v hform.symm) (sameFields_of_form vs ?_)
    rw [List.map_cons, List.map_append, List.map_cons] at h
    have h' := h.trans List.perm_middle
    rw [hform] at h'
    rw [List.map_append]
    exact h'.cons_inv

end

/-- **Values are the same exactly when they have the same form.** -/
theorem same_iff_form {v w : Value} (hv : Once v) : Same v w ↔ form v = form w :=
  ⟨fun h => h.form_eq hv, same_of_form v⟩

theorem plain_plain (d : Binary64) : Grammar.plain (Grammar.plain d) = Grammar.plain d := by
  unfold Grammar.plain
  by_cases hd : d.bits = 0
  · rw [if_pos hd, if_pos hd]
  · rw [if_neg hd, if_neg hd]

mutual

theorem form_idem : ∀ v : Value, form (form v) = form v
  | .null => rfl
  | .bool _ => rfl
  | .number d => congrArg Value.number (plain_plain d)
  | .string _ => rfl
  | .array vs => by rw [form_array, form_array, formItems_idem vs]
  | .object vs => by
    rw [form_object, form_object, byKey_map, byKey_idem, ← byKey_map, formFields_idem vs]

theorem formItems_idem : ∀ vs : List Value, (vs.map form).map form = vs.map form
  | [] => rfl
  | v :: vs => by rw [List.map_cons, List.map_cons, form_idem v, formItems_idem vs]

theorem formFields_idem : ∀ vs : List (Text × Value),
    (vs.map fun f => (f.1, form f.2)).map (fun f => (f.1, form f.2)) = vs.map fun f => (f.1, form f.2)
  | [] => rfl
  | (k, v) :: vs => by rw [List.map_cons, List.map_cons, form_idem v, formFields_idem vs]

end

end Canonical
end TmuxWorktree
