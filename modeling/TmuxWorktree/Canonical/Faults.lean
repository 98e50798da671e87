import TmuxWorktree.Canonical.Visit
import Mathlib.Data.Fintype.Card
/-!
# Faults — when a value is not canonicalized (`resourceState.ts`)

A value has a fault if something inside it is not JSON.  `Contains` says so for a notion `bad` of strings that are not
well formed; `visit` throws exactly when there is a fault for its own notion.  The cells that are being visited lead to
the item in hand, so one that is met again is a cycle, and without cycles there are never more of them than cells.
-/
namespace TmuxWorktree
namespace Canonical

open Utf16 Grammar

/-! ## What is inside a value -/

/-- An item or a field of an object. -/
inductive Child {n : Nat} (heap : Heap n) : Item n → Item n → Prop where
  | item {cell : Fin n} {items : List (Item n)} (h : heap cell = .array items) {x : Item n} (hx : x ∈ items) :
      Child heap (.ref cell) x
  | field {cell : Fin n} {fields : List (Text × Item n)} {once : (fields.map Prod.fst).Nodup}
      (h : heap cell = .plain fields once) {k : Text} {x : Item n} (hx : (k, x) ∈ fields) : Child heap (.ref cell) x

/-- `x` is the item or inside it. -/
inductive Inside {n : Nat} (heap : Heap n) (item : Item n) : Item n → Prop where
  | here : Inside heap item item
  | deeper {x y : Item n} (h : Inside heap item x) (hy : Child heap x y) : Inside heap item y

/-- **An item that is not JSON.** -/
inductive Faulty {n : Nat} (bad : Text → Prop) (heap : Heap n) : Item n → Prop where
  | string {s : Text} (h : bad s) : Faulty bad heap (.string s)
  | nonFinite : Faulty bad heap (.number none)
  | other : Faulty bad heap .other
  | nonPlain {cell : Fin n} (h : heap cell = .exotic) : Faulty bad heap (.ref cell)
  | key {cell : Fin n} {fields : List (Text × Item n)} {once : (fields.map Prod.fst).Nodup} (h : heap cell = .plain fields once)
      {k : Text} (hk : k ∈ fields.map Prod.fst) (hbad : bad k) : Faulty bad heap (.ref cell)
  | cyclic {x y : Item n} (hy : Child heap x y) (h : Inside heap y x) : Faulty bad heap x

/-- **There is a fault in the value.** -/
def Contains {n : Nat} (bad : Text → Prop) (heap : Heap n) (item : Item n) : Prop :=
  ∃ x, Inside heap item x ∧ Faulty bad heap x

def HasText {n : Nat} (heap : Heap n) (item : Item n) (s : Text) : Prop :=
  ∃ x, Inside heap item x ∧ (x = .string s ∨
    ∃ cell fields once, x = .ref cell ∧ heap cell = .plain fields once ∧ s ∈ fields.map Prod.fst)

section
variable {n : Nat} {heap : Heap n} {item x y : Item n} {bad : Text → Prop}

theorem Inside.of_child (h : Child heap item x) (hy : Inside heap x y) : Inside heap item y := by
  induction hy with
  | here => exact .deeper .here h
  | deeper _ hc ih => exact .deeper ih hc

theorem Inside.cases_child (h : Inside heap item x) : x = item ∨ ∃ y, Child heap item y ∧ Inside heap y x := by
  induction h with
  | here => exact .inl rfl
  | deeper _ hc ih =>
    rcases ih with rfl | ⟨y, hy, hx⟩
    · exact .inr ⟨_, hc, .here⟩
    · exact .inr ⟨y, hy, .deeper hx hc⟩

theorem Inside.eq_of_leaf (h : Inside heap item x) (hleaf : ∀ y, ¬ Child heap item y) : x = item :=
  h.cases_child.resolve_right fun ⟨y, hy, _⟩ => hleaf y hy

theorem Faulty.mono {bad' : Text → Prop} (h : Faulty bad heap x) (hbad : ∀ s, HasText heap x s → bad s → bad' s) :
    Faulty bad' heap x := by
  cases h with
  | string h => exact .string (hbad _ ⟨_, .here, .inl rfl⟩ h)
  | nonFinite => exact .nonFinite
  | other => exact .other
  | nonPlain h => exact .nonPlain h
  | key h hk hb => exact .key h hk (hbad _ ⟨_, .here, .inr ⟨_, _, _, rfl, h, hk⟩⟩ hb)
  | cyclic hy h => exact .cyclic hy h

theorem Contains.mono {bad' : Text → Prop} (h : Contains bad heap item) (hbad : ∀ s, HasText heap item s → bad s → bad' s) :
    Contains bad' heap item := by
  obtain ⟨x, hx, hf⟩ := h
  refine ⟨x, hx, hf.mono fun s hs => hbad s ?_⟩
  obtain ⟨y, hy, htext⟩ := hs
  refine ⟨y, ?_, htext⟩
  clear htext hf
  induction hy with
  | here => exact hx
  | deeper _ hc ih => exact .deeper ih hc

theorem Contains.of_text {s : Text} (h : HasText heap item s) (hbad : bad s) : Contains bad heap item := by
  obtain ⟨x, hx, rfl | ⟨cell, fields, once, rfl, hcell, hk⟩⟩ := h
  · exact ⟨_, hx, .string hbad⟩
  · exact ⟨_, hx, .key hcell hk hbad⟩

end

/-! ## Lists that are visited -/

section
variable {α β ε : Type} {f : α → Except ε β}

theorem mapM_ok {l : List α} {l' : List β} : l.mapM f = .ok l' ↔ List.Forall₂ (fun a b => f a = .ok b) l l' := by
  induction l generalizing l' with
  | nil =>
    rw [List.mapM_nil]
    constructor
    · rintro ⟨⟩
      exact .nil
    · rintro ⟨⟩
      rfl
  | cons a l ih =>
    rw [List.mapM_cons]
    constructor
    · intro h
      cases ha : f a with
      | error e =>
        rw [ha] at h
        cases h
      | ok b =>
        rw [ha] at h
        cases hl : l.mapM f with
        | error e =>
          rw [hl] at h
          cases h
        | ok bs =>
          rw [hl] at h
          cases h
          exact .cons ha (ih.mp hl)
    · rintro (_ | ⟨ha, hl⟩)
      rw [ha, ih.mpr hl]
      rfl

theorem mapM_error {l : List α} {e : ε} (h : l.mapM f = .error e) : ∃ a ∈ l, f a = .error e := by
  induction l with
  | nil =>
    rw [List.mapM_nil] at h
    cases h
  | cons a l ih =>
    rw [List.mapM_cons] at h
    cases ha : f a with
    | error e' =>
      rw [ha] at h
      cases h
      exact ⟨a, List.mem_cons_self, ha⟩
    | ok b =>
      rw [ha] at h
      cases hl : l.mapM f with
      | error e' =>
        rw [hl] at h
        cases h
        obtain ⟨x, hx, hfx⟩ := ih hl
        exact ⟨x, List.mem_cons_of_mem a hx, hfx⟩
      | ok bs =>
        rw [hl] at h
        cases h

theorem mapM_all {l : List α} (h : ∀ a ∈ l, ∃ b, f a = .ok b) : ∃ l', l.mapM f = .ok l' := by
  cases hm : l.mapM f with
  | ok l' => exact ⟨l', rfl⟩
  | error e =>
    obtain ⟨a, ha, he⟩ := mapM_error hm
    obtain ⟨b, hb⟩ := h a ha
    rw [hb] at he
    cases he

end

section
variable {n : Nat} {heap : Heap n} {item x : Item n} {steps : Nat} {seen : List (Fin n)} {t : Text}

theorem mem_byKey {α : Type} {fields : List (Text × α)} {f : Text × α} : f ∈ byKey fields ↔ f ∈ fields :=
  (List.perm_insertionSort _ fields).mem_iff

theorem map_ok {ε α β : Type} {f : α → β} {x : Except ε α} {b : β} (h : x.map f = .ok b) : ∃ a, x = .ok a ∧ b = f a := by
  cases x with
  | error e => cases h
  | ok a =>
    cases h
    exact ⟨a, rfl, rfl⟩

theorem map_error {ε α β : Type} {f : α → β} {x : Except ε α} {e : ε} (h : x.map f = .error e) : x = .error e := by
  cases x with
  | error e' =>
    cases h
    rfl
  | ok a => cases h

theorem forall₂_left {α β : Type} {R : α → β → Prop} {l : List α} {l' : List β} (h : List.Forall₂ R l l') {a : α}
    (ha : a ∈ l) : ∃ b, R a b := by
  induction h with
  | nil => cases ha
  | cons hab _ ih =>
    rcases List.mem_cons.mp ha with rfl | ha
    · exact ⟨_, hab⟩
    · exact ih ha

def visitField (heap : Heap n) (steps : Nat) (seen : List (Fin n)) (f : Text × Item n) : Except (Option Fault) Text := do
  return quote f.1 ++ 0x3A :: (← visit heap steps seen f.2)

theorem visitField_ok {f : Text × Item n} :
    visitField heap steps seen f = .ok t ↔ ∃ u, visit heap steps seen f.2 = .ok u ∧ t = quote f.1 ++ 0x3A :: u := by
  unfold visitField
  cases visit heap steps seen f.2 with
  | error e =>
    constructor
    · rintro ⟨⟩
    · rintro ⟨u, ⟨⟩, _⟩
  | ok u =>
    constructor
    · rintro ⟨⟩
      exact ⟨u, rfl, rfl⟩
    · rintro ⟨_, ⟨⟩, rfl⟩
      rfl

theorem visitField_error {f : Text × Item n} {e : Option Fault} (h : visitField heap steps seen f = .error e) :
    visit heap steps seen f.2 = .error e := by
  unfold visitField at h
  cases hv : visit heap steps seen f.2 with
  | error e' =>
    rw [hv] at h
    cases h
    rfl
  | ok u =>
    rw [hv] at h
    cases h

/-! ## Visits -/

theorem visit_array {cell : Fin n} {items : List (Item n)} (h : heap cell = .array items) (hs : cell ∉ seen) :
    visit heap (steps + 1) seen (.ref cell) =
      (items.mapM (visit heap steps (cell :: seen))).map fun parts => 0x5B :: (join parts ++ [0x5D]) := by
  rw [visit, if_neg (by simpa using hs), h]
  dsimp only
  cases items.mapM (visit heap steps (cell :: seen)) <;> rfl

theorem visit_plain {cell : Fin n} {fields : List (Text × Item n)} {once : (fields.map Prod.fst).Nodup}
    (h : heap cell = .plain fields once) (hs : cell ∉ seen) :
    visit heap (steps + 1) seen (.ref cell) =
      if fields.all (fun f => hasWellFormedUnicode f.1) then
        ((byKey fields).mapM (visitField heap steps (cell :: seen))).map fun parts => 0x7B :: (join parts ++ [0x7D])
      else .error (some .invalidKey) := by
  rw [visit, if_neg (by simpa using hs), h]
  dsimp only
  split
  · change ((byKey fields).mapM (visitField heap steps (cell :: seen)) >>= _) = _
    cases (byKey fields).mapM (visitField heap steps (cell :: seen)) <;> rfl
  · rfl

/-- What a visit that ends well has seen of the item. -/
structure Seen (heap : Heap n) (seen : List (Fin n)) (item : Item n) : Prop where
  sound : ∀ x, Inside heap item x → ¬ Faulty (fun s => hasWellFormedUnicode s = false) heap x
  fresh : ∀ cell, Inside heap item (.ref cell) → cell ∉ seen

theorem Seen.leaf (hleaf : ∀ y, ¬ Child heap item y) (hf : ¬ Faulty (fun s => hasWellFormedUnicode s = false) heap item)
    (hfresh : ∀ cell, item ≠ .ref cell) : Seen heap seen item :=
  ⟨fun x hx => by rw [hx.eq_of_leaf hleaf]; exact hf, fun cell hx => absurd (hx.eq_of_leaf hleaf).symm (hfresh cell)⟩

theorem Seen.ref {cell : Fin n} (hs : cell ∉ seen) (hchild : ∀ y, Child heap (.ref cell) y → Seen heap (cell :: seen) y)
    (hplain : heap cell ≠ .exotic)
    (hkeys : ∀ fields once, heap cell = .plain fields once → ∀ k ∈ fields.map Prod.fst, hasWellFormedUnicode k = true) :
    Seen heap seen (.ref cell) := by
  constructor
  · intro x hx
    rcases hx.cases_child with rfl | ⟨y, hy, hx⟩
    · rintro (_ | _ | _ | h | ⟨h, hk, hbad⟩ | ⟨hy, h⟩)
      · exact hplain h
      · have hbad : hasWellFormedUnicode _ = false := hbad
        rw [hkeys _ _ h _ hk] at hbad
        cases hbad
      · exact (hchild _ hy).fresh cell h List.mem_cons_self
    · exact (hchild y hy).sound x hx
  · intro c hc
    rcases hc.cases_child with heq | ⟨y, hy, hc⟩
    · cases heq
      exact hs
    · exact fun hmem => (hchild y hy).fresh c hc (List.mem_cons_of_mem cell hmem)

theorem seen_leaf (h : visit heap steps seen item = .ok t) (hleaf : ∀ y, ¬ Child heap item y)
    (hfresh : ∀ cell, item ≠ .ref cell) : Seen heap seen item := by
  refine .leaf hleaf ?_ hfresh
  rintro (hbad | _ | _ | hx | hx | ⟨hy, _⟩)
  · rw [visit, if_neg (by simpa using hbad)] at h
    cases h
  · rw [visit] at h
    cases h
  · rw [visit] at h
    cases h
  · exact hfresh _ rfl
  · exact hfresh _ rfl
  · exact hleaf _ hy

/-- **A visit that ends well has met no fault.** -/
theorem visit_seen (h : visit heap steps seen item = .ok t) : Seen heap seen item := by
  induction steps generalizing seen item t with
  | zero =>
    cases item with
    | ref cell => cases h
    | _ => exact seen_leaf h (fun y => nofun) fun cell => nofun
  | succ steps ih =>
    cases item with
    | ref cell =>
      by_cases hs : cell ∈ seen
      · rw [visit, if_pos (by simpa using hs)] at h
        cases h
      cases hc : heap cell with
      | array items =>
        rw [visit_array hc hs] at h
        obtain ⟨parts, hparts, _⟩ := map_ok h
        have hitems := mapM_ok.mp hparts
        refine .ref hs (fun y hy => ?_) (by rw [hc]; nofun) (by rw [hc]; nofun)
        cases hy with
        | field h' => cases hc.symm.trans h'
        | item h' hx =>
          cases hc.symm.trans h'
          obtain ⟨u, hu⟩ := forall₂_left hitems hx
          exact ih hu
      | exotic =>
        rw [visit, if_neg (by simpa using hs), hc] at h
        cases h
      | plain fields once =>
        rw [visit_plain hc hs] at h
        split at h
        · next hkeys =>
          obtain ⟨parts, hparts, _⟩ := map_ok h
          have hfields := mapM_ok.mp hparts
          refine .ref hs (fun y hy => ?_) (by rw [hc]; nofun) fun fields' once' h' k hk => ?_
          · cases hy with
            | item h' => cases hc.symm.trans h'
            | field h' hx =>
              cases hc.symm.trans h'
              obtain ⟨u, hu⟩ := forall₂_left hfields (mem_byKey.mpr hx)
              obtain ⟨u', hu', _⟩ := visitField_ok.mp hu
              exact ih hu'
          · cases hc.symm.trans h'
            obtain ⟨f, hf, rfl⟩ := List.mem_map.mp hk
            exact List.all_eq_true.mp hkeys f hf
        · cases h
    | _ => exact seen_leaf h (fun y => nofun) fun cell => nofun

/-! ## Steps -/

/-- The cells that are being visited are different ones, and each leads to the item. -/
structure Above (heap : Heap n) (steps : Nat) (seen : List (Fin n)) (item : Item n) : Prop where
  nodup : seen.Nodup
  steps : seen.length + steps = n + 1
  leads : ∀ cell ∈ seen, ∃ y, Child heap (.ref cell) y ∧ Inside heap y item

theorem Above.child {cell : Fin n} (h : Above heap (steps + 1) seen (.ref cell)) (hs : cell ∉ seen) {y : Item n}
    (hy : Child heap (.ref cell) y) : Above heap steps (cell :: seen) y where
  nodup := List.nodup_cons.mpr ⟨hs, h.nodup⟩
  steps := by
    have := h.steps
    rw [List.length_cons]
    omega
  leads := by
    intro c hc
    rcases List.mem_cons.mp hc with rfl | hc
    · exact ⟨y, hy, .here⟩
    · obtain ⟨z, hz, hin⟩ := h.leads c hc
      exact ⟨z, hz, .deeper hin hy⟩

theorem Above.steps_pos (h : Above heap steps seen item) : steps ≠ 0 := by
  have hlen := h.nodup.length_le_card
  rw [Fintype.card_fin] at hlen
  have := h.steps
  omega

theorem visit_ne_none (h : Above heap steps seen item) : visit heap steps seen item ≠ .error none := by
  induction steps generalizing seen item with
  | zero => exact absurd rfl h.steps_pos
  | succ steps ih =>
    intro he
    cases item with
    | ref cell =>
      by_cases hs : cell ∈ seen
      · rw [visit, if_pos (by simpa using hs)] at he
        cases he
      cases hc : heap cell with
      | array items =>
        rw [visit_array hc hs] at he
        obtain ⟨x, hx, hv⟩ := mapM_error (map_error he)
        exact ih (h.child hs (.item hc hx)) hv
      | exotic =>
        rw [visit, if_neg (by simpa using hs), hc] at he
        cases he
      | plain fields once =>
        rw [visit_plain hc hs] at he
        split at he
        · obtain ⟨f, hf, hv⟩ := mapM_error (map_error he)
          exact ih (h.child hs (.field hc (k := f.1) (mem_byKey.mp hf))) (visitField_error hv)
        · cases he
    | string s =>
      rw [visit] at he
      split at he <;> cases he
    | number d => cases d <;> cases he
    | null | bool | other => cases he

/-- **Without a fault a visit ends well.** -/
theorem visit_of_sound (h : Above heap steps seen item)
    (hsound : ∀ x, Inside heap item x → ¬ Faulty (fun s => hasWellFormedUnicode s = false) heap x) :
    ∃ t, visit heap steps seen item = .ok t := by
  induction steps generalizing seen item with
  | zero => exact absurd rfl h.steps_pos
  | succ steps ih =>
    have hself := hsound item .here
    cases item with
    | ref cell =>
      have hs : cell ∉ seen := by
        intro hs
        obtain ⟨y, hy, hin⟩ := h.leads cell hs
        exact hself (.cyclic hy hin)
      have hchild : ∀ y, Child heap (.ref cell) y → ∃ t, visit heap steps (cell :: seen) y = .ok t := fun y hy =>
        ih (h.child hs hy) fun x hx => hsound x (.of_child hy hx)
      cases hc : heap cell with
      | array items =>
        rw [visit_array hc hs]
        obtain ⟨parts, hparts⟩ := mapM_all fun x hx => hchild x (.item hc hx)
        exact ⟨_, by rw [hparts]; rfl⟩
      | exotic => exact absurd (.nonPlain hc) hself
      | plain fields once =>
        have hkeys : fields.all (fun f => hasWellFormedUnicode f.1) = true := by
          refine List.all_eq_true.mpr fun f hf => ?_
          by_contra hbad
          exact hself (.key hc (List.mem_map_of_mem hf) (Bool.eq_false_iff.mpr hbad))
        rw [visit_plain hc hs, if_pos hkeys]
        obtain ⟨parts, hparts⟩ := mapM_all (f := visitField heap steps (cell :: seen)) (l := byKey fields) fun f hf => by
          obtain ⟨u, hu⟩ := hchild f.2 (.field hc (k := f.1) (mem_byKey.mp hf))
          exact ⟨_, visitField_ok.mpr ⟨u, hu, rfl⟩⟩
        exact ⟨_, by rw [hparts]; rfl⟩
    | string s =>
      rw [visit]
      by_cases hs : hasWellFormedUnicode s = true
      · exact ⟨_, if_pos hs⟩
      · exact absurd (.string (Bool.eq_false_iff.mpr hs)) hself
    | number d =>
      cases d with
      | none => exact absurd .nonFinite hself
      | some d => exact ⟨_, rfl⟩
    | null => exact ⟨_, rfl⟩
    | bool b => exact ⟨_, rfl⟩
    | other => exact absurd .other hself

theorem Above.root (heap : Heap n) (item : Item n) : Above heap (n + 1) [] item :=
  ⟨List.nodup_nil, Nat.zero_add _, fun _ h => absurd h List.not_mem_nil⟩

/-- **A value is refused exactly when it has a fault.** -/
theorem throws_iff (heap : Heap n) (item : Item n) :
    (∃ f, canonicalizeRelayV2MaterializedJson heap item = .error (some f)) ↔
      Contains (fun s => hasWellFormedUnicode s = false) heap item := by
  unfold canonicalizeRelayV2MaterializedJson
  constructor
  · rintro ⟨f, hf⟩
    by_contra hno
    obtain ⟨t, ht⟩ := visit_of_sound (.root heap item) fun x hx hfault => hno ⟨x, hx, hfault⟩
    rw [ht] at hf
    cases hf
  · rintro ⟨x, hx, hfault⟩
    cases hv : visit heap (n + 1) [] item with
    | ok t => exact absurd hfault ((visit_seen hv).sound x hx)
    | error f =>
      cases f with
      | none => exact absurd hv (visit_ne_none (.root heap item))
      | some f => exact ⟨f, rfl⟩

end

end Canonical
end TmuxWorktree
