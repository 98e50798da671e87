import TmuxWorktree.Strict.Reading
/-!
# Sound — a parse that ends well has read a value of the grammar

One statement for each function of the parser, and one lemma for each that gets its statement from those it calls with a
step less; the induction over the steps ties them.
-/
namespace TmuxWorktree
namespace Strict

open Utf16 Grammar

section
variable (limits : Limits) (build : Bool)

structure ReadValue (depth : Nat) (root : Bool) (p : Parser) (x : Option Value × Parser) (t : Tree) (r : Text) : Prop where
  reads : Reads p.rest t r
  shorter : r.length < p.rest.length
  lawful : Lawful limits.maxDirectKeys t
  value : x.1 = seen build t
  after : x.2 = p.after depth root t r
  keys : p.totalKeys ≤ limits.maxTotalKeys → p.totalKeys + t.keys ≤ limits.maxTotalKeys
  nodes : p.totalNodes + t.nodes ≤ limits.maxNodes
  depth : depth ≤ limits.maxDepth → depth + t.depth ≤ limits.maxDepth

/-- Items of an array were read, and they follow those of `result`. -/
structure ReadItems (depth : Nat) (result : List Value) (p : Parser) (x : Option Value × Parser) (items : List Tree)
    (r : Text) : Prop where
  shorter : r.length < p.rest.length
  lawful : lawfulItems limits.maxDirectKeys items
  value : x.1 = if build then (valueItems items).map fun vs => .array (result ++ vs) else none
  after : x.2 = p.afterItems items r
  keys : p.totalKeys ≤ limits.maxTotalKeys → p.totalKeys + keysItems items ≤ limits.maxTotalKeys
  nodes : p.totalNodes ≤ limits.maxNodes → p.totalNodes + nodesItems items ≤ limits.maxNodes
  depth : depth ≤ limits.maxDepth → depth + depthItems items ≤ limits.maxDepth

/-- Members of an object were read, and they follow those of `result`, with other keys. -/
structure ReadFields (depth : Nat) (before : List Text) (result : List (Text × Value)) (p : Parser)
    (x : Option Value × Parser) (fields : List (Text × Tree)) (r : Text) : Prop where
  shorter : r.length < p.rest.length
  lawful : lawfulFields limits.maxDirectKeys fields
  once : (fields.map Prod.fst).Nodup
  new : ∀ k ∈ fields.map Prod.fst, k ∉ before
  direct : before.length ≤ limits.maxDirectKeys → before.length + fields.length ≤ limits.maxDirectKeys
  value : x.1 = if build then (valueFields fields).map fun vs => .object (result ++ vs) else none
  after : x.2 = p.afterFields depth fields r
  keys : p.totalKeys ≤ limits.maxTotalKeys → p.totalKeys + keysFields fields ≤ limits.maxTotalKeys
  nodes : p.totalNodes ≤ limits.maxNodes → p.totalNodes + nodesFields fields ≤ limits.maxNodes
  depth : depth ≤ limits.maxDepth → depth + depthFields fields ≤ limits.maxDepth

def Ended (fuel enough : Nat) (e : Option JsonFailureClass) : Prop := enough ≤ fuel → e ≠ none

def ValueEnds (fuel : Nat) : Prop := ∀ depth root p,
  Ends (parseValue limits build fuel depth root p) (fun x => ∃ t r, ReadValue limits build depth root p x t r)
    (Ended fuel (3 * p.rest.length + 1))

def ArrayEnds (fuel : Nat) : Prop := ∀ depth p s, depth ≠ 0 → p.rest = 0x5B :: s →
  Ends (parseArray limits build fuel depth p)
    (fun x => ∃ items r, Reads p.rest (.array items) r ∧ ReadItems limits build depth [] p x items r)
    (Ended fuel (3 * p.rest.length))

def ElementsEnd (fuel : Nat) : Prop := ∀ depth result p, depth ≠ 0 →
  Ends (parseElements limits build fuel depth result p)
    (fun x => ∃ items r, Elements p.rest items r ∧ ReadItems limits build depth result p x items r)
    (Ended fuel (3 * p.rest.length + 2))

def ObjectEnds (fuel : Nat) : Prop := ∀ depth p s, depth ≠ 0 → p.rest = 0x7B :: s →
  Ends (parseObject limits build fuel depth p)
    (fun x => ∃ fields r, Reads p.rest (.object fields) r ∧ ReadFields limits build depth [] [] p x fields r)
    (Ended fuel (3 * p.rest.length))

def MembersEnd (fuel : Nat) : Prop := ∀ depth before result p, depth ≠ 0 →
  Ends (parseMembers limits build fuel depth before result p)
    (fun x => ∃ fields r, Members p.rest fields r ∧ ReadFields limits build depth before result p x fields r)
    (Ended fuel (3 * p.rest.length + 2))

end

variable {limits : Limits} {build : Bool}

theorem Ended.of_some {fuel enough : Nat} (f : JsonFailureClass) : Ended fuel enough (some f) := fun _ => by simp

theorem skip_spec (p : Parser) :
    ∃ s, Space p.rest s ∧ s.length ≤ p.rest.length ∧ skipWhitespace p = { p with rest := s } :=
  ⟨p.rest.dropWhile isSpace, space_dropWhile p.rest, space_length (space_dropWhile p.rest), rfl⟩

theorem readScalar {depth : Nat} {root : Bool} {p : Parser} {t : Tree} {r : Text} {x : Option Value × Parser}
    (hreads : Reads p.rest t r) (hshorter : r.length < p.rest.length) (hlawful : Lawful limits.maxDirectKeys t)
    (hscalar : (∀ items, t ≠ .array items) ∧ ∀ fields, t ≠ .object fields) (hnodes : p.totalNodes + 1 ≤ limits.maxNodes)
    (hx : x = (t.value, { p with rest := r, totalNodes := p.totalNodes + 1 })) : ReadValue limits build depth root p x t r := by
  obtain ⟨ha, ho⟩ := hscalar
  subst hx
  cases t with
  | array items => exact absurd rfl (ha items)
  | object fields => exact absurd rfl (ho fields)
  | null =>
    exact ⟨hreads, hshorter, hlawful, rfl, by simp [Parser.after, Tree.keys, Tree.nodes, typeOf, isObject], fun h => h, hnodes,
      fun h => h⟩
  | bool b =>
    exact ⟨hreads, hshorter, hlawful, rfl, by simp [Parser.after, Tree.keys, Tree.nodes, typeOf, isObject], fun h => h, hnodes,
      fun h => h⟩
  | number l =>
    exact ⟨hreads, hshorter, hlawful, rfl, by simp [Parser.after, Tree.keys, Tree.nodes, typeOf, isObject], fun h => h, hnodes,
      fun h => h⟩
  | string s =>
    exact ⟨hreads, hshorter, hlawful, rfl, by simp [Parser.after, Tree.keys, Tree.nodes, typeOf, isObject], fun h => h, hnodes,
      fun h => h⟩

theorem value_step {fuel : Nat} (harray : ArrayEnds limits build fuel) (hobject : ObjectEnds limits build fuel) :
    ValueEnds limits build (fuel + 1) := by
  intro depth root p
  unfold parseValue
  dsimp only
  refine Ends.ite (fun _ => Ends.error (Ended.of_some _)) fun hnodes => ?_
  have hnodes : p.totalNodes + 1 ≤ limits.maxNodes := Nat.le_of_not_lt hnodes
  split
  next s hp =>
    refine Ends.ite (fun _ => Ends.error (Ended.of_some _)) fun hdepth => ?_
    refine (hobject (depth + 1) { p with totalNodes := p.totalNodes + 1, rootIsObject := p.rootIsObject || root } s
      (Nat.succ_ne_zero depth) hp).mono ?_
      (fun e he hfuel => he (by dsimp only at hfuel ⊢; omega))
    rintro x ⟨fields, r, hreads, h⟩
    refine ⟨.object fields, r, hreads, h.shorter, ⟨h.once, by simpa using h.direct (Nat.zero_le _), h.lawful⟩, ?_, ?_, h.keys, ?_, ?_⟩
    · rw [h.value]
      simp [seen, Tree.value]
    · rw [h.after]
      simp [Parser.after, Parser.afterFields, Tree.keys, Tree.nodes, typeOf, isObject, Nat.add_assoc]
    · have := h.nodes hnodes
      simp only [Tree.nodes] at this ⊢
      omega
    · intro _
      have := h.depth (by omega)
      simp only [Tree.depth]
      omega
  next s hp =>
    refine Ends.ite (fun _ => Ends.error (Ended.of_some _)) fun hdepth => ?_
    refine (harray (depth + 1) { p with totalNodes := p.totalNodes + 1 } s (Nat.succ_ne_zero depth) hp).mono ?_
      (fun e he hfuel => he (by dsimp only at hfuel ⊢; omega))
    rintro x ⟨items, r, hreads, h⟩
    refine ⟨.array items, r, hreads, h.shorter, h.lawful, ?_, ?_, h.keys, ?_, ?_⟩
    · rw [h.value]
      simp [seen, Tree.value]
    · rw [h.after]
      simp [Parser.after, Parser.afterItems, Tree.keys, Tree.nodes, typeOf, isObject, Nat.add_assoc]
    · have := h.nodes hnodes
      simp only [Tree.nodes] at this ⊢
      omega
    · intro _
      have := h.depth (by omega)
      simp only [Tree.depth]
      omega
  next s hp =>
    refine ((parseString_ends (p := { p with totalNodes := p.totalNodes + 1 }) hp).mono (fun x hx => hx)
      (fun e he _ => he)).bind ?_
    rintro ⟨t, p'⟩ ⟨r, hchars, hlen, hp'⟩
    dsimp only at hchars hp'
    refine Ends.pure ⟨.string t, r, readScalar (by rw [hp]; exact .string hchars) ?_ trivial (by simp) hnodes (by rw [hp']; rfl)⟩
    rw [hp, List.length_cons]
    omega
  next s hp =>
    refine (parseLiteral_ends _ _ _).mono ?_ (fun e he _ => he)
    rintro x ⟨r, hr, hx⟩
    refine ⟨.bool true, r, readScalar ?_ ?_ trivial (by simp) hnodes hx⟩
    · rw [show p.rest = _ from hr]
      exact .true r
    · rw [show p.rest = _ from hr, List.length_append]
      exact Nat.lt_add_of_pos_left (by decide)
  next s hp =>
    refine (parseLiteral_ends _ _ _).mono ?_ (fun e he _ => he)
    rintro x ⟨r, hr, hx⟩
    refine ⟨.bool false, r, readScalar ?_ ?_ trivial (by simp) hnodes hx⟩
    · rw [show p.rest = _ from hr]
      exact .false r
    · rw [show p.rest = _ from hr, List.length_append]
      exact Nat.lt_add_of_pos_left (by decide)
  next s hp =>
    refine (parseLiteral_ends _ _ _).mono ?_ (fun e he _ => he)
    rintro x ⟨r, hr, hx⟩
    refine ⟨.null, r, readScalar ?_ ?_ trivial (by simp) hnodes hx⟩
    · rw [show p.rest = _ from hr]
      exact .null r
    · rw [show p.rest = _ from hr, List.length_append]
      exact Nat.lt_add_of_pos_left (by decide)
  next =>
    refine (parseNumber_ends _).mono ?_ (fun e he _ => he)
    rintro x ⟨l, r, hnumber, hlen, hallowed, hx⟩
    exact ⟨.number l, r, readScalar (.number hnumber) hlen hallowed (by simp) hnodes (by rw [hx]; rfl)⟩

theorem seen_true (t : Tree) : seen true t = t.value := by
  cases t <;> rfl

theorem after_inner (p : Parser) {depth : Nat} (hdepth : depth ≠ 0) (t : Tree) (r : Text) :
    p.after depth false t r = { p with rest := r, totalKeys := p.totalKeys + t.keys, totalNodes := p.totalNodes + t.nodes } := by
  unfold Parser.after
  rw [if_neg hdepth, Bool.false_and, Bool.or_false]

theorem array_step {fuel : Nat} (helements : ElementsEnd limits build fuel) : ArrayEnds limits build (fuel + 1) := by
  intro depth p s hdepth hp
  obtain ⟨s', hspace, hlen, hskip⟩ := skip_spec { p with rest := s }
  unfold parseArray
  dsimp only at hspace hlen ⊢
  rw [hp, List.drop_one, List.tail_cons, hskip]
  dsimp only
  split
  next r =>
    refine Ends.ok ⟨[], r, .noItems hspace, ?_, trivial, ?_, rfl, fun h => h, fun h => h, fun h => h⟩
    · rw [List.length_cons] at hlen
      rw [hp, List.length_cons]
      omega
    · rfl
  next =>
    refine (helements depth [] { p with rest := s' } hdepth).mono ?_ fun e he hfuel => he ?_
    · rintro x ⟨items, r, hitems, h⟩
      refine ⟨items, r, .array hspace hitems, ?_, h.lawful, h.value, h.after, h.keys, h.nodes, h.depth⟩
      have hshort : r.length < s'.length := h.shorter
      rw [hp, List.length_cons]
      omega
    · rw [List.length_cons] at hfuel
      dsimp only
      omega

theorem elements_step {fuel : Nat} (hvalue : ValueEnds limits build fuel) (helements : ElementsEnd limits build fuel) :
    ElementsEnd limits build (fuel + 1) := by
  intro depth result p hdepth
  unfold parseElements
  split
  next => exact Ends.error (Ended.of_some _)
  next c s hp =>
    refine ((hvalue depth false p).mono (fun x hx => hx) fun e he hfuel => he (by omega)).bind ?_
    rintro ⟨value, p'⟩ ⟨t, s₁, h⟩
    have hafter := h.after.trans (after_inner p hdepth t s₁)
    dsimp only at hafter
    have hval : value = seen build t := h.value
    obtain ⟨s', hspace, hlen, hskip⟩ := skip_spec p'
    have hrest : p'.rest = s₁ := by rw [hafter]
    rw [hrest] at hspace hlen
    have hshort := h.shorter
    obtain ⟨v, hv⟩ := lawful_value h.lawful
    dsimp only
    rw [hskip]
    dsimp only
    split
    next r =>
      refine Ends.ok ⟨[t], r, .last h.reads hspace, ?_, ⟨h.lawful, trivial⟩, ?_, ?_, ?_, ?_, ?_⟩
      · rw [List.length_cons] at hlen
        omega
      · subst hval
        cases build with
        | false => rfl
        | true =>
          rw [if_pos rfl, if_pos rfl, seen_true, valueItems, hv]
          rfl
      · rw [hafter]
        simp [Parser.afterItems, keysItems, nodesItems]
      · simpa [keysItems] using h.keys
      · intro _
        simpa [nodesItems] using h.nodes
      · simpa [depthItems] using h.depth
    next s₂ =>
      obtain ⟨s₃, hspace', hlen', hskip'⟩ := skip_spec { p' with rest := s₂ }
      rw [hskip']
      dsimp only at hspace' hlen' ⊢
      rw [List.length_cons] at hlen
      refine (helements depth _ { p' with rest := s₃ } hdepth).mono ?_ fun e he hfuel => he (by dsimp only; omega)
      rintro x ⟨items, r, hitems, hi⟩
      have hshort' : r.length < s₃.length := hi.shorter
      have hnodes : p'.totalNodes ≤ limits.maxNodes := by
        rw [hafter]
        exact h.nodes
      obtain ⟨vs, hvs⟩ := lawful_items hi.lawful
      refine ⟨t :: items, r, .cons h.reads hspace hspace' hitems, by omega, ⟨h.lawful, hi.lawful⟩, ?_, ?_, ?_, ?_, ?_⟩
      · rw [hi.value, hval]
        cases build with
        | false => rfl
        | true =>
          rw [if_pos rfl, if_pos rfl, seen_true, valueItems, hv, hvs]
          simp
      · rw [hi.after, hafter]
        simp [Parser.afterItems, keysItems, nodesItems, Nat.add_assoc]
      · intro hkeys
        have := hi.keys (by rw [hafter]; exact h.keys hkeys)
        rw [hafter] at this
        simpa [keysItems, Nat.add_assoc] using this
      · intro _
        have := hi.nodes hnodes
        rw [hafter] at this
        simpa [nodesItems, Nat.add_assoc] using this
      · intro hmax
        have := hi.depth hmax
        have := h.depth hmax
        simp only [depthItems]
        omega
    next => exact Ends.error (Ended.of_some _)

theorem object_step {fuel : Nat} (hmembers : MembersEnd limits build fuel) : ObjectEnds limits build (fuel + 1) := by
  intro depth p s hdepth hp
  obtain ⟨s', hspace, hlen, hskip⟩ := skip_spec { p with rest := s }
  unfold parseObject
  dsimp only at hspace hlen ⊢
  rw [hp, List.drop_one, List.tail_cons, hskip]
  dsimp only
  split
  next r =>
    refine Ends.ok ⟨[], r, .noFields hspace, ?_, trivial, List.nodup_nil, fun _ hk => absurd hk (List.not_mem_nil), fun h => h, rfl, ?_,
      fun h => h, fun h => h, fun h => h⟩
    · rw [List.length_cons] at hlen
      rw [hp, List.length_cons]
      omega
    · simp [Parser.afterFields, keysFields, nodesFields, typeFields]
  next =>
    refine (hmembers depth [] [] { p with rest := s' } hdepth).mono ?_ fun e he hfuel => he ?_
    · rintro x ⟨fields, r, hfields, h⟩
      refine ⟨fields, r, .object hspace hfields, ?_, h.lawful, h.once, h.new, h.direct, h.value, h.after, h.keys, h.nodes, h.depth⟩
      have hshort : r.length < s'.length := h.shorter
      rw [hp, List.length_cons]
      omega
    · rw [List.length_cons] at hfuel
      dsimp only
      omega

theorem typeFields_cons (k : Text) (t : Tree) (fields : List (Text × Tree)) (acc : Option Text) :
    typeFields ((k, t) :: fields) acc = typeFields fields (typeFields [(k, t)] acc) := by
  cases t <;> rfl

theorem noteType_other {value : Option Value} (h : ∀ s, value ≠ some (.string s)) (depth : Nat) (key : Text) (p : Parser) :
    noteType depth key value p = p := by
  unfold noteType
  split
  next s => exact absurd rfl (h s)
  next => rfl

theorem seen_string (t : Tree) (h : ∀ s, t ≠ .string s) (s : Text) : seen build t ≠ some (.string s) := by
  cases t with
  | string s' => exact absurd rfl (h s')
  | null => exact fun h => by cases h
  | bool b => exact fun h => by cases h
  | number l =>
    unfold seen Tree.value
    generalize l.number = o
    cases o <;> exact fun h => by cases h
  | array items =>
    unfold seen Tree.value
    generalize valueItems items = o
    cases o <;> cases build <;> exact fun h => by cases h
  | object fields =>
    unfold seen Tree.value
    generalize valueFields fields = o
    cases o <;> cases build <;> exact fun h => by cases h

theorem typeFields_other {t : Tree} (h : ∀ s, t ≠ .string s) (k : Text) (acc : Option Text) : typeFields [(k, t)] acc = acc := by
  cases t with
  | string s => exact absurd rfl (h s)
  | _ => rfl

theorem noteType_seen (depth : Nat) (key : Text) (t : Tree) (p : Parser) :
    noteType depth key (seen build t) p =
      { p with rootType := if depth = 1 then typeFields [(key, t)] p.rootType else p.rootType } := by
  by_cases ht : ∃ s, t = .string s
  · obtain ⟨s, rfl⟩ := ht
    have htype : typeFields [(key, .string s)] p.rootType = if key = typeKey then some s else p.rootType := rfl
    have hseen : seen build (.string s) = some (.string s) := rfl
    rw [htype, hseen]
    unfold noteType
    by_cases hd : depth = 1 <;> by_cases hk : key = typeKey <;> simp [hd, hk]
  · have hother : ∀ s, t ≠ .string s := fun s hs => ht ⟨s, hs⟩
    rw [noteType_other (seen_string t hother), typeFields_other hother]
    split <;> rfl

theorem members_step {fuel : Nat} (hvalue : ValueEnds limits build fuel) (hmembers : MembersEnd limits build fuel) :
    MembersEnd limits build (fuel + 1) := by
  intro depth before result p hdepth
  unfold parseMembers
  split
  next s hp =>
    refine ((parseString_ends hp).mono (fun x hx => hx) fun e he _ => he).bind ?_
    rintro ⟨key, p₁⟩ ⟨r₁, hchars, hlen₁, hp₁⟩
    dsimp only at hchars hlen₁ hp₁ ⊢
    subst hp₁
    refine Ends.ite (fun _ => Ends.error (Ended.of_some _)) fun hnew => ?_
    refine Ends.ite (fun _ => Ends.error (Ended.of_some _)) fun hdirect => ?_
    refine Ends.ite (fun _ => Ends.error (Ended.of_some _)) fun hkeys => ?_
    obtain ⟨s₂, hspace₂, hlen₂, hskip₂⟩ := skip_spec { p with rest := r₁, totalKeys := p.totalKeys + 1 }
    rw [hskip₂]
    dsimp only at hspace₂ hlen₂ hkeys ⊢
    split
    next s₃ =>
      rw [List.length_cons] at hlen₂
      obtain ⟨s₄, hspace₄, hlen₄, hskip₄⟩ := skip_spec { p with rest := s₃, totalKeys := p.totalKeys + 1 }
      rw [hskip₄]
      dsimp only at hspace₄ hlen₄ ⊢
      have hplen : p.rest.length = s.length + 1 := by rw [hp, List.length_cons]
      refine ((hvalue depth false { p with rest := s₄, totalKeys := p.totalKeys + 1 }).mono (fun x hx => hx) fun e he hfuel =>
        he (by dsimp only; omega)).bind ?_
      rintro ⟨value, p₅⟩ ⟨t, s₅, h⟩
      have hafter := h.after.trans (after_inner _ hdepth t s₅)
      have hval : value = seen build t := h.value
      have hreads : Reads s₄ t s₅ := h.reads
      have hshort : s₅.length < s₄.length := h.shorter
      have hk : p.totalKeys + 1 + t.keys ≤ limits.maxTotalKeys := h.keys (Nat.le_of_not_lt hkeys)
      have hn : p.totalNodes + t.nodes ≤ limits.maxNodes := h.nodes
      dsimp only at hafter
      obtain ⟨v, hv⟩ := lawful_value h.lawful
      subst hval hafter
      rw [noteType_seen]
      obtain ⟨s₆, hspace₆, hlen₆, hskip₆⟩ := skip_spec { p with
        rest := s₅
        totalKeys := p.totalKeys + 1 + t.keys
        totalNodes := p.totalNodes + t.nodes
        rootType := if depth = 1 then typeFields [(key, t)] p.rootType else p.rootType }
      dsimp only at hspace₆ hlen₆ hskip₆ ⊢
      rw [hskip₆]
      dsimp only
      split
      next r =>
        rw [List.length_cons] at hlen₆
        have hmembers : Members p.rest [(key, t)] r := by
          rw [hp]
          exact .last hchars hspace₂ hspace₄ hreads hspace₆
        refine Ends.ok ⟨[(key, t)], r, hmembers, by omega, ⟨h.lawful, trivial⟩, by simp, ?_, ?_, ?_, ?_, ?_, ?_, ?_⟩
        · intro k hk
          rw [List.mem_singleton.mp hk]
          simpa using hnew
        · intro _
          exact Nat.le_of_not_lt hdirect
        · cases build with
          | false => rfl
          | true =>
            rw [if_pos rfl, if_pos rfl, seen_true, valueFields, hv]
            rfl
        · simp [Parser.afterFields, keysFields, nodesFields, Nat.add_assoc]
        · intro _
          simpa [keysFields, Nat.add_assoc] using hk
        · intro _
          simpa [nodesFields] using hn
        · simpa [depthFields] using h.depth
      next s₇ =>
        rw [List.length_cons] at hlen₆
        obtain ⟨s₈, hspace₈, hlen₈, hskip₈⟩ := skip_spec { p with
          rest := s₇
          totalKeys := p.totalKeys + 1 + t.keys
          totalNodes := p.totalNodes + t.nodes
          rootType := if depth = 1 then typeFields [(key, t)] p.rootType else p.rootType }
        dsimp only at hspace₈ hlen₈ hskip₈
        rw [hskip₈]
        refine (hmembers depth _ _ _ hdepth).mono ?_ fun e he hfuel => he (by dsimp only; omega)
        rintro x ⟨fields, r, hfields, hi⟩
        have hmembers : Members p.rest ((key, t) :: fields) r := by
          rw [hp]
          exact .cons hchars hspace₂ hspace₄ hreads hspace₆ hspace₈ hfields
        have hshort' : r.length < s₈.length := hi.shorter
        obtain ⟨vs, hvs⟩ := lawful_fields hi.lawful
        refine ⟨(key, t) :: fields, r, hmembers, by omega, ⟨h.lawful, hi.lawful⟩, ?_, ?_, ?_, ?_, ?_, ?_, ?_, ?_⟩
        · exact List.nodup_cons.mpr ⟨fun hmem => hi.new key hmem (.head _), hi.once⟩
        · intro k hk
          rcases List.mem_cons.mp hk with rfl | hmem
          · simpa using hnew
          · exact fun hcontra => hi.new k hmem (.tail _ hcontra)
        · intro _
          have := hi.direct (Nat.le_of_not_lt hdirect)
          simp only [List.length_cons] at this ⊢
          omega
        · rw [hi.value]
          cases build with
          | false => rfl
          | true =>
            rw [if_pos rfl, if_pos rfl, seen_true, valueFields, hv, hvs]
            simp
        · rw [hi.after]
          unfold Parser.afterFields
          rw [typeFields_cons key t fields]
          simp only [keysFields, nodesFields, Nat.add_assoc]
          split <;> rfl
        · intro _
          have := hi.keys hk
          simpa [keysFields, Nat.add_assoc] using this
        · intro _
          have := hi.nodes hn
          simpa [nodesFields, Nat.add_assoc] using this
        · intro hmax
          have := hi.depth hmax
          have := h.depth hmax
          simp only [depthFields]
          omega
      next => exact Ends.error (Ended.of_some _)
    next => exact Ends.error (Ended.of_some _)
  next => exact Ends.error (Ended.of_some _)

theorem ended_zero {enough : Nat} (h : 0 < enough) : Ended 0 enough none := fun hle => absurd hle (by omega)

/-- **Every function of the parser is sound, and ends with the steps it needs.** -/
theorem parser_ends (fuel : Nat) :
    ValueEnds limits build fuel ∧ ArrayEnds limits build fuel ∧ ElementsEnd limits build fuel ∧
      ObjectEnds limits build fuel ∧ MembersEnd limits build fuel := by
  induction fuel with
  | zero =>
    refine ⟨fun depth root p => ?_, fun depth p s _ hp => ?_, fun depth result p _ => ?_, fun depth p s _ hp => ?_,
      fun depth before result p _ => ?_⟩
    · unfold parseValue
      exact Ends.error (ended_zero (Nat.succ_pos _))
    · unfold parseArray
      exact Ends.error (ended_zero (by rw [hp, List.length_cons]; omega))
    · unfold parseElements
      exact Ends.error (ended_zero (Nat.succ_pos _))
    · unfold parseObject
      exact Ends.error (ended_zero (by rw [hp, List.length_cons]; omega))
    · unfold parseMembers
      exact Ends.error (ended_zero (Nat.succ_pos _))
  | succ fuel ih =>
    obtain ⟨hvalue, harray, helements, hobject, hmembers⟩ := ih
    exact ⟨value_step harray hobject, array_step helements, elements_step hvalue helements, object_step hmembers,
      members_step hvalue hmembers⟩

/-- **A document that is parsed is one of the grammar.** -/
theorem parseDocument_ends (source : Text) :
    Ends (parseDocument limits build source)
      (fun x => ∃ t, Document source t ∧ Lawful limits.maxDirectKeys t ∧ t.keys ≤ limits.maxTotalKeys ∧
        t.nodes ≤ limits.maxNodes ∧ t.depth ≤ limits.maxDepth ∧ x.1 = seen build t ∧
        x.2 = { rest := [], totalKeys := t.keys, totalNodes := t.nodes, rootType := typeOf t none, rootIsObject := isObject t })
      (· ≠ none) := by
  obtain ⟨s₁, hspace, hlen, hskip⟩ := skip_spec { rest := source }
  unfold parseDocument
  dsimp only at hspace hlen ⊢
  rw [hskip]
  refine Ends.ite (fun _ => Ends.error (by simp [fail])) fun _ => ?_
  refine (((parser_ends (steps source)).1 0 true { rest := s₁ }).mono (fun x hx => hx) fun e he => he ?_).bind ?_
  · unfold steps
    dsimp only
    omega
  · rintro ⟨value, p⟩ ⟨t, s₂, h⟩
    have hafter : p = Parser.after { rest := s₁ } 0 true t s₂ := h.after
    obtain ⟨s₃, hspace', -, hskip'⟩ := skip_spec p
    dsimp only
    rw [hskip']
    refine Ends.ite (fun hnil => ?_) fun _ => Ends.error (by simp [fail])
    dsimp only at hnil
    rw [hafter] at hspace'
    rw [hnil] at hspace'
    refine Ends.ok ⟨t, ⟨s₁, s₂, hspace, h.reads, hspace'⟩, h.lawful, ?_, ?_, ?_, h.value, ?_⟩
    · simpa using h.keys (Nat.zero_le _)
    · simpa using h.nodes
    · simpa using h.depth (Nat.zero_le _)
    · dsimp only
      rw [hafter, hnil]
      simp [Parser.after]

end Strict
end TmuxWorktree
