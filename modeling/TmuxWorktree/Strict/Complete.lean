import TmuxWorktree.Strict.Sound
/-!
# Complete — what the grammar reads, the parser parses

The other direction, one statement and one lemma for each function as before: a value that is within the limits is
parsed, and leaves the parser where the grammar says.
-/
namespace TmuxWorktree
namespace Strict

open Utf16 Grammar

/-! ## First characters -/

theorem numberEnd_cons {c : CodeUnit} (h : (isDigit c = false ∧ c.val ≠ 0x2E ∧ c.val ≠ 0x65 ∧ c.val ≠ 0x45)) (r : Text) :
    NumberEnd (c :: r) := by
  intro d hd
  cases hd
  exact h

theorem noSpace_cons {c : CodeUnit} (h : isSpace c = false) (r : Text) : NoSpace (c :: r) := by
  intro d hd
  cases hd
  exact h

theorem space_numberEnd {c : CodeUnit} (h : isSpace c = true) :
    isDigit c = false ∧ c.val ≠ 0x2E ∧ c.val ≠ 0x65 ∧ c.val ≠ 0x45 := by
  simp only [isSpace, Bool.or_eq_true, decide_eq_true_eq] at h
  refine ⟨?_, by omega, by omega, by omega⟩
  simp only [isDigit, Bool.and_eq_false_iff, decide_eq_false_iff_not]
  omega

theorem numberEnd_of_space {s r : Text} (h : Space s r) (hr : NumberEnd r) : NumberEnd s := by
  cases h with
  | nil => exact hr
  | cons hc => exact numberEnd_cons (space_numberEnd hc) _

theorem number_first {s r : Text} {l : Literal} (h : Number s l r) {c : CodeUnit} {s' : Text} (hs : s = c :: s') :
    isDigit c = true ∨ c = 0x2D := by
  obtain ⟨d, t, hd, hfirst⟩ := number_head h
  rw [hd] at hs
  cases hs
  exact hfirst

theorem reads_head {s r : Text} {t : Tree} (h : Reads s t r) :
    ∃ c s', s = c :: s' ∧ isSpace c = false ∧ c ≠ 0x5D := by
  cases h with
  | number hn =>
    obtain ⟨c, s', hs, hc⟩ := number_head hn
    refine ⟨c, s', hs, ?_, ?_⟩
    · rcases hc with hc | rfl
      · by_contra hspace
        have := (space_numberEnd (by simpa using hspace)).1
        rw [hc] at this
        cases this
      · rfl
    · rintro rfl
      rcases hc with hc | hc <;> exact absurd hc (by decide)
  | null => exact ⟨_, _, rfl, rfl, by decide⟩
  | «true» => exact ⟨_, _, rfl, rfl, by decide⟩
  | «false» => exact ⟨_, _, rfl, rfl, by decide⟩
  | string => exact ⟨_, _, rfl, rfl, by decide⟩
  | noItems => exact ⟨_, _, rfl, rfl, by decide⟩
  | array => exact ⟨_, _, rfl, rfl, by decide⟩
  | noFields => exact ⟨_, _, rfl, rfl, by decide⟩
  | object => exact ⟨_, _, rfl, rfl, by decide⟩

theorem elements_head {s r : Text} {items : List Tree} (h : Elements s items r) :
    ∃ c s', s = c :: s' ∧ isSpace c = false ∧ c ≠ 0x5D := by
  cases h with
  | last ht => exact reads_head ht
  | cons ht => exact reads_head ht

theorem members_head {s r : Text} {fields : List (Text × Tree)} (h : Members s fields r) : ∃ s', s = 0x22 :: s' := by
  cases h with
  | last => exact ⟨_, rfl⟩
  | cons => exact ⟨_, rfl⟩

/-! ## Lengths -/

theorem chars_shorter {s t r : Text} (h : Chars s t r) : r.length < s.length := by
  induction h with
  | close r => exact Nat.lt_succ_self _
  | plain _ _ ih => exact Nat.lt_succ_of_lt ih
  | escape _ _ ih =>
    simp only [List.length_cons]
    omega
  | unicode _ _ ih =>
    simp only [List.length_cons]
    omega

theorem number_shorter {s r : Text} {l : Literal} (h : Number s l r) : r.length < s.length := by
  obtain ⟨s₁, s₂, s₃, hminus, hwhole, hfraction, hexponent⟩ := h
  have h₁ : s₁.length ≤ s.length := by
    generalize l.negative = b at hminus
    cases hminus with
    | plus => exact Nat.le_refl _
    | minus => exact Nat.le_succ _
  have h₂ : s₂.length < s₁.length := by
    generalize l.whole = w at hwhole
    cases hwhole with
    | zero => exact Nat.lt_succ_self _
    | digits =>
      simp only [List.length_append, List.length_cons]
      omega
  have h₃ : s₃.length ≤ s₂.length := by
    generalize l.fraction = f at hfraction
    cases hfraction with
    | none => exact Nat.le_refl _
    | some =>
      simp only [List.length_append, List.length_cons]
      omega
  have h₄ : r.length ≤ s₃.length := by
    generalize l.exponent = e at hexponent
    cases hexponent with
    | none => exact Nat.le_refl _
    | @some e s ds _ _ _ hsign =>
      have : (ds ++ r).length ≤ s.length := by
        cases hsign with
        | none => exact Nat.le_refl _
        | plus => exact Nat.le_succ _
        | minus => exact Nat.le_succ _
      rw [List.length_append] at this
      rw [List.length_cons]
      omega
  omega

mutual

theorem reads_shorter : ∀ {s : Text} {t : Tree} {r : Text}, Reads s t r → r.length < s.length
  | _, _, _, .null r => by simp only [List.length_cons]; omega
  | _, _, _, .true r => by simp only [List.length_cons]; omega
  | _, _, _, .false r => by simp only [List.length_cons]; omega
  | _, _, _, .number h => number_shorter h
  | _, _, _, .string h => Nat.lt_succ_of_lt (chars_shorter h)
  | _, _, _, .noItems h => Nat.lt_succ_of_le (Nat.le_of_succ_le (space_length h))
  | _, _, _, .array hs h => Nat.lt_succ_of_lt (Nat.lt_of_lt_of_le (elements_shorter h) (space_length hs))
  | _, _, _, .noFields h => Nat.lt_succ_of_le (Nat.le_of_succ_le (space_length h))
  | _, _, _, .object hs h => Nat.lt_succ_of_lt (Nat.lt_of_lt_of_le (members_shorter h) (space_length hs))

theorem elements_shorter : ∀ {s : Text} {items : List Tree} {r : Text}, Elements s items r → r.length < s.length
  | _, _, _, .last ht hs => by
    have := reads_shorter ht
    have := space_length hs
    simp only [List.length_cons] at this
    omega
  | _, _, _, .cons ht hs hs' h => by
    have := reads_shorter ht
    have := space_length hs
    have := space_length hs'
    have := elements_shorter h
    simp only [List.length_cons] at *
    omega

theorem members_shorter : ∀ {s : Text} {fields : List (Text × Tree)} {r : Text}, Members s fields r → r.length < s.length
  | _, _, _, .last hk hc hs ht he => by
    have := chars_shorter hk
    have := space_length hc
    have := space_length hs
    have := reads_shorter ht
    have := space_length he
    simp only [List.length_cons] at *
    omega
  | _, _, _, .cons hk hc hs ht he hs' h => by
    have := chars_shorter hk
    have := space_length hc
    have := space_length hs
    have := reads_shorter ht
    have := space_length he
    have := space_length hs'
    have := members_shorter h
    simp only [List.length_cons] at *
    omega

end

/-! ## What is taken -/

section
variable (limits : Limits) (build : Bool)

def ValueTaken (fuel : Nat) : Prop := ∀ depth root p t r, Reads p.rest t r → NumberEnd r → Lawful limits.maxDirectKeys t →
  p.totalKeys + t.keys ≤ limits.maxTotalKeys → p.totalNodes + t.nodes ≤ limits.maxNodes →
  depth + t.depth ≤ limits.maxDepth → 3 * p.rest.length + 1 ≤ fuel →
  parseValue limits build fuel depth root p = .ok (seen build t, p.after depth root t r)

def ArrayTaken (fuel : Nat) : Prop := ∀ depth p items r, depth ≠ 0 → Reads p.rest (.array items) r →
  lawfulItems limits.maxDirectKeys items → p.totalKeys + keysItems items ≤ limits.maxTotalKeys →
  p.totalNodes + nodesItems items ≤ limits.maxNodes → depth + depthItems items ≤ limits.maxDepth →
  3 * p.rest.length ≤ fuel →
  parseArray limits build fuel depth p = .ok (seen build (.array items), p.afterItems items r)

def ElementsTaken (fuel : Nat) : Prop := ∀ depth result p items r, depth ≠ 0 → Elements p.rest items r →
  lawfulItems limits.maxDirectKeys items → p.totalKeys + keysItems items ≤ limits.maxTotalKeys →
  p.totalNodes + nodesItems items ≤ limits.maxNodes → depth + depthItems items ≤ limits.maxDepth →
  3 * p.rest.length + 2 ≤ fuel →
  parseElements limits build fuel depth result p =
    .ok (if build then (valueItems items).map fun vs => .array (result ++ vs) else none, p.afterItems items r)

def ObjectTaken (fuel : Nat) : Prop := ∀ depth p fields r, depth ≠ 0 → Reads p.rest (.object fields) r →
  Lawful limits.maxDirectKeys (.object fields) → p.totalKeys + keysFields fields ≤ limits.maxTotalKeys →
  p.totalNodes + nodesFields fields ≤ limits.maxNodes → depth + depthFields fields ≤ limits.maxDepth →
  3 * p.rest.length ≤ fuel →
  parseObject limits build fuel depth p = .ok (seen build (.object fields), p.afterFields depth fields r)

def MembersTaken (fuel : Nat) : Prop := ∀ depth before result p fields r, depth ≠ 0 → Members p.rest fields r →
  (fields.map Prod.fst).Nodup → (∀ k ∈ fields.map Prod.fst, k ∉ before) →
  before.length + fields.length ≤ limits.maxDirectKeys → lawfulFields limits.maxDirectKeys fields →
  p.totalKeys + keysFields fields ≤ limits.maxTotalKeys → p.totalNodes + nodesFields fields ≤ limits.maxNodes →
  depth + depthFields fields ≤ limits.maxDepth → 3 * p.rest.length + 2 ≤ fuel →
  parseMembers limits build fuel depth before result p =
    .ok (if build then (valueFields fields).map fun vs => .object (result ++ vs) else none, p.afterFields depth fields r)

end

variable {limits : Limits} {build : Bool}

theorem parseString_taken {p : Parser} {s t r : Text} (hp : p.rest = 0x22 :: s) (h : Chars s t r) :
    parseString p = .ok (t, { p with rest := r }) := by
  obtain ⟨body, hscan, hun⟩ := scanString_complete h
  unfold parseString
  rw [hp, List.drop_one, List.tail_cons, hscan]
  dsimp only
  rw [hun]

theorem parseString_value {p : Parser} {s t r : Text} (hp : p.rest = 0x22 :: s) (h : Chars s t r) :
    (do
      let (s, p) ← parseString p
      return (some (Value.string s), p)) = .ok (some (.string t), { p with rest := r }) := by
  rw [parseString_taken hp h]
  rfl

theorem parseNumber_taken {p : Parser} {l : Literal} {r : Text} (h : Number p.rest l r) (hr : NumberEnd r) (hl : Allowed l) :
    parseNumber p = .ok (l.number.map .number, { p with rest := r }) := by
  obtain ⟨d, hd⟩ := allowed_number hl
  unfold parseNumber
  rw [matchNumber_complete h hr]
  dsimp only
  have hsafe : (l.isInteger && decide (maxSafeInteger < l.significand)) = false := by
    unfold Allowed at hl
    split at hl
    next hinteger => simpa [hinteger] using hl
    next hinteger => simp [hinteger]
  rw [hsafe, hd]
  rfl

theorem parseLiteral_taken (text : Text) (value : Value) {p : Parser} {r : Text} (hp : p.rest = text ++ r) :
    parseLiteral text value p = .ok (some value, { p with rest := r }) := by
  unfold parseLiteral
  rw [hp, List.take_left, if_pos rfl, List.drop_left]

theorem reads_array {s r : Text} {items : List Tree} (h : Reads s (.array items) r) : ∃ s', s = 0x5B :: s' := by
  cases h with
  | noItems => exact ⟨_, rfl⟩
  | array => exact ⟨_, rfl⟩

theorem reads_object {s r : Text} {fields : List (Text × Tree)} (h : Reads s (.object fields) r) : ∃ s', s = 0x7B :: s' := by
  cases h with
  | noFields => exact ⟨_, rfl⟩
  | object => exact ⟨_, rfl⟩

theorem value_taken {fuel : Nat} (harray : ArrayTaken limits build fuel) (hobject : ObjectTaken limits build fuel) :
    ValueTaken limits build (fuel + 1) := by
  intro depth root p t r hreads hend hlawful hkeys hnodes hdepth hfuel
  have hone : ¬ limits.maxNodes < p.totalNodes + 1 := by
    have : 1 ≤ t.nodes := by cases t <;> simp [Tree.nodes]
    omega
  unfold parseValue
  dsimp only
  rw [if_neg hone]
  rcases p with ⟨s, keys, nodes, rootType, rootIsObject⟩
  dsimp only at hreads hkeys hnodes hfuel ⊢
  cases t with
  | null =>
    cases hreads
    change parseLiteral nullText .null ⟨_, keys, nodes + 1, rootType, rootIsObject⟩ = _
    rw [parseLiteral_taken nullText .null rfl]
    simp [seen, Tree.value, Parser.after, Tree.keys, Tree.nodes, typeOf, isObject]
  | bool b =>
    cases hreads with
    | «true» =>
      change parseLiteral trueText (.bool true) ⟨_, keys, nodes + 1, rootType, rootIsObject⟩ = _
      rw [parseLiteral_taken trueText (.bool true) rfl]
      simp [seen, Tree.value, Parser.after, Tree.keys, Tree.nodes, typeOf, isObject]
    | «false» =>
      change parseLiteral falseText (.bool false) ⟨_, keys, nodes + 1, rootType, rootIsObject⟩ = _
      rw [parseLiteral_taken falseText (.bool false) rfl]
      simp [seen, Tree.value, Parser.after, Tree.keys, Tree.nodes, typeOf, isObject]
  | string text =>
    cases hreads with
    | string h =>
      refine (parseString_value (p := ⟨_, keys, nodes + 1, rootType, rootIsObject⟩) rfl h).trans ?_
      simp [seen, Tree.value, Parser.after, Tree.keys, Tree.nodes, typeOf, isObject]
  | number l =>
    have hnumber : Number s l r := by
      cases hreads with
      | number h => exact h
    have hfirst {c : CodeUnit} {s' : Text} (hc : (isDigit c = true ∨ c = 0x2D) → False) (hs : s = c :: s') : False :=
      hc (number_first hnumber hs)
    split
    next => exact absurd rfl (hfirst (by decide))
    next => exact absurd rfl (hfirst (by decide))
    next => exact absurd rfl (hfirst (by decide))
    next => exact absurd rfl (hfirst (by decide))
    next => exact absurd rfl (hfirst (by decide))
    next => exact absurd rfl (hfirst (by decide))
    next =>
      rw [parseNumber_taken (p := ⟨s, keys, nodes + 1, rootType, rootIsObject⟩) hnumber hend hlawful]
      simp only [seen, Tree.value, Parser.after, Tree.keys, Tree.nodes, typeOf, isObject, ite_self, Nat.add_zero,
        Bool.and_false, Bool.or_false]
  | array items =>
    obtain ⟨s', rfl⟩ := reads_array hreads
    simp only [Tree.keys, Tree.nodes, Tree.depth] at hkeys hnodes hdepth
    change (if limits.maxDepth < depth + 1 then fail .jsonDepthLimit
      else parseArray limits build fuel (depth + 1) ⟨_, keys, nodes + 1, rootType, rootIsObject⟩) = _
    rw [if_neg (by omega), harray (depth + 1) ⟨_, keys, nodes + 1, rootType, rootIsObject⟩ items r (Nat.succ_ne_zero depth) hreads
      hlawful hkeys (by dsimp only; omega) (by omega) (by dsimp only; omega)]
    simp [Parser.after, Parser.afterItems, Tree.keys, Tree.nodes, typeOf, isObject, Nat.add_assoc]
  | object fields =>
    obtain ⟨s', rfl⟩ := reads_object hreads
    simp only [Tree.keys, Tree.nodes, Tree.depth] at hkeys hnodes hdepth
    change (if limits.maxDepth < depth + 1 then fail .jsonDepthLimit
      else parseObject limits build fuel (depth + 1) ⟨_, keys, nodes + 1, rootType, rootIsObject || root⟩) = _
    rw [if_neg (by omega), hobject (depth + 1) ⟨_, keys, nodes + 1, rootType, rootIsObject || root⟩ fields r
      (Nat.succ_ne_zero depth) hreads hlawful hkeys (by dsimp only; omega) (by omega) (by dsimp only; omega)]
    simp [Parser.after, Parser.afterFields, Tree.keys, Tree.nodes, typeOf, isObject, Nat.add_assoc]

theorem skip_taken {p : Parser} {r : Text} (h : Space p.rest r) (hr : NoSpace r) : skipWhitespace p = { p with rest := r } := by
  unfold skipWhitespace
  rw [dropWhile_space h hr]

theorem array_taken {fuel : Nat} (helements : ElementsTaken limits build fuel) : ArrayTaken limits build (fuel + 1) := by
  intro depth p items r hdepth hreads hlawful hkeys hnodes hdepths hfuel
  rcases p with ⟨s, keys, nodes, rootType, rootIsObject⟩
  dsimp only at hreads hkeys hnodes hfuel
  unfold parseArray
  cases hreads with
  | noItems h =>
    dsimp only
    rw [List.drop_one, List.tail_cons, skip_taken (p := ⟨_, keys, nodes, rootType, rootIsObject⟩) h (noSpace_cons rfl r)]
    rfl
  | @array s s' _ _ hspace h =>
    obtain ⟨c, s'', rfl, hc, hbracket⟩ := elements_head h
    have hlen := space_length hspace
    rw [List.length_cons] at hfuel
    dsimp only
    rw [List.drop_one, List.tail_cons, skip_taken (p := ⟨_, keys, nodes, rootType, rootIsObject⟩) hspace (noSpace_cons hc s'')]
    dsimp only
    split
    next heq => exact absurd (List.cons.inj heq).1 hbracket
    next =>
      rw [helements depth [] ⟨c :: s'', keys, nodes, rootType, rootIsObject⟩ items r hdepth h hlawful hkeys hnodes hdepths
        (by dsimp only; omega)]
      rfl

theorem elements_taken {fuel : Nat} (hvalue : ValueTaken limits build fuel) (helements : ElementsTaken limits build fuel) :
    ElementsTaken limits build (fuel + 1) := by
  intro depth result p items r hdepth hreads hlawful hkeys hnodes hdepths hfuel
  rcases p with ⟨s, keys, nodes, rootType, rootIsObject⟩
  dsimp only at hreads hkeys hnodes hfuel
  obtain ⟨c, s', rfl, -, -⟩ := elements_head hreads
  unfold parseElements
  dsimp only
  cases hreads with
  | @last _ t s₁ _ ht hspace =>
    simp only [keysItems, nodesItems, depthItems, Nat.add_zero, Nat.max_zero] at hkeys hnodes hdepths
    obtain ⟨v, hv⟩ := lawful_value hlawful.1
    rw [hvalue depth false ⟨c :: s', keys, nodes, rootType, rootIsObject⟩ t s₁ ht
      (numberEnd_of_space hspace (numberEnd_cons (by decide) r)) hlawful.1 hkeys hnodes hdepths (by dsimp only; omega),
      after_inner _ hdepth]
    dsimp only [bind, Except.bind]
    rw [skip_taken (r := 0x5D :: r) hspace (noSpace_cons rfl r)]
    change Except.ok _ = _
    congr 2
    cases build with
    | false => rfl
    | true =>
      rw [if_pos rfl, if_pos rfl, seen_true, valueItems, hv]
      rfl
  | @cons _ t s₁ s₂ s₃ items _ ht hspace hspace' h =>
    simp only [keysItems, nodesItems, depthItems] at hkeys hnodes hdepths
    obtain ⟨v, hv⟩ := lawful_value hlawful.1
    obtain ⟨vs, hvs⟩ := lawful_items hlawful.2
    obtain ⟨c', s₃', rfl, hc', -⟩ := elements_head h
    have hlen := space_length hspace
    have hlen' := space_length hspace'
    have hshort := reads_shorter ht
    rw [List.length_cons] at hlen
    rw [hvalue depth false ⟨c :: s', keys, nodes, rootType, rootIsObject⟩ t s₁ ht
      (numberEnd_of_space hspace (numberEnd_cons (by decide) s₂)) hlawful.1 (by dsimp only; omega) (by dsimp only; omega)
      (by omega) (by dsimp only; omega), after_inner _ hdepth]
    dsimp only [bind, Except.bind]
    rw [skip_taken (r := 0x2C :: s₂) hspace (noSpace_cons rfl s₂)]
    change parseElements limits build fuel depth _ (skipWhitespace ⟨s₂, keys + t.keys, nodes + t.nodes, rootType, rootIsObject⟩) = _
    rw [skip_taken (r := c' :: s₃') hspace' (noSpace_cons hc' s₃'), helements depth _ _ items r hdepth h hlawful.2
      (by dsimp only; omega) (by dsimp only; omega) (by omega) (by dsimp only; omega)]
    congr 2
    · cases build with
      | false => rfl
      | true =>
        rw [if_pos rfl, if_pos rfl, seen_true, valueItems, hv, hvs]
        simp
    · simp [Parser.afterItems, keysItems, nodesItems, Nat.add_assoc]

theorem object_taken {fuel : Nat} (hmembers : MembersTaken limits build fuel) : ObjectTaken limits build (fuel + 1) := by
  intro depth p fields r hdepth hreads hlawful hkeys hnodes hdepths hfuel
  rcases p with ⟨s, keys, nodes, rootType, rootIsObject⟩
  dsimp only at hreads hkeys hnodes hfuel
  unfold parseObject
  cases hreads with
  | noFields h =>
    dsimp only
    rw [List.drop_one, List.tail_cons, skip_taken (p := ⟨_, keys, nodes, rootType, rootIsObject⟩) h (noSpace_cons rfl r)]
    change Except.ok _ = _
    congr 2
    simp [Parser.afterFields, keysFields, nodesFields, typeFields]
  | @object s s' _ _ hspace h =>
    obtain ⟨s'', rfl⟩ := members_head h
    have hlen := space_length hspace
    rw [List.length_cons] at hfuel
    dsimp only
    rw [List.drop_one, List.tail_cons, skip_taken (p := ⟨_, keys, nodes, rootType, rootIsObject⟩) hspace (noSpace_cons rfl s'')]
    change parseMembers limits build fuel depth [] [] ⟨0x22 :: s'', keys, nodes, rootType, rootIsObject⟩ = _
    rw [hmembers depth [] [] ⟨0x22 :: s'', keys, nodes, rootType, rootIsObject⟩ fields r hdepth h hlawful.1
      (fun _ _ => List.not_mem_nil) (by simpa using hlawful.2.1) hlawful.2.2 hkeys hnodes hdepths (by dsimp only; omega)]
    rfl

theorem member_taken {fuel : Nat} (hvalue : ValueTaken limits build fuel) {depth : Nat} (hdepth : depth ≠ 0)
    {before : List Text} {result : List (Text × Value)} {s key s₁ s₂ s₃ s₄ s₅ : Text} {t : Tree} {c : CodeUnit} {keys nodes : Nat}
    {rootType : Option Text} {rootIsObject : Bool} (hk : Chars s key s₁) (hc : Space s₁ (0x3A :: s₂)) (hs : Space s₂ s₃)
    (ht : Reads s₃ t s₄) (he : Space s₄ (c :: s₅)) (hend : NumberEnd (c :: s₅)) (hspace : isSpace c = false)
    (hnew : key ∉ before) (hdirect : before.length + 1 ≤ limits.maxDirectKeys) (hlawful : Lawful limits.maxDirectKeys t)
    (hkeys : keys + 1 + t.keys ≤ limits.maxTotalKeys) (hnodes : nodes + t.nodes ≤ limits.maxNodes)
    (hdepths : depth + t.depth ≤ limits.maxDepth) (hfuel : 3 * s.length + 1 ≤ fuel) :
    parseMembers limits build (fuel + 1) depth before result ⟨0x22 :: s, keys, nodes, rootType, rootIsObject⟩ =
      let result := result ++ ((seen build t).map (key, ·)).toList
      let p (rest : Text) : Parser := ⟨rest, keys + 1 + t.keys, nodes + t.nodes,
        if depth = 1 then typeFields [(key, t)] rootType else rootType, rootIsObject⟩
      match c :: s₅ with
      | 0x7D :: rest => .ok (if build then some (.object result) else none, p rest)
      | 0x2C :: rest => parseMembers limits build fuel depth (key :: before) result (skipWhitespace (p rest))
      | _ => fail .malformedJson := by
  obtain ⟨d, s₃', rfl, hd, -⟩ := reads_head ht
  have hlen₁ := chars_shorter hk
  have hlen₂ := space_length hc
  have hlen₃ := space_length hs
  rw [List.length_cons] at hlen₂
  rw [parseMembers]
  split
  next tail heq =>
    rw [parseString_taken rfl hk]
    dsimp only [bind, Except.bind]
    rw [if_neg (by simpa using hnew), if_neg (by omega), if_neg (by omega), skip_taken (r := 0x3A :: s₂) hc (noSpace_cons rfl s₂)]
    dsimp only
    split
    next rest heq' =>
      obtain ⟨-, rfl⟩ := List.cons.inj heq'
      rw [skip_taken (r := d :: s₃') hs (noSpace_cons hd s₃')]
      dsimp only
      rw [hvalue depth false ⟨d :: s₃', keys + 1, nodes, rootType, rootIsObject⟩ t s₄ ht (numberEnd_of_space he hend) hlawful hkeys
        hnodes hdepths (by dsimp only; omega), after_inner _ hdepth]
      dsimp only
      rw [noteType_seen, skip_taken (r := c :: s₅) he (noSpace_cons hspace s₅)]
      rfl
    next hcontra => exact absurd rfl (hcontra s₂)
  next hcontra => exact absurd rfl (hcontra s)

theorem members_taken {fuel : Nat} (hvalue : ValueTaken limits build fuel) (hmembers : MembersTaken limits build fuel) :
    MembersTaken limits build (fuel + 1) := by
  intro depth before result p fields r hdepth hreads honce hnew hdirect hlawful hkeys hnodes hdepths hfuel
  rcases p with ⟨s, keys, nodes, rootType, rootIsObject⟩
  dsimp only at hreads hkeys hnodes hfuel
  cases hreads with
  | @last s key s₁ s₂ s₃ t s₄ _ hk hc hs ht he =>
    simp only [keysFields, nodesFields, depthFields, List.length_cons, List.length_nil] at hkeys hnodes hdepths hdirect hfuel
    obtain ⟨v, hv⟩ := lawful_value hlawful.1
    rw [member_taken hvalue hdepth hk hc hs ht he (numberEnd_cons (by decide) r) rfl (hnew key (.head _)) hdirect hlawful.1
      (by omega) (by omega) (by omega) (by omega)]
    change Except.ok _ = _
    congr 2
    · cases build with
      | false => rfl
      | true =>
        rw [if_pos rfl, if_pos rfl, seen_true, valueFields, hv]
        rfl
    · simp [Parser.afterFields, keysFields, nodesFields, Nat.add_assoc]
  | @cons s key s₁ s₂ s₃ t s₄ s₅ s₆ fields _ hk hc hs ht he hs' h =>
    simp only [keysFields, nodesFields, depthFields, List.length_cons] at hkeys hnodes hdepths hdirect hfuel
    obtain ⟨v, hv⟩ := lawful_value hlawful.1
    obtain ⟨vs, hvs⟩ := lawful_fields hlawful.2
    obtain ⟨s₇, rfl⟩ := members_head h
    have hlen₁ := chars_shorter hk
    have hlen₂ := space_length hc
    have hlen₃ := space_length hs
    have hlen₄ := reads_shorter ht
    have hlen₅ := space_length he
    have hlen₆ := space_length hs'
    rw [List.length_cons] at hlen₂ hlen₅
    obtain ⟨hfresh, honce'⟩ := List.nodup_cons.mp honce
    rw [member_taken hvalue hdepth hk hc hs ht he (numberEnd_cons (by decide) s₅) rfl (hnew key (.head _)) (by omega) hlawful.1
      (by omega) (by omega) (by omega) (by omega)]
    change parseMembers limits build fuel depth (key :: before) _ (skipWhitespace ⟨s₅, _, _, _, _⟩) = _
    rw [skip_taken (r := 0x22 :: s₇) hs' (noSpace_cons rfl s₇), hmembers depth _ _ _ fields r hdepth h honce' ?_
      (by simp only [List.length_cons]; omega) hlawful.2 (by dsimp only; omega) (by dsimp only; omega) (by omega)
      (by dsimp only; omega)]
    · congr 2
      · cases build with
        | false => rfl
        | true =>
          rw [if_pos rfl, if_pos rfl, seen_true, valueFields, hv, hvs]
          simp
      · unfold Parser.afterFields
        rw [typeFields_cons key t fields]
        simp only [keysFields, nodesFields, Nat.add_assoc]
        split <;> rfl
    · intro k hk' hcontra
      rcases List.mem_cons.mp hcontra with rfl | hmem
      · exact hfresh hk'
      · exact hnew k (.tail _ hk') hmem

/-- **Every function of the parser takes what the grammar reads.** -/
theorem parser_takes (fuel : Nat) :
    ValueTaken limits build fuel ∧ ArrayTaken limits build fuel ∧ ElementsTaken limits build fuel ∧
      ObjectTaken limits build fuel ∧ MembersTaken limits build fuel := by
  induction fuel with
  | zero =>
    refine ⟨fun depth root p t r _ _ _ _ _ _ hfuel => ?_, fun depth p items r _ h _ _ _ _ hfuel => ?_,
      fun depth result p items r _ _ _ _ _ _ hfuel => ?_, fun depth p fields r _ h _ _ _ _ hfuel => ?_,
      fun depth before result p fields r _ _ _ _ _ _ _ _ _ hfuel => ?_⟩
    · omega
    · have := reads_shorter h
      omega
    · omega
    · have := reads_shorter h
      omega
    · omega
  | succ fuel ih =>
    obtain ⟨hvalue, harray, helements, hobject, hmembers⟩ := ih
    exact ⟨value_taken harray hobject, array_taken helements, elements_taken hvalue helements, object_taken hmembers,
      members_taken hvalue hmembers⟩

/-- **A document of the grammar that is within the limits is parsed.** -/
theorem parseDocument_taken {source : Text} {t : Tree} (h : Document source t) (hlawful : Lawful limits.maxDirectKeys t)
    (hkeys : t.keys ≤ limits.maxTotalKeys) (hnodes : t.nodes ≤ limits.maxNodes) (hdepth : t.depth ≤ limits.maxDepth) :
    parseDocument limits build source = .ok (seen build t,
      { rest := [], totalKeys := t.keys, totalNodes := t.nodes, rootType := typeOf t none, rootIsObject := isObject t }) := by
  obtain ⟨s₁, s₂, hspace, hreads, hspace'⟩ := h
  obtain ⟨c, s', rfl, hc, -⟩ := reads_head hreads
  have hlen := space_length hspace
  have hend : NumberEnd s₂ := numberEnd_of_space hspace' fun c hc => by cases hc
  unfold parseDocument
  rw [skip_taken (p := { rest := source }) hspace (noSpace_cons hc s')]
  dsimp only
  rw [if_neg (by simp), (parser_takes (steps source)).1 0 true { rest := c :: s' } t s₂ hreads hend hlawful (by simpa using hkeys)
    (by simpa using hnodes) (by simpa using hdepth) (by unfold steps; dsimp only; omega)]
  dsimp only [bind, Except.bind]
  rw [skip_taken (r := []) hspace' fun c hc => by cases hc]
  dsimp only
  rw [if_pos rfl]
  simp [Parser.after]

/-! ## Exactly the grammar -/

/-- **The limits on a document**, and what is demanded of its keys and its numbers. -/
structure Within (limits : Limits) (t : Tree) : Prop where
  depth : t.depth ≤ limits.maxDepth
  keys : t.keys ≤ limits.maxTotalKeys
  nodes : t.nodes ≤ limits.maxNodes
  lawful : Lawful limits.maxDirectKeys t

theorem typeFields_absent : ∀ {fields : List (Text × Tree)} (acc : Option Text), typeKey ∉ fields.map Prod.fst →
    typeFields fields acc = acc
  | [], _, _ => rfl
  | (k, t) :: fields, acc, h => by
    have hk : k ≠ typeKey := fun hk => h (by rw [hk]; exact .head _)
    have hfirst : typeFields [(k, t)] acc = acc := by
      cases t with
      | string s => exact if_neg hk
      | _ => rfl
    rw [typeFields_cons, hfirst]
    exact typeFields_absent acc fun hmem => h (.tail _ hmem)

theorem typeFields_iff : ∀ {fields : List (Text × Tree)}, (fields.map Prod.fst).Nodup → ∀ s : Text,
    typeFields fields none = some s ↔ (typeKey, .string s) ∈ fields
  | [], _, s => by simp [typeFields]
  | (k, t) :: fields, h, s => by
    obtain ⟨hfresh, honce⟩ := List.nodup_cons.mp h
    rw [typeFields_cons]
    by_cases hk : k = typeKey
    · subst hk
      have hrest : (typeKey, .string s) ∉ fields := fun hmem => hfresh (List.mem_map.mpr ⟨_, hmem, rfl⟩)
      rw [typeFields_absent _ hfresh, List.mem_cons, or_iff_left hrest]
      cases t <;> simp [typeFields, eq_comm]
    · have hfirst : typeFields [(k, t)] none = none := by
        cases t with
        | string s => exact if_neg hk
        | _ => rfl
      rw [hfirst, typeFields_iff honce s, List.mem_cons, or_iff_right]
      intro heq
      exact hk (Prod.mk.inj heq).1.symm

/-- **What is inspected.** -/
theorem inspect_iff (source : Text) (limits : Limits) (i : Inspection) :
    inspectRelayV2Json source limits = .ok i ↔
      ∃ t, Document source t ∧ Within limits t ∧ i = ⟨isObject t, typeOf t none, t.keys, t.nodes⟩ := by
  constructor
  · intro h
    unfold inspectRelayV2Json at h
    cases hparse : parseDocument limits false source with
    | error e =>
      rw [hparse] at h
      cases h
    | ok x =>
      obtain ⟨t, hdoc, hlawful, hkeys, hnodes, hdepth, -, hafter⟩ := (parseDocument_ends source).value hparse
      rw [hparse] at h
      refine ⟨t, hdoc, ⟨hdepth, hkeys, hnodes, hlawful⟩, ?_⟩
      have hi : (⟨x.2.rootIsObject, x.2.rootType, x.2.totalKeys, x.2.totalNodes⟩ : Inspection) = i := Except.ok.inj h
      rw [← hi, hafter]
  · rintro ⟨t, hdoc, hwithin, rfl⟩
    unfold inspectRelayV2Json
    rw [parseDocument_taken hdoc hwithin.lawful hwithin.keys hwithin.nodes hwithin.depth]
    rfl

theorem parse_iff (source : Text) (limits : Limits) (fields : List (Text × Value)) :
    parseRelayV2JsonObject source limits = .ok fields ↔
      ∃ members, Document source (.object members) ∧ Within limits (.object members) ∧ valueFields members = some fields := by
  constructor
  · intro h
    unfold parseRelayV2JsonObject at h
    cases hparse : parseDocument limits true source with
    | error e =>
      rw [hparse] at h
      cases h
    | ok x =>
      obtain ⟨t, hdoc, hlawful, hkeys, hnodes, hdepth, hvalue, hafter⟩ := (parseDocument_ends source).value hparse
      rw [hparse] at h
      dsimp only [bind, Except.bind] at h
      rw [hvalue, seen_true, hafter] at h
      obtain ⟨v, hv⟩ := lawful_value hlawful
      rw [hv] at h
      cases t with
      | object members =>
        obtain ⟨vs, hvs⟩ := lawful_fields hlawful.2.2
        rw [Tree.value, hvs] at hv
        cases hv
        exact ⟨members, hdoc, ⟨hdepth, hkeys, hnodes, hlawful⟩, by rw [hvs]; exact congrArg some (Except.ok.inj h)⟩
      | null => cases hv; cases h
      | bool b => cases hv; cases h
      | string s => cases hv; cases h
      | number l =>
        obtain ⟨d, hd⟩ := allowed_number hlawful
        rw [Tree.value, hd] at hv
        cases hv
        cases h
      | array items =>
        obtain ⟨vs, hvs⟩ := lawful_items hlawful
        rw [Tree.value, hvs] at hv
        cases hv
        cases h
  · rintro ⟨members, hdoc, hwithin, hfields⟩
    unfold parseRelayV2JsonObject
    rw [parseDocument_taken hdoc hwithin.lawful hwithin.keys hwithin.nodes hwithin.depth, seen_true, Tree.value, hfields]
    rfl

/-- **The strict parser accepts exactly its grammar.**  It always ends; it succeeds on the JSON texts of an object within
the limits, with the value of the object; and an inspection of such a text counts its keys and its values and tells its
`type`. -/
theorem strict_json_exact (source : Text) (limits : Limits) :
    parseRelayV2JsonObject source limits ≠ .error none ∧
    (∀ fields, parseRelayV2JsonObject source limits = .ok fields ↔
      ∃ members, Document source (.object members) ∧ Within limits (.object members) ∧ valueFields members = some fields) ∧
    ∀ fields, parseRelayV2JsonObject source limits = .ok fields →
      ∃ members rootType, Document source (.object members) ∧ valueFields members = some fields ∧
        inspectRelayV2Json source limits = .ok ⟨true, rootType, (Tree.object members).keys, (Tree.object members).nodes⟩ ∧
        ∀ s, rootType = some s ↔ (typeKey, .string s) ∈ members := by
  refine ⟨fun h => ?_, parse_iff source limits, fun fields h => ?_⟩
  · unfold parseRelayV2JsonObject at h
    cases hparse : parseDocument limits true source with
    | error e =>
      rw [hparse] at h
      exact (parseDocument_ends source).fault hparse (Except.error.inj h)
    | ok x =>
      rw [hparse] at h
      dsimp only [bind, Except.bind] at h
      split at h
      · split at h <;> cases h
      · cases h
  · obtain ⟨members, hdoc, hwithin, hfields⟩ := (parse_iff source limits fields).mp h
    exact ⟨members, typeFields members none, hdoc, hfields,
      (inspect_iff source limits _).mpr ⟨.object members, hdoc, hwithin, rfl⟩, typeFields_iff hwithin.lawful.1⟩

end Strict
end TmuxWorktree
