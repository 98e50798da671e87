import TmuxWorktree.Strict.Complete
import TmuxWorktree.Lib.Printing
/-!
# Unique — a text denotes one value

The scanners are functions, and they take what the grammar takes; so two readings of a text are the same.  What
`JSON.parse` makes of a text is then what the text denotes.
-/
namespace TmuxWorktree
namespace Strict

open Utf16 Grammar

theorem space_unique {s a b : Text} (ha : Space s a) (hb : Space s b) (hna : NoSpace a) (hnb : NoSpace b) : a = b := by
  rw [← dropWhile_space ha hna, dropWhile_space hb hnb]

theorem chars_unique {s t t' r r' : Text} (h : Chars s t r) (h' : Chars s t' r') : t' = t ∧ r' = r := by
  obtain ⟨body, hscan, hun⟩ := scanString_complete h
  obtain ⟨body', hscan', hun'⟩ := scanString_complete h'
  rw [hscan] at hscan'
  cases hscan'
  rw [hun] at hun'
  cases hun'
  exact ⟨rfl, rfl⟩

theorem number_unique {s r r' : Text} {l l' : Literal} (h : Number s l r) (hr : NumberEnd r) (h' : Number s l' r')
    (hr' : NumberEnd r') : l' = l ∧ r' = r := by
  have heq := (matchNumber_complete h' hr').symm.trans (matchNumber_complete h hr)
  cases heq
  exact ⟨rfl, rfl⟩

/-- The kinds of values, as their first characters tell them. -/
def kind : Tree → Nat
  | .null => 0
  | .bool true => 1
  | .bool false => 2
  | .string _ => 3
  | .array _ => 4
  | .object _ => 5
  | .number _ => 6

def firstKind (c : CodeUnit) : Nat :=
  if c = 0x6E then 0 else if c = 0x74 then 1 else if c = 0x66 then 2 else if c = 0x22 then 3 else if c = 0x5B then 4
  else if c = 0x7B then 5 else 6

theorem reads_kind {s r : Text} {t : Tree} (h : Reads s t r) : ∃ c s', s = c :: s' ∧ firstKind c = kind t := by
  cases h with
  | number hn =>
    obtain ⟨c, s', hs, hc⟩ := number_head hn
    refine ⟨c, s', hs, ?_⟩
    have hne {d : CodeUnit} (hd : (isDigit d = true ∨ d = 0x2D) → False) : c ≠ d := fun heq => hd (heq ▸ hc)
    unfold firstKind
    rw [if_neg (hne (by decide)), if_neg (hne (by decide)), if_neg (hne (by decide)), if_neg (hne (by decide)),
      if_neg (hne (by decide)), if_neg (hne (by decide))]
    rfl
  | null => exact ⟨_, _, rfl, rfl⟩
  | «true» => exact ⟨_, _, rfl, rfl⟩
  | «false» => exact ⟨_, _, rfl, rfl⟩
  | string => exact ⟨_, _, rfl, rfl⟩
  | noItems => exact ⟨_, _, rfl, rfl⟩
  | array => exact ⟨_, _, rfl, rfl⟩
  | noFields => exact ⟨_, _, rfl, rfl⟩
  | object => exact ⟨_, _, rfl, rfl⟩

theorem kind_eq {s r r' : Text} {t t' : Tree} (h : Reads s t r) (h' : Reads s t' r') : kind t' = kind t := by
  obtain ⟨c, s₁, hs, hk⟩ := reads_kind h
  obtain ⟨c', s₁', hs', hk'⟩ := reads_kind h'
  rw [hs] at hs'
  cases hs'
  rw [← hk, ← hk']

theorem noSpace_of_elements {s r : Text} {items : List Tree} (h : Elements s items r) : NoSpace s := by
  obtain ⟨c, s', rfl, hc, -⟩ := elements_head h
  exact noSpace_cons hc s'

theorem noSpace_of_reads {s r : Text} {t : Tree} (h : Reads s t r) : NoSpace s := by
  obtain ⟨c, s', rfl, hc, -⟩ := reads_head h
  exact noSpace_cons hc s'

theorem noSpace_of_members {s r : Text} {fields : List (Text × Tree)} (h : Members s fields r) : NoSpace s := by
  obtain ⟨s', rfl⟩ := members_head h
  exact noSpace_cons rfl s'

mutual

/-- **A text is read in one way.** -/
theorem reads_unique : ∀ {s : Text} {t : Tree} {r : Text}, Reads s t r → NumberEnd r → ∀ {t' : Tree} {r' : Text},
    Reads s t' r' → NumberEnd r' → t' = t ∧ r' = r
  | _, _, _, .null r, _, t', _, h', _ => by
    have hkind := kind_eq (.null r) h'
    cases t' with
    | null => cases h'; exact ⟨rfl, rfl⟩
    | bool b => cases b <;> cases hkind
    | _ => cases hkind
  | _, _, _, .true r, _, t', _, h', _ => by
    have hkind := kind_eq (.true r) h'
    cases t' with
    | bool b =>
      cases b with
      | true => cases h'; exact ⟨rfl, rfl⟩
      | false => cases hkind
    | _ => cases hkind
  | _, _, _, .false r, _, t', _, h', _ => by
    have hkind := kind_eq (.false r) h'
    cases t' with
    | bool b =>
      cases b with
      | false => cases h'; exact ⟨rfl, rfl⟩
      | true => cases hkind
    | _ => cases hkind
  | _, _, _, .number h, hr, t', _, h', hr' => by
    have hkind := kind_eq (.number h) h'
    cases t' with
    | number l =>
      cases h' with
      | number h' =>
        obtain ⟨rfl, rfl⟩ := number_unique h hr h' hr'
        exact ⟨rfl, rfl⟩
    | bool b => cases b <;> cases hkind
    | _ => cases hkind
  | _, _, _, .string h, _, t', _, h', _ => by
    have hkind := kind_eq (.string h) h'
    cases t' with
    | string s =>
      cases h' with
      | string h' =>
        obtain ⟨rfl, rfl⟩ := chars_unique h h'
        exact ⟨rfl, rfl⟩
    | bool b => cases b <;> cases hkind
    | _ => cases hkind
  | _, _, _, .noItems hs, _, t', _, h', _ => by
    have hkind := kind_eq (.noItems hs) h'
    cases t' with
    | array items =>
      cases h' with
      | noItems hs' =>
        cases space_unique hs hs' (noSpace_cons rfl _) (noSpace_cons rfl _)
        exact ⟨rfl, rfl⟩
      | array hs' h' =>
        obtain ⟨c, s', rfl, hc, hbracket⟩ := elements_head h'
        cases space_unique hs hs' (noSpace_cons rfl _) (noSpace_cons hc s')
        exact absurd rfl hbracket
    | bool b => cases b <;> cases hkind
    | _ => cases hkind
  | _, _, _, .array hs h, hr, t', _, h', hr' => by
    have hkind := kind_eq (.array hs h) h'
    cases t' with
    | array items =>
      cases h' with
      | noItems hs' =>
        obtain ⟨c, s', rfl, hc, hbracket⟩ := elements_head h
        cases space_unique hs' hs (noSpace_cons rfl _) (noSpace_cons hc s')
        exact absurd rfl hbracket
      | array hs' h' =>
        cases space_unique hs hs' (noSpace_of_elements h) (noSpace_of_elements h')
        obtain ⟨rfl, rfl⟩ := elements_unique h h'
        exact ⟨rfl, rfl⟩
    | bool b => cases b <;> cases hkind
    | _ => cases hkind
  | _, _, _, .noFields hs, _, t', _, h', _ => by
    have hkind := kind_eq (.noFields hs) h'
    cases t' with
    | object fields =>
      cases h' with
      | noFields hs' =>
        cases space_unique hs hs' (noSpace_cons rfl _) (noSpace_cons rfl _)
        exact ⟨rfl, rfl⟩
      | object hs' h' =>
        obtain ⟨s', rfl⟩ := members_head h'
        cases space_unique hs hs' (noSpace_cons rfl _) (noSpace_cons rfl s')
    | bool b => cases b <;> cases hkind
    | _ => cases hkind
  | _, _, _, .object hs h, hr, t', _, h', hr' => by
    have hkind := kind_eq (.object hs h) h'
    cases t' with
    | object fields =>
      cases h' with
      | noFields hs' =>
        obtain ⟨s', rfl⟩ := members_head h
        cases space_unique hs' hs (noSpace_cons rfl _) (noSpace_cons rfl s')
      | object hs' h' =>
        cases space_unique hs hs' (noSpace_of_members h) (noSpace_of_members h')
        obtain ⟨rfl, rfl⟩ := members_unique h h'
        exact ⟨rfl, rfl⟩
    | bool b => cases b <;> cases hkind
    | _ => cases hkind

theorem elements_unique : ∀ {s : Text} {items : List Tree} {r : Text}, Elements s items r → ∀ {items' : List Tree} {r' : Text},
    Elements s items' r' → items' = items ∧ r' = r
  | _, _, _, .last ht hs, _, _, h' => by
    have hend := numberEnd_of_space hs (numberEnd_cons (by decide) _)
    cases h' with
    | last ht' hs' =>
      obtain ⟨rfl, rfl⟩ := reads_unique ht hend ht' (numberEnd_of_space hs' (numberEnd_cons (by decide) _))
      cases space_unique hs hs' (noSpace_cons rfl _) (noSpace_cons rfl _)
      exact ⟨rfl, rfl⟩
    | cons ht' hs' _ _ =>
      obtain ⟨rfl, rfl⟩ := reads_unique ht hend ht' (numberEnd_of_space hs' (numberEnd_cons (by decide) _))
      cases space_unique hs hs' (noSpace_cons rfl _) (noSpace_cons rfl _)
  | _, _, _, .cons ht hs hs₂ h, _, _, h' => by
    have hend := numberEnd_of_space hs (numberEnd_cons (by decide) _)
    cases h' with
    | last ht' hs' =>
      obtain ⟨rfl, rfl⟩ := reads_unique ht hend ht' (numberEnd_of_space hs' (numberEnd_cons (by decide) _))
      cases space_unique hs hs' (noSpace_cons rfl _) (noSpace_cons rfl _)
    | cons ht' hs' hs₂' h' =>
      obtain ⟨rfl, rfl⟩ := reads_unique ht hend ht' (numberEnd_of_space hs' (numberEnd_cons (by decide) _))
      cases space_unique hs hs' (noSpace_cons rfl _) (noSpace_cons rfl _)
      cases space_unique hs₂ hs₂' (noSpace_of_elements h) (noSpace_of_elements h')
      obtain ⟨rfl, rfl⟩ := elements_unique h h'
      exact ⟨rfl, rfl⟩

theorem members_unique : ∀ {s : Text} {fields : List (Text × Tree)} {r : Text}, Members s fields r →
    ∀ {fields' : List (Text × Tree)} {r' : Text}, Members s fields' r' → fields' = fields ∧ r' = r
  | _, _, _, .last hk hc hs ht he, _, _, h' => by
    have hend := numberEnd_of_space he (numberEnd_cons (by decide) _)
    cases h' with
    | last hk' hc' hs' ht' he' =>
      obtain ⟨rfl, rfl⟩ := chars_unique hk hk'
      cases space_unique hc hc' (noSpace_cons rfl _) (noSpace_cons rfl _)
      cases space_unique hs hs' (noSpace_of_reads ht) (noSpace_of_reads ht')
      obtain ⟨rfl, rfl⟩ := reads_unique ht hend ht' (numberEnd_of_space he' (numberEnd_cons (by decide) _))
      cases space_unique he he' (noSpace_cons rfl _) (noSpace_cons rfl _)
      exact ⟨rfl, rfl⟩
    | cons hk' hc' hs' ht' he' _ _ =>
      obtain ⟨rfl, rfl⟩ := chars_unique hk hk'
      cases space_unique hc hc' (noSpace_cons rfl _) (noSpace_cons rfl _)
      cases space_unique hs hs' (noSpace_of_reads ht) (noSpace_of_reads ht')
      obtain ⟨rfl, rfl⟩ := reads_unique ht hend ht' (numberEnd_of_space he' (numberEnd_cons (by decide) _))
      cases space_unique he he' (noSpace_cons rfl _) (noSpace_cons rfl _)
  | _, _, _, .cons hk hc hs ht he hs₂ h, _, _, h' => by
    have hend := numberEnd_of_space he (numberEnd_cons (by decide) _)
    cases h' with
    | last hk' hc' hs' ht' he' =>
      obtain ⟨rfl, rfl⟩ := chars_unique hk hk'
      cases space_unique hc hc' (noSpace_cons rfl _) (noSpace_cons rfl _)
      cases space_unique hs hs' (noSpace_of_reads ht) (noSpace_of_reads ht')
      obtain ⟨rfl, rfl⟩ := reads_unique ht hend ht' (numberEnd_of_space he' (numberEnd_cons (by decide) _))
      cases space_unique he he' (noSpace_cons rfl _) (noSpace_cons rfl _)
    | cons hk' hc' hs' ht' he' hs₂' h' =>
      obtain ⟨rfl, rfl⟩ := chars_unique hk hk'
      cases space_unique hc hc' (noSpace_cons rfl _) (noSpace_cons rfl _)
      cases space_unique hs hs' (noSpace_of_reads ht) (noSpace_of_reads ht')
      obtain ⟨rfl, rfl⟩ := reads_unique ht hend ht' (numberEnd_of_space he' (numberEnd_cons (by decide) _))
      cases space_unique he he' (noSpace_cons rfl _) (noSpace_cons rfl _)
      cases space_unique hs₂ hs₂' (noSpace_of_members h) (noSpace_of_members h')
      obtain ⟨rfl, rfl⟩ := members_unique h h'
      exact ⟨rfl, rfl⟩

end

/-- **A document denotes one tree.** -/
theorem document_unique {s : Text} {t t' : Tree} (h : Document s t) (h' : Document s t') : t' = t := by
  obtain ⟨s₁, s₂, hs, ht, he⟩ := h
  obtain ⟨s₁', s₂', hs', ht', he'⟩ := h'
  have hnil : NumberEnd ([] : Text) := fun _ h => by cases h
  cases space_unique hs hs' (noSpace_of_reads ht) (noSpace_of_reads ht')
  exact (reads_unique ht (numberEnd_of_space he hnil) ht' (numberEnd_of_space he' hnil)).1

/-- **Texts that are the same were written from the same value**, but for the signs of zeros. -/
theorem text_injective {v w : Value} (h : v.text = w.text) : v.plain = w.plain := by
  have htree : w.tree = v.tree := document_unique (text_document v) (h ▸ text_document w)
  have hvalue := tree_value v
  rw [← htree, tree_value w] at hvalue
  exact (Option.some.inj hvalue).symm

end Strict
end TmuxWorktree
