import TmuxWorktree.Outbox.Reduce
import Mathlib.Data.List.Perm.Basic
/-!
# Sound — what every state of the outbox has passed

`restore` walks the entries in the order they are given and sorts them at the end.  `Sound` says what it checks without
an order, so it can be said of the sorted entries.
-/
namespace TmuxWorktree
namespace Outbox

variable {C : Core}

/-! ## Checks -/

theorem require_ok {c : Bool} {r : Rejection} {u : Unit} (h : require c r = .ok u) : c = true := by
  unfold require at h
  by_cases hc : c = true
  · exact hc
  · rw [if_neg hc] at h
    cases h

theorem bind_ok {α β : Type} {x : Except Rejection α} {f : α → Except Rejection β} {b : β} (h : x >>= f = .ok b) :
    ∃ a, x = .ok a ∧ f a = .ok b := by
  cases x with
  | error r => cases h
  | ok a => exact ⟨a, rfl, h⟩

theorem require_bind {α : Type} {c : Bool} {r : Rejection} {f : Unit → Except Rejection α} {a : α}
    (h : require c r >>= f = .ok a) : c = true ∧ f () = .ok a := by
  obtain ⟨u, hu, hf⟩ := bind_ok h
  exact ⟨require_ok hu, hf⟩

instance : Std.Total createdBefore := ⟨fun a b => Nat.le_total a.createdOrder b.createdOrder⟩

instance : IsTrans Entry createdBefore := ⟨fun _ _ _ hab hbc => Nat.le_trans hab hbc⟩

theorem restoreEntries_valid {n : Nat} : ∀ {i b : Nat} {es : List Entry} {bytes : Nat},
    restoreEntries C n i b es = .ok bytes → ∀ e ∈ es, e.valid C = true
  | _, _, [], _, _ => by simp
  | i, b, e :: rest, bytes, h => by
    unfold restoreEntries at h
    obtain ⟨-, h⟩ := require_bind h
    obtain ⟨hvalid, h⟩ := require_bind h
    obtain ⟨-, h⟩ := require_bind h
    obtain ⟨-, h⟩ := require_bind h
    obtain ⟨-, h⟩ := require_bind h
    intro x hx
    rcases List.mem_cons.mp hx with rfl | hx
    · exact hvalid
    · exact restoreEntries_valid h x hx

/-! ## Links -/

/-- The key an entry has in the graph of reissues; nothing changes it. -/
def Entry.key (e : Entry) : String × String × String × String := e.lineageKey e.commandId

def Entry.parentKey (e : Entry) : Option (String × String × String × String) := e.reissuedFromCommandId.map e.lineageKey

/-- `child` replaces `parent`, and the two say so of each other. -/
structure Replaces (C : Core) (parent child : Entry) : Prop where
  key : child.parentKey = some parent.key
  state : parent.state = .reissued
  command : parent.replacementCommandId = some child.commandId
  intent : parent.hasSameReissueIntent C child = true

/-! ## Sound entries -/

/-- **What `restore` checks**, in no order. -/
structure Sound (C : Core) (es : List Entry) (next : Nat) : Prop where
  ids : (es.map Entry.id).Nodup
  orders : (es.map Entry.createdOrder).Nodup
  below : ∀ e ∈ es, e.createdOrder < next
  valid : ∀ e ∈ es, e.valid C = true
  keys : (es.map Entry.key).Nodup
  parents : (es.filterMap Entry.parentKey).Nodup
  parent : ∀ child ∈ es, ∀ p, child.reissuedFromCommandId = some p → ∃ parent ∈ es, Replaces C parent child
  child : ∀ parent ∈ es, parent.state = .reissued → ∃ child ∈ es, Replaces C parent child

theorem Sound.perm {es es' : List Entry} {n : Nat} (h : Sound C es n) (hp : es'.Perm es) : Sound C es' n where
  ids := (hp.map Entry.id).nodup_iff.mpr h.ids
  orders := (hp.map Entry.createdOrder).nodup_iff.mpr h.orders
  below := fun e he => h.below e (hp.mem_iff.mp he)
  valid := fun e he => h.valid e (hp.mem_iff.mp he)
  keys := (hp.map Entry.key).nodup_iff.mpr h.keys
  parents := (hp.filterMap Entry.parentKey).nodup_iff.mpr h.parents
  parent := by
    intro c hc p hcp
    obtain ⟨q, hq, hr⟩ := h.parent c (hp.mem_iff.mp hc) p hcp
    exact ⟨q, hp.mem_iff.mpr hq, hr⟩
  child := by
    intro q hq hs
    obtain ⟨c, hc, hr⟩ := h.child q (hp.mem_iff.mp hq) hs
    exact ⟨c, hp.mem_iff.mpr hc, hr⟩

theorem eq_of_map_nodup {α β : Type} {f : α → β} {l : List α} (h : (l.map f).Nodup) {a b : α} (ha : a ∈ l) (hb : b ∈ l)
    (hab : f a = f b) : a = b := List.inj_on_of_nodup_map h ha hb hab

theorem reissueGraphValid_links {es : List Entry} (h : reissueGraphValid C es = true) :
    (es.map Entry.key).Nodup ∧ (es.filterMap Entry.parentKey).Nodup ∧
      (∀ child ∈ es, ∀ p, child.reissuedFromCommandId = some p → ∃ parent ∈ es, Replaces C parent child) ∧
      (∀ parent ∈ es, parent.state = .reissued → ∃ child ∈ es, Replaces C parent child) := by
  unfold reissueGraphValid at h
  simp only [Bool.and_eq_true, decide_eq_true_eq, List.all_eq_true] at h
  obtain ⟨⟨⟨⟨hkeys, hparents⟩, hparent⟩, hchild⟩, -⟩ := h
  refine ⟨hkeys, hparents, ?_, ?_⟩
  · intro child hc p hp
    have := hparent child hc
    rw [hp] at this
    simp only [Option.all_some, Option.any_eq_true, Bool.and_eq_true, decide_eq_true_eq] at this
    obtain ⟨q, hq, ⟨hstate, hcommand⟩, hintent⟩ := this
    have hkey := List.find?_some hq
    refine ⟨q, List.mem_of_find?_eq_some hq, ⟨?_, hstate, hcommand, hintent⟩⟩
    simp only [decide_eq_true_eq] at hkey
    rw [Entry.parentKey, hp, Option.map_some, ← hkey]
    rfl
  · intro q hq hstate
    have := hchild q hq
    simp only [hstate, ne_eq, not_true_eq_false, decide_false, Bool.false_or, Option.any_eq_true, Bool.and_eq_true,
      decide_eq_true_eq] at this
    obtain ⟨rid, hrid, child, hc, hck, hintent⟩ := this
    have hkey := List.find?_some hc
    simp only [Option.any_eq_true, decide_eq_true_eq] at hkey
    obtain ⟨p, hp, hpk⟩ := hkey
    refine ⟨child, List.mem_of_find?_eq_some hc, ⟨?_, hstate, ?_, hintent⟩⟩
    · rw [Entry.parentKey, hp, Option.map_some, hpk]
      rfl
    · rw [hrid]
      simp only [Entry.lineageKey, Prod.mk.injEq] at hck
      rw [hck.2.2.2]

/-- **What `restore` gives back** is sound and in the order of creation. -/
theorem restore_ok {es : List Entry} {n : Nat} {s : State} (h : restore C es n = .ok s) :
    Sound C es n ∧ s.entries = es.insertionSort createdBefore ∧ s.nextCreationOrder = n := by
  unfold restore at h
  obtain ⟨-, h⟩ := require_bind h
  obtain ⟨-, h⟩ := require_bind h
  obtain ⟨-, h⟩ := require_bind h
  obtain ⟨hids, h⟩ := require_bind h
  obtain ⟨horders, h⟩ := require_bind h
  obtain ⟨hbelow, h⟩ := require_bind h
  obtain ⟨bytes, hbytes, h⟩ := bind_ok h
  obtain ⟨-, h⟩ := require_bind h
  obtain ⟨hgraph, h⟩ := require_bind h
  obtain ⟨hkeys, hparents, hparent, hchild⟩ := reissueGraphValid_links hgraph
  cases h
  refine ⟨⟨of_decide_eq_true hids, of_decide_eq_true horders, ?_, restoreEntries_valid hbytes, hkeys, hparents, hparent,
    hchild⟩, rfl, rfl⟩
  intro e he
  simpa using List.all_eq_true.mp hbelow e he

/-! ## Sound states -/

/-- Sound, and sorted by creation. -/
structure State.Sound (C : Core) (s : State) : Prop where
  entries : Outbox.Sound C s.entries s.nextCreationOrder
  sorted : s.entries.Pairwise fun a b => a.createdOrder < b.createdOrder

theorem State.empty_sound : State.empty.Sound C := by
  refine ⟨⟨?_, ?_, ?_, ?_, ?_, ?_, ?_, ?_⟩, List.Pairwise.nil⟩ <;> simp [State.empty]

theorem restore_sound {es : List Entry} {n : Nat} {s : State} (h : restore C es n = .ok s) :
    s.Sound C ∧ s.entries.Perm es ∧ s.nextCreationOrder = n := by
  obtain ⟨hsound, hes, hn⟩ := restore_ok h
  have hperm : s.entries.Perm es := by
    rw [hes]
    exact List.perm_insertionSort createdBefore es
  have hs : Outbox.Sound C s.entries s.nextCreationOrder := by
    rw [hn]
    exact hsound.perm hperm
  refine ⟨⟨hs, ?_⟩, hperm, hn⟩
  have hle : s.entries.Pairwise createdBefore := by
    rw [hes]
    exact List.pairwise_insertionSort createdBefore es
  have hne : s.entries.Pairwise fun a b => a.createdOrder ≠ b.createdOrder := List.pairwise_map.mp hs.orders
  refine (hle.and hne).imp ?_
  rintro a b ⟨hab, hne⟩
  exact lt_of_le_of_ne hab hne

theorem State.Sound.entry {s : State} {e : Entry} (hs : s.Sound C) (he : e ∈ s.entries) : s.entry e.id = some e := by
  unfold State.entry
  cases hf : s.entries.find? fun x => decide (x.id = e.id) with
  | none =>
    have := List.find?_eq_none.mp hf e he
    simp at this
  | some x =>
    have hx : x.id = e.id := by simpa using List.find?_some hf
    rw [eq_of_map_nodup hs.entries.ids (List.mem_of_find?_eq_some hf) he hx]

theorem State.entry_mem {s : State} {i : EntryId} {e : Entry} (h : s.entry i = some e) : e ∈ s.entries ∧ e.id = i :=
  ⟨List.mem_of_find?_eq_some h, by simpa using List.find?_some h⟩

/-! ## Valid entries -/

theorem historyTail_same {e : Entry} : ∀ {i : Nat} {t tail : Target} {steps : List ConfirmedStep},
    historyTail C e i t steps = some tail → tail.scopeId = t.scopeId ∧ tail.sessionId = t.sessionId
  | _, _, _, [], h => by
    cases h
    exact ⟨rfl, rfl⟩
  | i, t, tail, step :: rest, h => by
    unfold historyTail at h
    by_cases hv : step.valid C e i t = true
    · rw [if_pos hv] at h
      obtain ⟨h₁, h₂⟩ := historyTail_same h
      simp only [ConfirmedStep.valid, Bool.and_eq_true, decide_eq_true_eq] at hv
      obtain ⟨⟨⟨⟨⟨⟨-, hsrc⟩, -⟩, hscope⟩, hsession⟩, -⟩, -⟩ := hv
      rw [h₁, h₂, hscope, hsession, hsrc]
      exact ⟨rfl, rfl⟩
    · rw [if_neg hv] at h
      cases h

theorem Entry.valid_provenance {e : Entry} (h : e.valid C = true) :
    e.scopeId = e.targetProvenance.initialTarget.scopeId ∧ e.sessionId = e.targetProvenance.initialTarget.sessionId := by
  simp only [Entry.valid, Bool.and_eq_true] at h
  have hp := h.2
  unfold Provenance.isValidFor at hp
  rw [Bool.and_eq_true] at hp
  have htail := hp.2
  split at htail
  · cases htail
  · rename_i tail hh
    obtain ⟨h₁, h₂⟩ := historyTail_same hh
    split at htail
    · have : e.target = tail := of_decide_eq_true htail
      rw [← h₁, ← h₂, ← this]
      exact ⟨rfl, rfl⟩
    · simp only [Bool.and_eq_true, decide_eq_true_eq] at htail
      rw [← h₁, ← h₂, ← htail.2, ← htail.1.2]
      exact ⟨rfl, rfl⟩

theorem Entry.valid_state {e : Entry} (h : e.valid C = true) : e.stateValid = true := by
  simp only [Entry.valid, Bool.and_eq_true] at h
  exact h.1.1.1.1.2

theorem Entry.valid_ordinals {e : Entry} (h : e.valid C = true) :
    e.attempts.map Attempt.ordinal = List.range' 1 e.attempts.length := by
  simp only [Entry.valid, Bool.and_eq_true, decide_eq_true_eq] at h
  exact h.1.1.1.1.1.2

theorem Entry.valid_revalidation {e : Entry} (h : e.valid C = true) {r : Revalidation} (hr : e.targetRevalidation = some r) :
    e.state = .queued ∧ r.proposedTarget = e.target := by
  simp only [Entry.valid, Bool.and_eq_true, decide_eq_true_eq, hr, Option.isNone_some, Bool.false_or, Option.all_some] at h
  exact ⟨h.1.1.1.2, h.1.1.2⟩

theorem Entry.valid_queued {e : Entry} (h : e.valid C = true) (hq : e.state = .queued) :
    e.attempts = [] ∧ e.acceptanceEvidence = .none := by
  have := e.valid_state h
  unfold Entry.stateValid at this
  simp only [hq, Bool.and_eq_true, decide_eq_true_eq, List.isEmpty_iff] at this
  exact ⟨this.1.1, this.1.2⟩

end Outbox
end TmuxWorktree
