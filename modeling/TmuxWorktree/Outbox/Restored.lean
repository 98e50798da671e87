import TmuxWorktree.Outbox.Once
/-!
# Restored — `restore` asks for no order, and takes back what it gave

`restore_ok_iff` says what `restore` checks, as `Restorable`, and what it gives.  None of the checks sees the order of the
entries, so a state is restored from its own entries.
-/
namespace TmuxWorktree
namespace Outbox

variable {C : Core} {es es' : List Entry} {n : Nat}

/-! ## The bytes of the entries -/

/-- What the second loop of `restore` asks of one entry. -/
structure Entry.Checked (C : Core) (e : Entry) : Prop where
  provenance : e.targetProvenance.canonicalValue.bytes ≤ maxTargetProvenanceCanonicalBytes
  valid : e.valid C = true
  arguments : e.arguments.canonicalMap.bytes ≤ maxArgumentsCanonicalBytes
  bytes : e.canonicalByteCount ≤ maxEntryCanonicalBytes

/-- The bytes of the entries, with the commas between them. -/
def entryBytes (es : List Entry) : Nat := (es.map Entry.canonicalByteCount).sum + (es.length - 1)

theorem require_true {α : Type} {c : Bool} {r : Rejection} {f : Unit → Except Rejection α} (h : c = true) :
    (require c r >>= f) = f () := by
  unfold require
  rw [if_pos h]
  rfl

theorem restoreEntries_ok_iff : ∀ {i b : Nat} {es : List Entry} {bytes : Nat},
    restoreEntries C n i b es = .ok bytes ↔ (∀ e ∈ es, e.Checked C) ∧
      bytes = b + (es.map Entry.canonicalByteCount).sum + (if i = 0 then es.length - 1 else es.length) ∧
      (es ≠ [] → bytes + stateCanonicalFixedBytes n ≤ maxStateCanonicalBytes)
  | i, b, [], bytes => by
    constructor
    · intro h
      cases h
      simp
    · rintro ⟨-, hb, -⟩
      simp only [List.map_nil, List.sum_nil, List.length_nil, Nat.zero_sub, ite_self, Nat.add_zero] at hb
      rw [hb]
      rfl
  | i, b, e :: rest, bytes => by
    unfold restoreEntries
    constructor
    · intro h
      obtain ⟨hprov, h⟩ := require_bind h
      obtain ⟨hvalid, h⟩ := require_bind h
      obtain ⟨hargs, h⟩ := require_bind h
      obtain ⟨hcount, h⟩ := require_bind h
      obtain ⟨hroom, h⟩ := require_bind h
      obtain ⟨hrest, hbytes, hmore⟩ := restoreEntries_ok_iff.mp h
      refine ⟨?_, ?_, ?_⟩
      · intro x hx
        rcases List.mem_cons.mp hx with rfl | hx
        · exact ⟨of_decide_eq_true hprov, hvalid, of_decide_eq_true hargs, of_decide_eq_true hcount⟩
        · exact hrest x hx
      · rw [hbytes, List.map_cons, List.sum_cons, List.length_cons]
        by_cases hi : i = 0
        · subst hi
          simp only [Nat.lt_irrefl, gt_iff_lt, if_false, Nat.zero_add, Nat.one_ne_zero, if_true]
          omega
        · rw [if_neg hi, if_neg (Nat.succ_ne_zero i), if_pos (Nat.pos_of_ne_zero hi)]
          omega
      · intro _
        by_cases hr : rest = []
        · subst hr
          rw [hbytes]
          simpa using of_decide_eq_true hroom
        · exact hmore hr
    · rintro ⟨hall, hbytes, hroom⟩
      have hroom := hroom (List.cons_ne_nil e rest)
      have he := hall e List.mem_cons_self
      rw [List.map_cons, List.sum_cons, List.length_cons] at hbytes
      have hcomma : bytes = b + e.canonicalByteCount + (if i > 0 then 1 else 0) +
          (rest.map Entry.canonicalByteCount).sum + rest.length := by
        rw [hbytes]
        by_cases hi : i = 0
        · subst hi
          simp only [Nat.lt_irrefl, gt_iff_lt, if_false, if_true]
          omega
        · rw [if_neg hi, if_pos (Nat.pos_of_ne_zero hi)]
          omega
      rw [require_true (decide_eq_true he.provenance), require_true he.valid, require_true (decide_eq_true he.arguments),
        require_true (decide_eq_true he.bytes)]
      dsimp only
      rw [require_true (decide_eq_true (by omega))]
      refine restoreEntries_ok_iff.mpr ⟨fun x hx => hall x (List.mem_cons_of_mem e hx), ?_, fun _ => hroom⟩
      rw [if_neg (Nat.succ_ne_zero i)]
      exact hcomma

/-! ## The owners of the attempts -/

def owned (es : List Entry) : List (Entry × Attempt) := es.flatMap fun e => e.attempts.map fun a => (e, a)

/-- **`validateAttemptOwnership` of one attempt.** -/
structure Owned (os : List (Entry × Attempt)) (p : Entry × Attempt) : Prop where
  kind : ∀ q ∈ os, q.2.requestId = p.2.requestId → q.2.kind = p.2.kind
  execute : p.2.kind = .execute → (os.filter fun q => q.2.requestId = p.2.requestId).length = 1
  query : p.2.kind = .query → (os.filter fun q => q.2.requestId = p.2.requestId).length ≤ maxQueryItemsPerBatch
  authority : p.2.kind = .query → ∀ q ∈ os, q.2.requestId = p.2.requestId → q.1.queryAuthority = p.1.queryAuthority

theorem attemptOwnershipValid_iff : attemptOwnershipValid es = true ↔ ∀ p ∈ owned es, Owned (owned es) p := by
  unfold attemptOwnershipValid
  show (owned es).all _ = true ↔ _
  rw [List.all_eq_true]
  refine forall₂_congr ?_
  intro p _
  cases hk : p.2.kind with
  | execute =>
    simp only [hk, Bool.and_eq_true, List.all_eq_true, List.mem_filter, decide_eq_true_eq, and_imp]
    constructor
    · rintro ⟨hkind, hone⟩
      exact ⟨fun q hq hr => (hkind q hq hr).trans hk.symm, fun _ => hone, fun h => (nomatch hk.symm.trans h),
        fun h => (nomatch hk.symm.trans h)⟩
    · intro h
      exact ⟨fun q hq hr => (h.kind q hq hr).trans hk, h.execute hk⟩
  | query =>
    simp only [hk, Bool.and_eq_true, List.all_eq_true, List.mem_filter, decide_eq_true_eq, and_imp]
    constructor
    · rintro ⟨hkind, hfew, hauth⟩
      exact ⟨fun q hq hr => (hkind q hq hr).trans hk.symm, fun h => (nomatch hk.symm.trans h), fun _ => hfew,
        fun _ => hauth⟩
    · intro h
      exact ⟨fun q hq hr => (h.kind q hq hr).trans hk, h.query hk, h.authority hk⟩

theorem owned_perm (h : es'.Perm es) : (owned es').Perm (owned es) := h.flatMap_right _

theorem attemptOwnershipValid_perm (h : es'.Perm es) (hv : attemptOwnershipValid es = true) :
    attemptOwnershipValid es' = true := by
  have hp := owned_perm h
  rw [attemptOwnershipValid_iff] at hv ⊢
  intro p hmem
  have ho := hv p (hp.mem_iff.mp hmem)
  refine ⟨fun q hq => ho.kind q (hp.mem_iff.mp hq), ?_, ?_, fun hk q hq => ho.authority hk q (hp.mem_iff.mp hq)⟩
  · intro hk
    rw [(hp.filter _).length_eq]
    exact ho.execute hk
  · intro hk
    rw [(hp.filter _).length_eq]
    exact ho.query hk

/-! ## The graph of reissues -/

theorem replacementOf_eq_find (key : String × String × String × String) :
    replacementOf es key = es.find? fun e => e.parentKey = some key := by
  unfold replacementOf
  congr 1
  funext e
  cases h : e.reissuedFromCommandId <;> simp [Entry.parentKey, h]

theorem replacementOf_of_mem (hp : (es.filterMap Entry.parentKey).Nodup) {c : Entry} (hc : c ∈ es)
    {key : String × String × String × String} (hk : c.parentKey = some key) : replacementOf es key = some c := by
  rw [replacementOf_eq_find]
  cases hf : es.find? fun e => e.parentKey = some key with
  | none =>
    have := List.find?_eq_none.mp hf c hc
    simp [hk] at this
  | some d =>
    have hd : d.parentKey = some key := by simpa using List.find?_some hf
    rw [eq_of_filterMap_nodup hp (List.mem_of_find?_eq_some hf) hc hd hk]

theorem replacementOf_perm (hp : (es.filterMap Entry.parentKey).Nodup) (h : es'.Perm es)
    (key : String × String × String × String) : replacementOf es' key = replacementOf es key := by
  cases hf : replacementOf es key with
  | none =>
    rw [replacementOf_eq_find] at hf ⊢
    rw [List.find?_eq_none] at hf ⊢
    exact fun x hx => hf x (h.mem_iff.mp hx)
  | some c =>
    rw [replacementOf_eq_find] at hf
    refine replacementOf_of_mem ((h.filterMap Entry.parentKey).nodup_iff.mpr hp)
      (h.mem_iff.mpr (List.mem_of_find?_eq_some hf)) ?_
    simpa using List.find?_some hf

theorem byLineage_of_mem (hk : (es.map Entry.key).Nodup) {p : Entry} (hp : p ∈ es) : byLineage es p.key = some p := by
  unfold byLineage
  cases hf : es.find? fun e => e.lineageKey e.commandId = p.key with
  | none =>
    have := List.find?_eq_none.mp hf p hp
    simp [Entry.key] at this
  | some q =>
    have hfound := List.find?_some hf
    have hq : q.key = p.key := of_decide_eq_true hfound
    rw [eq_of_map_nodup hk (List.mem_of_find?_eq_some hf) hp hq]

/-- **`validateReissueGraph`**, read as links both ways. -/
theorem reissueGraphValid_iff : reissueGraphValid C es = true ↔
    (es.map Entry.key).Nodup ∧ (es.filterMap Entry.parentKey).Nodup ∧
      (∀ child ∈ es, ∀ p, child.reissuedFromCommandId = some p → ∃ parent ∈ es, Replaces C parent child) ∧
      (∀ parent ∈ es, parent.state = .reissued → ∃ child ∈ es, Replaces C parent child) ∧
      ∀ e ∈ es, chainEnds es es.length e.key = true := by
  constructor
  · intro h
    obtain ⟨hkeys, hparents, hparent, hchild⟩ := reissueGraphValid_links h
    unfold reissueGraphValid at h
    simp only [Bool.and_eq_true, List.all_eq_true] at h
    exact ⟨hkeys, hparents, hparent, hchild, h.2⟩
  · rintro ⟨hkeys, hparents, hparent, hchild, hends⟩
    unfold reissueGraphValid
    simp only [Bool.and_eq_true, decide_eq_true_eq, List.all_eq_true]
    refine ⟨⟨⟨⟨hkeys, hparents⟩, ?_⟩, ?_⟩, hends⟩
    · intro child hc
      cases hp : child.reissuedFromCommandId with
      | none => rfl
      | some p =>
        obtain ⟨parent, hpm, hr⟩ := hparent child hc p hp
        have hkey : child.lineageKey p = parent.key := by
          have := hr.key
          rw [Entry.parentKey, hp] at this
          exact Option.some.inj this
        simp only [Option.all_some, hkey, byLineage_of_mem hkeys hpm, Option.any_some, Bool.and_eq_true, decide_eq_true_eq]
        exact ⟨⟨hr.state, hr.command⟩, hr.intent⟩
    · intro parent hpm
      by_cases hst : parent.state = .reissued
      · obtain ⟨child, hc, hr⟩ := hchild parent hpm hst
        have hfind := replacementOf_of_mem hparents hc hr.key
        have hkey : child.lineageKey child.commandId = parent.lineageKey child.commandId := by
          have := hr.intent
          unfold Entry.hasSameReissueIntent at this
          split at this
          · cases this
          · simp only [Bool.and_eq_true, decide_eq_true_eq] at this
            obtain ⟨⟨⟨⟨⟨⟨h₁, h₂⟩, h₃⟩, -⟩, -⟩, -⟩, -⟩ := this
            simp only [Entry.lineageKey, h₁, h₂, h₃]
        simp only [hst, ne_eq, not_true_eq_false, decide_false, Bool.false_or, hr.command, Option.any_some]
        show ((replacementOf es parent.key).any _) = true
        rw [hfind]
        simp only [Option.any_some, hkey, decide_true, Bool.true_and]
        exact hr.intent
      · simp [hst]

theorem chainEnds_congr (h : ∀ key, replacementOf es' key = replacementOf es key) : ∀ (k : Nat)
    (key : String × String × String × String), chainEnds es' k key = chainEnds es k key
  | 0, key => by unfold chainEnds; rw [h]
  | k + 1, key => by
    unfold chainEnds
    rw [h]
    cases replacementOf es key with
    | none => rfl
    | some child => exact chainEnds_congr h k _

theorem reissueGraphValid_perm (h : es'.Perm es) (hv : reissueGraphValid C es = true) :
    reissueGraphValid C es' = true := by
  rw [reissueGraphValid_iff] at hv ⊢
  obtain ⟨hkeys, hparents, hparent, hchild, hends⟩ := hv
  refine ⟨(h.map Entry.key).nodup_iff.mpr hkeys, (h.filterMap Entry.parentKey).nodup_iff.mpr hparents, ?_, ?_, ?_⟩
  · intro c hc p hcp
    obtain ⟨q, hq, hr⟩ := hparent c (h.mem_iff.mp hc) p hcp
    exact ⟨q, h.mem_iff.mpr hq, hr⟩
  · intro q hq hst
    obtain ⟨c, hc, hr⟩ := hchild q (h.mem_iff.mp hq) hst
    exact ⟨c, h.mem_iff.mpr hc, hr⟩
  · intro e he
    rw [chainEnds_congr (replacementOf_perm hparents h), h.length_eq]
    exact hends e (h.mem_iff.mp he)

/-! ## Restorable entries -/

/-- **What `restore` asks of the entries.** -/
structure Restorable (C : Core) (es : List Entry) (n : Nat) : Prop where
  few : es.length ≤ maxEntries
  lists : ∀ e ∈ es, e.targetProvenance.confirmedHistory.length ≤ maxTargetProvenanceSteps ∧
    e.attempts.length ≤ maxAttemptsPerEntry ∧ Json.units e.arguments.canonicalMap.text ≤ maxArgumentsCanonicalBytes
  cheap : (es.map Entry.cheapLowerBound).sum ≤ maxStateCanonicalBytes
  ids : (es.map Entry.id).Nodup
  orders : (es.map Entry.createdOrder).Nodup
  below : ∀ e ∈ es, e.createdOrder < n
  checked : ∀ e ∈ es, e.Checked C
  bytes : es ≠ [] → entryBytes es + stateCanonicalFixedBytes n ≤ maxStateCanonicalBytes
  ownership : attemptOwnershipValid es = true
  graph : reissueGraphValid C es = true

theorem restore_ok_iff {s : State} : restore C es n = .ok s ↔
    Restorable C es n ∧ s = ⟨es.insertionSort createdBefore, n, stateCanonicalFixedBytes n + entryBytes es⟩ := by
  unfold restore
  constructor
  · intro h
    obtain ⟨hfew, h⟩ := require_bind h
    obtain ⟨hlists, h⟩ := require_bind h
    obtain ⟨hcheap, h⟩ := require_bind h
    obtain ⟨hids, h⟩ := require_bind h
    obtain ⟨horders, h⟩ := require_bind h
    obtain ⟨hbelow, h⟩ := require_bind h
    obtain ⟨bytes, hbytes, h⟩ := bind_ok h
    obtain ⟨hown, h⟩ := require_bind h
    obtain ⟨hgraph, h⟩ := require_bind h
    cases h
    obtain ⟨hchecked, hsum, hroom⟩ := restoreEntries_ok_iff.mp hbytes
    have hsum : bytes = entryBytes es := by
      rw [hsum, entryBytes, if_pos rfl, Nat.zero_add]
    refine ⟨⟨of_decide_eq_true hfew, ?_, of_decide_eq_true hcheap, of_decide_eq_true hids, of_decide_eq_true horders, ?_,
      hchecked, hsum ▸ hroom, hown, hgraph⟩, by rw [hsum]⟩
    · intro e he
      have := List.all_eq_true.mp hlists e he
      simp only [Bool.and_eq_true, decide_eq_true_eq] at this
      exact ⟨this.1.1, this.1.2, this.2⟩
    · intro e he
      simpa using List.all_eq_true.mp hbelow e he
  · rintro ⟨h, rfl⟩
    have hlists : (es.all fun e => decide (e.targetProvenance.confirmedHistory.length ≤ maxTargetProvenanceSteps) &&
        decide (e.attempts.length ≤ maxAttemptsPerEntry) &&
        decide (Json.units e.arguments.canonicalMap.text ≤ maxArgumentsCanonicalBytes)) = true := by
      rw [List.all_eq_true]
      intro e he
      obtain ⟨h₁, h₂, h₃⟩ := h.lists e he
      simp only [Bool.and_eq_true, decide_eq_true_eq]
      exact ⟨⟨h₁, h₂⟩, h₃⟩
    have hbelow : (es.all fun e => decide (e.createdOrder < n)) = true := by
      rw [List.all_eq_true]
      exact fun e he => decide_eq_true (h.below e he)
    have hbytes : restoreEntries C n 0 0 es = .ok (entryBytes es) := by
      refine restoreEntries_ok_iff.mpr ⟨h.checked, ?_, h.bytes⟩
      rw [entryBytes, if_pos rfl, Nat.zero_add]
    rw [require_true (decide_eq_true h.few), require_true hlists, require_true (decide_eq_true h.cheap),
      require_true (decide_eq_true h.ids), require_true (decide_eq_true h.orders), require_true hbelow, hbytes]
    show (require _ _ >>= _) = _
    rw [require_true h.ownership, require_true h.graph]
    rfl

theorem entryBytes_perm (h : es'.Perm es) : entryBytes es' = entryBytes es := by
  rw [entryBytes, entryBytes, (h.map _).sum_nat, h.length_eq]

theorem Restorable.perm (hr : Restorable C es n) (h : es'.Perm es) : Restorable C es' n where
  few := h.length_eq ▸ hr.few
  lists := fun e he => hr.lists e (h.mem_iff.mp he)
  cheap := (h.map _).sum_nat ▸ hr.cheap
  ids := (h.map _).nodup_iff.mpr hr.ids
  orders := (h.map _).nodup_iff.mpr hr.orders
  below := fun e he => hr.below e (h.mem_iff.mp he)
  checked := fun e he => hr.checked e (h.mem_iff.mp he)
  bytes := by
    intro hne
    rw [entryBytes_perm h]
    refine hr.bytes ?_
    rintro rfl
    exact hne h.eq_nil
  ownership := attemptOwnershipValid_perm h hr.ownership
  graph := reissueGraphValid_perm h hr.graph

/-! ## Restored states -/

theorem insertionSort_perm (hn : (es.map Entry.createdOrder).Nodup) (h : es'.Perm es) :
    es'.insertionSort createdBefore = es.insertionSort createdBefore := by
  have hp := List.perm_insertionSort createdBefore es
  have hp' := List.perm_insertionSort createdBefore es'
  refine List.Perm.eq_of_pairwise (fun a b ha hb hab hba => ?_) (List.pairwise_insertionSort createdBefore es')
    (List.pairwise_insertionSort createdBefore es) ((hp'.trans h).trans hp.symm)
  exact eq_of_map_nodup hn (h.mem_iff.mp (hp'.mem_iff.mp ha)) (hp.mem_iff.mp hb) (Nat.le_antisymm hab hba)

/-- The state is what `restore` makes of its own entries. -/
def State.Restored (C : Core) (s : State) : Prop := restore C s.entries s.nextCreationOrder = .ok s

theorem restore_restored {s : State} (h : restore C es n = .ok s) : s.Restored C := by
  obtain ⟨hr, rfl⟩ := restore_ok_iff.mp h
  have hperm := List.perm_insertionSort createdBefore es
  refine restore_ok_iff.mpr ⟨hr.perm hperm, ?_⟩
  dsimp only
  rw [entryBytes_perm hperm, (List.pairwise_insertionSort createdBefore es).insertionSort_eq]

theorem State.empty_restored : State.empty.Restored C := by
  refine restore_ok_iff.mpr ⟨⟨?_, ?_, ?_, ?_, ?_, ?_, ?_, ?_, ?_, ?_⟩, ?_⟩ <;>
    simp [State.empty, maxEntries, maxStateCanonicalBytes, attemptOwnershipValid, reissueGraphValid, entryBytes]

end Outbox
end TmuxWorktree
