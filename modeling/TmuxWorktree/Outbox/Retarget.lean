import TmuxWorktree.Outbox.Total
import TmuxWorktree.Outbox.Waiting
import Mathlib.Data.List.Find
/-!
# Retarget — what a change of the host's epoch makes of the entries

An epoch change keeps every entry in its place: the queued ones move to the observed epoch and wait, what is in flight is
confirmed in the old lineage or is ambiguous.  `restore` takes the result unless some queued entry would go back to the
target it was confirmed for, or the entries outgrow their limits; then the whole change is rejected.
-/
namespace TmuxWorktree
namespace Outbox

variable {C : Core} {s s' : State} {e : Entry} {es : List Entry} {n : Nat}

/-! ## The change -/

/-- `RelayV2OutboxAction.HostEpochChanged`. -/
structure EpochChange where
  profileId : String
  principalId : String
  hostId : String
  previousHostEpoch : String
  observedHostEpoch : String
  currentDedupeWindowId : String
  oldLineage : OldLineageAvailability

namespace EpochChange

variable (c : EpochChange)

def action : Action :=
  .hostEpochChanged c.profileId c.principalId c.hostId c.previousHostEpoch c.observedHostEpoch c.currentDedupeWindowId
    c.oldLineage

def matching (e : Entry) : Bool := e.queryAuthority = (c.profileId, c.principalId, c.hostId, c.previousHostEpoch)

def retarget (C : Core) (e : Entry) : Entry :=
  if c.matching e then
    ((e.epochChanged C c.observedHostEpoch c.currentDedupeWindowId c.oldLineage).map Prod.fst).getD e
  else e

/-- The queued entry would go back to the target that it was confirmed for last. -/
def goesBack (e : Entry) : Bool :=
  c.matching e && e.state = .queued &&
    e.targetProvenance.lastConfirmed.expectedHostEpoch = c.observedHostEpoch &&
    e.targetProvenance.lastConfirmed.dedupeWindowId = c.currentDedupeWindowId

end EpochChange

/-- The entries keep within the limits on bytes, and within the capacity of the core. -/
def roomFor (C : Core) (es : List Entry) (next : Nat) : Bool :=
  (es.map Entry.cheapLowerBound).sum ≤ maxStateCanonicalBytes &&
    es.all (fun e => e.canonicalByteCount ≤ maxEntryCanonicalBytes) &&
    entryBytes es + stateCanonicalFixedBytes next ≤ maxStateCanonicalBytes &&
    State.withinCapacity C.capacity ⟨es, next, stateCanonicalFixedBytes next + entryBytes es⟩

/-- **The change can be made**: no queued entry goes back, and there is room for the entries as they move. -/
def EpochChange.comesForward (c : EpochChange) (C : Core) (s : State) : Bool :=
  !s.entries.any c.matching ||
    (!s.entries.any c.goesBack && roomFor C (s.entries.map (c.retarget C)) s.nextCreationOrder)

/-! ## One entry -/

/-- The three things that a change makes of an entry. -/
inductive Retargeted (C : Core) (c : EpochChange) (e : Entry) : Entry → Prop
  | kept (h : c.matching e = true → settled e.state = true ∧ e.state ≠ .queued ∨ e.state = .ambiguous) : Retargeted C c e e
  | moved (hm : c.matching e = true) (hq : e.state = .queued) :
    Retargeted C c e (e.moved C c.observedHostEpoch c.currentDedupeWindowId)
  | suspended (hm : c.matching e = true) (hi : interruptible e.state = true) (t : StateTag)
    (ht : t = .ambiguous ∨ t = .confirming) : Retargeted C c e { e with state := t }

theorem retarget_cases (c : EpochChange) : Retargeted C c e (c.retarget C e) := by
  unfold EpochChange.retarget
  by_cases hm : c.matching e = true
  · rw [if_pos hm]
    unfold Entry.epochChanged
    cases hst : e.state with
    | queued => exact .moved hm hst
    | sending => cases c.oldLineage <;> exact .suspended hm (by rw [hst]; rfl) _ (by simp)
    | accepted => cases c.oldLineage <;> exact .suspended hm (by rw [hst]; rfl) _ (by simp)
    | confirming => cases c.oldLineage <;> exact .suspended hm (by rw [hst]; rfl) _ (by simp)
    | succeeded => exact .kept fun _ => by simp [hst, settled]
    | failedFinal => exact .kept fun _ => by simp [hst, settled]
    | ambiguous => exact .kept fun _ => .inr hst
    | reissued => exact .kept fun _ => by simp [hst, settled]
  · rw [if_neg hm]
    exact .kept fun h => absurd h hm

/-- **What no change touches.** -/
structure Steady (e e' : Entry) : Prop where
  key : e'.key = e.key
  reissuedFrom : e'.reissuedFromCommandId = e.reissuedFromCommandId
  parentKey : e'.parentKey = e.parentKey
  order : e'.createdOrder = e.createdOrder
  attempts : e'.attempts = e.attempts
  arguments : e'.arguments = e.arguments
  provenance : e'.targetProvenance = e.targetProvenance

theorem Retargeted.steady {e' : Entry} {c : EpochChange} (h : Retargeted C c e e') : Steady e e' := by
  cases h <;> exact ⟨rfl, rfl, rfl, rfl, rfl, rfl, rfl⟩

theorem historyTail_moved {o w : String} : ∀ {i : Nat} {t : Target} {steps : List ConfirmedStep},
    historyTail C (e.moved C o w) i t steps = historyTail C e i t steps
  | _, _, [] => rfl
  | i, t, step :: rest => by
    unfold historyTail
    rw [historyTail_moved]
    rfl

theorem historyTail_state {t' : StateTag} : ∀ {i : Nat} {t : Target} {steps : List ConfirmedStep},
    historyTail C { e with state := t' } i t steps = historyTail C e i t steps
  | _, _, [] => rfl
  | i, t, step :: rest => by
    unfold historyTail
    rw [historyTail_state]
    rfl

theorem historyTail_matches : ∀ {i : Nat} {t tail : Target} {steps : List ConfirmedStep},
    historyTail C e i t steps = some tail → t.matchesFingerprint C e = true → tail.matchesFingerprint C e = true
  | _, _, _, [], h, ht => by
    cases h
    exact ht
  | i, t, tail, step :: rest, h, ht => by
    unfold historyTail at h
    split at h
    · rename_i hv
      simp only [ConfirmedStep.valid, Bool.and_eq_true, decide_eq_true_eq] at hv
      exact historyTail_matches h hv.2
    · cases h

theorem moved_target_eq {o w : String} (hv : e.valid C = true) :
    (e.moved C o w).target = e.targetProvenance.lastConfirmed ↔
      e.targetProvenance.lastConfirmed.expectedHostEpoch = o ∧ e.targetProvenance.lastConfirmed.dedupeWindowId = w := by
  have hc := e.valid_chained hv
  have hm := historyTail_matches hc.history hc.initial
  obtain ⟨hscope, hsession⟩ := historyTail_same hc.history
  obtain ⟨hes, het⟩ := e.valid_provenance hv
  constructor
  · intro h
    rw [← h]
    exact ⟨rfl, rfl⟩
  · rintro ⟨rfl, rfl⟩
    unfold Target.matchesFingerprint at hm
    rw [Bool.and_eq_true, decide_eq_true_eq] at hm
    have hfp := hm.2
    rw [hscope, hsession, ← hes, ← het] at hfp
    generalize e.targetProvenance.lastConfirmed = last at hscope hsession hfp ⊢
    cases last
    simp only [Entry.target, Entry.moved, Target.mk.injEq, true_and] at hscope hsession hfp ⊢
    exact ⟨hes.trans hscope.symm, het.trans hsession.symm, hfp.symm⟩

/-- **A moved entry is valid** unless it goes back. -/
theorem moved_valid {o w : String} (hv : e.valid C = true) (hq : e.state = .queued)
    (hne : (e.moved C o w).target ≠ e.targetProvenance.lastConfirmed) : (e.moved C o w).valid C = true := by
  obtain ⟨hop, -, hids, hord, hst, -, hproof, hc⟩ := Entry.valid_iff.mp hv
  refine Entry.valid_iff.mpr ⟨hop, rfl, hids, hord, hst, fun _ => hq, hproof, ?_⟩
  obtain ⟨hscope, hsession⟩ := historyTail_same hc.history
  obtain ⟨hes, het⟩ := e.valid_provenance hv
  refine ⟨hc.initial, historyTail_moved.trans hc.history, fun h => (nomatch h), ?_⟩
  intro pending hp
  cases hp
  have hsource : (e.targetRevalidation.map Revalidation.sourceConfirmedTarget).getD e.targetProvenance.lastConfirmed =
      e.targetProvenance.lastConfirmed := by
    cases hr : e.targetRevalidation with
    | none => rfl
    | some r => exact (hc.waiting r hr).2.1
  have hordinal : (e.targetRevalidation.map Revalidation.confirmationOrdinal).getD
      (e.targetProvenance.confirmedHistory.length + 1) = e.targetProvenance.confirmedHistory.length + 1 := by
    cases hr : e.targetRevalidation with
    | none => rfl
    | some r => exact (hc.waiting r hr).2.2.1
  refine ⟨rfl, hsource, hordinal, ?_, hne, hes.trans hscope.symm, het.trans hsession.symm⟩
  unfold Target.matchesFingerprint
  rw [Bool.and_eq_true]
  exact ⟨e.valid_shape hv, decide_eq_true rfl⟩

theorem suspended_valid {t : StateTag} (hv : e.valid C = true) (hi : interruptible e.state = true)
    (ht : t = .ambiguous ∨ t = .confirming) : ({ e with state := t } : Entry).valid C = true := by
  obtain ⟨hop, hfp, hids, hord, hst, hw, hproof, hc⟩ := Entry.valid_iff.mp hv
  have hnone : e.targetRevalidation = none := by
    cases hr : e.targetRevalidation with
    | none => rfl
    | some r =>
      rw [hw (by rw [hr]; rfl)] at hi
      cases hi
  refine Entry.valid_iff.mpr ⟨hop, hfp, hids, hord, ?_, ?_, hproof, ?_⟩
  · have hatt : e.attempts ≠ [] := by
      refine attempts_of_queryable hv ?_
      revert hi
      cases e.state <;> decide
    have hrep : e.replacementCommandId = none := by
      unfold Entry.stateValid at hst
      cases hs : e.state <;> simp_all [interruptible]
    unfold Entry.stateValid
    rcases ht with rfl | rfl <;> simp [hatt, hrep]
  · intro h
    rw [hnone] at h
    cases h
  · refine ⟨hc.initial, historyTail_state.trans hc.history, fun _ => hc.current hnone, ?_⟩
    intro pending hp
    rw [hnone] at hp
    cases hp

theorem Retargeted.valid {c : EpochChange} {e' : Entry} (h : Retargeted C c e e') (hv : e.valid C = true)
    (hback : c.goesBack e = false) : e'.valid C = true := by
  cases h with
  | kept => exact hv
  | moved hm hq =>
    refine moved_valid hv hq ?_
    rw [Ne, moved_target_eq hv]
    simpa [EpochChange.goesBack, hm, hq] using hback
  | suspended hm hi t ht => exact suspended_valid hv hi ht

/-! ## All entries -/

theorem Retargeted.authority {c : EpochChange} {e' : Entry} (h : Retargeted C c e e') (hv : e.valid C = true)
    (ha : e.attempts ≠ []) : e'.queryAuthority = e.queryAuthority := by
  cases h with
  | kept => rfl
  | moved hm hq => exact absurd (e.valid_queued hv hq).1 ha
  | suspended => rfl

theorem owned_map {g : Entry → Entry} (ha : ∀ e ∈ es, (g e).attempts = e.attempts) :
    owned (es.map g) = (owned es).map fun p => (g p.1, p.2) := by
  unfold owned
  rw [List.flatMap_map, List.map_flatMap]
  refine List.flatMap_congr ?_
  intro e he
  rw [ha e he, List.map_map]
  rfl

theorem attemptOwnershipValid_map {g : Entry → Entry} (ha : ∀ e ∈ es, (g e).attempts = e.attempts)
    (hq : ∀ e ∈ es, e.attempts ≠ [] → (g e).queryAuthority = e.queryAuthority) (h : attemptOwnershipValid es = true) :
    attemptOwnershipValid (es.map g) = true := by
  have hauth : ∀ p ∈ owned es, (g p.1).queryAuthority = p.1.queryAuthority := by
    intro p hp
    obtain ⟨e, he, hpe⟩ := List.mem_flatMap.mp hp
    obtain ⟨a, hae, rfl⟩ := List.mem_map.mp hpe
    exact hq e he (List.ne_nil_of_mem hae)
  rw [attemptOwnershipValid_iff, owned_map ha] at *
  intro p' hp'
  obtain ⟨p, hp, rfl⟩ := List.mem_map.mp hp'
  have ho := h p hp
  have hlen : (((owned es).map fun q => (g q.1, q.2)).filter fun q => decide (q.2.requestId = p.2.requestId)).length =
      ((owned es).filter fun q => decide (q.2.requestId = p.2.requestId)).length := by
    rw [List.filter_map, List.length_map]
    rfl
  refine ⟨?_, fun hk => hlen.trans (ho.execute hk), fun hk => hlen.trans_le (ho.query hk), ?_⟩
  · intro q' hq' hr
    obtain ⟨q, hqm, rfl⟩ := List.mem_map.mp hq'
    exact ho.kind q hqm hr
  · intro hk q' hq' hr
    obtain ⟨q, hqm, rfl⟩ := List.mem_map.mp hq'
    rw [hauth q hqm, hauth p hp]
    exact ho.authority hk q hqm hr

theorem replacementOf_map {g : Entry → Entry} (hp : ∀ e ∈ es, (g e).parentKey = e.parentKey)
    (key : String × String × String × String) : replacementOf (es.map g) key = (replacementOf es key).map g := by
  rw [replacementOf_eq_find, replacementOf_eq_find, List.find?_map]
  congr 1
  refine List.find?_congr ?_
  intro e he
  simp only [Function.comp_apply, hp e he]

theorem chainEnds_map {g : Entry → Entry} (hk : ∀ e ∈ es, (g e).key = e.key) (hp : ∀ e ∈ es, (g e).parentKey = e.parentKey) :
    ∀ (k : Nat) (key : String × String × String × String), chainEnds (es.map g) k key = chainEnds es k key
  | 0, key => by
    unfold chainEnds
    rw [replacementOf_map hp, Option.isNone_map]
  | k + 1, key => by
    unfold chainEnds
    rw [replacementOf_map hp]
    cases hr : replacementOf es key with
    | none => rfl
    | some child =>
      have hkey : (g child).key = child.key := hk child (List.mem_of_find?_eq_some hr)
      simp only [Entry.key] at hkey
      simp only [Option.map_some, hkey]
      exact chainEnds_map hk hp k _

theorem Replaces.retargeted {c : EpochChange} {parent child parent' child' : Entry} (h : Replaces C parent child)
    (hp : Retargeted C c parent parent') (hc : Retargeted C c child child') : Replaces C parent' child' := by
  have hparent : parent' = parent := by
    cases hp with
    | kept => rfl
    | moved hm hq => exact absurd (h.state.symm.trans hq) (by decide)
    | suspended hm hi t ht =>
      rw [h.state] at hi
      cases hi
  rw [hparent]
  cases hc with
  | kept => exact h
  | moved hm hq => exact ⟨h.key, h.state, h.command, h.intent⟩
  | suspended hm hi t ht => exact ⟨h.key, h.state, h.command, h.intent⟩

theorem Retargeted.reissued {c : EpochChange} {e' : Entry} (h : Retargeted C c e e') (hst : e'.state = .reissued) :
    e.state = .reissued := by
  cases h with
  | kept => exact hst
  | moved hm hq => exact hst
  | suspended hm hi t ht => rcases ht with rfl | rfl <;> cases hst

theorem reissueGraphValid_retarget (c : EpochChange) (h : reissueGraphValid C es = true) :
    reissueGraphValid C (es.map (c.retarget C)) = true := by
  rw [reissueGraphValid_iff] at h ⊢
  obtain ⟨hkeys, hparents, hparent, hchild, hends⟩ := h
  have hsteady : ∀ e, Steady e (c.retarget C e) := fun e => (retarget_cases c).steady
  refine ⟨?_, ?_, ?_, ?_, ?_⟩
  · have hsame : es.map (Entry.key ∘ c.retarget C) = es.map Entry.key :=
      List.map_congr_left fun e _ => (hsteady e).key
    rwa [List.map_map, hsame]
  · have hsame : es.filterMap (Entry.parentKey ∘ c.retarget C) = es.filterMap Entry.parentKey :=
      List.filterMap_congr fun e _ => (hsteady e).parentKey
    rwa [List.filterMap_map, hsame]
  · intro child' hc' p hp
    obtain ⟨child, hc, rfl⟩ := List.mem_map.mp hc'
    rw [(hsteady child).reissuedFrom] at hp
    obtain ⟨parent, hpm, hr⟩ := hparent child hc p hp
    exact ⟨_, List.mem_map_of_mem hpm, hr.retargeted (retarget_cases c) (retarget_cases c)⟩
  · intro parent' hp' hst
    obtain ⟨parent, hpm, rfl⟩ := List.mem_map.mp hp'
    obtain ⟨child, hc, hr⟩ := hchild parent hpm ((retarget_cases c).reissued hst)
    exact ⟨_, List.mem_map_of_mem hc, hr.retargeted (retarget_cases c) (retarget_cases c)⟩
  · intro e' he'
    obtain ⟨e, he, rfl⟩ := List.mem_map.mp he'
    rw [chainEnds_map (fun e _ => (hsteady e).key) (fun e _ => (hsteady e).parentKey), List.length_map, (hsteady e).key]
    exact hends e he

theorem roomFor_iff : roomFor C es n = true ↔
    (es.map Entry.cheapLowerBound).sum ≤ maxStateCanonicalBytes ∧
      (∀ e ∈ es, e.canonicalByteCount ≤ maxEntryCanonicalBytes) ∧
      entryBytes es + stateCanonicalFixedBytes n ≤ maxStateCanonicalBytes ∧
      State.withinCapacity C.capacity ⟨es, n, stateCanonicalFixedBytes n + entryBytes es⟩ = true := by
  unfold roomFor
  simp only [Bool.and_eq_true, decide_eq_true_eq, List.all_eq_true, and_assoc]

theorem withinCapacity_perm {es' : List Entry} {c : Capacity} {b : Nat} (h : es'.Perm es) :
    State.withinCapacity c ⟨es', n, b⟩ = State.withinCapacity c ⟨es, n, b⟩ := by
  unfold State.withinCapacity
  rw [h.length_eq, h.all_eq]

theorem ids_of_keys (h : (es.map Entry.key).Nodup) : (es.map Entry.id).Nodup := by
  have hmap : es.map Entry.key = (es.map Entry.id).map fun i => (i.profileId, i.principalId, i.hostId, i.commandId) := by
    rw [List.map_map]
    rfl
  rw [hmap] at h
  exact h.of_map

/-- **The entries of a change are restorable** when none goes back and there is room. -/
theorem Restorable.retarget (c : EpochChange) (h : Restorable C es n) (hback : ∀ e ∈ es, c.goesBack e = false)
    (hroom : roomFor C (es.map (c.retarget C)) n = true) : Restorable C (es.map (c.retarget C)) n := by
  obtain ⟨hcheap, hcount, hbytes, -⟩ := roomFor_iff.mp hroom
  have hsteady : ∀ e, Steady e (c.retarget C e) := fun e => (retarget_cases c).steady
  have hkeys := (reissueGraphValid_iff.mp (reissueGraphValid_retarget c h.graph)).1
  have hvalid : ∀ e ∈ es, e.valid C = true := fun e he => (h.checked e he).valid
  refine ⟨?_, ?_, hcheap, ids_of_keys hkeys, ?_, ?_, ?_, fun _ => hbytes, ?_, reissueGraphValid_retarget c h.graph⟩
  · rw [List.length_map]
    exact h.few
  · intro e' he'
    obtain ⟨e, he, rfl⟩ := List.mem_map.mp he'
    rw [(hsteady e).provenance, (hsteady e).attempts, (hsteady e).arguments]
    exact h.lists e he
  · have hsame : es.map (Entry.createdOrder ∘ c.retarget C) = es.map Entry.createdOrder :=
      List.map_congr_left fun e _ => (hsteady e).order
    rw [List.map_map, hsame]
    exact h.orders
  · intro e' he'
    obtain ⟨e, he, rfl⟩ := List.mem_map.mp he'
    rw [(hsteady e).order]
    exact h.below e he
  · intro e' he'
    obtain ⟨e, he, rfl⟩ := List.mem_map.mp he'
    have hc := h.checked e he
    refine ⟨?_, (retarget_cases c).valid hc.valid (hback e he), ?_, hcount _ he'⟩
    · rw [(hsteady e).provenance]
      exact hc.provenance
    · rw [(hsteady e).arguments]
      exact hc.arguments
  · exact attemptOwnershipValid_map (fun e _ => (hsteady e).attempts)
      (fun e he => (retarget_cases c).authority (hvalid e he)) h.ownership

theorem Restorable.came_forward (c : EpochChange) (hv : ∀ e ∈ es, e.valid C = true)
    (h : Restorable C (es.map (c.retarget C)) n) : ∀ e ∈ es, c.goesBack e = false := by
  intro e he
  by_contra hback
  simp only [EpochChange.goesBack, Bool.not_eq_false, Bool.and_eq_true, decide_eq_true_eq] at hback
  obtain ⟨⟨⟨hm, hq⟩, ho⟩, hw⟩ := hback
  have hmoved : c.retarget C e = e.moved C c.observedHostEpoch c.currentDedupeWindowId := by
    unfold EpochChange.retarget Entry.epochChanged
    simp only [hm, hq, if_true, Option.map_some, Option.getD_some]
  have hvalid := (h.checked _ (List.mem_map_of_mem he)).valid
  rw [hmoved] at hvalid
  exact ((Entry.valid_chained hvalid).waiting _ rfl).2.2.2.2.1 ((moved_target_eq (hv e he)).mpr ⟨ho, hw⟩)

/-! ## Applying the change -/

theorem mutate_replaces_ok : ∀ {batch : List (Entry × Entry)} {es : List Entry}, (es.map Entry.key).Nodup →
    (∀ p ∈ batch, p.1 ∈ es ∧ p.2.key = p.1.key) → batch.Pairwise (fun p q => p.1.id ≠ q.1.id) →
      ∃ es', mutate (replaces batch) es = .ok es'
  | [], es, _, _, _ => ⟨es, rfl⟩
  | p :: batch, es, hkeys, hmem, hapart => by
    rw [List.pairwise_cons] at hapart
    obtain ⟨hp, hkey⟩ := hmem p List.mem_cons_self
    have hids := ids_of_keys hkeys
    show ∃ es', mutate (.replace p.1.id p.2 :: replaces batch) es = .ok es'
    unfold mutate
    cases hf : es.findIdx? fun x => decide (x.id = p.1.id) with
    | none =>
      have := List.findIdx?_eq_none_iff.mp hf p.1 hp
      simp at this
    | some i =>
      have hset := set_eq_map (e := p.2) hids hf
      have hmapped : (es.set i p.2).map Entry.key = es.map Entry.key := by
        rw [hset, List.map_map]
        refine List.map_congr_left ?_
        intro x hx
        by_cases hxp : x.id = p.1.id
        · rw [Function.comp_apply, if_pos hxp, hkey, eq_of_map_nodup hids hx hp hxp]
        · rw [Function.comp_apply, if_neg hxp]
      have hfree : ((es.eraseIdx i).any fun x => decide (x.id = p.2.id)) = false := by
        rw [List.any_eq_false]
        intro x hx hxp
        obtain ⟨hi, hat, -⟩ := List.findIdx?_eq_some_iff_getElem.mp hf
        have hperm := List.getElem_cons_eraseIdx_perm hi
        have hhere : es[i] = p.1 := eq_of_map_nodup hids (List.getElem_mem hi) hp (of_decide_eq_true hat)
        have hnodup := (hperm.map Entry.key).nodup_iff.mpr hkeys
        rw [List.map_cons, List.nodup_cons] at hnodup
        have hxk : x.key = es[i].key := by
          rw [hhere, ← hkey]
          have hxid : x.id = p.2.id := of_decide_eq_true hxp
          simp only [Entry.id, EntryId.mk.injEq] at hxid
          simp only [Entry.key, Entry.lineageKey, hxid]
        exact hnodup.1 (hxk ▸ List.mem_map_of_mem hx)
      simp only [hfree, Bool.false_eq_true, if_false]
      refine mutate_replaces_ok (hmapped ▸ hkeys) ?_ hapart.2
      intro q hq
      obtain ⟨hqm, hqk⟩ := hmem q (List.mem_cons_of_mem p hq)
      refine ⟨?_, hqk⟩
      rw [hset]
      exact List.mem_map.mpr ⟨q.1, hqm, if_neg (hapart.1 q hq).symm⟩

namespace EpochChange

variable (c : EpochChange)

def batch (C : Core) (s : State) : List (Entry × Entry) :=
  (s.entries.filter c.matching).filterMap fun e =>
    (e.epochChanged C c.observedHostEpoch c.currentDedupeWindowId c.oldLineage).map fun x => (e, x.1)

theorem transaction_eq : transaction C s c.action = replaces (c.batch C s) := by
  simp only [transaction, action, replaces, batch, List.map_filterMap, Option.map_map]
  rfl

theorem mem_batch {p : Entry × Entry} (h : p ∈ c.batch C s) : p.1 ∈ s.entries ∧ p.2 = c.retarget C p.1 := by
  obtain ⟨e, he, hp⟩ := List.mem_filterMap.mp h
  obtain ⟨x, hx, rfl⟩ := Option.map_eq_some_iff.mp hp
  obtain ⟨hes, hm⟩ := List.mem_filter.mp he
  refine ⟨hes, ?_⟩
  simp only [retarget, hm, if_true, hx, Option.map_some, Option.getD_some]

theorem mutate_batch (hs : s.Sound C) : mutate (replaces (c.batch C s)) s.entries = .ok (s.entries.map (c.retarget C)) := by
  have hkey : ∀ p ∈ c.batch C s, p.1 ∈ s.entries ∧ p.2.key = p.1.key := by
    intro p hp
    obtain ⟨hmem, heq⟩ := c.mem_batch hp
    exact ⟨hmem, by rw [heq]; exact (retarget_cases c).steady.key⟩
  have hsub : ((c.batch C s).map Prod.fst).Sublist s.entries := by
    refine List.Sublist.trans ?_ (List.filter_sublist (p := c.matching))
    have hshape : (c.batch C s).map Prod.fst = ((s.entries.filter c.matching).filterMap fun e =>
        ((e.epochChanged C c.observedHostEpoch c.currentDedupeWindowId c.oldLineage).map Prod.fst).map
          fun x => (e, x)).map Prod.fst := by
      simp only [batch, Option.map_map]
      rfl
    rw [hshape]
    exact chosen_sublist
  have hapart : (c.batch C s).Pairwise fun p q => p.1.id ≠ q.1.id := by
    have hnodup := (hsub.map Entry.id).nodup hs.entries.ids
    rw [List.map_map] at hnodup
    exact List.pairwise_map.mp hnodup
  obtain ⟨es', hes⟩ := mutate_replaces_ok hs.entries.keys hkey hapart
  have hboth : (c.batch C s).Pairwise fun p q => p.1.id ≠ q.1.id ∧ p.2.id ≠ q.1.id := by
    refine hapart.imp_of_mem ?_
    intro p q hp hq hne
    refine ⟨hne, ?_⟩
    intro heq
    obtain ⟨hpm, hpk⟩ := hkey p hp
    refine hne (congrArg Entry.id (eq_of_map_nodup hs.entries.keys hpm (hkey q hq).1 ?_))
    rw [← hpk]
    simp only [Entry.id, EntryId.mk.injEq] at heq
    simp only [Entry.key, Entry.lineageKey, heq]
  rw [hes, mutate_replaces hs.entries.ids hboth hes]
  congr 1
  refine List.map_congr_left ?_
  intro e he
  rcases patch_cases hs.entries.ids (fun p hp => (c.mem_batch hp).1) he with ⟨p, hp, rfl, hpatch⟩ | ⟨hother, hpatch⟩
  · rw [hpatch, (c.mem_batch hp).2]
  · rw [hpatch]
    unfold retarget
    split
    · rename_i hm
      cases hx : e.epochChanged C c.observedHostEpoch c.currentDedupeWindowId c.oldLineage with
      | none => rfl
      | some x =>
        refine absurd rfl (hother (e, x.1) ?_)
        exact List.mem_filterMap.mpr ⟨e, List.mem_filter.mpr ⟨he, hm⟩, by rw [hx]; rfl⟩
    · rfl

theorem applied_entries {s' : State} {effs : List Effect} (hs : s.Sound C) (hr : s.Restored C)
    (hcap : s.entries ≠ [] → s.withinCapacity C.capacity = true) (hne : s.entries ≠ [])
    (h : reduce C s c.action = .applied s' effs) :
    s'.entries.Perm (s.entries.map (c.retarget C)) ∧ Restorable C (s.entries.map (c.retarget C)) s.nextCreationOrder ∧
      s'.withinCapacity C.capacity = true ∧
      s'.canonicalByteCount = stateCanonicalFixedBytes s.nextCreationOrder + entryBytes (s.entries.map (c.retarget C)) ∧
      s'.nextCreationOrder = s.nextCreationOrder := by
  have hp := reduce_planned h
  unfold Planned at hp
  have hnone : inserted (replaces (c.batch C s)) = 0 := inserted_replaces
  rw [transaction_eq, hnone, Nat.add_zero] at hp
  obtain ⟨-, ⟨hms, rfl⟩ | ⟨es, hes, hrest, hcap'⟩⟩ := apply_cases hp
  · have hsame := c.mutate_batch hs
    rw [hms] at hsame
    have hsame : s'.entries = s'.entries.map (c.retarget C) := Except.ok.inj hsame
    obtain ⟨hrestorable, heq⟩ := restore_ok_iff.mp hr
    rw [← hsame]
    exact ⟨.refl _, hrestorable, hcap hne, congrArg State.canonicalByteCount heq, rfl⟩
  · rw [c.mutate_batch hs] at hes
    cases hes
    obtain ⟨hrestorable, rfl⟩ := restore_ok_iff.mp hrest
    exact ⟨List.perm_insertionSort createdBefore _, hrestorable, hcap', rfl, rfl⟩

theorem applied_of_comesForward (hs : s.Sound C) (hr : s.Restored C) (hfound : s.entries.any c.matching = true)
    (h : c.comesForward C s = true) : ∃ s' effs, reduce C s c.action = .applied s' effs := by
  unfold comesForward at h
  rw [hfound, Bool.not_true, Bool.false_or, Bool.and_eq_true, Bool.not_eq_true'] at h
  obtain ⟨hback, hroom⟩ := h
  have hback : ∀ e ∈ s.entries, c.goesBack e = false := by
    intro e he
    simpa using List.any_eq_false.mp hback e he
  obtain ⟨hrestorable, -⟩ := restore_ok_iff.mp hr
  have hnew := hrestorable.retarget c hback hroom
  have hrest := restore_ok_iff.mpr ⟨hnew, rfl⟩
  have hcap : State.withinCapacity C.capacity ⟨(s.entries.map (c.retarget C)).insertionSort createdBefore,
      s.nextCreationOrder, stateCanonicalFixedBytes s.nextCreationOrder + entryBytes (s.entries.map (c.retarget C))⟩ =
      true := by
    rw [withinCapacity_perm (List.perm_insertionSort createdBefore _)]
    exact (roomFor_iff.mp hroom).2.2.2
  have hempty : (s.entries.filter c.matching).isEmpty = false := by
    obtain ⟨e, he, hm⟩ := List.any_eq_true.mp hfound
    exact List.isEmpty_eq_false_iff.mpr (List.ne_nil_of_mem (List.mem_filter.mpr ⟨he, hm⟩))
  have hms := c.transaction_eq (C := C) (s := s)
  simp only [transaction, action] at hms
  show ∃ s' effs, hostEpochChanged C s c.profileId c.principalId c.hostId c.previousHostEpoch c.observedHostEpoch
    c.currentDedupeWindowId c.oldLineage = .applied s' effs
  unfold hostEpochChanged
  have hfilter : (s.entries.filter fun e => decide (e.queryAuthority =
      (c.profileId, c.principalId, c.hostId, c.previousHostEpoch))) = s.entries.filter c.matching := rfl
  rw [hfilter] at hms ⊢
  dsimp only
  rw [hempty, if_neg Bool.false_ne_true]
  simp only [List.map_filterMap, Option.map_map] at hms ⊢
  have hms' : List.filterMap (fun e => Option.map ((fun p : Entry × Entry × List Effect => Mutation.replace p.1.id p.2.1) ∘
      fun x => (e, x)) (e.epochChanged C c.observedHostEpoch c.currentDedupeWindowId c.oldLineage))
      (s.entries.filter c.matching) = replaces (c.batch C s) := hms
  rw [hms']
  unfold apply
  split
  · exact ⟨_, _, rfl⟩
  · rw [c.mutate_batch hs]
    dsimp only
    rw [hrest]
    dsimp only
    rw [if_pos hcap]
    exact ⟨_, _, rfl⟩

/-- **A change is applied exactly when it can be made.** -/
theorem applied_iff (hs : s.Sound C) (hr : s.Restored C) (hcap : s.entries ≠ [] → s.withinCapacity C.capacity = true)
    (hfound : s.entries.any c.matching = true) :
    (∃ s' effs, reduce C s c.action = .applied s' effs) ↔ c.comesForward C s = true := by
  refine ⟨?_, c.applied_of_comesForward hs hr hfound⟩
  rintro ⟨s', effs, h⟩
  have hne : s.entries ≠ [] := by
    obtain ⟨e, he, -⟩ := List.any_eq_true.mp hfound
    exact List.ne_nil_of_mem he
  obtain ⟨hperm, hnew, hcap', hbytes, hnext⟩ := c.applied_entries hs hr hcap hne h
  have hback := hnew.came_forward c hs.entries.valid
  unfold comesForward
  rw [hfound, Bool.not_true, Bool.false_or, Bool.and_eq_true, Bool.not_eq_true', List.any_eq_false, roomFor_iff]
  have hmapped : s.entries.map (c.retarget C) ≠ [] := by
    rw [Ne, List.map_eq_nil_iff]
    exact hne
  refine ⟨fun e he => by simp [hback e he], hnew.cheap, fun e he => (hnew.checked e he).bytes, hnew.bytes hmapped, ?_⟩
  rw [← withinCapacity_perm hperm, ← hbytes, ← hnext]
  exact hcap'

/-! ## What a change has to make -/

/-- **The queued entries of the previous epoch wait in the observed one, and what was in flight is confirmed in the old
lineage or is ambiguous.** -/
structure Made (s s' : State) : Prop where
  queued : ∀ e ∈ s.entries, c.matching e = true → e.state = .queued →
    ∃ e' ∈ s'.entries, e'.createdOrder = e.createdOrder ∧ e'.state = .queued ∧
      e'.expectedHostEpoch = c.observedHostEpoch ∧ e'.dedupeWindowId = c.currentDedupeWindowId ∧
      ∃ r, e'.targetRevalidation = some r ∧ r.observedHostEpoch = c.observedHostEpoch ∧
        r.dedupeWindowId = c.currentDedupeWindowId ∧ r.sourceConfirmedTarget = e.targetProvenance.lastConfirmed
  flying : ∀ e ∈ s.entries, c.matching e = true → e.state = .sending ∨ e.state = .accepted ∨ e.state = .confirming →
    ∃ e' ∈ s'.entries, e'.createdOrder = e.createdOrder ∧ (e'.state = .confirming ∨ e'.state = .ambiguous)

theorem made_of_entries {s' : State} (hs : s.Sound C) (h : s'.entries.Perm (s.entries.map (c.retarget C))) :
    c.Made s s' := by
  refine ⟨?_, ?_⟩
  · intro e he hm hq
    refine ⟨c.retarget C e, h.mem_iff.mpr (List.mem_map_of_mem he), (retarget_cases c).steady.order, ?_⟩
    have hmoved : c.retarget C e = e.moved C c.observedHostEpoch c.currentDedupeWindowId := by
      unfold retarget Entry.epochChanged
      simp only [hm, hq, if_true, Option.map_some, Option.getD_some]
    rw [hmoved]
    refine ⟨hq, rfl, rfl, _, rfl, rfl, rfl, ?_⟩
    cases hr : e.targetRevalidation with
    | none => rfl
    | some r => exact ((e.valid_chained (hs.entries.valid e he)).waiting r hr).2.1
  · intro e he hm hf
    refine ⟨c.retarget C e, h.mem_iff.mpr (List.mem_map_of_mem he), (retarget_cases c).steady.order, ?_⟩
    unfold retarget Entry.epochChanged
    rw [if_pos hm]
    rcases hf with hst | hst | hst <;> cases c.oldLineage <;> simp [hst]

/-- **The change is applied, and makes what it has to**, when an entry is of the previous epoch. -/
def Applies (C : Core) (s : State) : Prop :=
  (∃ e ∈ s.entries, c.matching e = true) → ∃ s' effects, reduce C s c.action = .applied s' effects ∧ c.Made s s'

/-- **Nothing runs unconfirmed after the change.**  Whatever is executed later is a chain of targets that ends where it is
sent to, with the fingerprint of its epoch and window; an entry that the change moved was confirmed on the way, for the
scope and the session that it had. -/
def ConfirmedFirst (C : Core) (past : List Action) : Prop :=
  ∀ between a command attempt delay,
    .executeCommand command attempt delay ∈ (next C (run C (past ++ c.action :: between)).state a).2 →
      ∃ x ∈ (run C (past ++ c.action :: between)).state.entries, command = x.command ∧
        x.requestFingerprint = C.fingerprint x.operation x.dedupeWindowId x.expectedHostEpoch x.hostId x.scopeId
          x.sessionId x.arguments ∧
        x.Chained C ∧ x.target = x.targetProvenance.lastConfirmed ∧
        ∀ e ∈ (run C past).state.entries, c.matching e = true → e.state = .queued → e.createdOrder = x.createdOrder →
          (∃ s' effects, reduce C (run C past).state c.action = .applied s' effects) →
            ∃ before d after, between = before ++ d :: after ∧
              ∃ y ∈ (run C (past ++ c.action :: before)).state.entries, y.createdOrder = e.createdOrder ∧
                y.scopeId = e.scopeId ∧ y.sessionId = e.sessionId ∧
                Confirms C (run C (past ++ c.action :: before)).state d y

theorem run_append (past : List Action) (a : Action) (rest : List Action) :
    run C (past ++ a :: rest) = rest.foldl (Log.step C) ((run C past).step C a) := by
  simp [run]

theorem confirmedFirst (past : List Action) : c.ConfirmedFirst C past := by
  intro between a command attempt delay hmem
  have hk := run_kept (C := C) (past ++ c.action :: between)
  obtain ⟨x, hx, hnone, hcmd⟩ := executed_confirmed hk hmem
  have hv := hk.sound.entries.valid x hx
  have hc := x.valid_chained hv
  refine ⟨x, hx, hcmd, (Entry.valid_iff.mp hv).2.1, hc, hc.current hnone, ?_⟩
  intro e he hm hq horder happ
  have hk₀ := run_kept (C := C) past
  obtain ⟨s', effs, happ⟩ := happ
  obtain ⟨hperm, -⟩ := c.applied_entries hk₀.sound (run_restored past) (run_withinCapacity past)
    (List.ne_nil_of_mem he) happ
  have hstate : ((run C past).step C c.action).state = s' := by
    simp only [Log.step, next, happ]
  -- the moved entry waits right after the change
  have hwaits : StillWaits ((run C past).step C c.action).state e := by
    have hmoved : c.retarget C e = e.moved C c.observedHostEpoch c.currentDedupeWindowId := by
      unfold retarget Entry.epochChanged
      simp only [hm, hq, if_true, Option.map_some, Option.getD_some]
    rw [hstate]
    refine ⟨c.retarget C e, hperm.mem_iff.mpr (List.mem_map_of_mem he), ?_⟩
    rw [hmoved]
    exact ⟨rfl, rfl, rfl, rfl⟩
  rcases waits_run between (Log.step_kept hk₀ c.action) hwaits with
    ⟨z, hz, hzo, -, -, hzw⟩ | ⟨before, d, after, hsplit, y, hy, hyo, hys, hyt, hconf⟩
  · rw [← run_append] at hz
    have hzx : z = x := eq_of_map_nodup hk.sound.entries.orders hz hx (hzo.trans horder)
    rw [hzx, hnone] at hzw
    cases hzw
  · rw [← run_append] at hy hconf
    exact ⟨before, d, after, hsplit, y, hy, hyo, hys, hyt, hconf⟩

/-- The host comes back to its first epoch and to the window that it had there. -/
def sampleReturn : EpochChange := ⟨"p", "u", "h", "e2", "e1", "w1", .queryable⟩

def isApplied : Result → Bool
  | .applied _ _ => true
  | _ => false

end EpochChange

end Outbox
end TmuxWorktree
