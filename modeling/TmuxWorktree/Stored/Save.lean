import TmuxWorktree.Stored.Tags
import TmuxWorktree.Canonical.Canon
import TmuxWorktree.Strict.Unique
/-!
# Save — what is saved of a state, and loaded again (`store.ts`)

Of the targets that are gone the 64 most recently updated are kept, without their journals.  What is saved is a text of
JSON; loading it gives the compacted state, in which a negative zero has become zero.
-/
namespace TmuxWorktree
namespace Stored

open Utf16 Grammar
open Request (Record field isRecord exactKeys dateParse)
open Canonical (Parses)

/-! ## `saveTerminalControlState` -/

def maxRetiredTargets : Nat := 64

def targetId (target : Value) : Text := memberText target "controlTargetId"

/-- `Date.parse(target.updatedAt)`. -/
def updatedAtMs (target : Value) : Int := (dateParse (memberText target "updatedAt")).getD 0

def isGone (target : Value) : Bool := equals (member (some target) "lifecycle") "TARGET_GONE"

/-- `{ ...record, key: value }`, of a member that is there. -/
def set (record : Record) (key : String) (value : Value) : Record :=
  record.map fun f => if f.1 = ofString key then (f.1, value) else f

/-- `{ ...target, completedOperations: [] }`. -/
def emptied : Value → Value
  | .object record => .object (set record "completedOperations" (.array []))
  | v => v

section Compaction

variable (localeCompare : Text → Text → Int)

def compareGone (left right : Value) : Int :=
  let difference := updatedAtMs right - updatedAtMs left
  if difference ≠ 0 then difference else localeCompare (targetId right) (targetId left)

/-- The targets that are gone and kept. -/
def retainedGone (targets : List Value) : List Value :=
  ((targets.filter isGone).mergeSort fun left right => compareGone localeCompare left right ≤ 0).take maxRetiredTargets

def retainedGoneIds (targets : List Value) : List Text := (retainedGone localeCompare targets).map targetId

def compactTargets (targets : List Value) : List Value :=
  targets.flatMap fun target =>
    if !isGone target then [target]
    else if !(retainedGoneIds localeCompare targets).contains (targetId target) then []
    else [emptied target]

def compact : Value → Value
  | .object record =>
    .object (set record "targets" (.array (compactTargets localeCompare (elements (field record "targets")))))
  | v => v

/-- What `saveTerminalControlState` writes. -/
def saveTerminalControlState (state : Value) : Except Text Text := do
  let validated ← parseTerminalControlState state
  let compacted ← parseTerminalControlState (compact localeCompare validated)
  return compacted.text ++ [0x0A]

end Compaction

/-- `loadTerminalControlState`, of a file with these contents. -/
def Loads (contents : Text) (state : Value) : Prop := ∃ v, Parses contents v ∧ parseTerminalControlState v = .ok state

/-! ## Records -/

theorem field_set_self {record : Record} {key : String} {v : Value} (h : field record key = some v) (u : Value) :
    field (set record key u) key = some u := by
  have hcomp : ((fun f : Text × Value => decide (f.1 = ofString key)) ∘
      fun f => if f.1 = ofString key then (f.1, u) else f) = fun f => decide (f.1 = ofString key) := by
    funext f
    simp only [Function.comp]
    split <;> simp_all
  unfold field at h ⊢
  unfold set
  rw [← List.map_reverse, List.find?_map, hcomp]
  cases hfind : record.reverse.find? (fun f => decide (f.1 = ofString key)) with
  | none => rw [hfind] at h; cases h
  | some f =>
    have hf := List.find?_some hfind
    simp_all

theorem field_set_ne {record : Record} {key key' : String} (h : ofString key' ≠ ofString key) (u : Value) :
    field (set record key u) key' = field record key' := by
  have hcomp : ((fun f : Text × Value => decide (f.1 = ofString key')) ∘
      fun f => if f.1 = ofString key then (f.1, u) else f) = fun f => decide (f.1 = ofString key') := by
    funext f
    simp only [Function.comp]
    split <;> simp_all
  unfold field set
  rw [← List.map_reverse, List.find?_map, hcomp]
  cases hfind : record.reverse.find? (fun f => decide (f.1 = ofString key')) with
  | none => rfl
  | some f =>
    have hf := List.find?_some hfind
    rw [decide_eq_true_eq] at hf
    simp only [Option.map_some, Option.some.injEq]
    rw [if_neg (by rw [hf]; exact h)]

theorem set_keys (record : Record) (key : String) (u : Value) : (set record key u).map Prod.fst = record.map Prod.fst := by
  unfold set
  rw [List.map_map]
  refine List.map_congr_left fun f _ => ?_
  simp only [Function.comp]
  split <;> rfl

theorem field_isSome (record : Record) (key : String) :
    (field record key).isSome = (record.map Prod.fst).any (fun k => decide (k = ofString key)) := by
  unfold field
  rw [Option.isSome_map, List.any_map, Bool.eq_iff_iff, List.find?_isSome, List.any_eq_true]
  simp only [List.mem_reverse, Function.comp]

theorem exactKeys_congr {record record' : Record} (h : record.map Prod.fst = record'.map Prod.fst) (must may : List String) :
    exactKeys record must may = exactKeys record' must may := by
  have hall (r : Record) : r.all (fun f => (must ++ may).any fun key => f.1 = ofString key) =
      (r.map Prod.fst).all fun k => (must ++ may).any fun key => k = ofString key := by
    rw [List.all_map]
    rfl
  unfold exactKeys
  simp only [field_isSome, hall, h]

/-! ## The compacted state -/

theorem emptied_valid {target : Value} (h : isTarget target = .ok true) : isTarget (emptied target) = .ok true := by
  simp only [isTarget, onRecord_eq, Option.some.injEq] at h
  obtain ⟨record, rfl, h⟩ := h
  simp only [allOf_cons, allOf_nil, and_true, isArrayOf_eq] at h
  obtain ⟨hkeys, hid, hlifecycle, hsession, hbackend, hgeneration, hownership, hrevision, ⟨operations, hc, -⟩, hflight, -, -,
    hrecovery, hneeded, hidle, hfree, hat⟩ := h
  have hother {key : String} (hne : ofString key ≠ ofString "completedOperations") :
      field (set record "completedOperations" (.array [])) key = field record key := field_set_ne hne (.array [])
  have hself := field_set_self hc (.array [])
  have hids : operationIds (set record "completedOperations" (.array [])) = [] := by
    unfold operationIds
    rw [hself]
    rfl
  simp only [isTarget, onRecord_eq, Option.some.injEq, emptied]
  refine ⟨_, rfl, ?_⟩
  simp only [allOf_cons, allOf_nil, and_true, isArrayOf_eq]
  rw [exactKeys_congr (set_keys record _ _), hself, hids, hother (by decide), hother (by decide), hother (by decide), hother (by decide),
    hother (by decide), hother (by decide), hother (by decide), hother (by decide), hother (by decide), hother (by decide)]
  refine ⟨hkeys, hid, hlifecycle, hsession, hbackend, hgeneration, hownership, hrevision, ⟨[], rfl, by simp⟩, hflight, rfl, ?_,
    hrecovery, hneeded, hidle, hfree, hat⟩
  exact whenPresent_eq.mpr fun _ _ => rfl

theorem targetId_emptied (target : Value) : targetId (emptied target) = targetId target := by
  cases target with
  | object record =>
    have hne : ofString "controlTargetId" ≠ ofString "completedOperations" := by decide
    simp only [targetId, emptied, memberText, member_object, field_set_ne hne]
  | _ => rfl

/-- What is saved of a target that is kept. -/
def settled (target : Value) : Value := if isGone target then emptied target else target

theorem targetId_settled (target : Value) : targetId (settled target) = targetId target := by
  unfold settled
  split
  · exact targetId_emptied target
  · rfl

theorem settled_valid {target : Value} (h : isTarget target = .ok true) : isTarget (settled target) = .ok true := by
  unfold settled
  split
  · exact emptied_valid h
  · exact h

section Compaction

variable (localeCompare : Text → Text → Int)

def keptTargets (targets : List Value) : List Value :=
  targets.filter fun target => !isGone target || (retainedGoneIds localeCompare targets).contains (targetId target)

theorem compactTargets_eq (targets : List Value) :
    compactTargets localeCompare targets = (keptTargets localeCompare targets).map settled := by
  unfold compactTargets keptTargets
  generalize retainedGoneIds localeCompare targets = ids
  induction targets with
  | nil => rfl
  | cons target targets ih =>
    rw [List.flatMap_cons, List.filter_cons, ih]
    cases hgone : isGone target with
    | false => simp [settled, hgone]
    | true => cases ids.contains (targetId target) <;> simp [settled, hgone]

theorem accepted_compact {state : Value} {record : Record} {targets : List Value} (h : Accepted state record targets) :
    Accepted (compact localeCompare state) (set record "targets" (.array (compactTargets localeCompare targets)))
      (compactTargets localeCompare targets) := by
  have hversion : ofString "version" ≠ ofString "targets" := by decide
  have hepoch : ofString "controlEpoch" ≠ ofString "targets" := by decide
  have hids : (compactTargets localeCompare targets).map (fun target => memberText target "controlTargetId") =
      (keptTargets localeCompare targets).map fun target => memberText target "controlTargetId" := by
    rw [compactTargets_eq, List.map_map]
    exact List.map_congr_left fun target _ => targetId_settled target
  refine ⟨?_, ?_, ?_, ?_, field_set_self h.array _, ?_, ?_⟩
  · rw [h.value, compact, h.array]
    rfl
  · rw [exactKeys_congr (set_keys record _ _)]
    exact h.keys
  · rw [field_set_ne hversion]
    exact h.version
  · rw [field_set_ne hepoch]
    exact h.epoch
  · intro target hmem
    rw [compactTargets_eq] at hmem
    obtain ⟨kept, hkept, rfl⟩ := List.mem_map.mp hmem
    exact settled_valid (h.valid kept (List.mem_filter.mp hkept).1)
  · rw [hids]
    exact h.ids.sublist (List.filter_sublist.map _)

end Compaction

/-! ## The targets that are kept -/

/-- A comparison by which strings can be sorted. -/
structure Consistent (localeCompare : Text → Text → Int) : Prop where
  total : ∀ s t, localeCompare s t ≤ 0 ∨ localeCompare t s ≤ 0
  trans : ∀ s t u, localeCompare s t ≤ 0 → localeCompare t u ≤ 0 → localeCompare s u ≤ 0

section Kept

variable {localeCompare : Text → Text → Int} (hcompare : Consistent localeCompare)
include hcompare

theorem compareGone_total (a b : Value) :
    compareGone localeCompare a b ≤ 0 ∨ compareGone localeCompare b a ≤ 0 := by
  unfold compareGone
  by_cases h : updatedAtMs b - updatedAtMs a = 0
  · have h' : updatedAtMs a - updatedAtMs b = 0 := by omega
    simp only [h, h', ne_eq, not_true, if_false]
    exact hcompare.total _ _
  · have h' : updatedAtMs a - updatedAtMs b ≠ 0 := by omega
    simp only [ne_eq, h, h', not_false_eq_true, if_true]
    omega

theorem compareGone_trans {a b c : Value} (hab : compareGone localeCompare a b ≤ 0) (hbc : compareGone localeCompare b c ≤ 0) :
    compareGone localeCompare a c ≤ 0 := by
  unfold compareGone at *
  simp only [ne_eq, ite_not] at *
  split at hab
  · split at hbc
    · rw [if_pos (by omega)]
      exact hcompare.trans _ _ _ hbc hab
    · rw [if_neg (by omega)]
      omega
  · split at hbc
    · rw [if_neg (by omega)]
      omega
    · rw [if_neg (by omega)]
      omega

theorem sortedGone (targets : List Value) :
    ((targets.filter isGone).mergeSort fun left right => compareGone localeCompare left right ≤ 0).Pairwise
      fun left right => updatedAtMs right ≤ updatedAtMs left := by
  refine (List.pairwise_mergeSort (fun a b c hab hbc => ?_) (fun a b => ?_) _).imp fun {a b} h => ?_
  · simp only [decide_eq_true_eq] at *
    exact compareGone_trans hcompare hab hbc
  · simp only [Bool.or_eq_true, decide_eq_true_eq]
    exact compareGone_total hcompare a b
  · simp only [decide_eq_true_eq, compareGone, ne_eq, ite_not] at h
    split at h <;> omega

omit hcompare in
theorem retained_of_id {targets : List Value} (hids : (targets.map targetId).Nodup) {target : Value} (hmem : target ∈ targets)
    (h : targetId target ∈ retainedGoneIds localeCompare targets) : target ∈ retainedGone localeCompare targets := by
  obtain ⟨retained, hretained, heq⟩ := List.mem_map.mp h
  have hin : retained ∈ targets := (List.mem_filter.mp (List.mem_mergeSort.mp (List.mem_of_mem_take hretained))).1
  rwa [List.inj_on_of_nodup_map hids hmem hin heq.symm]

omit hcompare in
theorem kept_gone {targets : List Value} (hids : (targets.map targetId).Nodup) {target : Value} (hmem : target ∈ targets)
    (hgone : isGone target = true) :
    target ∈ keptTargets localeCompare targets ↔ target ∈ retainedGone localeCompare targets := by
  unfold keptTargets
  rw [List.mem_filter, hgone]
  simp only [hmem, true_and, Bool.not_true, Bool.false_or, List.contains_iff_mem]
  exact ⟨retained_of_id hids hmem, fun h => List.mem_map_of_mem h⟩

omit hcompare in
theorem kept_gone_count {targets : List Value} (hids : (targets.map targetId).Nodup) :
    ((keptTargets localeCompare targets).filter isGone).length = min maxRetiredTargets (targets.filter isGone).length := by
  have hsorted := List.mergeSort_perm (targets.filter isGone) fun left right => compareGone localeCompare left right ≤ 0
  have hfilter : (keptTargets localeCompare targets).filter isGone = (targets.filter isGone).filter fun target =>
      (retainedGoneIds localeCompare targets).contains (targetId target) := by
    unfold keptTargets
    rw [List.filter_filter, List.filter_filter]
    refine List.filter_congr fun target _ => ?_
    cases isGone target <;> simp
  have hnodup : (retainedGone localeCompare targets ++ ((targets.filter isGone).mergeSort fun left right =>
      compareGone localeCompare left right ≤ 0).drop maxRetiredTargets).Nodup := by
    rw [retainedGone, List.take_append_drop]
    exact hsorted.nodup_iff.mpr ((List.Nodup.of_map _ hids).filter _)
  have htake : (((targets.filter isGone).mergeSort fun left right => compareGone localeCompare left right ≤ 0).take
      maxRetiredTargets).filter (fun target => (retainedGoneIds localeCompare targets).contains (targetId target)) =
      retainedGone localeCompare targets :=
    List.filter_eq_self.mpr fun target hmem => List.contains_iff_mem.mpr (List.mem_map_of_mem hmem)
  have hdrop : (((targets.filter isGone).mergeSort fun left right => compareGone localeCompare left right ≤ 0).drop
      maxRetiredTargets).filter (fun target => (retainedGoneIds localeCompare targets).contains (targetId target)) = [] := by
    refine List.filter_eq_nil_iff.mpr fun target hmem hid => ?_
    have hin : target ∈ targets := (List.mem_filter.mp (List.mem_mergeSort.mp (List.mem_of_mem_drop hmem))).1
    have hretained := retained_of_id hids hin (List.contains_iff_mem.mp hid)
    exact (List.nodup_append.mp hnodup).2.2 target hretained target hmem rfl
  rw [hfilter, ← (hsorted.filter _).length_eq,
    ← List.take_append_drop maxRetiredTargets ((targets.filter isGone).mergeSort _), List.filter_append, htake, hdrop,
    List.append_nil, retainedGone, List.length_take, List.length_mergeSort]

/-- **The targets that are dropped were not updated later than those that are kept.** -/
theorem dropped_gone {targets : List Value} (hids : (targets.map targetId).Nodup) {gone kept : Value}
    (hgone : gone ∈ targets) (hg : isGone gone = true) (hdropped : gone ∉ keptTargets localeCompare targets)
    (hkept : kept ∈ keptTargets localeCompare targets) (hk : isGone kept = true) : updatedAtMs gone ≤ updatedAtMs kept := by
  have hin : kept ∈ targets := (List.mem_filter.mp hkept).1
  have hretained := (kept_gone hids hin hk).mp hkept
  have hnot := fun h => hdropped ((kept_gone hids hgone hg).mpr h)
  have hsorted := sortedGone hcompare targets
  rw [← List.take_append_drop maxRetiredTargets ((targets.filter isGone).mergeSort _)] at hsorted
  have hdrop : gone ∈ ((targets.filter isGone).mergeSort fun left right =>
      compareGone localeCompare left right ≤ 0).drop maxRetiredTargets := by
    have hmem : gone ∈ (targets.filter isGone).mergeSort fun left right => compareGone localeCompare left right ≤ 0 :=
      List.mem_mergeSort.mpr (List.mem_filter.mpr ⟨hgone, hg⟩)
    rw [← List.take_append_drop maxRetiredTargets ((targets.filter isGone).mergeSort _)] at hmem
    rcases List.mem_append.mp hmem with hmem | hmem
    · exact absurd hmem hnot
    · exact hmem
  exact (List.pairwise_append.mp hsorted).2.2 kept hretained gone hdrop

end Kept

end Stored
end TmuxWorktree
