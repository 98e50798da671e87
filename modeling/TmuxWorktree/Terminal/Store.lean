import TmuxWorktree.Terminal.State
import Mathlib.Data.List.Sort
/-!
# Store — what `parseTerminalControlState` accepts and what `saveTerminalControlState` keeps

`parseTerminalControlState` runs on every load and twice on every save, so a record it rejects is never on disk.
`compact` is the retention rule of a save: the sixty-four youngest retired targets stay, with empty journals.
-/
namespace TmuxWorktree
namespace Terminal

/-! ## Scalars -/

/-- `value.length`: UTF-16 code units. -/
def utf16Length (s : String) : Nat := (s.toList.map (fun c => if c.toNat < 0x10000 then 1 else 2)).sum

/-- No `\0`, `\r` or `\n`. -/
def noControl (s : String) : Bool := s.toList.all (fun c => c ≠ '\x00' && c ≠ '\r' && c ≠ '\n')

def isStoredString (s : String) (max : Nat) : Bool := 0 < utf16Length s && utf16Length s ≤ max && noControl s

/-- The milliseconds that `toISOString` can print, and whose text `Date.parse` reads back. -/
def isCanonicalTimestamp (ms : Int) : Bool := -8640000000000000 ≤ ms && ms ≤ 8640000000000000

/-- `/^[a-f0-9]{64}$/`. -/
def isSha256Hex (s : String) : Bool :=
  s.toList.length = 64 && s.toList.all (fun c => ('0' ≤ c && c ≤ '9') || ('a' ≤ c && c ≤ 'f'))

def isSafeCursor (n : Nat) : Bool := n ≤ 9007199254740991

/-! ## The checks, over the bounds they use

The same walk over a record serves two purposes: with the bounds of `store.ts` it is `isTarget`; with any other bounds
it says that every scalar of the record meets them. -/

/-- The scalar checks of a record. -/
structure Bounds where
  stored : String → Nat → Bool
  time : Int → Bool
  hash : String → Bool
  cursor : Nat → Bool

/-- The bounds `store.ts` checks. -/
def storeBounds : Bounds := ⟨isStoredString, isCanonicalTimestamp, isSha256Hex, isSafeCursor⟩

def noBounds : Bounds := ⟨fun _ _ => true, fun _ => true, fun _ => true, fun _ => true⟩

namespace Bounds

variable (B : Bounds)

def owner (o : Owner) : Bool := B.stored o.instanceId 256

def drainProof (d : DrainProof) : Bool := B.stored d.recordId 192 && B.time d.recordedAt

def handoff (h : Handoff) : Bool :=
  B.stored h.handoffId 128 && B.owner h.nextOwner && B.time h.requestedAt && h.drain.all B.drainProof

def ownership : Ownership → Bool
  | .free _ => true
  | .held _ o l x => B.owner o && B.stored l 128 && B.time x
  | .draining _ o l x h => B.owner o && B.stored l 128 && B.time x && B.handoff h

def operation (op : OperationRecord) : Bool :=
  B.stored op.operationId 192 && B.stored op.ownerInstanceId 256 && B.hash op.payloadHash && B.time op.completedAt &&
    op.outputGeneration.all (B.stored · 128) && op.outputCursor.all B.cursor

def inFlight (op : InFlightOperation) : Bool :=
  B.stored op.operationId 192 && B.stored op.ownerInstanceId 256 && B.hash op.payloadHash && B.time op.startedAt &&
    op.outputGeneration.all (B.stored · 128) && op.outputCursor.all B.cursor

def recovery (r : RecoveryRecord) : Bool :=
  B.time r.since && B.stored r.previousControlEpoch 128 && r.operationId.all (B.stored · 192)

def session (m : ManagedSession) : Bool := B.stored m.name 128 && B.time m.createdAt

/-- Every scalar of the record is within bounds. -/
def target (t : TargetRecord) : Bool :=
  B.stored t.controlTargetId 128 && B.session t.managedSession && B.stored t.tmuxInstanceId 128 &&
    B.stored t.outputGeneration 128 && B.ownership t.ownership && t.completedOperations.all B.operation &&
    t.inFlight.all B.inFlight && t.recovery.all B.recovery && B.time t.updatedAt

end Bounds

def TargetRecord.operationIds (t : TargetRecord) : List String := t.completedOperations.map (·.operationId)

/-- `isTarget`: scalars within bounds, distinct operation ids, and the fields that a lifecycle allows. -/
def isTarget (t : TargetRecord) : Bool :=
  storeBounds.target t
    && t.operationIds.Nodup
    && t.inFlight.all (fun op => !t.operationIds.contains op.operationId)
    && !(t.lifecycle = .recoveryRequired && t.recovery = none)
    && !(t.lifecycle ≠ .recoveryRequired && t.recovery ≠ none)
    && !(t.lifecycle ≠ .active && !t.ownership.isFree)

def parseTerminalControlState (s : ControlState) : Except ControlError ControlState :=
  if !isStoredString s.controlEpoch 128 then .error (.plain "terminal-control state controlEpoch is malformed")
  else if s.targets.any (fun t => !isTarget t) then .error (.plain "terminal-control state targets are malformed")
  else if !(s.targets.map (·.controlTargetId)).Nodup then
    .error (.plain "terminal-control state contains duplicate target IDs")
  else .ok s

/-! ## Retention -/

def maxRetiredTargets : Nat := 64

/-- The order of the retired targets, youngest first. -/
def retiredBefore (left right : TargetRecord) : Prop :=
  right.updatedAt < left.updatedAt ∨ (right.updatedAt = left.updatedAt ∧ right.controlTargetId ≤ left.controlTargetId)

instance : DecidableRel retiredBefore := fun _ _ => inferInstanceAs (Decidable (_ ∨ _))

def retainedGoneIds (s : ControlState) : List String :=
  (((s.targets.filter (fun t => t.lifecycle = .targetGone)).insertionSort retiredBefore).take maxRetiredTargets).map
    (·.controlTargetId)

/-- The state that a save writes. -/
def compact (s : ControlState) : ControlState :=
  { s with
    targets := s.targets.flatMap (fun t =>
      if t.lifecycle ≠ .targetGone then [t]
      else if !(retainedGoneIds s).contains t.controlTargetId then []
      else [{ t with completedOperations := [] }]) }

/-! ## What the store looks like through `get?` -/

namespace ControlState

/-- Every id names one record. -/
def UniqueIds (s : ControlState) : Prop := (s.targets.map (·.controlTargetId)).Nodup

theorem get?_mem {s : ControlState} {id : String} {t : TargetRecord} (h : s.get? id = some t) :
    t ∈ s.targets ∧ t.controlTargetId = id := by
  refine ⟨List.mem_of_find?_eq_some h, ?_⟩
  simpa using List.find?_some h

theorem get?_eq_of_mem {s : ControlState} {t : TargetRecord} (hu : s.UniqueIds) (h : t ∈ s.targets) :
    s.get? t.controlTargetId = some t := by
  obtain ⟨epoch, ts⟩ := s
  unfold get? UniqueIds at *
  dsimp only at *
  induction ts with
  | nil => cases h
  | cons x xs ih =>
    rw [List.map_cons, List.nodup_cons] at hu
    rcases List.mem_cons.1 h with rfl | hx
    · simp
    · have hne : x.controlTargetId ≠ t.controlTargetId := fun he => hu.1 (he ▸ List.mem_map_of_mem hx)
      rw [List.find?_cons_of_neg (by simpa using hne)]
      exact ih hu.2 hx

theorem get?_update_self {s : ControlState} {id : String} {f : TargetRecord → TargetRecord} {t : TargetRecord}
    (hf : (f t).controlTargetId = t.controlTargetId) (h : s.get? id = some t) : (s.update id f).get? id = some (f t) := by
  obtain ⟨epoch, ts⟩ := s
  unfold get? update at *
  dsimp only at *
  induction ts with
  | nil => cases h
  | cons x xs ih =>
    by_cases hx : x.controlTargetId = id
    · have : x = t := by simpa [hx] using h
      subst this
      simp [hx, hf]
    · simp only [List.find?_cons, hx, decide_false, List.map_cons, if_false] at h ⊢
      exact ih h

theorem mem_update {s : ControlState} {id : String} {f : TargetRecord → TargetRecord} {t' : TargetRecord}
    (h : t' ∈ (s.update id f).targets) :
    (∃ t ∈ s.targets, t.controlTargetId = id ∧ t' = f t) ∨ (t' ∈ s.targets ∧ t'.controlTargetId ≠ id) := by
  simp only [update, List.mem_map] at h
  obtain ⟨t, ht, rfl⟩ := h
  by_cases hid : t.controlTargetId = id
  · exact .inl ⟨t, ht, hid, by rw [if_pos hid]⟩
  · rw [if_neg hid]
    exact .inr ⟨ht, hid⟩

theorem map_id_update {s : ControlState} {id : String} {f : TargetRecord → TargetRecord}
    (hf : ∀ t ∈ s.targets, t.controlTargetId = id → (f t).controlTargetId = t.controlTargetId) :
    (s.update id f).targets.map (·.controlTargetId) = s.targets.map (·.controlTargetId) := by
  simp only [update, List.map_map]
  refine List.map_congr_left fun t ht => ?_
  simp only [Function.comp_apply]
  split
  · exact hf t ht ‹_›
  · rfl

end ControlState

theorem mem_compact {s : ControlState} {t : TargetRecord} (h : t ∈ (compact s).targets) :
    ∃ u ∈ s.targets, (u.lifecycle ≠ .targetGone ∧ t = u) ∨
      (u.lifecycle = .targetGone ∧ t = { u with completedOperations := [] }) := by
  simp only [compact, List.mem_flatMap] at h
  obtain ⟨u, hu, ht⟩ := h
  refine ⟨u, hu, ?_⟩
  split at ht
  · exact .inl ⟨by assumption, by simpa using ht⟩
  · rename_i hg
    split at ht
    · cases ht
    · exact .inr ⟨by simpa using hg, by simpa using ht⟩

theorem mem_compact_of_not_gone {s : ControlState} {t : TargetRecord} (h : t ∈ s.targets)
    (hg : t.lifecycle ≠ .targetGone) : t ∈ (compact s).targets := by
  simp only [compact, List.mem_flatMap]
  exact ⟨t, h, by simp [hg]⟩

theorem ids_compact_sublist (s : ControlState) :
    ((compact s).targets.map (·.controlTargetId)).Sublist (s.targets.map (·.controlTargetId)) := by
  simp only [compact]
  generalize retainedGoneIds s = keep
  induction s.targets with
  | nil => exact List.Sublist.refl _
  | cons t ts ih =>
    rw [List.flatMap_cons, List.map_append, List.map_cons]
    split
    · exact ih.cons_cons _
    · split
      · exact ih.cons _
      · exact ih.cons_cons _

end Terminal
end TmuxWorktree
