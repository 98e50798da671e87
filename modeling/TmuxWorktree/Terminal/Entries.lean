import TmuxWorktree.Terminal.Doubt
/-!
# Entries — an entry in doubt stays in the journal

`journalled id r` reads off a trace that a saved state had the entry `r` in the journal of `id`, and that no record of `id`
that was `TARGET_GONE` in memory was fenced since.  An entry in doubt is then still in the record of a target that is not
gone, since the journal only drops committed entries: every later state file has it, and no write call of its operation is
made.
-/
namespace TmuxWorktree
namespace Terminal

/-- The state has the entry in the journal of the target. -/
def hasEntry (id : String) (r : OperationRecord) (s : ControlState) : Bool :=
  s.targets.any (fun t => t.controlTargetId = id && t.completedOperations.contains r)

/-- A record that is retired in memory is fenced: the state file may not have the retirement. -/
def Event.revives (id : String) : Event → Bool
  | .fenced target before .. => target = id && before.lifecycle = .targetGone
  | _ => false

/-- **A saved state had the entry**, and no retired record of the target was fenced since. -/
def journalled (id : String) (r : OperationRecord) : List Event → Bool
  | [] => false
  | .saved s :: tr => journalled id r tr || hasEntry id r s
  | .fenced target before reason since operationId :: tr =>
    !(Event.fenced target before reason since operationId).revives id && journalled id r tr
  | _ :: tr => journalled id r tr

/-- Every record of the target that is not gone has the entry. -/
def KeepsEntry (id : String) (r : OperationRecord) (s : ControlState) : Prop :=
  ∀ t ∈ s.targets, t.controlTargetId = id → t.lifecycle ≠ .targetGone → r ∈ t.completedOperations

/-- **An entry in doubt is in every state saved later, and no write call of its operation is made.** -/
def NoLoss : List Event → Prop
  | [] => True
  | .saved s :: tr => NoLoss tr ∧ ∀ id r, r.disposition = .inDoubt → journalled id r tr = true → KeepsEntry id r s
  | .write target operationId .. :: tr => NoLoss tr ∧
      ∀ r, r.disposition = .inDoubt → r.operationId = operationId → journalled target r tr = false
  | _ :: tr => NoLoss tr

theorem hasEntry_iff {id : String} {r : OperationRecord} {s : ControlState} :
    hasEntry id r s = true ↔ ∃ t ∈ s.targets, t.controlTargetId = id ∧ r ∈ t.completedOperations := by
  simp [hasEntry]

/-! ## Reading a trace -/

theorem journalled_append_inert {id : String} {r : OperationRecord} {tr : List Event} : ∀ {events : List Event},
    (∀ e ∈ events, e.isInert = true) → journalled id r (events ++ tr) = true →
      journalled id r tr = true ∧ ∀ e ∈ events, e.revives id = false
  | [], _, h => ⟨h, fun _ he => (List.not_mem_nil he).elim⟩
  | e :: events, hi, h => by
    have ih := @journalled_append_inert id r tr events (fun e he => hi e (List.mem_cons_of_mem _ he))
    have he := hi e List.mem_cons_self
    cases e <;> simp [Event.isInert] at he
    case fenced target before reason since operationId =>
      simp only [List.cons_append, journalled, Bool.and_eq_true, Bool.not_eq_true'] at h
      obtain ⟨h1, h2⟩ := ih h.2
      exact ⟨h1, fun e' hm => (List.mem_cons.1 hm).elim (fun hx => hx ▸ h.1) (h2 e')⟩
    all_goals
      obtain ⟨h1, h2⟩ := ih h
      exact ⟨h1, fun e' hm => (List.mem_cons.1 hm).elim (fun hx => hx ▸ rfl) (h2 e')⟩

theorem noLoss_append_inert {tr : List Event} (h : NoLoss tr) : ∀ {events : List Event},
    (∀ e ∈ events, e.isInert = true) → NoLoss (events ++ tr)
  | [], _ => h
  | e :: events, hi => by
    have ih := noLoss_append_inert h (fun e he => hi e (List.mem_cons_of_mem _ he))
    have he := hi e List.mem_cons_self
    cases e <;> simp [Event.isInert] at he <;> simpa only [List.cons_append, NoLoss] using ih

theorem NoLoss.of_append {tr : List Event} : ∀ {later : List Event}, NoLoss (later ++ tr) → NoLoss tr
  | [], h => h
  | e :: later, h => by
    have hrest : NoLoss (later ++ tr) := by cases e <;> first | exact h | exact h.1
    exact hrest.of_append

theorem journalled_of_saved {id : String} {r : OperationRecord} {s : ControlState} {earlier : List Event}
    (hs : hasEntry id r s = true) : ∀ {mid : List Event}, (∀ e ∈ mid, e.revives id = false) →
      journalled id r (mid ++ .saved s :: earlier) = true
  | [], _ => by simp [journalled, hs]
  | e :: mid, hr => by
    have ih := @journalled_of_saved id r s earlier hs mid (fun e' hm => hr e' (List.mem_cons_of_mem e hm))
    cases e with
    | saved => simp [journalled, ih]
    | fenced target before reason since operationId =>
      have hne := hr _ List.mem_cons_self
      simp only [List.cons_append, journalled, hne, ih]
      rfl
    | _ => exact ih

theorem journalled_names {id : String} {r : OperationRecord} : ∀ {tr : List Event}, journalled id r tr = true →
    ∃ e ∈ tr, e.names id
  | [], h => by cases h
  | e :: tr, h => by
    have later : journalled id r tr = true → ∃ e' ∈ e :: tr, e'.names id := fun h => by
      obtain ⟨e', he', hn⟩ := journalled_names h
      exact ⟨e', List.mem_cons_of_mem _ he', hn⟩
    cases e with
    | saved s =>
      simp only [journalled, Bool.or_eq_true] at h
      refine h.elim later (fun h => ?_)
      obtain ⟨t, ht, hid, -⟩ := hasEntry_iff.1 h
      exact ⟨.saved s, List.mem_cons_self, t, ht, hid⟩
    | fenced target before reason since operationId =>
      simp only [journalled, Bool.and_eq_true] at h
      exact later h.2
    | _ => exact later h

/-! ## Moves -/

theorem fenceEvents_revives {t : TargetRecord} {reason : RecoveryReason} {options : TargetRecord.RecoveryOptions} {a b : Int}
    {id : String} (h : t.lifecycle = .active) : ∀ e ∈ t.fenceEvents reason options a b, e.revives id = false := by
  intro e he
  rcases List.mem_cons.1 he with rfl | he
  · simp [Event.revives, h]
  · unfold TargetRecord.inDoubtEvictions at he
    split at he
    · cases he
    · obtain ⟨x, rfl⟩ := mem_evictions he
      rfl

/-- **A move keeps an entry in doubt**, unless it fences a retired record. -/
theorem Move.keepsEntry {t t' : TargetRecord} {events : List Event} (hm : Move t events t') {r : OperationRecord}
    (hr : r.disposition = .inDoubt) (hs : Shape t) (h : t.lifecycle ≠ .targetGone → r ∈ t.completedOperations)
    (hrev : ∀ e ∈ events, e.revives t.controlTargetId = false) (hlive : t'.lifecycle ≠ .targetGone) :
    r ∈ t'.completedOperations := by
  cases hm with
  | fence epoch reason options a b c =>
    have hne : t.lifecycle ≠ .targetGone := by simpa [Event.revives] using hrev _ List.mem_cons_self
    simp only [TargetRecord.markRecovery, TargetRecord.completeInFlightAsInDoubt]
    cases t.inFlight with
    | none => exact h hne
    | some op => exact mem_appendOperation (List.mem_append_left _ (h hne)) hr
  | retire u => exact absurd rfl hlive
  | commit op record hop hid =>
    -- only a live record has an operation in flight
    have hne : t.lifecycle ≠ .targetGone := fun hg => by
      have hidle := hs.idle (by rw [hg]; decide)
      rw [hop] at hidle
      cases hidle
    exact mem_appendOperation (List.mem_append_left _ (h hne)) hr
  | reconcile r u ha =>
    refine h (fun hg => ?_)
    cases hx : t.recovery <;> simp [TargetRecord.isAutoRecoverableNonFeishuState, hg, hx] at ha
  | acknowledge r u ha =>
    refine h (fun hg => ?_)
    cases hx : t.recovery <;> simp [isExactInDoubt, hg, hx] at ha
  | force owner leaseId x r u ha => exact h (by rw [ha]; decide)
  | touch | grant | free | sameLease | start | abandon => exact h hlive

/-! ## The ledger -/

structure Ledger.EntryInv (l : Ledger) : Prop where
  mem : ∀ id r, r.disposition = .inDoubt → journalled id r l.trace = true → KeepsEntry id r l.mem
  disk : ∀ id r, r.disposition = .inDoubt → journalled id r l.trace = true → ∀ d ∈ l.disk, KeepsEntry id r d
  log : NoLoss l.trace

theorem KeepsEntry.compact {s : ControlState} {id : String} {r : OperationRecord} (h : KeepsEntry id r s) : KeepsEntry id r (compact s) := by
  intro t ht hid hlive
  obtain ⟨u, hu, ⟨-, rfl⟩ | ⟨hg, rfl⟩⟩ := mem_compact ht
  · exact h _ hu hid hlive
  · exact absurd hg hlive

theorem hasEntry_compact {B : Bounds} {s : ControlState} {id : String} {r : OperationRecord} (hw : WellFormed B s)
    (h : hasEntry id r (compact s) = true) : KeepsEntry id r s := by
  obtain ⟨t, ht, hid, hr⟩ := hasEntry_iff.1 h
  obtain ⟨u, hu, ⟨-, rfl⟩ | ⟨-, rfl⟩⟩ := mem_compact ht
  · intro v hv hidv _
    have hget := hw.get hv
    rw [hidv, ← hid, hw.get hu] at hget
    exact Option.some.inj hget ▸ hr
  · cases hr

theorem LedgerStep.entryInv {B : Bounds} {l l' : Ledger} (hk : l.Known) (hw : l.WellFormed B) (h : l.EntryInv)
    (hs : LedgerStep B l l') : l'.EntryInv := by
  cases hs with
  | load s hd => exact ⟨fun id r hr hj => h.disk id r hr hj s hd, h.disk, h.log⟩
  | create epoch hd hB => exact ⟨fun _ _ _ _ _ ht => (List.not_mem_nil ht).elim, h.disk, h.log⟩
  | move t events t' hepoch hget hmove hB halone =>
    refine ⟨fun id r hr hj => ?_, fun id r hr hj => h.disk id r hr (journalled_append_inert hmove.isInert hj).1,
      noLoss_append_inert h.log hmove.isInert⟩
    obtain ⟨hbefore, hrev⟩ := journalled_append_inert hmove.isInert hj
    intro u hu hid hlive
    rcases ControlState.mem_update hu with ⟨v, -, -, rfl⟩ | ⟨hus, -⟩
    · rw [hmove.frame.1] at hid
      subst hid
      have ht := (ControlState.get?_mem hget).1
      exact hmove.keepsEntry hr (hw.mem.shape t ht) (h.mem _ r hr hbefore t ht rfl) hrev hlive
    · exact h.mem id r hr hbefore u hus hid hlive
  | push id generation session tmux u hfresh hB hname =>
    refine ⟨fun id' r hr hj t ht hid hlive => ?_, h.disk, h.log⟩
    rcases List.mem_append.1 ht with ht | ht
    · exact h.mem id' r hr hj t ht hid hlive
    · obtain rfl := List.mem_singleton.1 ht
      obtain ⟨e, he, hn⟩ := @journalled_names _ _ l.trace hj
      rw [← hid] at hn
      exact absurd (hk.trace e he _ hn) hfresh
  | restart env tick epoch hload hB hBt =>
    have hi : ∀ e ∈ (restartTargets env l.mem.controlEpoch tick l.mem.targets).2, e.isInert = true := restartTargets_isInert _ _
    refine ⟨fun id r hr hj => ?_, fun id r hr hj => h.disk id r hr (journalled_append_inert hi hj).1,
      noLoss_append_inert h.log hi⟩
    intro t' ht' hid hlive
    obtain ⟨t, ht, a, b, c, rfl⟩ := mem_restartTargets ht'
    rw [(restartTarget_frame _ a b c t).1] at hid
    have hkept := h.mem _ r hr (journalled_append_inert hi hj).1 t ht hid
    rcases restartTarget_eq l.mem.controlEpoch a b c t with he | ⟨reason, hreason, he⟩
    · rw [he] at hlive ⊢
      exact hkept hlive
    · have hact : t.lifecycle = .active := by
        by_contra hne
        rw [restartReason, if_pos hne] at hreason
        cases hreason
      rw [he] at hlive ⊢
      exact (Move.fence t _ reason _ a b c).keepsEntry hr (hw.mem.shape t ht) hkept (fenceEvents_revives hact) hlive
  | save =>
    have hkept : ∀ id r, r.disposition = .inDoubt → journalled id r (.saved (compact l.mem) :: l.trace) = true →
        KeepsEntry id r l.mem := fun id r hr hj => by
      simp only [journalled, Bool.or_eq_true] at hj
      exact hj.elim (h.mem id r hr) (hasEntry_compact hw.mem)
    refine ⟨hkept, fun id r hr hj d hd => ?_, h.log, fun id r hr hj => (h.mem id r hr hj).compact⟩
    obtain rfl : compact l.mem = d := by simpa using hd
    exact (hkept id r hr hj).compact
  | note e he =>
    cases e with
    | write target operationId kind owner fence returned =>
      refine ⟨h.mem, h.disk, h.log, fun r hr hop => ?_⟩
      obtain ⟨-, -, d, t, op, hd, hget, -, hin, hid, -⟩ := he
      by_contra hne
      -- the operation in flight is not in the journal
      obtain ⟨hmem, htid⟩ := ControlState.get?_mem hget
      have hlive : t.lifecycle ≠ .targetGone := fun hg => by
        have hidle := ((hw.disk d hd).shape t hmem).idle (by rw [hg]; decide)
        rw [hin] at hidle
        cases hidle
      have hentry := h.disk target r hr (by simpa using hne) d hd t hmem htid hlive
      exact ((hw.disk d hd).shape t hmem).started op hin
        (List.mem_map.2 ⟨r, hentry, hop.trans hid.symm⟩)
    | saved | created | started | provenNotApplied | evicted | retired | fenced | activated | restarted => exact he.elim
    | _ => exact ⟨h.mem, h.disk, h.log⟩
  | reset => exact ⟨fun _ _ _ _ _ ht => (List.not_mem_nil ht).elim, h.disk, h.log⟩

/-- **An entry in doubt stays in the journal.** -/
theorem Ledger.Reachable.entryInv {B : Bounds} (hB : B.stored "-" 128 = true) {l : Ledger} (h : l.Reachable B) :
    l.EntryInv :=
  h.induct ⟨fun _ _ _ hj => (Bool.false_ne_true hj).elim, fun _ _ _ hj => (Bool.false_ne_true hj).elim, trivial⟩
    (fun _ _ hr hl hs => hs.entryInv hr.known (hr.wellFormed hB) hl)

end Terminal
end TmuxWorktree
