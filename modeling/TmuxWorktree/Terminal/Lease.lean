import TmuxWorktree.Terminal.Shape
/-!
# Lease — fences only go up, and a lease that was passed over stays passed over

`Bounded lease s`: the record of the lease in `s` is past its fence, or still carries exactly this lease.  Every step
keeps this of every issued lease, in the section and on disk, and everything else about fences follows: two leases of
one fence are the same lease, and a lease that does not match its record is behind it for good.
-/
namespace TmuxWorktree
namespace Terminal

/-- The record of the lease is past its fence, or still carries it. -/
def Bounded (lease : Lease) (s : ControlState) : Prop :=
  ∀ t ∈ s.targets, t.controlTargetId = lease.controlTargetId → lease.fence < t.fence ∨
    (t.leaseMatches s.controlEpoch lease = true ∧
      ∃ o, t.ownership.owner? = some o ∧ sameInputOwnerClass o lease.owner = true)

def Passed (lease : Lease) (s : ControlState) : Prop :=
  ∀ t ∈ s.targets, t.controlTargetId = lease.controlTargetId → lease.fence < t.fence

/-- No fence of `s'` is below that of the same record in `s`. -/
def Precedes (s s' : ControlState) : Prop :=
  ∀ t ∈ s.targets, ∀ t' ∈ s'.targets, t'.controlTargetId = t.controlTargetId → t.fence ≤ t'.fence

/-- One lease up to its owner and its expiry, which `validateLease` does not fence by. -/
def Lease.Same (a b : Lease) : Prop :=
  a.controlTargetId = b.controlTargetId ∧ a.controlEpoch = b.controlEpoch ∧ a.leaseId = b.leaseId ∧ a.fence = b.fence

/-- An issued lease was presented for its target, and did not match. -/
def rejected (lease : Lease) : List Event → Prop
  | [] => False
  | .validated target presented agrees _ :: tr =>
    (presented = lease ∧ target = lease.controlTargetId ∧ agrees = false ∧ ∃ first, Event.issued first ∈ tr ∧
      first.Same lease) ∨ rejected lease tr
  | _ :: tr => rejected lease tr

/-- **The trace of an orderly run**, read at each event against the events before it. -/
def LeaseLog : List Event → Prop
  | [] => True
  | .saved s :: tr => LeaseLog tr ∧ (∀ s₀, Event.saved s₀ ∈ tr → Precedes s₀ s) ∧ ∀ lease, rejected lease tr → Passed lease s
  | .issued lease :: tr => LeaseLog tr ∧ ∀ first, Event.issued first ∈ tr →
      first.controlTargetId = lease.controlTargetId → first.fence = lease.fence →
      first.leaseId = lease.leaseId ∧ first.controlEpoch = lease.controlEpoch ∧
        (first.owner = lease.owner ∨ (isInteractiveOwner first.owner = true ∧ isInteractiveOwner lease.owner = true))
  | .validated target lease _ accepted :: tr => LeaseLog tr ∧
      (target = lease.controlTargetId → rejected lease tr → accepted = false)
  | _ :: tr => LeaseLog tr

/-! ## Moves -/

/-- **What a move does to a lease**: the fence goes up, or the lease is the one it was. -/
theorem Move.fence_lt_or {t t' : TargetRecord} {events : List Event} (hm : Move t events t') (hs : Shape t) :
    t.fence < t'.fence ∨ (t'.fence = t.fence ∧ t'.ownership.leaseId? = t.ownership.leaseId? ∧
      t'.ownership.owner? = t.ownership.owner?) := by
  have hfree : t.lifecycle ≠ .active → t.ownership = .free t.fence := fun hne =>
    Ownership.eq_free_of_isFree (hs.free hne)
  cases hm with
  | fence epoch reason options a b c => left; simp [TargetRecord.markRecovery, TargetRecord.fence]
  | retire u => left; simp [TargetRecord.invalidateTarget, TargetRecord.fence]
  | grant owner leaseId x r u ha => left; simp [TargetRecord.fence]
  | free r u ha => left; simp [TargetRecord.fence]
  | force owner leaseId x r u hr => left; simp [TargetRecord.fence]
  | sameLease o r u ha hf hl ho => exact .inr ⟨hf, hl, ho⟩
  | reconcile r u hauto =>
    have hl : t.lifecycle ≠ .active := fun ha => by
      unfold TargetRecord.isAutoRecoverableNonFeishuState at hauto
      split at hauto <;> simp_all
    refine .inr ⟨rfl, ?_, ?_⟩ <;> rw [hfree hl]
  | acknowledge r u hx =>
    have hl : t.lifecycle ≠ .active := fun ha => by
      unfold isExactInDoubt at hx
      split at hx <;> simp_all
    refine .inr ⟨rfl, ?_, ?_⟩ <;> rw [hfree hl]
  | commit op record hop hid =>
    right
    unfold TargetRecord.appendOperation
    dsimp only
    split <;> exact ⟨rfl, rfl, rfl⟩
  | touch | start | abandon => exact .inr ⟨rfl, rfl, rfl⟩

theorem leaseMatches_iff {epoch : String} {t : TargetRecord} {lease : Lease} : t.leaseMatches epoch lease = true ↔
    lease.controlEpoch = epoch ∧ t.ownership.leaseId? = some lease.leaseId ∧ t.fence = lease.fence := by
  simp [TargetRecord.leaseMatches, and_assoc]

theorem Bounded.update {lease : Lease} {s : ControlState} (h : Bounded lease s) {t t' : TargetRecord}
    {events : List Event} (hmem : t ∈ s.targets) (hm : Move t events t') (hs : Shape t) :
    Bounded lease (s.update t.controlTargetId (fun _ => t')) := by
  intro u hu hid
  rcases ControlState.mem_update hu with ⟨v, -, -, rfl⟩ | ⟨hus, -⟩
  · rw [hm.frame.1] at hid
    have hb := h t hmem hid
    rcases hm.fence_lt_or hs with hlt | ⟨hf, hl, ho⟩
    · rcases hb with hb | ⟨hb, -⟩
      · exact .inl (hb.trans hlt)
      · rw [leaseMatches_iff] at hb
        exact .inl (hb.2.2 ▸ hlt)
    · rcases hb with hb | ⟨hb, o, hown, hc⟩
      · exact .inl (hf ▸ hb)
      · rw [leaseMatches_iff] at hb
        refine .inr ⟨?_, o, ho.trans hown, hc⟩
        rw [leaseMatches_iff]
        exact ⟨hb.1, hl.trans hb.2.1, hf.trans hb.2.2⟩
  · exact h u hus hid

theorem Passed.update {lease : Lease} {s : ControlState} (h : Passed lease s) {t t' : TargetRecord}
    {events : List Event} (hmem : t ∈ s.targets) (hm : Move t events t') (hs : Shape t) :
    Passed lease (s.update t.controlTargetId (fun _ => t')) := by
  intro u hu hid
  rcases ControlState.mem_update hu with ⟨v, -, -, rfl⟩ | ⟨hus, -⟩
  · rw [hm.frame.1] at hid
    have hp := h t hmem hid
    rcases hm.fence_lt_or hs with hlt | ⟨hf, -⟩
    · exact hp.trans hlt
    · exact hf ▸ hp
  · exact h u hus hid

theorem Precedes.update {s₀ s : ControlState} (h : Precedes s₀ s) {t t' : TargetRecord} {events : List Event}
    (hmem : t ∈ s.targets) (hm : Move t events t') (hs : Shape t) :
    Precedes s₀ (s.update t.controlTargetId (fun _ => t')) := by
  intro v hv u hu hid
  rcases ControlState.mem_update hu with ⟨w, -, -, rfl⟩ | ⟨hus, -⟩
  · rw [hm.frame.1] at hid
    have hp : v.fence ≤ t.fence := h v hv t hmem hid
    rcases hm.fence_lt_or hs with hlt | ⟨hf, -⟩
    · exact hp.trans hlt.le
    · exact hf ▸ hp
  · exact h v hv u hus hid

/-! ## Saves -/

theorem compact_cases {s : ControlState} {t : TargetRecord} (h : t ∈ (compact s).targets) :
    ∃ u ∈ s.targets, t.controlTargetId = u.controlTargetId ∧ t.ownership = u.ownership ∧ t.inFlight = u.inFlight := by
  obtain ⟨u, hu, ⟨-, he⟩ | ⟨-, he⟩⟩ := mem_compact h
  · exact ⟨u, hu, by rw [he], by rw [he], by rw [he]⟩
  · exact ⟨u, hu, by rw [he], by rw [he], by rw [he]⟩

theorem Bounded.compact {lease : Lease} {s : ControlState} (h : Bounded lease s) : Bounded lease (compact s) := by
  intro t ht hid
  obtain ⟨u, hu, he, ho, -⟩ := compact_cases ht
  have := h u hu (he ▸ hid)
  rw [TargetRecord.leaseMatches, TargetRecord.fence, ho]
  exact this

theorem Passed.compact {lease : Lease} {s : ControlState} (h : Passed lease s) : Passed lease (compact s) := by
  intro t ht hid
  obtain ⟨u, hu, he, ho, -⟩ := compact_cases ht
  have := h u hu (he ▸ hid)
  simpa only [TargetRecord.fence, ho] using this

theorem Precedes.compact {s₀ s : ControlState} (h : Precedes s₀ s) : Precedes s₀ (compact s) := by
  intro v hv t ht hid
  obtain ⟨u, hu, he, ho, -⟩ := compact_cases ht
  have := h v hv u hu (he ▸ hid)
  simpa only [TargetRecord.fence, ho] using this

theorem compact_precedes {B : Bounds} {s : ControlState} (h : WellFormed B s) : Precedes (compact s) s := by
  intro t ht t' ht' hid
  obtain ⟨u, hu, he, ho, -⟩ := compact_cases ht
  have hu' := h.get hu
  rw [← he, ← hid, h.get ht'] at hu'
  obtain rfl : t' = u := by simpa using hu'
  rw [TargetRecord.fence, ho]

theorem precedes_self {B : Bounds} {s : ControlState} (h : WellFormed B s) : Precedes s s := by
  intro t ht t' ht' hid
  have := h.get ht'
  rw [hid, h.get ht] at this
  obtain rfl : t = t' := by simpa using this
  exact le_rfl

/-! ## Restart -/

theorem restartTarget_fence (epoch : String) (a b c : Int) {t : TargetRecord} (hs : Shape t) :
    t.fence < (restartTarget epoch a b c t).1.fence ∨
      ((restartTarget epoch a b c t).1 = t ∧ t.ownership.leaseId? = none) := by
  unfold restartTarget
  cases hr : restartReason t with
  | some reason => left; simp [TargetRecord.markRecovery, TargetRecord.fence]
  | none =>
    refine .inr ⟨rfl, ?_⟩
    unfold restartReason at hr
    by_cases hl : t.lifecycle = .active
    · simp only [hl, ne_eq, not_true_eq_false, if_false] at hr
      split at hr
      · cases hr
      · cases ho : t.ownership <;> simp_all
    · have := hs.free hl
      cases ho : t.ownership <;> simp_all

section
variable {B : Bounds} {s : ControlState} {env : Env} {tick : Nat} {epoch : String}

theorem Bounded.restart {lease : Lease} (h : Bounded lease s) (hw : WellFormed B s) :
    Bounded lease ⟨epoch, (restartTargets env s.controlEpoch tick s.targets).1⟩ := by
  intro t' ht' hid
  obtain ⟨t, ht, a, b, c, rfl⟩ := mem_restartTargets ht'
  rw [(restartTarget_frame _ a b c t).1] at hid
  rcases restartTarget_fence s.controlEpoch a b c (hw.shape t ht) with hlt | ⟨he, hl⟩
  · rcases h t ht hid with hb | ⟨hb, -⟩
    · exact .inl (hb.trans hlt)
    · exact .inl ((leaseMatches_iff.1 hb).2.2 ▸ hlt)
  · rcases h t ht hid with hb | ⟨hb, -⟩
    · left; rw [he]; exact hb
    · have := (leaseMatches_iff.1 hb).2.1
      rw [hl] at this
      cases this

theorem Passed.restart {lease : Lease} (h : Passed lease s) (hw : WellFormed B s) :
    Passed lease ⟨epoch, (restartTargets env s.controlEpoch tick s.targets).1⟩ := by
  intro t' ht' hid
  obtain ⟨t, ht, a, b, c, rfl⟩ := mem_restartTargets ht'
  rw [(restartTarget_frame _ a b c t).1] at hid
  rcases restartTarget_fence s.controlEpoch a b c (hw.shape t ht) with hlt | ⟨he, -⟩
  · exact (h t ht hid).trans hlt
  · rw [he]; exact h t ht hid

theorem Precedes.restart {s₀ : ControlState} (h : Precedes s₀ s) (hw : WellFormed B s) :
    Precedes s₀ ⟨epoch, (restartTargets env s.controlEpoch tick s.targets).1⟩ := by
  intro v hv t' ht' hid
  obtain ⟨t, ht, a, b, c, rfl⟩ := mem_restartTargets ht'
  rw [(restartTarget_frame _ a b c t).1] at hid
  rcases restartTarget_fence s.controlEpoch a b c (hw.shape t ht) with hlt | ⟨he, -⟩
  · exact (h v hv t ht hid).trans hlt.le
  · rw [he]; exact h v hv t ht hid

end

/-! ## Events that are about no lease -/

def Event.isInert : Event → Bool
  | .started .. | .provenNotApplied .. | .evicted .. | .retired .. | .fenced .. | .activated .. => true
  | _ => false

theorem evictions_isInert {t : TargetRecord} {op : OperationRecord} : ∀ e ∈ t.evictions op, e.isInert = true := by
  intro e he
  simp only [TargetRecord.evictions, Option.mem_toList, Option.map_eq_some_iff] at he
  obtain ⟨d, -, rfl⟩ := he
  rfl

theorem inDoubtEvictions_isInert {t : TargetRecord} {a : Int} : ∀ e ∈ t.inDoubtEvictions a, e.isInert = true := by
  intro e he
  unfold TargetRecord.inDoubtEvictions at he
  split at he
  · cases he
  · exact evictions_isInert e he

theorem fenceEvents_isInert {t : TargetRecord} {reason : RecoveryReason} {options : TargetRecord.RecoveryOptions}
    {a b : Int} : ∀ e ∈ t.fenceEvents reason options a b, e.isInert = true := by
  intro e he
  rcases List.mem_cons.1 he with rfl | he
  · rfl
  · exact inDoubtEvictions_isInert e he

theorem Move.isInert {t t' : TargetRecord} {events : List Event} (hm : Move t events t') :
    ∀ e ∈ events, e.isInert = true := by
  cases hm with
  | fence epoch reason options a b c => exact fenceEvents_isInert
  | commit op record hop hid => exact evictions_isInert
  | _ => simp [Event.isInert]

theorem restartTargets_isInert {env : Env} {epoch : String} : ∀ (ts : List TargetRecord) (tick : Nat),
    ∀ e ∈ (restartTargets env epoch tick ts).2, e.isInert = true
  | [], _ => fun _ he => by cases he
  | t :: ts, tick => by
    intro e he
    simp only [restartTargets, List.mem_append] at he
    rcases he with he | he
    · exact restartTargets_isInert ts (tick + 3) e he
    · rcases restartTarget_eq epoch (env.now tick) (env.now (tick + 1)) (env.now (tick + 2)) t with h | ⟨reason, -, h⟩
      · rw [h] at he; cases he
      · rw [h] at he; exact fenceEvents_isInert e he

theorem mem_append_inert {e : Event} {events tr : List Event} (hi : ∀ e ∈ events, e.isInert = true)
    (he : e.isInert = false) : e ∈ events ++ tr ↔ e ∈ tr := by
  rw [List.mem_append]
  refine ⟨fun h => h.resolve_left (fun hin => ?_), .inr⟩
  rw [hi e hin] at he
  cases he

theorem rejected_append_inert {lease : Lease} {tr : List Event} :
    ∀ {events : List Event}, (∀ e ∈ events, e.isInert = true) → (rejected lease (events ++ tr) ↔ rejected lease tr)
  | [], _ => Iff.rfl
  | e :: events, hi => by
    have ih := @rejected_append_inert lease tr events
      (fun e he => hi e (List.mem_cons_of_mem _ he))
    have he := hi e List.mem_cons_self
    cases e <;> simp [Event.isInert] at he <;> simpa only [List.cons_append, rejected] using ih

theorem leaseLog_append_inert {tr : List Event} (h : LeaseLog tr) :
    ∀ {events : List Event}, (∀ e ∈ events, e.isInert = true) → LeaseLog (events ++ tr)
  | [], _ => h
  | e :: events, hi => by
    have ih := @leaseLog_append_inert _ h events (fun e he => hi e (List.mem_cons_of_mem _ he))
    have he := hi e List.mem_cons_self
    cases e <;> simp [Event.isInert] at he <;> simpa only [List.cons_append, LeaseLog] using ih

/-! ## The ledger -/

/-- What holds of the state file and of the section's copy alike. -/
structure LeaseBound (tr : List Event) (s : ControlState) : Prop where
  bounded : ∀ lease, Event.issued lease ∈ tr → Bounded lease s
  passed : ∀ lease, rejected lease tr → Passed lease s
  precedes : ∀ s₀, Event.saved s₀ ∈ tr → Precedes s₀ s

structure Ledger.LeaseInv (l : Ledger) : Prop where
  mem : LeaseBound l.trace l.mem
  disk : ∀ d ∈ l.disk, LeaseBound l.trace d
  log : LeaseLog l.trace

theorem LeaseBound.append_inert {tr events : List Event} {s : ControlState} (h : LeaseBound tr s)
    (hi : ∀ e ∈ events, e.isInert = true) : LeaseBound (events ++ tr) s where
  bounded lease hl := h.bounded lease ((mem_append_inert hi rfl).1 hl)
  passed lease hr := h.passed lease ((rejected_append_inert hi).1 hr)
  precedes s₀ hs := h.precedes s₀ ((mem_append_inert hi rfl).1 hs)

theorem LeaseBound.empty (tr : List Event) (epoch : String) : LeaseBound tr ⟨epoch, []⟩ :=
  ⟨fun _ _ _ ht => (List.not_mem_nil ht).elim, fun _ _ _ ht => (List.not_mem_nil ht).elim,
    fun _ _ _ _ _ ht => (List.not_mem_nil ht).elim⟩

theorem LeaseBound.compact {tr : List Event} {s : ControlState} (h : LeaseBound tr s) : LeaseBound tr (compact s) :=
  ⟨fun l hl => (h.bounded l hl).compact, fun l hl => (h.passed l hl).compact, fun s hs => (h.precedes s hs).compact⟩

theorem rejected_issued {lease : Lease} : ∀ {tr : List Event}, rejected lease tr →
    ∃ first, Event.issued first ∈ tr ∧ first.Same lease
  | [], h => h.elim
  | e :: tr, h => by
    have later : (∃ first, Event.issued first ∈ tr ∧ first.Same lease) →
        ∃ first, Event.issued first ∈ e :: tr ∧ first.Same lease := fun ⟨first, hi, hs⟩ =>
      ⟨first, List.mem_cons_of_mem _ hi, hs⟩
    cases e with
    | validated target presented agrees accepted =>
      rcases h with ⟨-, -, -, hi⟩ | h
      · exact later hi
      · exact later (rejected_issued h)
    | _ => exact later (rejected_issued h)

theorem Bounded.passed {lease first : Lease} {s : ControlState} {B : Bounds} (hw : WellFormed B s) (h : Bounded first s)
    (hsame : first.Same lease) {t : TargetRecord} (hget : s.get? lease.controlTargetId = some t)
    (hne : t.leaseMatches s.controlEpoch lease = false) : Passed lease s := by
  obtain ⟨htarget, hepoch, hlease, hfence⟩ := hsame
  intro u hu hid
  obtain ⟨ht, hidt⟩ := ControlState.get?_mem hget
  have := hw.get hu
  rw [hid, hget] at this
  obtain rfl : t = u := by simpa using this
  rcases h t hu (hid.trans htarget.symm) with hb | ⟨hb, -⟩
  · exact hfence ▸ hb
  · rw [TargetRecord.leaseMatches, hepoch, hlease, hfence, ← TargetRecord.leaseMatches, hne] at hb
    cases hb

theorem Stands.bounded {lease : Lease} {s : ControlState} {B : Bounds} (hw : WellFormed B s) (h : Stands s lease) :
    Bounded lease s := by
  obtain ⟨t, o, hget, hmatch, ho, hc⟩ := h
  intro u hu hid
  have := hw.get hu
  rw [hid, hget] at this
  obtain rfl : t = u := by simpa using this
  exact .inr ⟨hmatch, o, ho, hc⟩

theorem Stands.same {lease first : Lease} {s : ControlState} (h : Stands s lease)
    (hb : Bounded first s) (ht : first.controlTargetId = lease.controlTargetId) (hf : first.fence = lease.fence) :
    first.leaseId = lease.leaseId ∧ first.controlEpoch = lease.controlEpoch ∧
      (first.owner = lease.owner ∨ (isInteractiveOwner first.owner = true ∧ isInteractiveOwner lease.owner = true)) := by
  obtain ⟨t, o, hget, hmatch, ho, hc⟩ := h
  obtain ⟨hmem, hid⟩ := ControlState.get?_mem hget
  rw [leaseMatches_iff] at hmatch
  rcases hb t hmem (hid.trans ht.symm) with hlt | ⟨hfirst, o', ho', hc'⟩
  · rw [hmatch.2.2, hf] at hlt
    exact absurd hlt (lt_irrefl _)
  · rw [leaseMatches_iff] at hfirst
    have hl : lease.leaseId = first.leaseId := by
      have := hmatch.2.1.symm.trans hfirst.2.1
      simpa using this
    obtain rfl : o = o' := by
      have := ho.symm.trans ho'
      simpa using this
    refine ⟨hl.symm, hfirst.1.trans hmatch.1.symm, ?_⟩
    rw [sameInputOwnerClass_iff] at hc hc'
    rcases hc with hc | ⟨hio, hil⟩ <;> rcases hc' with hc' | ⟨hio', hif⟩
    · exact .inl (hc'.symm.trans hc)
    · exact .inr ⟨hif, hc ▸ hio'⟩
    · exact .inr ⟨hc' ▸ hio, hil⟩
    · exact .inr ⟨hif, hil⟩

theorem LeaseLog.tail {e : Event} {tr : List Event} (h : LeaseLog (e :: tr)) : LeaseLog tr := by
  cases e <;> first | exact h | exact h.1

theorem LeaseLog.issued_same {tr : List Event} (h : LeaseLog tr) {a b : Lease} (ha : Event.issued a ∈ tr)
    (hb : Event.issued b ∈ tr) (ht : a.controlTargetId = b.controlTargetId) (hf : a.fence = b.fence) :
    a.leaseId = b.leaseId ∧ a.controlEpoch = b.controlEpoch ∧
      (a.owner = b.owner ∨ (isInteractiveOwner a.owner = true ∧ isInteractiveOwner b.owner = true)) := by
  induction tr with
  | nil => cases ha
  | cons e tr ih =>
    have hlog : LeaseLog tr := h.tail
    rcases List.mem_cons.1 ha with rfl | ha' <;> rcases List.mem_cons.1 hb with he | hb'
    · obtain rfl : b = a := by simpa using he
      exact ⟨rfl, rfl, .inl rfl⟩
    · obtain ⟨h1, h2, h3⟩ := h.2 b hb' ht.symm hf.symm
      exact ⟨h1.symm, h2.symm, h3.imp Eq.symm And.symm⟩
    · subst he
      exact h.2 a ha' ht hf
    · exact ih hlog ha' hb'

/-! ## Reading the log -/

theorem LeaseLog.of_append {tr : List Event} : ∀ {later : List Event}, LeaseLog (later ++ tr) → LeaseLog tr
  | [], h => h
  | _ :: _, h => LeaseLog.of_append h.tail

theorem rejected_append {lease : Lease} {tr : List Event} (h : rejected lease tr) : ∀ (later : List Event),
    rejected lease (later ++ tr)
  | [] => h
  | e :: later => by
    have ih := rejected_append h later
    cases e <;> first | exact ih | exact .inr ih

theorem LeaseLog.fenced {tr : List Event} {lease : Lease} (hr : rejected lease tr) : ∀ {later : List Event},
    LeaseLog (later ++ tr) → (∀ agrees accepted, Event.validated lease.controlTargetId lease agrees accepted ∈ later →
      accepted = false) ∧ ∀ s, Event.saved s ∈ later → Passed lease s
  | [], _ => ⟨fun _ _ h => (List.not_mem_nil h).elim, fun _ h => (List.not_mem_nil h).elim⟩
  | e :: later, h => by
    obtain ⟨ih1, ih2⟩ := @LeaseLog.fenced _ _ hr later h.tail
    have hr' := rejected_append hr later
    refine ⟨fun agrees accepted hm => ?_, fun s hm => ?_⟩
    · rcases List.mem_cons.1 hm with rfl | hm
      · exact h.2 rfl hr'
      · exact ih1 agrees accepted hm
    · rcases List.mem_cons.1 hm with rfl | hm
      · exact h.2.2 lease hr'
      · exact ih2 s hm

theorem LeaseBound.cons {tr : List Event} {s : ControlState} {e : Event} (h : LeaseBound tr s)
    (hi : ∀ lease, e ≠ .issued lease) (hs : ∀ s, e ≠ .saved s) (hr : ∀ lease, rejected lease (e :: tr) → rejected lease tr) :
    LeaseBound (e :: tr) s where
  bounded lease hl := h.bounded lease (by
    rcases List.mem_cons.1 hl with he | hl
    · exact absurd he.symm (hi lease)
    · exact hl)
  passed lease hl := h.passed lease (hr lease hl)
  precedes s₀ hl := h.precedes s₀ (by
    rcases List.mem_cons.1 hl with he | hl
    · exact absurd he.symm (hs s₀)
    · exact hl)

theorem LeaseBound.issue {tr : List Event} {s : ControlState} {lease : Lease} (h : LeaseBound tr s)
    (hb : Bounded lease s) : LeaseBound (.issued lease :: tr) s where
  bounded l hl := by
    rcases List.mem_cons.1 hl with he | hl
    · obtain rfl : l = lease := by simpa using he
      exact hb
    · exact h.bounded l hl
  passed l hl := h.passed l hl
  precedes s₀ hl := h.precedes s₀ (by simpa using hl)

theorem LeaseBound.validate {tr : List Event} {s : ControlState} {B : Bounds} (hw : WellFormed B s)
    {target : String} {lease : Lease} {agrees accepted : Bool} (h : LeaseBound tr s) (ha : Agrees s target lease agrees) :
    LeaseBound (.validated target lease agrees accepted :: tr) s where
  bounded l hl := h.bounded l (by simpa using hl)
  passed l hl := by
    rcases hl with ⟨rfl, rfl, rfl, first, hi, hsame⟩ | hl
    · obtain ⟨t, hget, hm⟩ := ha
      exact (h.bounded first hi).passed hw hsame hget hm
    · exact h.passed l hl
  precedes s₀ hl := h.precedes s₀ (by simpa using hl)

theorem Passed.not_agrees {lease : Lease} {s : ControlState} (h : Passed lease s)
    (ha : Agrees s lease.controlTargetId lease true) : False := by
  obtain ⟨t, hget, hm⟩ := ha
  obtain ⟨hmem, hid⟩ := ControlState.get?_mem hget
  have hlt := h t hmem hid
  rw [(leaseMatches_iff.1 hm).2.2] at hlt
  exact lt_irrefl _ hlt

theorem Ledger.LeaseInv.note {B : Bounds} {l : Ledger} (hw : l.WellFormed B) (h : l.LeaseInv) {e : Event}
    (he : l.Notes e) : Ledger.LeaseInv { l with trace := e :: l.trace } := by
  have plain : (∀ lease, e ≠ .issued lease) → (∀ s, e ≠ .saved s) →
      (∀ lease, rejected lease (e :: l.trace) → rejected lease l.trace) → LeaseLog (e :: l.trace) →
      Ledger.LeaseInv { l with trace := e :: l.trace } := fun hi hs hr hlog =>
    ⟨h.mem.cons hi hs hr, fun d hd => (h.disk d hd).cons hi hs hr, hlog⟩
  cases e with
  | issued lease =>
    rcases he with ⟨hm, d, hd, hsd⟩ | ⟨first, hfirst, heq, hi1, hi2⟩
    · refine ⟨h.mem.issue (hm.bounded hw.mem), fun d' hd' => ?_, h.log, fun l' hl' ht hf => ?_⟩
      · obtain rfl : d = d' := by simpa [hd] using hd'
        exact (h.disk d hd).issue (hsd.bounded (hw.disk d hd))
      · exact hm.same (h.mem.bounded l' hl') ht hf
    · -- a consumed claim: the lease of the reservation, for another interactive owner
      have hb : ∀ s, Bounded first s → Bounded lease s := fun s hb t ht hid => by
        rw [heq] at hid ⊢
        rcases hb t ht hid with hlt | ⟨hm, o, ho, hc⟩
        · exact .inl hlt
        · refine .inr ⟨hm, o, ho, ?_⟩
          rw [sameInputOwnerClass_iff] at hc ⊢
          rcases hc with rfl | ⟨hio, -⟩
          · exact .inr ⟨hi1, hi2⟩
          · exact .inr ⟨hio, hi2⟩
      refine ⟨h.mem.issue (hb _ (h.mem.bounded first hfirst)),
        fun d hd => (h.disk d hd).issue (hb _ ((h.disk d hd).bounded first hfirst)), h.log, fun l' hl' ht hf => ?_⟩
      rw [heq] at ht hf
      obtain ⟨h1, h2, h3⟩ := h.log.issued_same hl' hfirst ht hf
      rw [heq]
      refine ⟨h1, h2, .inr ⟨?_, hi2⟩⟩
      rcases h3 with h3 | h3
      · rw [h3]; exact hi1
      · exact h3.1
  | validated target lease agrees accepted =>
    obtain ⟨hm, ⟨d, hd, had⟩, hacc⟩ := he
    refine ⟨h.mem.validate hw.mem hm, fun d' hd' => ?_, h.log, fun ht hr => ?_⟩
    · obtain rfl : d = d' := by simpa [hd] using hd'
      exact (h.disk d hd).validate (hw.disk d hd) had
    · by_contra hne
      obtain ⟨hag, -⟩ := hacc (by simpa using hne)
      subst ht hag
      exact (h.mem.passed lease hr).not_agrees hm
  | saved s => exact he.elim
  | created id => exact he.elim
  | _ => exact plain (by simp) (by simp) (fun _ hr => hr) h.log

theorem LedgerStep.leaseInv {B : Bounds} {l l' : Ledger} (hk : l.Known) (hw : l.WellFormed B) (h : l.LeaseInv)
    (hs : LedgerStep B l l') : l'.LeaseInv := by
  cases hs with
  | load s hd => exact ⟨h.disk s hd, h.disk, h.log⟩
  | create epoch hd hB => exact ⟨LeaseBound.empty _ _, h.disk, h.log⟩
  | move t events t' hepoch hget hmove hB halone =>
    have hmem := (ControlState.get?_mem hget).1
    have hshape := hw.mem.shape t hmem
    refine ⟨LeaseBound.append_inert ⟨?_, ?_, ?_⟩ hmove.isInert,
      fun d hd => (h.disk d hd).append_inert hmove.isInert, leaseLog_append_inert h.log hmove.isInert⟩
    · exact fun lease hl => (h.mem.bounded lease hl).update hmem hmove hshape
    · exact fun lease hl => (h.mem.passed lease hl).update hmem hmove hshape
    · exact fun s₀ hs => (h.mem.precedes s₀ hs).update hmem hmove hshape
  | push id generation session tmux u hfresh hB hname =>
    have hcase : ∀ t ∈ (l.mem.push (newTarget id generation session tmux u)).targets,
        t ∈ l.mem.targets ∨ t.controlTargetId = id := fun t ht => by
      rcases List.mem_append.1 ht with ht | ht
      · exact .inl ht
      · exact .inr (by rw [List.mem_singleton.1 ht]; rfl)
    -- nothing in the trace is about the new id
    have hnew : ∀ e ∈ l.trace, ¬ e.names id := fun e he hn => hfresh (hk.trace e he id hn)
    have plain : ∀ {s}, LeaseBound l.trace s → LeaseBound (.created id :: l.trace) s := fun hb =>
      hb.cons (by simp) (by simp) (fun _ hr => hr)
    refine ⟨plain ⟨fun lease hl t ht hid => ?_, fun lease hl t ht hid => ?_, fun s₀ hs v hv t ht hid => ?_⟩,
      fun d hd => plain (h.disk d hd), h.log⟩
    · rcases hcase t ht with hts | he
      · exact h.mem.bounded lease hl t hts hid
      · exact absurd (hid.symm.trans he) (hnew _ hl)
    · rcases hcase t ht with hts | he
      · exact h.mem.passed lease hl t hts hid
      · obtain ⟨first, hi, hsame⟩ := rejected_issued hl
        exact absurd (hsame.1.trans (hid.symm.trans he)) (hnew _ hi)
    · rcases hcase t ht with hts | he
      · exact h.mem.precedes s₀ hs v hv t hts hid
      · exact absurd ⟨v, hv, hid.symm.trans he⟩ (hnew _ hs)
  | restart env tick epoch hload hB hBt =>
    have hi : ∀ e ∈ (restartTargets env l.mem.controlEpoch tick l.mem.targets).2, e.isInert = true := restartTargets_isInert _ _
    refine ⟨LeaseBound.append_inert ⟨?_, ?_, ?_⟩ hi, fun d hd => (h.disk d hd).append_inert hi,
      leaseLog_append_inert h.log hi⟩
    · exact fun lease hl => (h.mem.bounded lease hl).restart hw.mem
    · exact fun lease hl => (h.mem.passed lease hl).restart hw.mem
    · exact fun s₀ hs => (h.mem.precedes s₀ hs).restart hw.mem
  | save =>
    have hcons : ∀ {s}, LeaseBound l.trace s → Precedes (compact l.mem) s →
        LeaseBound (.saved (compact l.mem) :: l.trace) s := fun hb hp =>
      ⟨fun lease hl => hb.bounded lease (by simpa using hl), hb.passed, fun s₀ hs => by
        rcases List.mem_cons.1 hs with he | hs
        · obtain rfl : s₀ = compact l.mem := by simpa using he
          exact hp
        · exact hb.precedes s₀ hs⟩
    refine ⟨hcons h.mem (compact_precedes hw.mem), fun d hd => ?_, h.log, h.mem.compact.precedes, h.mem.compact.passed⟩
    obtain rfl : compact l.mem = d := by simpa using hd
    exact hcons h.mem.compact (precedes_self hw.mem.compact)
  | note e he => exact h.note hw he
  | reset =>
    refine ⟨LeaseBound.empty _ _, fun d hd => ?_, h.log⟩
    exact (h.disk d hd).cons (by simp) (by simp) (fun _ hr => hr)

/-- **The lease invariant holds of every reachable ledger.** -/
theorem Ledger.Reachable.leaseInv {B : Bounds} (hB : B.stored "-" 128 = true) {l : Ledger} (h : l.Reachable B) :
    l.LeaseInv :=
  h.induct ⟨LeaseBound.empty _ _, fun _ hd => (Option.not_mem_none _ hd).elim, trivial⟩
    (fun _ _ hr hl hs => hs.leaseInv hr.known (hr.wellFormed hB) hl)

end Terminal
end TmuxWorktree
