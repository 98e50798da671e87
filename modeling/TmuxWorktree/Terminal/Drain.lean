import TmuxWorktree.Terminal.Journal
/-!
# Drain — an uncertain hand-over is not recovered automatically

`flagged id` reads off the saved states of a trace that the target `id` was fenced while its hand-over was uncertain:
it was draining when its lease ran out, when the controller restarted or when the drain was reported uncertain, or the
recovery record names a feishu owner or an operation.  `NoAutoRecovery` says that such a target leaves recovery only
through a force or an exact preparation.

The protocol alone does not give this: `markRecovery` takes any reason.  A `slips` event is a fencing that would record
an automatic reason where the hand-over is uncertain; a trace without one satisfies `NoAutoRecovery`.
-/
namespace TmuxWorktree
namespace Terminal

def TargetRecord.drainsUntil (t : TargetRecord) : Option Int :=
  match t.lifecycle, t.ownership with
  | .active, .draining _ _ _ x _ => some x
  | _, _ => none

def lastSaved : List Event → Option ControlState
  | [] => none
  | .saved s :: _ => some s
  | _ :: tr => lastSaved tr

/-- The recovery record of `id` in a save is that of an uncertain hand-over. -/
def isUncertain (before : Option ControlState) (epoch id : String) (r : RecoveryRecord) : Bool :=
  r.previousOwnerKind = some .feishu || r.operationId.isSome ||
    before.any (fun p => (p.get? id).any (fun u => u.drainsUntil.any (fun x =>
      x ≤ r.since || p.controlEpoch ≠ epoch || r.reason = .drainUncertain)))

/-- **The target was fenced in an uncertain hand-over**, and was not seen `ACTIVE` since. -/
def flagged (id : String) : List Event → Bool
  | [] => false
  | .saved s :: tr =>
    match s.get? id with
    | none => flagged id tr
    | some t =>
      match t.lifecycle with
      | .active => false
      | .targetGone => flagged id tr
      | .recoveryRequired => flagged id tr || t.recovery.any (isUncertain (lastSaved tr) s.controlEpoch id)
  | _ :: tr => flagged id tr

/-- Since the last save, a force or an exact preparation put the target back to `ACTIVE`. -/
def acknowledged (id : String) : List Event → Bool
  | [] => false
  | .saved _ :: _ => false
  | .activated target cause :: tr => (target = id && cause ≠ .reconciled) || acknowledged id tr
  | _ :: tr => acknowledged id tr

/-- **No automatic recovery of an uncertain hand-over.** -/
def NoAutoRecovery : List Event → Prop
  | [] => True
  | .saved s :: tr => NoAutoRecovery tr ∧ ∀ t ∈ s.targets, t.lifecycle = .active →
      flagged t.controlTargetId tr = true → acknowledged t.controlTargetId tr = true
  | .activated id .reconciled :: tr => NoAutoRecovery tr ∧ flagged id tr = false
  | _ :: tr => NoAutoRecovery tr

/-- The reasons that `reconcileAbandonedOwnership` recovers from. -/
def RecoveryReason.isAutomatic (reason : RecoveryReason) : Bool := reason ≠ .operationInDoubt && reason ≠ .drainUncertain

/-- The state file has the target draining, and its lease has run out. -/
def overdue (saved : Option ControlState) (id : String) (now : Int) : Bool :=
  saved.any (fun s => (s.get? id).any (fun t => t.drainsUntil.any (· ≤ now)))

/-- **A slip**: the fencing records an automatic reason, and the hand-over is uncertain. -/
def slips (tr : List Event) : Event → Bool
  | .fenced id before reason since operationId =>
    reason.isAutomatic && before.previousOwnerKind ≠ some .feishu && operationId.isNone && before.inFlight.isNone &&
      (flagged id tr || overdue (lastSaved tr) id since)
  | _ => false

def Clean : List Event → Prop
  | [] => True
  | e :: tr => slips tr e = false ∧ Clean tr

/-! ## Reading a trace -/

/-- Events that change what the trace says of hand-overs. -/
def Event.isQuiet : Event → Bool
  | .saved .. | .activated .. | .fenced .. => false
  | _ => true

theorem quiet_cons {e : Event} (h : e.isQuiet = true) (id : String) (tr : List Event) :
    lastSaved (e :: tr) = lastSaved tr ∧ flagged id (e :: tr) = flagged id tr ∧
      acknowledged id (e :: tr) = acknowledged id tr ∧ (NoAutoRecovery (e :: tr) ↔ NoAutoRecovery tr) ∧
      slips tr e = false := by
  cases e <;> first | exact ⟨rfl, rfl, rfl, Iff.rfl, rfl⟩ | cases h

theorem Clean.cons_quiet {e : Event} {tr : List Event} (h : Clean tr) (he : e.isQuiet = true) : Clean (e :: tr) :=
  ⟨(quiet_cons he "" tr).2.2.2.2, h⟩

theorem inert_cons {e : Event} (h : e.isInert = true) (id : String) (tr : List Event) :
    lastSaved (e :: tr) = lastSaved tr ∧ flagged id (e :: tr) = flagged id tr := by
  cases e <;> first | exact ⟨rfl, rfl⟩ | cases h

theorem lastSaved_append_inert {tr : List Event} : ∀ {events : List Event}, (∀ e ∈ events, e.isInert = true) →
    lastSaved (events ++ tr) = lastSaved tr
  | [], _ => rfl
  | e :: events, h => by
    rw [List.cons_append, (inert_cons (h e List.mem_cons_self) "" _).1]
    exact lastSaved_append_inert (fun e he => h e (List.mem_cons_of_mem _ he))

theorem flagged_append_inert {id : String} {tr : List Event} : ∀ {events : List Event},
    (∀ e ∈ events, e.isInert = true) → flagged id (events ++ tr) = flagged id tr
  | [], _ => rfl
  | e :: events, h => by
    rw [List.cons_append, (inert_cons (h e List.mem_cons_self) id _).2]
    exact flagged_append_inert (fun e he => h e (List.mem_cons_of_mem _ he))

theorem acknowledged_append_inert {id : String} {tr : List Event} (ha : acknowledged id tr = true) :
    ∀ {events : List Event}, (∀ e ∈ events, e.isInert = true) → acknowledged id (events ++ tr) = true
  | [], _ => ha
  | e :: events, h => by
    have ih := acknowledged_append_inert ha (fun e he => h e (List.mem_cons_of_mem _ he))
    have he := h e List.mem_cons_self
    cases e <;> simp [Event.isInert] at he <;> simp [acknowledged, ih]

theorem mem_of_lastSaved {s : ControlState} : ∀ {tr : List Event}, lastSaved tr = some s → Event.saved s ∈ tr
  | [], h => by cases h
  | e :: tr, h => by
    cases e with
    | saved s' =>
      obtain rfl : s' = s := Option.some.inj h
      exact List.mem_cons_self
    | _ => exact List.mem_cons_of_mem _ (@mem_of_lastSaved _ tr h)

theorem slips_append_inert {events tr : List Event} (h : ∀ e ∈ events, e.isInert = true) (e : Event) :
    slips (events ++ tr) e = slips tr e := by
  cases e with
  | fenced id before reason since operationId =>
    simp only [slips, flagged_append_inert h, lastSaved_append_inert h]
  | _ => rfl

theorem Clean.fence {t : TargetRecord} {reason : RecoveryReason} {options : TargetRecord.RecoveryOptions} {a b : Int}
    {tr : List Event} (h : Clean (t.fenceEvents reason options a b ++ tr)) :
    slips tr (.fenced t.controlTargetId t reason b options.operationId) = false := by
  rw [← slips_append_inert (inDoubtEvictions_isInert (t := t) (a := a))]
  exact h.1

theorem Clean.of_append {tr : List Event} : ∀ {events : List Event}, Clean (events ++ tr) → Clean tr
  | [], h => h
  | _ :: _, h => Clean.of_append h.2

theorem flagged_names {id : String} : ∀ {tr : List Event}, flagged id tr = true → ∃ e ∈ tr, e.names id
  | [], h => by cases h
  | e :: tr, h => by
    cases e with
    | saved s =>
      cases hget : s.get? id with
      | none =>
        simp only [flagged, hget] at h
        obtain ⟨e', he', hn⟩ := flagged_names h
        exact ⟨e', List.mem_cons_of_mem _ he', hn⟩
      | some t => exact ⟨_, List.mem_cons_self, t, ControlState.get?_mem hget⟩
    | _ =>
      obtain ⟨e', he', hn⟩ := @flagged_names _ tr h
      exact ⟨e', List.mem_cons_of_mem _ he', hn⟩

theorem flagged_lastSaved {id : String} : ∀ {tr : List Event}, flagged id tr = true → (lastSaved tr).isSome = true
  | [], h => by cases h
  | e :: tr, h => by
    cases e with
    | saved s => rfl
    | _ => exact @flagged_lastSaved _ tr h

/-! ## Records -/

/-- Retired, or fenced under a reason that is not automatic. -/
def Parked (t : TargetRecord) : Prop :=
  t.lifecycle = .targetGone ∨ (t.lifecycle = .recoveryRequired ∧ t.isAutoRecoverableNonFeishuState = false)

theorem Parked.not_active {t : TargetRecord} (h : Parked t) : t.lifecycle ≠ .active := by
  rcases h with h | ⟨h, -⟩ <;> rw [h] <;> decide

theorem lifecycle_of_auto {t : TargetRecord} (h : t.isAutoRecoverableNonFeishuState = true) :
    t.lifecycle = .recoveryRequired := by
  unfold TargetRecord.isAutoRecoverableNonFeishuState at h
  split at h
  · cases h
  · simp only [Bool.and_eq_true, decide_eq_true_eq] at h
    exact h.1.1.1.1.1

theorem Parked.not_auto {t : TargetRecord} (h : Parked t) : t.isAutoRecoverableNonFeishuState = false := by
  rcases h with h | ⟨-, h⟩
  · by_contra hne
    rw [lifecycle_of_auto (by simpa using hne)] at h
    cases h
  · exact h

theorem active_of_drainsUntil {t : TargetRecord} {x : Int} (h : t.drainsUntil = some x) :
    t.lifecycle = .active ∧ t.ownership.isDraining = true := by
  unfold TargetRecord.drainsUntil at h
  split at h
  · exact ⟨by assumption, by simp_all⟩
  · cases h

theorem draining_of_drainsUntil {t : TargetRecord} {x : Int} (h : t.drainsUntil = some x) :
    ∃ f o l hh, t.ownership = .draining f o l x hh := by
  have hl := (active_of_drainsUntil h).1
  cases ho : t.ownership with
  | free f => simp [TargetRecord.drainsUntil, hl, ho] at h
  | held f o l y => simp [TargetRecord.drainsUntil, hl, ho] at h
  | draining f o l y hh =>
    obtain rfl : y = x := by simpa [TargetRecord.drainsUntil, hl, ho] using h
    exact ⟨f, o, l, hh, rfl⟩

theorem auto_markRecovery {t : TargetRecord} {epoch : String} {reason : RecoveryReason}
    {options : TargetRecord.RecoveryOptions} {a b c : Int}
    (h : (t.markRecovery epoch reason options a b c).isAutoRecoverableNonFeishuState = true) :
    reason.isAutomatic = true ∧ t.previousOwnerKind ≠ some .feishu ∧ options.operationId = none ∧ t.inFlight = none := by
  simp only [TargetRecord.isAutoRecoverableNonFeishuState, TargetRecord.markRecovery, Bool.and_eq_true,
    decide_eq_true_eq] at h
  obtain ⟨⟨⟨⟨-, hkind⟩, hop⟩, hr1⟩, hr2⟩ := h
  refine ⟨by simp [RecoveryReason.isAutomatic, hr1, hr2], hkind, ?_⟩
  cases ho : options.operationId with
  | some x => simp [ho] at hop
  | none => exact ⟨rfl, by simpa [ho] using hop⟩

theorem not_auto_of_reason {t : TargetRecord} {r : RecoveryRecord} (hr : t.recovery = some r)
    (h : r.reason = .drainUncertain ∨ r.reason = .operationInDoubt ∨ r.previousOwnerKind = some .feishu ∨
      r.operationId.isSome = true) : t.isAutoRecoverableNonFeishuState = false := by
  rcases h with h | h | h | h <;> simp [TargetRecord.isAutoRecoverableNonFeishuState, hr, h]
  intro _ _ _ hop
  simp [hop] at h

theorem not_auto_of_clean {tr : List Event} {t : TargetRecord} {epoch : String} {reason : RecoveryReason}
    {options : TargetRecord.RecoveryOptions} {a b c : Int}
    (hc : slips tr (.fenced t.controlTargetId t reason b options.operationId) = false)
    (h : flagged t.controlTargetId tr = true ∨ overdue (lastSaved tr) t.controlTargetId b = true) :
    (t.markRecovery epoch reason options a b c).isAutoRecoverableNonFeishuState = false := by
  by_contra hne
  obtain ⟨h1, h2, h3, h4⟩ := auto_markRecovery (by simpa using hne)
  have h5 : (flagged t.controlTargetId tr || overdue (lastSaved tr) t.controlTargetId b) = true := by
    rcases h with h | h <;> simp [h]
  simp [slips, h1, h2, h3, h4, h5] at hc

/-! ## The ledger -/

/-- **What a clean trace keeps of a flagged target.** -/
structure Ledger.DrainInv (l : Ledger) : Prop where
  disk : ∀ d ∈ l.disk, ∀ t ∈ d.targets, flagged t.controlTargetId l.trace = true → Parked t
  mem : ∀ t ∈ l.mem.targets, flagged t.controlTargetId l.trace = true →
    Parked t ∨ (t.lifecycle = .active ∧ acknowledged t.controlTargetId l.trace = true)
  /-- a drain that the next save will report as uncertain -/
  pending : ∀ d ∈ l.disk, ∀ u ∈ d.targets, ∀ x, u.drainsUntil = some x → ∀ t ∈ l.mem.targets,
    t.controlTargetId = u.controlTargetId → ∀ r, t.recovery = some r →
    (x ≤ r.since ∨ d.controlEpoch ≠ l.mem.controlEpoch) → t.isAutoRecoverableNonFeishuState = false
  log : NoAutoRecovery l.trace

theorem overdue_of_mem {B : Bounds} {d : ControlState} (hw : WellFormed B d) {u : TargetRecord} (hu : u ∈ d.targets)
    {x now : Int} (hx : u.drainsUntil = some x) (hle : x ≤ now) : overdue (some d) u.controlTargetId now = true := by
  simp [overdue, hw.get hu, hx, hle]

theorem NoAutoRecovery.append {tr : List Event} (h : NoAutoRecovery tr) : ∀ {events : List Event},
    (∀ e ∈ events, e.isInert = true ∧ ∀ id cause, e ≠ .activated id cause) → NoAutoRecovery (events ++ tr)
  | [], _ => h
  | e :: events, hi => by
    have ih := h.append (fun e he => hi e (List.mem_cons_of_mem _ he))
    have he := hi e List.mem_cons_self
    cases e <;> simp_all [Event.isInert, NoAutoRecovery]

theorem evictions_not_activated {t : TargetRecord} {op : OperationRecord} : ∀ e ∈ t.evictions op,
    ∀ id cause, e ≠ .activated id cause := by
  intro e he id cause
  simp only [TargetRecord.evictions, Option.mem_toList, Option.map_eq_some_iff] at he
  obtain ⟨d, -, rfl⟩ := he
  simp

theorem fenceEvents_not_activated {t : TargetRecord} {reason : RecoveryReason}
    {options : TargetRecord.RecoveryOptions} {a b : Int} : ∀ e ∈ t.fenceEvents reason options a b,
    ∀ id cause, e ≠ .activated id cause := by
  intro e he id cause
  rcases List.mem_cons.1 he with rfl | he
  · simp
  · unfold TargetRecord.inDoubtEvictions at he
    split at he
    · cases he
    · exact evictions_not_activated e he id cause

theorem restartTargets_not_activated {env : Env} {epoch : String} : ∀ (ts : List TargetRecord) (tick : Nat),
    ∀ e ∈ (restartTargets env epoch tick ts).2, ∀ id cause, e ≠ .activated id cause
  | [], _ => fun _ he => by cases he
  | t :: ts, tick => by
    intro e he
    simp only [restartTargets, List.mem_append] at he
    rcases he with he | he
    · exact restartTargets_not_activated ts (tick + 3) e he
    · rcases restartTarget_eq epoch (env.now tick) (env.now (tick + 1)) (env.now (tick + 2)) t with h | ⟨reason, -, h⟩
      · rw [h] at he; cases he
      · rw [h] at he; exact fenceEvents_not_activated e he

theorem Move.noAutoRecovery {t t' : TargetRecord} {events : List Event} (hm : Move t events t') {tr : List Event}
    (h : NoAutoRecovery tr)
    (hf : t.isAutoRecoverableNonFeishuState = true → flagged t.controlTargetId tr = false) :
    NoAutoRecovery (events ++ tr) := by
  cases hm with
  | fence epoch reason options a b c =>
    exact h.append (fun e he => ⟨fenceEvents_isInert e he, fenceEvents_not_activated e he⟩)
  | commit op record hop hid => exact h.append (fun e he => ⟨evictions_isInert e he, evictions_not_activated e he⟩)
  | reconcile r u hauto => exact ⟨h, hf hauto⟩
  | retire | acknowledge | force | abandon => exact h
  | touch | grant | free | sameLease | start => exact h

section
variable {B : Bounds} {l : Ledger}

theorem Move.parked {t t' : TargetRecord} {events tr : List Event} (hm : Move t events t') (hs : Shape t)
    (hc : Clean (events ++ tr)) (hf : flagged t.controlTargetId tr = true)
    (h : Parked t ∨ (t.lifecycle = .active ∧ acknowledged t.controlTargetId tr = true)) :
    Parked t' ∨ (t'.lifecycle = .active ∧ acknowledged t.controlTargetId (events ++ tr) = true) := by
  have hact : t.lifecycle = .active → acknowledged t.controlTargetId tr = true := fun ha =>
    (h.resolve_left (fun hp => hp.not_active ha)).2
  have hbusy : ∀ {op}, t.inFlight = some op → t.lifecycle = .active := fun hop =>
    Classical.byContradiction (fun hne => by simp [hs.idle hne] at hop)
  cases hm with
  | touch g r u => exact h
  | fence epoch reason options a b c => exact .inl (.inr ⟨rfl, not_auto_of_clean hc.fence (.inl hf)⟩)
  | retire u => exact .inl (.inl rfl)
  | grant owner leaseId x r u ha => exact .inr ⟨ha, hact ha⟩
  | free r u ha => exact .inr ⟨ha, hact ha⟩
  | sameLease o r u ha => exact .inr ⟨ha, hact ha⟩
  | reconcile r u hauto =>
    rcases h with hp | ⟨ha, -⟩
    · rw [hp.not_auto] at hauto; cases hauto
    · rw [lifecycle_of_auto hauto] at ha; cases ha
  | acknowledge r u hx => exact .inr ⟨rfl, by simp [acknowledged]⟩
  | force owner leaseId x r u hr => exact .inr ⟨rfl, by simp [acknowledged]⟩
  | start op r u ha => exact .inr ⟨ha, hact ha⟩
  | abandon op hop => exact .inr ⟨hbusy hop, hact (hbusy hop)⟩
  | commit op record hop hid =>
    refine .inr ⟨?_, acknowledged_append_inert (hact (hbusy hop)) evictions_isInert⟩
    rw [← hbusy hop]
    unfold TargetRecord.appendOperation
    dsimp only
    split <;> rfl

theorem Move.pending {t t' : TargetRecord} {events tr : List Event} (hm : Move t events t') (hs : Shape t)
    (hc : Clean (events ++ tr)) {x : Int} (hover : ∀ b, x ≤ b → overdue (lastSaved tr) t.controlTargetId b = true)
    (h : ∀ r, t.recovery = some r → x ≤ r.since → t.isAutoRecoverableNonFeishuState = false)
    (r : RecoveryRecord) (hr : t'.recovery = some r) (hle : x ≤ r.since) :
    t'.isAutoRecoverableNonFeishuState = false := by
  cases hm with
  | fence epoch reason options a b c =>
    obtain rfl : _ = r := Option.some.inj hr
    exact not_auto_of_clean hc.fence (.inr (hover b hle))
  | abandon op hop =>
    by_contra hne
    have hl := lifecycle_of_auto (t := { t with inFlight := none }) (by simpa using hne)
    rw [hs.idle (by rw [show t.lifecycle = _ from hl]; decide)] at hop
    cases hop
  | commit op record hop hid =>
    by_contra hne
    have hl := lifecycle_of_auto (by simpa using hne)
    have hsame : ({ t.appendOperation record with inFlight := none } : TargetRecord).lifecycle = t.lifecycle := by
      unfold TargetRecord.appendOperation
      dsimp only
      split <;> rfl
    rw [hs.idle (by rw [← hsame, hl]; decide)] at hop
    cases hop
  | touch g r' u => exact h r hr hle
  | start op r' u ha =>
    by_contra hne
    have hl := lifecycle_of_auto (by simpa using hne)
    rw [show t.lifecycle = _ from hl] at ha
    cases ha
  | grant owner leaseId y r' u ha => exact h r hr hle
  | free r' u ha => exact h r hr hle
  | sameLease o r' u ha => exact h r hr hle
  | retire | reconcile | acknowledge | force => cases hr

theorem WellFormed.eq_of_id {s : ControlState} (hw : WellFormed B s) {t u : TargetRecord} (ht : t ∈ s.targets)
    (hu : u ∈ s.targets) (h : t.controlTargetId = u.controlTargetId) : t = u := by
  have := hw.get ht
  rw [h, hw.get hu] at this
  exact (Option.some.inj this).symm

theorem Ledger.DrainInv.move (hw : l.WellFormed B) (hd : l.disk = lastSaved l.trace) (h : l.DrainInv)
    {t t' : TargetRecord} {events : List Event} (hepoch : ∀ d ∈ l.disk, d.controlEpoch = l.mem.controlEpoch)
    (hget : l.mem.get? t.controlTargetId = some t) (hm : Move t events t') (hc : Clean (events ++ l.trace)) :
    Ledger.DrainInv { l with
      mem := l.mem.update t.controlTargetId (fun _ => t'), trace := events ++ l.trace } := by
  have hmem := (ControlState.get?_mem hget).1
  have hs := hw.mem.shape t hmem
  refine ⟨fun d hd u hu hf => ?_, fun u hu hf => ?_, fun d hd' u hu x hx v hv hid r hr hle => ?_, ?_⟩
  · exact h.disk d hd u hu (flagged_append_inert hm.isInert ▸ hf)
  · rw [flagged_append_inert hm.isInert] at hf
    rcases ControlState.mem_update hu with ⟨v, -, -, rfl⟩ | ⟨hus, -⟩
    · rw [hm.frame.1] at hf ⊢
      exact hm.parked hs hc hf (h.mem t hmem hf)
    · exact (h.mem u hus hf).imp_right (fun ha => ⟨ha.1, acknowledged_append_inert ha.2 hm.isInert⟩)
  · have hsince : x ≤ r.since := hle.resolve_right (fun hne => hne (hepoch d hd'))
    rcases ControlState.mem_update hv with ⟨w, -, -, rfl⟩ | ⟨hvs, -⟩
    · rw [hm.frame.1] at hid
      have hover : ∀ b, x ≤ b → overdue (lastSaved l.trace) t.controlTargetId b = true := fun b hb => by
        rw [← hd, hd', hid]
        exact overdue_of_mem (hw.disk d hd') hu hx hb
      exact hm.pending hs hc hover (fun r hr hle => h.pending d hd' u hu x hx t hmem hid r hr (.inl hle)) r hr hsince
    · exact h.pending d hd' u hu x hx v hvs hid r hr (.inl hsince)
  · refine hm.noAutoRecovery h.log (fun hauto => ?_)
    by_contra hne
    rcases h.mem t hmem (by simpa using hne) with hp | ⟨ha, -⟩
    · rw [hp.not_auto] at hauto; cases hauto
    · rw [lifecycle_of_auto hauto] at ha; cases ha

theorem Ledger.DrainInv.parked_of_saved (hw : l.WellFormed B) (hd : l.disk = lastSaved l.trace) (h : l.DrainInv)
    {t : TargetRecord} (ht : t ∈ l.mem.targets)
    (hf : flagged t.controlTargetId (.saved (compact l.mem) :: l.trace) = true) : Parked t := by
  by_cases hg : t.lifecycle = .targetGone
  · exact .inl hg
  have hget := hw.mem.compact.get (mem_compact_of_not_gone ht hg)
  simp only [flagged, hget] at hf
  cases hl : t.lifecycle with
  | active => simp [hl] at hf
  | targetGone => exact absurd hl hg
  | recoveryRequired =>
    refine .inr ⟨hl, ?_⟩
    simp only [hl, Bool.or_eq_true, Option.any_eq_true] at hf
    rcases hf with hf | ⟨r, hr, hu⟩
    · rcases h.mem t ht hf with hp | ⟨ha, -⟩
      · exact hp.not_auto
      · rw [hl] at ha; cases ha
    · simp only [isUncertain, Bool.or_eq_true, Option.any_eq_true, decide_eq_true_eq] at hu
      rcases hu with (hk | hop) | ⟨p, hp, u, hgetu, x, hx, hcase⟩
      · exact not_auto_of_reason hr (.inr (.inr (.inl hk)))
      · exact not_auto_of_reason hr (.inr (.inr (.inr hop)))
      · obtain ⟨hu, hid⟩ := ControlState.get?_mem hgetu
        rcases hcase with (hle | hne) | hreason
        · exact h.pending p (hd.trans hp) u hu x hx t ht hid.symm r hr (.inl hle)
        · exact h.pending p (hd.trans hp) u hu x hx t ht hid.symm r hr (.inr hne)
        · exact not_auto_of_reason hr (.inl hreason)

theorem Ledger.DrainInv.restart (hw : l.WellFormed B) (hd : l.disk = lastSaved l.trace) (h : l.DrainInv) (env : Env)
    (tick : Nat) (epoch : String) (hload : ∀ d ∈ l.disk, d = l.mem) :
    Ledger.DrainInv { l with
      mem := ⟨epoch, (restartTargets env l.mem.controlEpoch tick l.mem.targets).1⟩
      trace := (restartTargets env l.mem.controlEpoch tick l.mem.targets).2 ++ l.trace } := by
  have hi : ∀ e ∈ (restartTargets env l.mem.controlEpoch tick l.mem.targets).2, e.isInert = true := restartTargets_isInert _ _
  have parked : ∀ t ∈ l.mem.targets, flagged t.controlTargetId l.trace = true → Parked t := fun t ht hf => by
    obtain ⟨d, hdd⟩ := Option.isSome_iff_exists.1 (flagged_lastSaved hf)
    have hld := hload d (hd.trans hdd)
    exact h.disk d (hd.trans hdd) t (hld ▸ ht) hf
  refine ⟨fun d hd u hu hf => ?_, fun t' ht' hf => ?_, fun d hd' u hu x hx t' ht' hid r hr hle => ?_, ?_⟩
  · exact h.disk d hd u hu (flagged_append_inert hi ▸ hf)
  · rw [flagged_append_inert hi] at hf
    obtain ⟨t, ht, a, b, c, rfl⟩ := mem_restartTargets ht'
    rw [(restartTarget_frame _ a b c t).1] at hf
    have hp := parked t ht hf
    have hnone : restartReason t = none := by simp [restartReason, hp.not_active]
    simp only [restartTarget, hnone]
    exact .inl hp
  · obtain rfl := hload d hd'
    obtain ⟨t, ht, a, b, c, rfl⟩ := mem_restartTargets ht'
    rw [(restartTarget_frame _ a b c t).1] at hid
    obtain rfl := hw.mem.eq_of_id ht hu hid
    obtain ⟨hact, hdrain⟩ := active_of_drainsUntil hx
    have hreason : restartReason t = some .operationInDoubt ∨ restartReason t = some .drainUncertain := by
      unfold restartReason
      rw [if_neg (by simp [hact])]
      split
      · exact .inl rfl
      · cases ho : t.ownership <;> simp_all
    rcases hreason with he | he <;> simp only [restartTarget, he] at hr ⊢
    · exact not_auto_of_reason rfl (.inr (.inl rfl))
    · exact not_auto_of_reason rfl (.inl rfl)
  · refine h.log.append (fun e he => ⟨hi e he, ?_⟩)
    intro id cause heq
    subst heq
    exact restartTargets_not_activated _ _ _ he id cause rfl

theorem LedgerStep.saved {l' : Ledger} (h : l.disk = lastSaved l.trace) (hs : LedgerStep B l l') :
    l'.disk = lastSaved l'.trace := by
  cases hs with
  | load | create | push | save => first | exact h | rfl
  | move t events t' hepoch hget hmove hB halone => exact h.trans (lastSaved_append_inert hmove.isInert).symm
  | restart env tick epoch hload hB hBt => exact h.trans (lastSaved_append_inert (restartTargets_isInert _ _)).symm
  | note e he => cases e <;> first | exact h | exact he.elim
  | reset => exact h

theorem LedgerStep.drainInv {l' : Ledger} (hk : l.Known) (hw : l.WellFormed B) (hd : l.disk = lastSaved l.trace)
    (h : l.DrainInv) (hs : LedgerStep B l l') (hc : Clean l'.trace) : l'.DrainInv := by
  cases hs with
  | load s hs =>
    refine ⟨h.disk, fun t ht hf => .inl (h.disk s hs t ht hf), fun d hd' u hu x hx t ht hid r hr _ => ?_, h.log⟩
    obtain rfl : s = d := Option.some.inj (hs.symm.trans hd')
    obtain rfl := (hw.disk s hs).eq_of_id ht hu hid
    by_contra hne
    have hl := (active_of_drainsUntil hx).1
    rw [lifecycle_of_auto (by simpa using hne)] at hl
    cases hl
  | create epoch hs hB =>
    exact ⟨h.disk, fun _ ht => (List.not_mem_nil ht).elim,
      fun _ _ _ _ _ _ _ ht => (List.not_mem_nil ht).elim, h.log⟩
  | move t events t' hepoch hget hmove hB halone => exact h.move hw hd hepoch hget hmove hc
  | push id generation session tmux u hfresh hB hname =>
    refine ⟨h.disk, fun t ht hf => ?_, fun d hd' v hv x hx t ht hid r hr hle => ?_, h.log⟩
    · rcases List.mem_append.1 ht with ht | ht
      · exact h.mem t ht hf
      · obtain rfl := List.mem_singleton.1 ht
        obtain ⟨e, he, hn⟩ := @flagged_names _ l.trace hf
        exact absurd (hk.trace e he _ hn) hfresh
    · rcases List.mem_append.1 ht with ht | ht
      · exact h.pending d hd' v hv x hx t ht hid r hr hle
      · obtain rfl := List.mem_singleton.1 ht
        cases hr
  | restart env tick epoch hload hB hBt => exact h.restart hw hd env tick epoch hload
  | save =>
    refine ⟨fun d hd' t ht hf => ?_, fun t ht hf => .inl (h.parked_of_saved hw hd ht hf),
      fun d hd' u hu x hx t ht hid r hr _ => ?_, h.log, fun t ht ha hf => ?_⟩
    · obtain rfl : compact l.mem = d := by simpa using hd'
      obtain ⟨u, hu, ⟨-, rfl⟩ | ⟨hg, rfl⟩⟩ := mem_compact ht
      · exact h.parked_of_saved hw hd hu hf
      · exact .inl hg
    · obtain rfl : compact l.mem = d := by simpa using hd'
      have hact := (active_of_drainsUntil hx).1
      obtain ⟨v, hv, ⟨-, rfl⟩ | ⟨hg, rfl⟩⟩ := mem_compact hu
      · obtain rfl := hw.mem.eq_of_id ht hv hid
        by_contra hne
        rw [lifecycle_of_auto (by simpa using hne)] at hact
        cases hact
      · rw [show v.lifecycle = _ from hact] at hg
        cases hg
    · obtain ⟨u, hu, ⟨-, rfl⟩ | ⟨hg, rfl⟩⟩ := mem_compact ht
      · exact ((h.mem _ hu hf).resolve_left (fun hp => hp.not_active ha)).2
      · rw [show u.lifecycle = _ from ha] at hg
        cases hg
  | note e he =>
    have hq : e.isQuiet = true := by cases e <;> first | rfl | exact he.elim
    have hsame := fun id => quiet_cons hq id l.trace
    refine ⟨fun d hd' t ht hf => h.disk d hd' t ht ((hsame _).2.1 ▸ hf), fun t ht hf => ?_, h.pending,
      (hsame "").2.2.2.1.2 h.log⟩
    have := h.mem t ht ((hsame _).2.1 ▸ hf)
    rwa [← (hsame t.controlTargetId).2.2.1] at this
  | reset =>
    exact ⟨h.disk, fun _ ht => (List.not_mem_nil ht).elim, fun _ _ _ _ _ _ _ ht => (List.not_mem_nil ht).elim, h.log⟩

end

theorem Ledger.Reachable.saved {B : Bounds} {l : Ledger} (h : l.Reachable B) : l.disk = lastSaved l.trace :=
  h.induct (P := fun l => l.disk = lastSaved l.trace) rfl (fun _ _ _ hl hs => hs.saved hl)

theorem LedgerStep.clean {B : Bounds} {l l' : Ledger} (hs : LedgerStep B l l') (hc : Clean l'.trace) : Clean l.trace := by
  cases hs with
  | load | create => exact hc
  | move | restart => exact hc.of_append
  | push | save | note | reset => exact hc.2

/-- **In a clean trace no uncertain hand-over is recovered automatically.** -/
theorem Ledger.Reachable.drainInv {B : Bounds} (hB : B.stored "-" 128 = true) {l : Ledger} (h : l.Reachable B) :
    Clean l.trace → l.DrainInv :=
  h.induct
    (fun _ => ⟨fun _ hd => (Option.not_mem_none _ hd).elim, fun _ ht => (List.not_mem_nil ht).elim,
      fun _ hd => (Option.not_mem_none _ hd).elim, trivial⟩)
    (fun _ _ hr hl hs hc => hs.drainInv hr.known (hr.wellFormed hB) hr.saved (hl (hs.clean hc)) hc)

end Terminal
end TmuxWorktree
