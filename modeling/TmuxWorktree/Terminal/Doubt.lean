import TmuxWorktree.Terminal.Drain
/-!
# Doubt — an operation that was in flight when the process died stays in doubt

`doubted id op` reads off a trace that a process died while the state file had `op` in flight on `id`, and that `id` was
not retired since.  The record then keeps the operation, in flight or journalled as in doubt: the journal only drops
committed entries, and no later process takes out of flight what it did not put there.  So no write call of the operation
follows.
-/
namespace TmuxWorktree
namespace Terminal

def inFlightAt (id : String) (op : InFlightOperation) (saved : Option ControlState) : Bool :=
  saved.any (fun s => (s.get? id).any (fun t => t.inFlight = some op))

/-- **The process died with the operation in flight**, and the target was not retired since. -/
def doubted (id : String) (op : InFlightOperation) : List Event → Bool
  | [] => false
  | .restarted :: tr => doubted id op tr || inFlightAt id op (lastSaved tr)
  | .retired target :: tr => target ≠ id && doubted id op tr
  | _ :: tr => doubted id op tr

/-- The record keeps the operation, in flight or as one of unknown outcome. -/
def InDoubt (t : TargetRecord) (op : InFlightOperation) : Prop :=
  t.inFlight = some op ∨ ∃ r ∈ t.completedOperations, r.operationId = op.operationId ∧ r.payloadHash = op.payloadHash ∧
    r.kind = op.kind ∧ r.disposition = .inDoubt

/-- **No write call is made for an operation in doubt.** -/
def NoRetry : List Event → Prop
  | [] => True
  | .write target operationId .. :: tr => NoRetry tr ∧ ∀ op, op.operationId = operationId → doubted target op tr = false
  | _ :: tr => NoRetry tr

/-! ## Reading a trace -/

theorem doubted_append_inert {id : String} {op : InFlightOperation} {tr : List Event} : ∀ {events : List Event},
    (∀ e ∈ events, e.isInert = true) → doubted id op (events ++ tr) = true →
      doubted id op tr = true ∧ Event.retired id ∉ events
  | [], _, h => ⟨h, List.not_mem_nil⟩
  | e :: events, hi, h => by
    have ih := @doubted_append_inert id op tr events (fun e he => hi e (List.mem_cons_of_mem _ he))
    have he := hi e List.mem_cons_self
    cases e <;> simp [Event.isInert] at he
    case retired target =>
      simp only [List.cons_append, doubted, Bool.and_eq_true, decide_eq_true_eq] at h
      obtain ⟨h1, h2⟩ := ih h.2
      exact ⟨h1, fun hm => (List.mem_cons.1 hm).elim (fun hx => h.1 (by injection hx with hx; exact hx.symm)) h2⟩
    all_goals
      obtain ⟨h1, h2⟩ := ih h
      exact ⟨h1, fun hm => (List.mem_cons.1 hm).elim (fun hx => by cases hx) h2⟩

theorem underway_append_inert {id op : String} {tr : List Event} : ∀ {events : List Event},
    (∀ e ∈ events, e.isInert = true) → Event.started id op ∉ events → underway id op (events ++ tr) = underway id op tr
  | [], _, _ => rfl
  | e :: events, hi, hs => by
    have ih := @underway_append_inert id op tr events (fun e he => hi e (List.mem_cons_of_mem _ he))
      (fun hm => hs (List.mem_cons_of_mem _ hm))
    have he := hi e List.mem_cons_self
    cases e <;> simp [Event.isInert] at he
    case started target x =>
      simp only [List.cons_append, underway, ih, Bool.or_eq_right_iff_imp, Bool.and_eq_true, decide_eq_true_eq]
      rintro ⟨rfl, rfl⟩
      exact absurd List.mem_cons_self hs
    all_goals exact ih

theorem noRetry_append_inert {tr : List Event} (h : NoRetry tr) : ∀ {events : List Event},
    (∀ e ∈ events, e.isInert = true) → NoRetry (events ++ tr)
  | [], _ => h
  | e :: events, hi => by
    have ih := noRetry_append_inert h (fun e he => hi e (List.mem_cons_of_mem _ he))
    have he := hi e List.mem_cons_self
    cases e <;> simp [Event.isInert] at he <;> simpa only [List.cons_append, NoRetry] using ih

theorem NoRetry.of_append {tr : List Event} : ∀ {later : List Event}, NoRetry (later ++ tr) → NoRetry tr
  | [], h => h
  | e :: later, h => by
    have hrest : NoRetry (later ++ tr) := by cases e <;> first | exact h | exact h.1
    exact hrest.of_append

theorem NoRetry.not_doubted {id : String} {op : InFlightOperation} {e : Event} {tr : List Event} (h : NoRetry (e :: tr))
    (he : e.writes id op.operationId = true) : doubted id op tr = false := by
  cases e with
  | write target operationId kind owner fence returned =>
    simp only [Event.writes, Bool.and_eq_true, decide_eq_true_eq] at he
    exact he.1 ▸ h.2 op he.2.symm
  | _ => cases he

theorem doubted_names {id : String} {op : InFlightOperation} : ∀ {tr : List Event}, doubted id op tr = true →
    ∃ e ∈ tr, e.names id
  | [], h => by cases h
  | e :: tr, h => by
    have later : doubted id op tr = true → ∃ e' ∈ e :: tr, e'.names id := fun h => by
      obtain ⟨e', he', hn⟩ := doubted_names h
      exact ⟨e', List.mem_cons_of_mem _ he', hn⟩
    cases e with
    | restarted =>
      simp only [doubted, Bool.or_eq_true] at h
      refine h.elim later (fun h => ?_)
      simp only [inFlightAt, Option.any_eq_true] at h
      obtain ⟨s, hs, t, ht, -⟩ := h
      obtain ⟨hmem, hid⟩ := ControlState.get?_mem ht
      exact ⟨.saved s, List.mem_cons_of_mem _ (mem_of_lastSaved hs), t, hmem, hid⟩
    | retired target =>
      simp only [doubted, Bool.and_eq_true] at h
      exact later h.2
    | _ => exact later h

/-! ## Moves -/

theorem mem_appendOperation {t : TargetRecord} {op r : OperationRecord} (h : r ∈ t.completedOperations ++ [op])
    (hr : r.disposition = .inDoubt) : r ∈ (t.appendOperation op).completedOperations := by
  unfold TargetRecord.appendOperation
  dsimp only
  split
  · exact h
  · rename_i i hi
    obtain ⟨j, hj⟩ := List.mem_iff_getElem?.1 h
    refine List.mem_eraseIdx_iff_getElem?.2 ⟨j, fun hij => ?_, hj⟩
    subst hij
    unfold TargetRecord.evictedIndex at hi
    split at hi
    · cases hi
    · dsimp only at hi
      split at hi
      · rename_i hlt
        obtain rfl := Option.some.inj hi
        have hc := List.findIdx_getElem (w := hlt)
        rw [List.getElem?_eq_getElem hlt, Option.some.injEq] at hj
        rw [hj, hr] at hc
        simp at hc
      · cases hi

/-- **What keeps an operation in doubt**: it is not retired, and nobody takes it out of flight. -/
theorem Move.inDoubt {t t' : TargetRecord} {events : List Event} (hm : Move t events t') (hs : Shape t)
    {op : InFlightOperation} (h : InDoubt t op) (hr : Event.retired t.controlTargetId ∉ events)
    (hland : t'.lifecycle = .active → t'.inFlight = none → t.inFlight ≠ some op) : InDoubt t' op := by
  have hact : ∀ {o}, t.inFlight = some o → t.lifecycle = .active := fun ho => by
    by_contra hne
    rw [hs.idle hne] at ho
    cases ho
  cases hm with
  | fence epoch reason options a b c =>
    right
    simp only [TargetRecord.markRecovery, TargetRecord.completeInFlightAsInDoubt]
    cases hin : t.inFlight with
    | none =>
      rcases h with h | h
      · rw [hin] at h; cases h
      · exact h
    | some o =>
      rcases h with h | ⟨r, hr, hid, hh, hk, hd⟩
      · obtain rfl : o = op := Option.some.inj (hin.symm.trans h)
        refine ⟨_, mem_appendOperation (List.mem_append_right _ (List.mem_singleton_self _)) rfl, rfl, rfl, rfl, rfl⟩
      · exact ⟨r, mem_appendOperation (List.mem_append_left _ hr) hd, hid, hh, hk, hd⟩
  | retire u => exact absurd List.mem_cons_self hr
  | start o r u ha hn hf =>
    rcases h with h | h
    · rw [hn] at h; cases h
    · exact .inr h
  | abandon o ho =>
    rcases h with h | h
    · exact absurd h (hland (hact ho) rfl)
    · exact .inr h
  | commit o record ho hid =>
    rcases h with h | ⟨r, hr, hid, hh, hk, hd⟩
    · refine absurd h (hland ?_ rfl)
      rw [show (TargetRecord.lifecycle _) = t.lifecycle by unfold TargetRecord.appendOperation; dsimp only; split <;> rfl]
      exact hact ho
    · exact .inr ⟨r, mem_appendOperation (List.mem_append_left _ hr) hd, hid, hh, hk, hd⟩
  | touch | grant | free | sameLease | reconcile | acknowledge | force => exact h

theorem mem_evictions {t : TargetRecord} {op : OperationRecord} {e : Event} (he : e ∈ t.evictions op) :
    ∃ x, e = .evicted t.controlTargetId x := by
  simp only [TargetRecord.evictions, Option.mem_toList, Option.map_eq_some_iff] at he
  obtain ⟨d, -, rfl⟩ := he
  exact ⟨_, rfl⟩

theorem mem_fenceEvents {t : TargetRecord} {reason : RecoveryReason} {options : TargetRecord.RecoveryOptions} {a b : Int}
    {e : Event} (he : e ∈ t.fenceEvents reason options a b) :
    (∃ t' r x o, e = .fenced t.controlTargetId t' r x o) ∨ ∃ x, e = .evicted t.controlTargetId x := by
  simp only [TargetRecord.fenceEvents, TargetRecord.inDoubtEvictions, List.mem_cons] at he
  rcases he with rfl | he
  · exact .inl ⟨_, _, _, _, rfl⟩
  · split at he
    · cases he
    · exact .inr (mem_evictions he)

theorem Move.not_started {t t' : TargetRecord} {events : List Event} (hm : Move t events t') {op : InFlightOperation}
    (h : InDoubt t op) : Event.started t.controlTargetId op.operationId ∉ events := by
  intro hmem
  cases hm with
  | start o r u ha hn hf =>
    obtain hx : op.operationId = o.operationId := by simpa using hmem
    rcases h with h | ⟨r, hr, hid, -⟩
    · rw [hn] at h; cases h
    · exact hf (List.mem_map.2 ⟨r, hr, hid.trans hx⟩)
  | fence epoch reason options a b c =>
    rcases mem_fenceEvents hmem with ⟨_, _, _, _, hx⟩ | ⟨_, hx⟩ <;> cases hx
  | commit o record ho hid =>
    obtain ⟨_, hx⟩ := mem_evictions hmem
    cases hx
  | retire | reconcile | acknowledge | force | abandon => simp at hmem
  | touch | grant | free | sameLease => cases hmem

theorem restartTargets_not_started {env : Env} {epoch : String} : ∀ (ts : List TargetRecord) (tick : Nat),
    ∀ e ∈ (restartTargets env epoch tick ts).2, ∀ id op, e ≠ .started id op ∧ e ≠ .retired id
  | [], _ => fun _ he => (List.not_mem_nil he).elim
  | t :: ts, tick => by
    intro e he id op
    simp only [restartTargets, List.mem_append] at he
    rcases he with he | he
    · exact restartTargets_not_started ts (tick + 3) e he id op
    · rcases restartTarget_eq epoch (env.now tick) (env.now (tick + 1)) (env.now (tick + 2)) t with h | ⟨reason, -, h⟩
      · rw [h] at he; cases he
      · rw [h] at he
        rcases mem_fenceEvents he with ⟨_, _, _, _, rfl⟩ | ⟨_, rfl⟩ <;> exact ⟨by simp, by simp⟩

/-! ## The ledger -/

structure Ledger.DoubtInv (l : Ledger) : Prop where
  mem : ∀ id op, doubted id op l.trace = true → ∀ t ∈ l.mem.targets, t.controlTargetId = id → InDoubt t op
  disk : ∀ id op, doubted id op l.trace = true → ∀ d ∈ l.disk, ∀ t ∈ d.targets, t.controlTargetId = id → InDoubt t op
  idle : ∀ id op, doubted id op l.trace = true → underway id op.operationId l.trace = false
  log : NoRetry l.trace

theorem Ledger.DoubtInv.cons {l : Ledger} (h : l.DoubtInv) {e : Event}
    (hd : ∀ id op, doubted id op (e :: l.trace) = doubted id op l.trace)
    (hu : ∀ id op, underway id op (e :: l.trace) = underway id op l.trace) (hlog : NoRetry (e :: l.trace)) :
    Ledger.DoubtInv { l with trace := e :: l.trace } where
  mem id op ho := h.mem id op (hd id op ▸ ho)
  disk id op ho := h.disk id op (hd id op ▸ ho)
  idle id op ho := (hu _ _).trans (h.idle id op (hd id op ▸ ho))
  log := hlog

theorem InDoubt.compact {B : Bounds} {s : ControlState} (hw : WellFormed B s) {id : String} {op : InFlightOperation}
    (h : ∀ t ∈ s.targets, t.controlTargetId = id → InDoubt t op) :
    ∀ t ∈ (compact s).targets, t.controlTargetId = id → InDoubt t op := by
  intro t ht hid
  obtain ⟨u, hu, ⟨-, rfl⟩ | ⟨hg, rfl⟩⟩ := mem_compact ht
  · exact h _ hu hid
  · have := h u hu hid
    rwa [InDoubt, (hw.shape u hu).journal hg] at this

theorem LedgerStep.doubtInv {B : Bounds} {l l' : Ledger} (hk : l.Known) (hw : l.WellFormed B)
    (hsaved : l.disk = lastSaved l.trace) (h : l.DoubtInv) (hs : LedgerStep B l l') : l'.DoubtInv := by
  cases hs with
  | load s hd => exact ⟨fun id op ho => h.disk id op ho s hd, h.disk, h.idle, h.log⟩
  | create epoch hd hB => exact ⟨fun _ _ _ _ ht => (List.not_mem_nil ht).elim, h.disk, h.idle, h.log⟩
  | move t events t' hepoch hget hmove hB halone hlands =>
    have hmem := (ControlState.get?_mem hget).1
    refine ⟨fun id op ho => ?_, fun id op ho => h.disk id op (doubted_append_inert hmove.isInert ho).1,
      fun id op ho => ?_, noRetry_append_inert h.log hmove.isInert⟩
    · obtain ⟨hbefore, hret⟩ := doubted_append_inert hmove.isInert ho
      intro u hu hid
      rcases ControlState.mem_update hu with ⟨v, -, -, rfl⟩ | ⟨hus, -⟩
      · rw [hmove.frame.1] at hid
        subst hid
        refine hmove.inDoubt (hw.mem.shape t hmem) (h.mem _ op hbefore t hmem rfl) hret (fun ha hn hin => ?_)
        have := hlands ha hn op hin
        rw [h.idle _ op hbefore] at this
        cases this
      · exact h.mem id op hbefore u hus hid
    · have hbefore := (doubted_append_inert hmove.isInert ho).1
      rw [underway_append_inert hmove.isInert (fun hst => ?_)]
      · exact h.idle id op hbefore
      · obtain rfl : id = t.controlTargetId := hmove.names hst rfl
        exact hmove.not_started (h.mem _ op hbefore t hmem rfl) hst
  | push id generation session tmux u hfresh hB hname =>
    have hcons := h.cons (e := .created id) (fun _ _ => rfl) (fun _ _ => rfl) h.log
    refine ⟨fun id' op ho t ht hid => ?_, hcons.disk, hcons.idle, hcons.log⟩
    rcases List.mem_append.1 ht with ht | ht
    · exact h.mem id' op ho t ht hid
    · obtain rfl := List.mem_singleton.1 ht
      obtain ⟨e, he, hn⟩ := @doubted_names _ _ l.trace ho
      rw [← hid] at hn
      exact absurd (hk.trace e he _ hn) hfresh
  | restart env tick epoch hload hB hBt =>
    have hi : ∀ e ∈ (restartTargets env l.mem.controlEpoch tick l.mem.targets).2, e.isInert = true := restartTargets_isInert _ _
    have hno : ∀ e ∈ (restartTargets env l.mem.controlEpoch tick l.mem.targets).2, ∀ id op, e ≠ .started id op ∧ e ≠ .retired id :=
      restartTargets_not_started _ _
    refine ⟨fun id op ho => ?_, fun id op ho => h.disk id op (doubted_append_inert hi ho).1, fun id op ho => ?_,
      noRetry_append_inert h.log hi⟩
    · have hbefore := (doubted_append_inert hi ho).1
      intro t' ht' hid
      obtain ⟨t, ht, a, b, c, rfl⟩ := mem_restartTargets ht'
      rw [(restartTarget_frame _ a b c t).1] at hid
      have hdoubt := h.mem _ op hbefore t ht hid
      rcases restartTarget_eq l.mem.controlEpoch a b c t with he | ⟨reason, -, he⟩
      · rw [he]; exact hdoubt
      · rw [he]
        refine (Move.fence t _ reason _ a b c).inDoubt (hw.mem.shape t ht) hdoubt (fun hr => ?_) (fun ha => ?_)
        · rcases mem_fenceEvents hr with ⟨_, _, _, _, hx⟩ | ⟨_, hx⟩ <;> cases hx
        · simp [TargetRecord.markRecovery] at ha
    · rw [underway_append_inert hi (fun hst => (hno _ hst _ _).1 rfl)]
      exact h.idle id op (doubted_append_inert hi ho).1
  | save =>
    have hcons := h.cons (e := .saved (compact l.mem)) (fun _ _ => rfl) (fun _ _ => rfl) h.log
    refine ⟨hcons.mem, fun id op ho d hd => ?_, hcons.idle, hcons.log⟩
    obtain rfl : compact l.mem = d := by simpa using hd
    exact InDoubt.compact hw.mem (h.mem id op ho)
  | note e he =>
    cases e with
    | write target operationId kind owner fence returned =>
      refine h.cons (fun _ _ => rfl) (fun _ _ => rfl) ⟨h.log, fun op hop => ?_⟩
      by_contra hne
      have := h.idle target op (by simpa using hne)
      rw [hop, he.2.1] at this
      cases this
    | saved | created | started | provenNotApplied | evicted | retired | fenced | activated | restarted => exact he.elim
    | _ => exact h.cons (fun _ _ => rfl) (fun _ _ => rfl) h.log
  | reset =>
    refine ⟨fun _ _ _ _ ht => (List.not_mem_nil ht).elim, fun id op ho d hd t ht hid => ?_, fun _ _ _ => rfl, h.log⟩
    simp only [doubted, Bool.or_eq_true] at ho
    rcases ho with ho | ho
    · exact h.disk id op ho d hd t ht hid
    · left
      simp only [inFlightAt, Option.any_eq_true, decide_eq_true_eq] at ho
      obtain ⟨s, hs, u, hu, hin⟩ := ho
      obtain rfl : s = d := Option.some.inj (hs.symm.trans (hsaved.symm.trans hd))
      have hgt := (hw.disk s hd).get ht
      rw [hid, hu] at hgt
      exact Option.some.inj hgt ▸ hin

theorem InDoubt.ensureOperable {t : TargetRecord} {op : InFlightOperation} (hs : Shape t) (h : t.inFlight = some op) :
    t.ensureOperable = .error (denied .recoveryRequired
      "terminal-control continuity is uncertain; explicit local recovery is required") := by
  have hg : t.lifecycle ≠ .targetGone := fun hg => by
    rw [hs.idle (by rw [hg]; decide)] at h
    cases h
  simp [TargetRecord.ensureOperable, hg, h]

/-- **An operation in doubt is kept by its record**, and no write call was ever made for one. -/
theorem Ledger.Reachable.doubtInv {B : Bounds} (hB : B.stored "-" 128 = true) {l : Ledger} (h : l.Reachable B) :
    l.DoubtInv :=
  h.induct ⟨fun _ _ ho => (Bool.false_ne_true ho).elim, fun _ _ ho => (Bool.false_ne_true ho).elim,
    fun _ _ ho => (Bool.false_ne_true ho).elim, trivial⟩
    (fun _ _ hr hl hs => hs.doubtInv hr.known (hr.wellFormed hB) hr.saved hl)

end Terminal
end TmuxWorktree
