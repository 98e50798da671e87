import TmuxWorktree.Terminal.Lease
/-!
# Journal — an operation on the books is in the journal or in flight

`owed` says of a trace that a write call of an operation was made and never settled.  The invariant is that the record
then still holds the operation, so a second request for it is answered from the journal or refused, and no second write
call is made.
-/
namespace TmuxWorktree
namespace Terminal

/-- The record, if the state has it, holds the operation: in its journal or in flight. -/
def Holds (id operationId : String) (s : ControlState) : Prop :=
  ∀ t ∈ s.targets, t.controlTargetId = id →
    operationId ∈ t.operationIds ∨ ∃ op ∈ t.inFlight, op.operationId = operationId

/-- **No write call is made for an operation that is on the books.** -/
def NoReplay : List Event → Prop
  | [] => True
  | .write target operationId .. :: tr => NoReplay tr ∧ owed target operationId tr = false
  | _ :: tr => NoReplay tr

/-! ## The books -/

theorem Event.not_writes_of_isInert {e : Event} (h : e.isInert = true) (id op : String) : e.writes id op = false := by
  cases e <;> first | rfl | cases h

theorem owed_append_inert {id op : String} {tr : List Event} : ∀ {events : List Event},
    (∀ e ∈ events, e.isInert = true) → owed id op (events ++ tr) = true →
      owed id op tr = true ∧ ∀ e ∈ events, e.settles id op = false
  | [], _, h => ⟨h, fun _ he => by cases he⟩
  | e :: events, hi, h => by
    rw [List.cons_append, owed, Event.not_writes_of_isInert (hi e List.mem_cons_self), Bool.false_or,
      Bool.and_eq_true, Bool.not_eq_true'] at h
    obtain ⟨h1, h2⟩ := owed_append_inert (fun e he => hi e (List.mem_cons_of_mem _ he)) h.2
    refine ⟨h1, fun e' he' => ?_⟩
    rcases List.mem_cons.1 he' with rfl | he'
    · exact h.1
    · exact h2 e' he'

theorem owed_names {id op : String} : ∀ {tr : List Event}, owed id op tr = true → ∃ e ∈ tr, e.names id
  | [], h => by cases h
  | e :: tr, h => by
    rw [owed, Bool.or_eq_true, Bool.and_eq_true] at h
    rcases h with h | h
    · refine ⟨e, List.mem_cons_self, ?_⟩
      cases e <;> simp_all [Event.writes, Event.names]
    · obtain ⟨e', he', hn⟩ := owed_names h.2
      exact ⟨e', List.mem_cons_of_mem _ he', hn⟩

theorem owed_cons {id op : String} {e : Event} {tr : List Event} (hw : e.writes id op = false)
    (hs : e.settles id op = false) : owed id op (e :: tr) = owed id op tr := by
  rw [owed, hw, hs, Bool.false_or, Bool.not_false, Bool.true_and]

theorem owed_of_writes {id op : String} {e : Event} {tr : List Event} (hw : e.writes id op = true) :
    ∀ {later : List Event}, (∀ e' ∈ later, e'.settles id op = false) → owed id op (later ++ e :: tr) = true
  | [], _ => by rw [List.nil_append, owed, hw, Bool.true_or]
  | e' :: later, h => by
    rw [List.cons_append, owed, h e' List.mem_cons_self, Bool.not_false, Bool.true_and,
      owed_of_writes hw (fun e he => h e (List.mem_cons_of_mem _ he)), Bool.or_true]

theorem NoReplay.of_append {tr : List Event} : ∀ {later : List Event}, NoReplay (later ++ tr) → NoReplay tr
  | [], h => h
  | e :: later, h => by
    have hrest : NoReplay (later ++ tr) := by cases e <;> first | exact h | exact h.1
    exact hrest.of_append

theorem NoReplay.settled {id op : String} {later mid earlier : List Event} {e₁ e₂ : Event}
    (h : NoReplay (later ++ e₂ :: (mid ++ e₁ :: earlier))) (h₁ : e₁.writes id op = true) (h₂ : e₂.writes id op = true) :
    ∃ e ∈ mid, e.settles id op = true := by
  by_contra hcon
  have howed : owed id op (mid ++ e₁ :: earlier) = true :=
    owed_of_writes h₁ (fun e he => by simpa using fun hs => hcon ⟨e, he, hs⟩)
  have hlog := h.of_append
  cases e₂ with
  | write target operationId kind owner fence returned =>
    simp only [Event.writes, Bool.and_eq_true, decide_eq_true_eq] at h₂
    rw [← h₂.1, ← h₂.2, hlog.2] at howed
    cases howed
  | _ => cases h₂

/-! ## Moves -/

theorem mem_operationIds_appendOperation {t : TargetRecord} {op : OperationRecord} {x : String}
    (h : x ∈ t.operationIds ∨ x = op.operationId)
    (hev : ∀ e ∈ t.evictions op, e.settles t.controlTargetId x = false) :
    x ∈ (t.appendOperation op).operationIds := by
  have hx : x ∈ (t.completedOperations ++ [op]).map (·.operationId) := by
    simpa [TargetRecord.operationIds] using h
  unfold TargetRecord.appendOperation TargetRecord.operationIds
  dsimp only
  cases hi : TargetRecord.evictedIndex (t.completedOperations ++ [op]) with
  | none => exact hx
  | some i =>
    obtain ⟨o, ho, rfl⟩ := List.mem_map.1 hx
    dsimp only
    by_cases hoi : (t.completedOperations ++ [op])[i]? = some o
    · have := hev (.evicted t.controlTargetId o.operationId) (by
        simp [TargetRecord.evictions, hi, hoi])
      simp [Event.settles] at this
    · refine List.mem_map_of_mem (List.mem_eraseIdx_iff_getElem?.2 ?_)
      obtain ⟨j, hj⟩ := List.mem_iff_getElem?.1 ho
      exact ⟨j, fun hij => hoi (hij ▸ hj), hj⟩

theorem Move.holds {t t' : TargetRecord} {events : List Event} (hm : Move t events t') {x : String}
    (h : x ∈ t.operationIds ∨ ∃ op ∈ t.inFlight, op.operationId = x)
    (hev : ∀ e ∈ events, e.settles t.controlTargetId x = false) :
    x ∈ t'.operationIds ∨ ∃ op ∈ t'.inFlight, op.operationId = x := by
  cases hm with
  | fence epoch reason options a b c =>
    left
    simp only [TargetRecord.markRecovery, TargetRecord.operationIds, TargetRecord.completeInFlightAsInDoubt]
    cases hin : t.inFlight with
    | none =>
      rcases h with h | ⟨op, hop, -⟩
      · exact h
      · rw [hin] at hop; cases hop
    | some op =>
      refine mem_operationIds_appendOperation (t := t) ?_ (fun e he => hev e ?_)
      · rcases h with h | ⟨op', hop', rfl⟩
        · exact .inl h
        · obtain rfl : op = op' := by simpa [hin] using hop'
          exact .inr rfl
      · refine List.mem_cons_of_mem _ ?_
        simpa [TargetRecord.inDoubtEvictions, hin] using he
  | retire u => simp [Event.settles] at hev
  | start op r u ha hn hf =>
    rcases h with h | ⟨op', hop', -⟩
    · exact .inl h
    · rw [hn] at hop'; cases hop'
  | abandon op hop =>
    rcases h with h | ⟨op', hop', rfl⟩
    · exact .inl h
    · obtain rfl : op = op' := by simpa [hop] using hop'
      simp [Event.settles] at hev
  | commit op record hop hid =>
    refine .inl (mem_operationIds_appendOperation (t := t) ?_ hev)
    rcases h with h | ⟨op', hop', rfl⟩
    · exact .inl h
    · obtain rfl : op = op' := by simpa [hop] using hop'
      exact .inr hid.symm
  | touch | grant | free | sameLease | reconcile | acknowledge | force => exact h

theorem restartTargets_events {env : Env} {epoch : String} : ∀ {ts : List TargetRecord} {tick : Nat} {t' : TargetRecord},
    t' ∈ (restartTargets env epoch tick ts).1 → ∃ t ∈ ts, ∃ a b c, t' = (restartTarget epoch a b c t).1 ∧
      ∀ e ∈ (restartTarget epoch a b c t).2, e ∈ (restartTargets env epoch tick ts).2 := by
  intro ts
  induction ts with
  | nil => intro tick t' h; simp [restartTargets] at h
  | cons t ts ih =>
    intro tick t' h
    simp only [restartTargets, List.mem_cons] at h
    rcases h with h | h
    · exact ⟨t, List.mem_cons_self, _, _, _, h, fun e he => List.mem_append_right _ he⟩
    · obtain ⟨u, hu, a, b, c, hc, he⟩ := ih h
      exact ⟨u, List.mem_cons_of_mem _ hu, a, b, c, hc, fun e h' => List.mem_append_left _ (he e h')⟩

/-! ## The ledger -/

structure Ledger.JournalInv (l : Ledger) : Prop where
  mem : ∀ id op, owed id op l.trace = true → Holds id op l.mem
  disk : ∀ id op, owed id op l.trace = true → ∀ d ∈ l.disk, Holds id op d
  log : NoReplay l.trace

theorem noReplay_append_inert {tr : List Event} (h : NoReplay tr) : ∀ {events : List Event},
    (∀ e ∈ events, e.isInert = true) → NoReplay (events ++ tr)
  | [], _ => h
  | e :: events, hi => by
    have ih := noReplay_append_inert h (fun e he => hi e (List.mem_cons_of_mem _ he))
    have he := hi e List.mem_cons_self
    cases e <;> simp [Event.isInert] at he <;> simpa only [List.cons_append, NoReplay] using ih

theorem Holds.compact {B : Bounds} {s : ControlState} {id op : String} (hw : WellFormed B s) (h : Holds id op s) :
    Holds id op (compact s) := by
  intro t ht hid
  obtain ⟨u, hu, ⟨-, rfl⟩ | ⟨hg, rfl⟩⟩ := mem_compact ht
  · exact h _ hu hid
  · have := h u hu hid
    rwa [TargetRecord.operationIds, (hw.shape u hu).journal hg] at this

theorem Ledger.JournalInv.note {B : Bounds} {l : Ledger} (hw : l.WellFormed B) (h : l.JournalInv) {e : Event}
    (he : l.Notes e) : Ledger.JournalInv { l with trace := e :: l.trace } := by
  cases e with
  | write target operationId kind owner fence returned =>
    obtain ⟨howed, -, d, t, op, hd, hget, hget', hin, hop, -⟩ := he
    -- the operation just put on the books is the one in flight, on disk and in the section
    have inFlight : ∀ {s : ControlState} {u : TargetRecord}, Terminal.WellFormed B s → s.get? target = some u →
        u.inFlight = some op → Holds target operationId s := fun hws hgs hins v hv hid => by
      have hgv := hws.get hv
      rw [hid, hgs] at hgv
      obtain rfl := Option.some.inj hgv
      exact .inr ⟨op, hins, hop⟩
    have new : ∀ id x, owed id x (.write target operationId kind owner fence returned :: l.trace) = true →
        (id = target ∧ x = operationId) ∨ owed id x l.trace = true := fun id x ho => by
      simp only [owed, Event.writes, Bool.or_eq_true, Bool.and_eq_true, decide_eq_true_eq] at ho
      exact ho.imp (fun hh => ⟨hh.1.symm, hh.2.symm⟩) (·.2)
    refine ⟨fun id x ho => ?_, fun id x ho d' hd' => ?_, h.log, howed⟩
    · rcases new id x ho with ⟨rfl, rfl⟩ | ho
      · exact inFlight hw.mem hget' hin
      · exact h.mem id x ho
    · rcases new id x ho with ⟨rfl, rfl⟩ | ho
      · obtain rfl : d = d' := by simpa [hd] using hd'
        exact inFlight (hw.disk d hd) hget hin
      · exact h.disk id x ho d' hd'
  | created | provenNotApplied | evicted | retired => exact he.elim
  | _ =>
    refine ⟨fun id x ho => h.mem id x ?_, fun id x ho => h.disk id x ?_, h.log⟩ <;>
    · rwa [owed_cons rfl rfl] at ho

theorem LedgerStep.journalInv {B : Bounds} {l l' : Ledger} (hk : l.Known) (hw : l.WellFormed B) (h : l.JournalInv)
    (hs : LedgerStep B l l') : l'.JournalInv := by
  cases hs with
  | load s hd => exact ⟨fun id op ho => h.disk id op ho s hd, h.disk, h.log⟩
  | create epoch hd hB => exact ⟨fun _ _ _ _ ht => (List.not_mem_nil ht).elim, h.disk, h.log⟩
  | move t events t' hepoch hget hmove hB halone =>
    refine ⟨fun id op ho => ?_, fun id op ho => ?_, noReplay_append_inert h.log hmove.isInert⟩
    · obtain ⟨hbefore, hev⟩ := owed_append_inert hmove.isInert ho
      intro u hu hid
      rcases ControlState.mem_update hu with ⟨v, -, -, rfl⟩ | ⟨hus, -⟩
      · rw [hmove.frame.1] at hid
        subst hid
        exact hmove.holds (h.mem _ op hbefore t (ControlState.get?_mem hget).1 rfl) hev
      · exact h.mem id op hbefore u hus hid
    · exact h.disk id op (owed_append_inert hmove.isInert ho).1
  | push id generation session tmux u hfresh hB hname =>
    have hsame : ∀ id' op, owed id' op (.created id :: l.trace) = owed id' op l.trace := fun _ _ => owed_cons rfl rfl
    refine ⟨fun id' op ho t ht hid => ?_, fun id' op ho => h.disk id' op (hsame id' op ▸ ho), h.log⟩
    rw [hsame] at ho
    rcases List.mem_append.1 ht with ht | ht
    · exact h.mem id' op ho t ht hid
    · obtain rfl := List.mem_singleton.1 ht
      obtain ⟨e, he, hn⟩ := owed_names ho
      rw [← hid] at hn
      exact absurd (hk.trace e he _ hn) hfresh
  | restart env tick epoch hload hB hBt =>
    have hi : ∀ e ∈ (restartTargets env l.mem.controlEpoch tick l.mem.targets).2, e.isInert = true := restartTargets_isInert _ _
    refine ⟨fun id op ho => ?_, fun id op ho => h.disk id op (owed_append_inert hi ho).1,
      noReplay_append_inert h.log hi⟩
    obtain ⟨hbefore, hev⟩ := owed_append_inert hi ho
    intro t' ht' hid
    obtain ⟨t, ht, a, b, c, rfl, hevents⟩ := restartTargets_events ht'
    rw [(restartTarget_frame _ a b c t).1] at hid
    subst hid
    have hheld := h.mem _ op hbefore t ht rfl
    rcases restartTarget_eq l.mem.controlEpoch a b c t with he | ⟨reason, -, he⟩
    · rw [he]; exact hheld
    · rw [he] at hevents ⊢
      exact (Move.fence t _ reason _ a b c).holds hheld (fun e hme => hev e (hevents e hme))
  | save =>
    refine ⟨h.mem, fun id op ho d hd => ?_, h.log⟩
    obtain rfl : compact l.mem = d := by simpa using hd
    exact (h.mem id op ho).compact hw.mem
  | note e he => exact h.note hw he
  | reset =>
    refine ⟨fun _ _ _ _ ht => (List.not_mem_nil ht).elim, fun id op ho => h.disk id op ?_, h.log⟩
    rwa [owed_cons rfl rfl] at ho

/-- **Every operation on the books is held**, and no write call was ever made for one that was. -/
theorem Ledger.Reachable.journalInv {B : Bounds} (hB : B.stored "-" 128 = true) {l : Ledger} (h : l.Reachable B) :
    l.JournalInv :=
  h.induct ⟨fun _ _ ho => (Bool.false_ne_true ho).elim, fun _ _ ho => (Bool.false_ne_true ho).elim, trivial⟩
    (fun _ _ hr hl hs => hs.journalInv hr.known (hr.wellFormed hB) hl)

theorem Ledger.JournalInv.not_owed {l : Ledger} (h : l.JournalInv) {t : TargetRecord} (ht : t ∈ l.mem.targets)
    {op : String} (hj : op ∉ t.operationIds) (hi : t.inFlight = none) : owed t.controlTargetId op l.trace = false := by
  by_contra hne
  rcases h.mem t.controlTargetId op (by simpa using hne) t ht rfl with hj' | ⟨o, ho, -⟩
  · exact hj hj'
  · rw [hi] at ho; cases ho

end Terminal
end TmuxWorktree
