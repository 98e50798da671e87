import TmuxWorktree.Outbox.Restored
import TmuxWorktree.Outbox.Lanes
import TmuxWorktree.Outbox.Provenance
/-!
# Total — which actions the reducer answers

`apply` catches what `restore` throws, and nothing catches what is thrown before it: the arguments of a draft may be too
long once they are escaped, and a confirmed step may lead back to the epoch it came from.  Whatever is applied is the list
of mutations that the action plans, restored.
-/
namespace TmuxWorktree
namespace Outbox

variable {C : Core} {s s' : State} {a : Action} {effs : List Effect}

/-! ## The transaction of an action -/

/-- The mutation of `reconcileNotAccepted`, by what the caller supplies to recover. -/
def recoveryMutations (C : Core) (s : State) (e : Entry) : Recovery → List Mutation
  | .none => []
  | .retrySameCommand r => [.replace e.id (e.appendRetryExecuteAttempt r C.capacity.maxAttemptsPerEntry)]
  | .reissue c w t =>
    let replacement := e.replacement C c w s.nextCreationOrder t
    [.replace e.id { e with state := .reissued, replacementCommandId := some replacement.commandId }, .insert replacement]

def statusMutations (C : Core) (s : State) (e : Entry) (v : Evidence) (recovery : Recovery) : List Mutation :=
  let settled (state : StateTag) (acceptance : AcceptanceEvidence) : List Mutation :=
    [.replace e.id { e with state := state, acceptanceEvidence := acceptance }]
  match v.state with
  | .accepted => settled (if e.state = .sending then .accepted else e.state) .durable
  | .running => settled .confirming .durable
  | .succeeded => settled .succeeded .durable
  | .failed => settled .failedFinal .durable
  | .inDoubt | .expired => settled .ambiguous .durable
  | .unknown => settled .ambiguous e.acceptanceEvidence
  | .notAccepted => recoveryMutations C s e recovery

/-- **The mutations of the transaction** (`RelayV2OutboxTransactionPlan`) that an applied action carries. -/
def transaction (C : Core) (s : State) : Action → List Mutation
  | .enqueue d t => [.insert (entryFromDraft C d s.nextCreationOrder t none)]
  | .dispatchEligible ids budget =>
    (dispatched s ids budget).map fun p => .replace p.1.id (p.1.appendAttempt p.1.attempts p.2 .execute .sending)
  | .beginQueries ids rs =>
    (asked ((queryBatches (s.entries.filter fun e => e.id ∈ ids)).zip rs)).map fun p =>
      .replace p.1.id (p.1.queried p.2 C.capacity.maxAttemptsPerEntry)
  | .hostContinuityObserved .. => []
  | .attemptInterrupted i _ => (s.entry i).toList.map fun e => .replace e.id { e with state := .confirming }
  | .reconcileStatus v recovery => (s.entry v.entryId).toList.flatMap fun e => statusMutations C s e v recovery
  | .hostEpochChanged p q h o n w l =>
    (s.entries.filter fun e => e.queryAuthority = (p, q, h, o)).filterMap fun e =>
      (e.epochChanged C n w l).map fun c => .replace e.id c.1
  | .confirmQueuedTarget i .. =>
    (s.entry i).toList.flatMap fun e => e.targetRevalidation.toList.map fun pending => .replace e.id (e.confirmed pending)

def inserted (ms : List Mutation) : Nat := ms.countP fun m => match m with | .insert _ => true | .replace .. => false

/-! ## Applying the transaction -/

theorem apply_cases {ms : List Mutation} {effs' : List Effect} {n : Nat} (h : apply C s ms effs n = .applied s' effs') :
    effs' = effs ∧ ((ms = [] ∧ s' = s) ∨
      ∃ es, mutate ms s.entries = .ok es ∧ restore C es n = .ok s' ∧ s'.withinCapacity C.capacity = true) := by
  unfold apply at h
  by_cases hm : ms.isEmpty = true
  · rw [if_pos hm] at h
    cases h
    exact ⟨rfl, .inl ⟨List.isEmpty_iff.mp hm, rfl⟩⟩
  · rw [if_neg hm] at h
    split at h
    · cases h
    · rename_i es hes
      split at h
      · cases h
      · rename_i candidate hc
        split at h
        · rename_i hcap
          cases h
          exact ⟨rfl, .inr ⟨es, hes, hc, hcap⟩⟩
        · cases h

theorem apply_ne_thrown {ms : List Mutation} {n : Nat} : apply C s ms effs n ≠ .thrown := by
  intro h
  unfold apply at h
  repeat' split at h
  all_goals cases h

def Planned (C : Core) (s : State) (a : Action) (s' : State) (effs : List Effect) : Prop :=
  apply C s (transaction C s a) effs (s.nextCreationOrder + inserted (transaction C s a)) = .applied s' effs

theorem inserted_replaces {α : Type} {l : List α} {i : α → EntryId} {f : α → Entry} :
    inserted (l.map fun x => .replace (i x) (f x)) = 0 := by
  rw [inserted, List.countP_eq_zero]
  intro m hm
  obtain ⟨x, -, rfl⟩ := List.mem_map.mp hm
  simp

theorem planned_of_apply {effs' : List Effect} {ms : List Mutation} {n : Nat} (hms : transaction C s a = ms)
    (hn : n = s.nextCreationOrder + inserted ms) (h : apply C s ms effs n = .applied s' effs') : Planned C s a s' effs' := by
  obtain ⟨rfl, -⟩ := apply_cases h
  unfold Planned
  rw [hms, ← hn]
  exact h

theorem settle_planned {v : Evidence} {recovery : Recovery} {e : Entry} {t : StateTag} {acc : AcceptanceEvidence}
    (he : s.entry v.entryId = some e)
    (hm : statusMutations C s e v recovery = [.replace e.id { e with state := t, acceptanceEvidence := acc }])
    (h : settle C s e t acc = .applied s' effs) : Planned C s (.reconcileStatus v recovery) s' effs := by
  refine planned_of_apply ?_ rfl h
  simp only [transaction, he, Option.toList_some, List.flatMap_cons, List.flatMap_nil, List.append_nil, hm]

theorem retry_planned {v : Evidence} {e : Entry} {r : String}
    (hms : transaction C s a = recoveryMutations C s e (.retrySameCommand r)) (h : retry C s e v r = .applied s' effs) :
    Planned C s a s' effs := by
  unfold retry at h
  split at h
  · cases h
  dsimp only at h
  split at h
  · cases h
  · exact planned_of_apply hms rfl h

theorem reissue_planned {e : Entry} {c w : String} {t : Nat}
    (hms : transaction C s a = recoveryMutations C s e (.reissue c w t)) (h : reissue C s e c w t = .applied s' effs) :
    Planned C s a s' effs := by
  unfold reissue at h
  split at h
  · cases h
  split at h
  · cases h
  dsimp only at h
  split at h
  · cases h
  · exact planned_of_apply hms rfl h

theorem reconcileNotAccepted_planned {v : Evidence} {recovery : Recovery} {e : Entry} (he : s.entry v.entryId = some e)
    (hst : v.state = .notAccepted) (h : reconcileNotAccepted C s e v recovery = .applied s' effs) :
    Planned C s (.reconcileStatus v recovery) s' effs := by
  have hms : transaction C s (.reconcileStatus v recovery) = recoveryMutations C s e recovery := by
    simp only [transaction, he, Option.toList_some, List.flatMap_cons, List.flatMap_nil, List.append_nil, statusMutations,
      hst]
  unfold reconcileNotAccepted at h
  split at h
  · cases h
  split at h
  case h_2 => cases h
  split at h
  · cases h
  split at h
  · cases h
  split at h
  · cases h
  split at h
  · cases recovery with
    | retrySameCommand r => exact retry_planned hms h
    | none => cases h
    | reissue c w t => cases h
  split at h
  · cases recovery with
    | reissue c w t => exact reissue_planned hms h
    | none => cases h
    | retrySameCommand r => cases h
  · cases h

theorem reconcileStatus_planned {v : Evidence} {recovery : Recovery} (h : reconcileStatus C s v recovery = .applied s' effs) :
    Planned C s (.reconcileStatus v recovery) s' effs := by
  unfold reconcileStatus at h
  split at h
  · cases h
  rename_i e he
  split at h
  · cases h
  split at h
  · cases h
  split at h
  · cases h
  split at h
  · cases h
  cases hst : v.state with
  | notAccepted =>
    rw [hst] at h
    exact reconcileNotAccepted_planned he hst h
  | accepted =>
    simp only [hst, reconcileAccepted] at h
    split at h
    · cases h
    exact settle_planned he (by simp only [statusMutations, hst]) h
  | running =>
    simp only [hst, reconcileRunning] at h
    split at h
    · cases h
    exact settle_planned he (by simp only [statusMutations, hst]) h
  | succeeded =>
    simp only [hst, reconcileSucceeded] at h
    split at h
    · cases h
    exact settle_planned he (by simp only [statusMutations, hst]) h
  | failed =>
    simp only [hst, reconcileFailed] at h
    split at h
    · cases h
    exact settle_planned he (by simp only [statusMutations, hst]) h
  | inDoubt =>
    simp only [hst, reconcileAmbiguous] at h
    split at h
    · cases h
    exact settle_planned he (by simp only [statusMutations, hst]) h
  | expired =>
    simp only [hst, reconcileAmbiguous] at h
    split at h
    · cases h
    exact settle_planned he (by simp only [statusMutations, hst]) h
  | unknown =>
    simp only [hst, reconcileAmbiguous] at h
    split at h
    · cases h
    exact settle_planned he (by simp only [statusMutations, hst]) h

/-- **What is applied is the transaction.** -/
theorem reduce_planned (h : reduce C s a = .applied s' effs) : Planned C s a s' effs := by
  cases a with
  | enqueue d t =>
    simp only [reduce, enqueue] at h
    split at h
    · cases h
    split at h
    · cases h
    exact planned_of_apply rfl rfl h
  | dispatchEligible ids budget =>
    simp only [reduce, dispatchEligible] at h
    split at h
    · cases h
    split at h
    · cases h
    split at h
    · cases h
    exact planned_of_apply rfl (by dsimp only [transaction]; rw [inserted_replaces]; rfl) h
  | beginQueries ids rs =>
    simp only [reduce, beginQueries] at h
    split at h
    · cases h
    split at h
    · cases h
    split at h
    · cases h
    split at h
    · cases h
    exact planned_of_apply rfl (by dsimp only [transaction]; rw [inserted_replaces]; rfl) h
  | hostContinuityObserved p q o n =>
    simp only [reduce, hostContinuityObserved] at h
    split at h
    · cases h
      rfl
    · cases h
  | attemptInterrupted i r =>
    simp only [reduce, interruptAttempt] at h
    split at h
    · cases h
    rename_i e he
    split at h
    · cases h
    split at h
    · cases h
    refine planned_of_apply ?_ rfl h
    simp only [transaction, he, Option.toList_some, List.map_cons, List.map_nil]
  | reconcileStatus v recovery => exact reconcileStatus_planned h
  | hostEpochChanged p q o n w u l =>
    simp only [reduce, hostEpochChanged] at h
    split at h
    · cases h
    refine planned_of_apply ?_ (by rw [inserted_replaces]; rfl) h
    simp only [transaction, List.map_filterMap, Option.map_map]
    rfl
  | confirmQueuedTarget i o w sc se =>
    simp only [reduce, confirmQueuedTarget] at h
    split at h
    · cases h
    rename_i e he
    split at h
    · cases h
    rename_i pending hp
    iterate 8
      split at h
      · cases h
    refine planned_of_apply ?_ rfl h
    simp only [transaction, he, hp, Option.toList_some, List.flatMap_cons, List.flatMap_nil, List.append_nil, List.map_cons,
      List.map_nil]

/-! ## Restored states along a run -/

theorem next_restored (h : s.Restored C) : (next C s a).1.Restored C := by
  unfold next
  cases hr : reduce C s a with
  | applied s' effs =>
    obtain ⟨-, ⟨-, rfl⟩ | ⟨es, -, hes, -⟩⟩ := apply_cases (reduce_planned hr)
    · exact h
    · exact restore_restored hes
  | rejected r => exact h
  | thrown => exact h

theorem next_withinCapacity (h : s.entries ≠ [] → s.withinCapacity C.capacity = true)
    (hne : (next C s a).1.entries ≠ []) : (next C s a).1.withinCapacity C.capacity = true := by
  revert hne
  unfold next
  cases hr : reduce C s a with
  | applied s' effs =>
    obtain ⟨-, ⟨-, rfl⟩ | ⟨es, -, -, hcap⟩⟩ := apply_cases (reduce_planned hr)
    · exact h
    · exact fun _ => hcap
  | rejected r => exact h
  | thrown => exact h

theorem run_restored (actions : List Action) : (run C actions).state.Restored C := by
  have hstart : (⟨.empty, fun _ => []⟩ : Log).state.Restored C := State.empty_restored
  unfold run
  generalize (⟨.empty, fun _ => []⟩ : Log) = l at hstart
  induction actions generalizing l with
  | nil => exact hstart
  | cons a rest ih => exact ih _ (next_restored hstart)

theorem run_withinCapacity (actions : List Action) :
    (run C actions).state.entries ≠ [] → (run C actions).state.withinCapacity C.capacity = true := by
  have hstart : (⟨.empty, fun _ => []⟩ : Log).state.entries ≠ [] →
      (⟨.empty, fun _ => []⟩ : Log).state.withinCapacity C.capacity = true := fun h => absurd rfl h
  unfold run
  generalize (⟨.empty, fun _ => []⟩ : Log) = l at hstart
  induction actions generalizing l with
  | nil => exact hstart
  | cons a rest ih => exact ih _ (next_withinCapacity hstart)

/-- **What is saved comes back.**  The entries of any run, read back in any order, make the state that they were
saved from: the same order, the same numbers and the same bytes. -/
theorem saved_entries_restore (C : Core) (actions : List Action) {es : List Entry}
    (hsaved : es.Perm (run C actions).state.entries) :
    restore C es (run C actions).state.nextCreationOrder = .ok (run C actions).state := by
  obtain ⟨hr, hs⟩ := restore_ok_iff.mp (run_restored (C := C) actions)
  refine restore_ok_iff.mpr ⟨hr.perm hsaved, ?_⟩
  rw [insertionSort_perm hr.orders hsaved, entryBytes_perm hsaved]
  exact hs

theorem saved_entries_restore_reversed :
    restore sampleCore (run sampleCore sampleRun).state.entries.reverse (run sampleCore sampleRun).state.nextCreationOrder =
      .ok (run sampleCore sampleRun).state :=
  saved_entries_restore sampleCore sampleRun (List.reverse_perm _)

/-! ## What is thrown -/

/-- **The confirmation would lead back**: it names what the entry waits for, there is room for one more step, and the
epoch to confirm is that of the target confirmed last. -/
def Entry.leadsBack (e : Entry) (maxSteps : Nat) (observed window scopeId : String) (sessionId : Option String) : Bool :=
  e.targetRevalidation.any fun pending =>
    e.state = .queued && pending.observedHostEpoch = observed && pending.dedupeWindowId = window &&
      e.expectedHostEpoch = observed && e.dedupeWindowId = window && scopeId = e.scopeId && sessionId = e.sessionId &&
      e.targetProvenance.confirmedHistory.length < maxSteps &&
      pending.sourceConfirmedTarget.expectedHostEpoch = observed

/-- **The reducer answers**: the arguments of a draft fit once they are escaped, and a confirmation does not lead back. -/
def Action.answerable (C : Core) (s : State) : Action → Bool
  | .enqueue d _ => Json.units d.arguments.canonicalMap.text ≤ maxArgumentsCanonicalBytes
  | .confirmQueuedTarget i observed window scopeId sessionId =>
    !(s.entry i).any fun e => e.leadsBack C.capacity.maxTargetProvenanceSteps observed window scopeId sessionId
  | _ => true

theorem retry_ne_thrown {e : Entry} {v : Evidence} {r : String} : retry C s e v r ≠ .thrown := by
  unfold retry
  split
  · simp
  · dsimp only
    split
    · rename_i h
      simp [Entry.appendRetryExecuteAttempt, Entry.appendAttempt] at h
    · exact apply_ne_thrown

theorem reissue_ne_thrown {e : Entry} {c w : String} {t : Nat} : reissue C s e c w t ≠ .thrown := by
  unfold reissue
  split
  · simp
  split
  · simp
  dsimp only
  split
  · simp
  · exact apply_ne_thrown

theorem reconcileNotAccepted_ne_thrown {e : Entry} {v : Evidence} {recovery : Recovery} :
    reconcileNotAccepted C s e v recovery ≠ .thrown := by
  unfold reconcileNotAccepted
  split
  · simp
  split
  case h_2 => simp
  split
  · simp
  split
  · simp
  split
  · simp
  split
  · cases recovery with
    | retrySameCommand r => exact retry_ne_thrown
    | none => simp
    | reissue c w t => simp
  split
  · cases recovery with
    | reissue c w t => exact reissue_ne_thrown
    | none => simp
    | retrySameCommand r => simp
  · simp

theorem reconcileStatus_ne_thrown {v : Evidence} {recovery : Recovery} : reconcileStatus C s v recovery ≠ .thrown := by
  unfold reconcileStatus
  split
  · simp
  iterate 4
    split
    · simp
  cases v.state with
  | notAccepted => exact reconcileNotAccepted_ne_thrown
  | accepted => simp only [reconcileAccepted]; split <;> simp [settle, apply_ne_thrown]
  | running => simp only [reconcileRunning]; split <;> simp [settle, apply_ne_thrown]
  | succeeded => simp only [reconcileSucceeded]; split <;> simp [settle, apply_ne_thrown]
  | failed => simp only [reconcileFailed]; split <;> simp [settle, apply_ne_thrown]
  | inDoubt => simp only [reconcileAmbiguous]; split <;> simp [settle, apply_ne_thrown]
  | expired => simp only [reconcileAmbiguous]; split <;> simp [settle, apply_ne_thrown]
  | unknown => simp only [reconcileAmbiguous]; split <;> simp [settle, apply_ne_thrown]

theorem confirmQueuedTarget_thrown_iff {i : EntryId} {o w sc : String} {se : Option String} (hs : s.Sound C) :
    confirmQueuedTarget C s i o w sc se = .thrown ↔
      ∃ e, s.entry i = some e ∧ e.leadsBack C.capacity.maxTargetProvenanceSteps o w sc se = true := by
  constructor
  · intro h
    unfold confirmQueuedTarget at h
    split at h
    · cases h
    rename_i e he
    split at h
    · cases h
    rename_i pending hp
    dsimp only at h
    split at h
    · cases h
    rename_i hnamed
    split at h
    · cases h
    split at h
    · cases h
    split at h
    · cases h
    rename_i htarget
    split at h
    · cases h
    split at h
    · cases h
    rename_i hroom
    split at h
    · rename_i hback
      simp only [ne_eq, Bool.or_eq_true, decide_eq_true_eq, not_or, not_not, decide_not, Bool.not_eq_true',
        decide_eq_false_iff_not] at hnamed htarget
      obtain ⟨⟨⟨⟨hq, ho⟩, hw⟩, heo⟩, hew⟩ := hnamed
      obtain ⟨⟨hprop, hsc⟩, hse⟩ := htarget
      rw [hprop] at hback hsc hse
      refine ⟨e, he, ?_⟩
      simp only [Entry.leadsBack, hp, Option.any_some, Bool.and_eq_true, decide_eq_true_eq]
      exact ⟨⟨⟨⟨⟨⟨⟨⟨hq, ho⟩, hw⟩, heo⟩, hew⟩, hsc⟩, hse⟩, Nat.lt_of_not_le hroom⟩, hback.trans heo⟩
    · split at h
      · cases h
      · exact absurd h apply_ne_thrown
  · rintro ⟨e, he, h⟩
    have hv := hs.entries.valid e (State.entry_mem he).1
    unfold Entry.leadsBack at h
    cases hp : e.targetRevalidation with
    | none =>
      rw [hp] at h
      cases h
    | some pending =>
      simp only [hp, Option.any_some, Bool.and_eq_true, decide_eq_true_eq] at h
      obtain ⟨⟨⟨⟨⟨⟨⟨⟨hq, ho⟩, hw⟩, heo⟩, hew⟩, rfl⟩, rfl⟩, hroom⟩, hback⟩ := h
      obtain ⟨hprop, hsrc, hord, -⟩ := (e.valid_chained hv).waiting pending hp
      have hproof := (Entry.valid_iff.mp hv).2.2.2.2.2.2.1
      have hnoproof : ¬(e.reissuedFromCommandId.isSome && e.reissueLineageProof.isNone) = true := by
        cases h₁ : e.reissuedFromCommandId <;> cases h₂ : e.reissueLineageProof <;> simp_all
      simp only [Provenance.lastConfirmed] at hsrc
      unfold confirmQueuedTarget
      rw [he]
      simp only [hp]
      rw [if_neg (by simp [hq, ho, hw, heo, hew]), if_neg (by simp [e.valid_shape hv]), if_neg hnoproof,
        if_neg (by simp [hprop, Entry.target]), if_neg (by simp [hsrc, hord]), if_neg (Nat.not_le_of_lt hroom),
        if_pos (by rw [hback, hprop]; exact heo.symm)]

/-- **The reducer throws exactly where nothing catches it.** -/
theorem reduce_thrown_iff (hs : s.Sound C) : reduce C s a = .thrown ↔ a.answerable C s = false := by
  cases a with
  | enqueue d t =>
    simp only [reduce, enqueue, Action.answerable, decide_eq_false_iff_not, Nat.not_le]
    constructor
    · intro h
      split at h
      · assumption
      · split at h
        · cases h
        · exact absurd h apply_ne_thrown
    · intro h
      rw [if_pos h]
  | confirmQueuedTarget i o w sc se =>
    simp only [reduce, confirmQueuedTarget_thrown_iff hs, Action.answerable, Bool.not_eq_false', Option.any_eq_true]
  | reconcileStatus v recovery => simp [reduce, Action.answerable, reconcileStatus_ne_thrown]
  | dispatchEligible ids budget =>
    simp only [reduce, dispatchEligible, Action.answerable, Bool.true_eq_false, iff_false]
    repeat' split
    all_goals simp [apply_ne_thrown]
  | beginQueries ids rs =>
    simp only [reduce, beginQueries, Action.answerable, Bool.true_eq_false, iff_false]
    repeat' split
    all_goals simp [apply_ne_thrown]
  | hostContinuityObserved p q o n =>
    simp only [reduce, hostContinuityObserved, Action.answerable, Bool.true_eq_false, iff_false]
    split <;> simp
  | attemptInterrupted i r =>
    simp only [reduce, interruptAttempt, Action.answerable, Bool.true_eq_false, iff_false]
    repeat' split
    all_goals simp [apply_ne_thrown]
  | hostEpochChanged p q o n w u l =>
    simp only [reduce, hostEpochChanged, Action.answerable, Bool.true_eq_false, iff_false]
    split <;> simp [apply_ne_thrown]

/-! ## Answers -/

/-- **An atomic answer.**  What is applied is restored from itself, and is the state with the mutations of the transaction
and nothing else; what is rejected leaves the state. -/
inductive Answered (C : Core) (s : State) (a : Action) : Result → Prop
  | applied (s' : State) (effects : List Effect) (es : List Entry) (restored : s'.Restored C)
    (mutated : mutate (transaction C s a) s.entries = .ok es) (entries : s'.entries = es.insertionSort createdBefore)
    (order : s'.nextCreationOrder = s.nextCreationOrder + inserted (transaction C s a)) :
    Answered C s a (.applied s' effects)
  | rejected (reason : Rejection) (unchanged : (next C s a).1 = s) : Answered C s a (.rejected reason)

theorem reduce_answered (hs : s.Restored C) (h : reduce C s a ≠ .thrown) : Answered C s a (reduce C s a) := by
  cases hr : reduce C s a with
  | applied s' effs =>
    have hp := reduce_planned hr
    obtain ⟨-, ⟨hms, rfl⟩ | ⟨es, hes, hrest, -⟩⟩ := apply_cases hp
    · exact .applied s' effs s'.entries hs (by rw [hms]; rfl) (congrArg State.entries (restore_ok_iff.mp hs).2)
        (by rw [hms]; rfl)
    · obtain ⟨-, rfl⟩ := restore_ok_iff.mp hrest
      exact .applied _ effs es (restore_restored hrest) hes rfl rfl
  | rejected r =>
    refine .rejected r ?_
    unfold next
    rw [hr]
  | thrown => exact absurd hr h

def Result.isThrown : Result → Bool
  | .thrown => true
  | _ => false

theorem not_answered {r : Result} (h : r.isThrown = true) : ¬ Answered C s a r := by
  cases r with
  | thrown =>
    intro hno
    cases hno
  | applied s' effs => cases h
  | rejected reason => cases h

/-- A message waits while the host goes to its second epoch and comes back to the first, with a new window. -/
def returnedRun : List Action :=
  [sampleMessage "e1" "w1" "c1", sampleEpoch, .hostEpochChanged "p" "u" "h" "e2" "e1" "w2" .queryable]

end Outbox
end TmuxWorktree
