import TmuxWorktree.Terminal.Answers
/-!
# Safety — what holds of every run of the terminal-control authority

The invariants of the ledger, read off the trace of a run.  A run is any list of requests, synchronous calls and deaths
of the process, over any outside; all that is asked of the outside is that the `randomUUID`s it answers during the run
are distinct, and, for the state file, that scalars are within the bounds of `store.ts`.
-/
namespace TmuxWorktree
namespace Terminal

open Effect

variable {env : Env} {steps : List Step}

/-! ## An outside for examples -/

/-- Everything succeeds, and one millisecond passes between two questions. -/
def sampleEnv : Env where
  now n := n
  randomUUID n := String.ofList (List.replicate (n % 100 + 1) 'u')
  digest _ := String.ofList (List.replicate 64 '0')
  relayV2ExactTargetTtlMs := 1000
  save _ := .done
  lock _ := .ok ()
  dies _ := false
  interleaved _ := []
  hasRawFenced := true
  hasMessageFenced := true
  hasInspectExactTarget := true
  hasObserveExactTarget := true
  hasEstablishExactTarget := true
  done _ := .ok ()
  position _ := .ok ⟨"generation", 0, none⟩
  chunk _ := .ok ⟨"generation", 0, "", 0⟩
  resolved _ := .ok ⟨⟨"work", .worktree, 0⟩, "tmux"⟩
  observed _ := .ok ⟨⟨"work", .worktree, 0⟩, "incarnation", some "tmux", "pane"⟩
  rendered _ := .ok ⟨"", false⟩
  report _ := .ok ⟨"", false⟩

theorem replicate_distinct {n : Nat} (hn : n ≤ 100) {i j : Nat} (hi : i < n) (hj : j < n)
    (h : String.ofList (List.replicate (i % 100 + 1) 'u') = String.ofList (List.replicate (j % 100 + 1) 'u')) : i = j := by
  have hl := congrArg (fun s => s.toList.length) h
  simp only [String.toList_ofList, List.length_replicate] at hl
  omega

def sampleOwner : Owner := ⟨.localCli, "cli"⟩

/-- A target is resolved, and the owner acquires its lease. -/
def sampleSteps : List Step :=
  [.sync .externalBegin, .locked (.handle (.targetResolve "work")),
    .locked (.handle (.leaseAcquire (sampleEnv.randomUUID 4) sampleOwner 20))]

def sampleLease : Lease := ⟨sampleEnv.randomUUID 4, sampleEnv.randomUUID 2, sampleEnv.randomUUID 14, 1, sampleOwner, 35⟩

/-! ## Leases -/

/-- **Lease fencing.**  The persisted fence of a target never goes down; two leases issued for one target at one fence
have one lease id and one epoch; an issued lease that was rejected because its epoch, lease id or fence does not match is
never accepted again, and every later state of its target rejects it. -/
theorem lease_fencing (env : Env) (steps : List Step) (hd : env.Distinct (run env steps).tick) :
    (∀ later s' earlier s, (run env steps).trace = later ++ Event.saved s' :: earlier → Event.saved s ∈ earlier →
      ∀ t ∈ s.targets, ∀ t' ∈ s'.targets, t'.controlTargetId = t.controlTargetId → t.fence ≤ t'.fence) ∧
    (∀ a b, Event.issued a ∈ (run env steps).trace → Event.issued b ∈ (run env steps).trace →
      a.controlTargetId = b.controlTargetId → a.fence = b.fence → a.leaseId = b.leaseId ∧ a.controlEpoch = b.controlEpoch) ∧
    (∀ later earlier first lease b, (run env steps).trace =
        later ++ Event.validated lease.controlTargetId lease false b :: earlier →
      Event.issued first ∈ earlier → first.Same lease →
      (∀ agrees accepted, Event.validated lease.controlTargetId lease agrees accepted ∈ later → accepted = false) ∧
      (∀ s, Event.saved s ∈ later → ∀ t ∈ s.targets, t.controlTargetId = lease.controlTargetId →
        ∀ allowDraining, t.validateLease s.controlEpoch lease allowDraining ≠ .ok ())) := by
  have hlog : LeaseLog (run env steps).trace := ((run_reaches hd).reach.leaseInv rfl).log
  refine ⟨fun later s' earlier s htr hs => ?_, fun a b ha hb ht hf => ?_, fun later earlier first lease b htr hi hsame => ?_⟩
  · rw [htr] at hlog
    exact hlog.of_append.2.1 s hs
  · obtain ⟨h1, h2, -⟩ := hlog.issued_same ha hb ht hf
    exact ⟨h1, h2⟩
  · rw [htr] at hlog
    have hrej : rejected lease (.validated lease.controlTargetId lease false b :: earlier) :=
      Or.inl ⟨rfl, rfl, rfl, first, hi, hsame⟩
    obtain ⟨h1, h2⟩ := LeaseLog.fenced hrej hlog
    refine ⟨h1, fun s hs t ht hid allowDraining hv => ?_⟩
    have hlt := h2 s hs t ht hid
    rw [(leaseMatches_iff.1 (validateLease_ok hv).1).2.2] at hlt
    exact lt_irrefl _ hlt

theorem sampleEnv_distinct {n : Nat} (hn : n ≤ 100) : sampleEnv.Distinct n := fun _ _ hi hj h =>
  replicate_distinct hn hi hj h

/-- The lease of `sampleSteps` is the only one of its fence. -/
theorem lease_fencing_sample : Event.issued sampleLease ∈ (run sampleEnv sampleSteps).trace ∧
    ∀ b, Event.issued b ∈ (run sampleEnv sampleSteps).trace → sampleLease.controlTargetId = b.controlTargetId →
      sampleLease.fence = b.fence → sampleLease.leaseId = b.leaseId ∧ sampleLease.controlEpoch = b.controlEpoch := by
  have hin : Event.issued sampleLease ∈ (run sampleEnv sampleSteps).trace := by decide
  exact ⟨hin, fun b => (lease_fencing sampleEnv sampleSteps (sampleEnv_distinct (by decide))).2.1 sampleLease b hin⟩

/-! ## Writes -/

theorem Sat.of_request {α : Type} {w : World} {s : Section} {x : M α} {C : World → Prop} {E : ControlError → World → Prop}
    {Q : α → World → Prop} (h : Sat C x { w with running := s.running } Q E) {r : α} {w' : World}
    (hx : x { w with running := s.running } = (.ok r, w')) : Q r w' := by
  unfold Sat at h
  rw [hx] at h
  exact h

/-- **At most one write.**  Between two write calls of one operation on one target, the first was proved not applied, or
its journal entry was dropped.  An operation that was in flight when a process died is never written again while its
target is not retired: its record is not operable, or answers `OPERATION_IN_DOUBT` for it, and no retry returns. -/
theorem write_at_most_once (env : Env) (steps : List Step) (hd : env.Distinct (run env steps).tick) :
    (∀ later e₂ mid e₁ earlier id operationId, (run env steps).trace = later ++ e₂ :: (mid ++ e₁ :: earlier) →
      e₁.writes id operationId = true → e₂.writes id operationId = true → ∃ e ∈ mid, e.settles id operationId = true) ∧
    (∀ later e earlier id op, (run env steps).trace = later ++ e :: earlier → e.writes id op.operationId = true →
      doubted id op earlier = false) ∧
    (∀ id op, doubted id op (run env steps).trace = true →
      (∀ d ∈ (run env steps).disk, ∀ t ∈ d.targets, t.controlTargetId = id →
        t.ensureOperable = .error (denied .recoveryRequired
          "terminal-control continuity is uncertain; explicit local recovery is required") ∨
        ∀ instanceId fence, t.existingOperation op.operationId instanceId fence op.payloadHash op.kind =
          .error (denied .operationInDoubt
            "operation was accepted previously but its backend disposition is uncertain")) ∧
      (0 < (run env steps).loc.relayV2ExternalOperations → ∀ lease, lease.controlTargetId = id →
        (∀ pane payload r w', executeInput env lease op.operationId pane payload
          { run env steps with running := .external } ≠ (.ok r, w')) ∧
        (∀ r w', executeLifecycleKill env lease op.operationId
          { run env steps with running := .external } ≠ (.ok r, w')))) := by
  have hs := run_reaches hd
  have hE := within_noBounds env
  refine ⟨fun later e₂ mid e₁ earlier id operationId htr h₁ h₂ => ?_, fun later e earlier id op htr he => ?_,
    fun id op hdoubt => ⟨fun d hdisk t ht hid => ?_, fun hops lease hid => ⟨fun pane payload r w' hx => ?_, fun r w' hx => ?_⟩⟩⟩
  · have hlog : NoReplay (run env steps).trace := (hs.reach.journalInv rfl).log
    rw [htr] at hlog
    exact hlog.settled h₁ h₂
  · have hlog : NoRetry (run env steps).trace := (hs.reach.doubtInv rfl).log
    rw [htr] at hlog
    exact hlog.of_append.not_doubted he
  · have hshape := ((hs.reach.wellFormed rfl).disk d hdisk).shape t ht
    rcases (hs.reach.doubtInv rfl).disk id op hdoubt d hdisk t ht hid with hin | ⟨r, hr, hid, hh, hk, hdis⟩
    · exact .inl (InDoubt.ensureOperable hshape hin)
    · refine .inr (fun instanceId fence => ?_)
      rw [existingOperation_inDoubt hshape hr hid hh hk hdis, if_pos ⟨rfl, rfl⟩]
  · subst hid
    have ha : (Section.handle (.input lease op.operationId pane payload)).admissible (run env steps).loc = true := by
      simpa [Section.admissible, Section.running] using hops
    exact Sat.of_request (s := .handle (.input lease op.operationId pane payload))
      (executeInput_inDoubt hE (hs.enter ha) rfl le_rfl rfl hdoubt pane payload) hx
  · subst hid
    have ha : (Section.handle (.lifecycleKill lease op.operationId)).admissible (run env steps).loc = true := by
      simpa [Section.admissible, Section.running] using hops
    exact Sat.of_request (s := .handle (.lifecycleKill lease op.operationId))
      (executeLifecycleKill_inDoubt hE (hs.enter ha) rfl le_rfl hdoubt) hx

/-- The process dies in the write call of `op`, and a new one restarts the controller. -/
def dyingEnv : Env := { sampleEnv with dies := fun n => n = 24 }

def sampleInput : Step := .locked (.handle (.input sampleLease "op" "0" (.raw [97])))

def sampleInFlight : InFlightOperation :=
  ⟨"op", "cli", 1, String.ofList (List.replicate 64 '0'), .raw, some "generation", some 0, 21⟩

def restartSteps : List Step := sampleSteps ++ [sampleInput, .sync .externalBegin, .locked .initializeContinuity]

/-- `op` is in doubt after the restart, and no retry of it returns. -/
theorem write_at_most_once_restart : doubted (sampleEnv.randomUUID 4) sampleInFlight (run dyingEnv restartSteps).trace = true ∧
    ∀ r w', executeInput dyingEnv sampleLease "op" "0" (.raw [97])
      { run dyingEnv restartSteps with running := .external } ≠ (.ok r, w') := by
  have hdoubt : doubted (sampleEnv.randomUUID 4) sampleInFlight (run dyingEnv restartSteps).trace = true := by decide
  have hd : dyingEnv.Distinct (run dyingEnv restartSteps).tick := fun _ _ => replicate_distinct (by decide)
  exact ⟨hdoubt, ((write_at_most_once dyingEnv restartSteps hd).2.2 _ sampleInFlight hdoubt).2 (by decide) sampleLease rfl |>.1
    "0" (.raw [97])⟩

/-- The dashboard takes over by force before the retry. -/
def forcedSteps : List Step := restartSteps ++
  [.locked (.handle (.handoffForce (sampleEnv.randomUUID 4) (sampleEnv.randomUUID 27) ⟨.dashboard, "dash"⟩ .ownerUnreachable
    true 20))]

/-- The retry of an operation in doubt is told that its lease is fenced. -/
theorem retry_permission_denied :
    doubted (sampleEnv.randomUUID 4) sampleInFlight (run dyingEnv forcedSteps).trace = true ∧
    (executeInput dyingEnv sampleLease "op" "0" (.raw [97]) { run dyingEnv forcedSteps with running := .external }).1 =
      .err (denied .permissionDenied "terminal input lease is fenced") := by decide

/-! ## Hand-overs -/

/-- No target of the state file drains until before `n`. -/
def World.early (w : World) (n : Nat) : Bool :=
  w.disk.all (fun d => d.targets.all (fun t => t.drainsUntil.all (fun x => (n : Int) ≤ x)))

theorem World.early.not_late {w : World} {n : Nat} (h : w.early n = true) (hnow : ∀ n, env.now n = n) (s : Section) :
    ¬ (s.watch w False).Late env n := by
  rintro ⟨id, o, x, ⟨d, t, f, l, ho, hdisk, hget, hact, hown⟩, j, -, hj, hx, -⟩
  have hdisk : w.disk = some d := hdisk
  have hdrain : t.drainsUntil = some x := by rw [TargetRecord.drainsUntil, hact, hown]
  simp only [World.early, hdisk, Option.all_some, List.all_eq_true] at h
  have hle := h t (ControlState.get?_mem hget).1
  rw [hdrain, Option.all_some, decide_eq_true_eq] at hle
  rw [hnow] at hx
  omega

/-- A hand-over is begun, and the controller restarts before it is committed. -/
def drainSteps : List Step :=
  [.sync .externalBegin, .locked (.handle (.targetResolve "work")),
    .locked (.handle (.leaseAcquire (sampleEnv.randomUUID 4) sampleOwner 1000)),
    .locked (.handle (.handoffBegin (sampleEnv.randomUUID 4) ⟨.dashboard, "dash"⟩ (some { sampleLease with expiresAt := 1015 }))),
    .die, .sync .externalBegin, .locked .initializeContinuity]

/-- The clock passes the deadline of a drain while the section of a force runs, and the identity probe fails. -/
def lateEnv : Env :=
  { sampleEnv with
    now := fun n => if n < 26 then n else n + 1000
    done := fun n => if n = 32 then .error (.plain "probe failed") else .ok () }

/-- A drain is forced after its deadline, the force fails, and the status is read. -/
def lateSteps : List Step := sampleSteps ++
  [.locked (.handle (.handoffBegin (sampleEnv.randomUUID 4) ⟨.dashboard, "dash"⟩ (some sampleLease))),
    .locked (.handle (.handoffForce (sampleEnv.randomUUID 4) (sampleEnv.randomUUID 2) ⟨.dashboard, "dash"⟩
      .ownerUnreachable true 20)),
    .sync (.targetExternalBegin (sampleEnv.randomUUID 4)), .locked (.handle (.ownershipStatus (sampleEnv.randomUUID 4)))]

theorem NoAutoRecovery.of_append {tr : List Event} : ∀ {later : List Event}, NoAutoRecovery (later ++ tr) → NoAutoRecovery tr
  | [], h => h
  | e :: later, h => by
    have hrest : NoAutoRecovery (later ++ tr) := by
      cases e with
      | saved => exact h.1
      | activated _ cause => cases cause <;> first | exact h.1 | exact h
      | _ => exact h
    exact hrest.of_append

theorem Ledger.Reachable.saves {B : Bounds} (hB : B.stored "-" 128 = true) {l : Ledger} (h : l.Reachable B) :
    ∀ s, Event.saved s ∈ l.trace → Terminal.WellFormed B s := by
  refine Ledger.Reachable.induct (P := fun l => ∀ s, Event.saved s ∈ l.trace → Terminal.WellFormed B s)
    (fun s hs => (List.not_mem_nil hs).elim) ?_ h
  intro l l' hr hl hs s hmem
  cases hs with
  | load | create => exact hl s hmem
  | move t events t' hepoch hget hmove => exact hl s ((mem_append_inert hmove.isInert rfl).1 hmem)
  | restart env tick epoch hload => exact hl s ((mem_append_inert (restartTargets_isInert _ _) rfl).1 hmem)
  | save =>
    rcases List.mem_cons.1 hmem with he | he
    · obtain rfl := Event.saved.inj he
      exact (hr.wellFormed hB).mem.compact
    · exact hl s he
  | push | reset => exact hl s (by simpa using hmem)
  | note e he =>
    rcases List.mem_cons.1 hmem with rfl | hmem
    · exact he.elim
    · exact hl s hmem

theorem Ledger.Reachable.not_saveRejected {l : Ledger} (h : l.Reachable storeBounds) :
    ∀ s, Event.saveRejected s ∉ l.trace := by
  refine Ledger.Reachable.induct (P := fun l => ∀ s, Event.saveRejected s ∉ l.trace) (fun s => List.not_mem_nil) ?_ h
  intro l l' hr hl hs s hmem
  cases hs with
  | load | create => exact hl s hmem
  | move t events t' hepoch hget hmove => exact hl s ((mem_append_inert hmove.isInert rfl).1 hmem)
  | restart env tick epoch hload => exact hl s ((mem_append_inert (restartTargets_isInert _ _) rfl).1 hmem)
  | push | save | reset => exact hl s (by simpa using hmem)
  | note e he =>
    rcases List.mem_cons.1 hmem with rfl | hmem
    · have hw := (hr.wellFormed (by decide)).mem
      exact he.elim (fun hn => hn hw.parse) (fun hn => hn hw.compact.parse)
    · exact hl s hmem
/-- **Every state that a run writes is well formed, and no save is refused.** -/
theorem saved_states_wellFormed (env : Env) (steps : List Step) (hE : env.Within storeBounds)
    (hd : env.Distinct (run env steps).tick) (hB : ∀ step ∈ steps, step.Within env storeBounds) :
    (∀ s, Event.saved s ∈ (run env steps).trace → s.UniqueIds ∧ UniqueNames s ∧ ∀ t ∈ s.targets, Shape t) ∧
    ∀ s, Event.saveRejected s ∉ (run env steps).trace := by
  have hs : Sound env storeBounds (.rest True) none (run env steps) := run_sound hE hd hB (.inl trivial)
  refine ⟨fun s hsaved => ?_, hs.reach.not_saveRejected⟩
  have hw := hs.reach.saves hE.placeholder s hsaved
  exact ⟨hw.ids, hw.names, hw.shape⟩

/-- `sampleEnv` with a clock that stays within a second. -/
def boundedEnv : Env := { sampleEnv with now := fun n => ((n % 1000 : Nat) : Int) }

theorem isStoredString_replicate {n max : Nat} (h0 : 0 < n) (hn : n ≤ max) :
    isStoredString (String.ofList (List.replicate n 'u')) max = true := by
  have hlen : utf16Length (String.ofList (List.replicate n 'u')) = n := by
    simp [utf16Length]
  have hctl : noControl (String.ofList (List.replicate n 'u')) = true := by
    simp [noControl]
  simp [isStoredString, hlen, hctl, h0, hn]

theorem isCanonicalTimestamp_of_le {x : Int} (h0 : 0 ≤ x) (h1 : x ≤ 8640000000000000) : isCanonicalTimestamp x = true := by
  rw [isCanonicalTimestamp, Bool.and_eq_true, decide_eq_true_eq, decide_eq_true_eq]
  omega

theorem boundedEnv_time {t : Int} (h0 : 0 ≤ t) (h1 : t ≤ 1000000) (n : Nat) :
    storeBounds.time (boundedEnv.now n + t) = true := by
  have hlt : n % 1000 < 1000 := Nat.mod_lt _ (by omega)
  have hnow : boundedEnv.now n = ((n % 1000 : Nat) : Int) := rfl
  exact isCanonicalTimestamp_of_le (by omega) (by omega)

theorem boundedEnv_digest (i : DigestInput) : storeBounds.hash (boundedEnv.digest i) = true := by
  simp [storeBounds, boundedEnv, sampleEnv, isSha256Hex]

theorem boundedEnv_within : boundedEnv.Within storeBounds where
  placeholder := by decide
  stored _ _ h := h
  time _ h := h
  uuid n := isStoredString_replicate (Nat.succ_pos _) (by omega)
  now n := by simpa using boundedEnv_time (t := 0) (by omega) (by omega) n
  lease n := boundedEnv_time (by decide) (by decide) n
  reservation n := boundedEnv_time (t := 1000) (by decide) (by decide) n
  digest := boundedEnv_digest
  position n p h := by
    cases h
    decide
  resolved n r h := by
    cases h
    decide

/-- The input of `sampleSteps`' owner is journaled in a well-formed state. -/
theorem saved_states_wellFormed_input :
    (run boundedEnv (sampleSteps ++ [sampleInput])).trace.length = 9 ∧
    ∀ s, Event.saveRejected s ∉ (run boundedEnv (sampleSteps ++ [sampleInput])).trace := by
  refine ⟨by decide, (saved_states_wellFormed boundedEnv _ boundedEnv_within ?_ ?_).2⟩
  · exact fun _ _ => replicate_distinct (by decide)
  · intro step hstep
    simp only [sampleSteps, List.cons_append, List.nil_append, List.mem_cons, List.not_mem_nil, or_false] at hstep
    rcases hstep with rfl | rfl | rfl | rfl
    · trivial
    · trivial
    · exact ⟨by decide, boundedEnv_time (by decide) (by decide)⟩
    · exact ⟨by decide, by decide⟩

/-! ## Producers -/

theorem ProducerLog.of_append {tr : List Event} : ∀ {later : List Event}, ProducerLog (later ++ tr) → ProducerLog tr
  | [], h => h
  | _ :: _, h => ProducerLog.of_append h.1

/-- **One interactive producer per fence.**  Two owners write at one fence, without a failed save or a new process in
between, only if the first released its lease or the second was bound in its place.  While another owner is registered,
an interactive owner's request is refused before any write call, with `notProducer` if its lease was accepted.  A lease
of feishu shares its fence with no other owner. -/
theorem single_producer (env : Env) (steps : List Step) (hd : env.Distinct (run env steps).tick) :
    (∀ later e₂ mid e₁ earlier id f a b, (run env steps).trace = later ++ e₂ :: (mid ++ e₁ :: earlier) →
      e₁.produces id f a = true → e₂.produces id f b = true → (∀ e ∈ mid, e.voids = false) → a ≠ b →
      Event.released id a ∈ mid ∨ Event.rebound id b ∈ mid) ∧
    (0 < (run env steps).loc.relayV2ExternalOperations → ∀ lease active,
      (run env steps).loc.interactiveOwners lease.controlTargetId = some active → active ≠ lease.owner →
      isInteractiveOwner lease.owner = true → ∀ operationId pane payload,
      Sat (Unwritten { run env steps with running := .external }) (executeInput env lease operationId pane payload)
        { run env steps with running := .external } (fun _ _ => False)
        (Refused lease (notProducer pane) { run env steps with running := .external })) ∧
    (∀ a b, Event.issued a ∈ (run env steps).trace → Event.issued b ∈ (run env steps).trace →
      a.controlTargetId = b.controlTargetId → a.fence = b.fence → a.owner.kind = .feishu → a.owner = b.owner) := by
  have hs := run_reaches hd
  refine ⟨fun later e₂ mid e₁ earlier id f a b htr h₁ h₂ hmid hne => ?_,
    fun hops lease active hreg hne hint operationId pane payload => ?_, fun a b ha hb ht hf hk => ?_⟩
  · have hlog := hs.inputs
    rw [htr] at hlog
    rcases hlog.of_append.2 id f b h₂ mid e₁ earlier a rfl h₁ hmid with h | h | ⟨o, ho, h⟩
    · exact absurd (Option.some.inj h).symm hne
    · exact .inl h
    · exact .inr (Option.some.inj ho ▸ h)
  · have ha : (Section.handle (.input lease operationId pane payload)).admissible (run env steps).loc = true := by
      simpa [Section.admissible, Section.running] using hops
    exact executeInput_refused (within_noBounds env) (hs.enter ha) rfl le_rfl rfl hreg hne hint operationId pane payload
  · have hlog : LeaseLog (run env steps).trace := (hs.reach.leaseInv rfl).log
    rcases (hlog.issued_same ha hb ht hf).2.2 with h | ⟨h, -⟩
    · exact h
    · simp [isInteractiveOwner, hk] at h

/-- The lease of `sampleSteps` in the dashboard's hands. -/
def aliasLease : Lease := { sampleLease with owner := ⟨.dashboard, "dash"⟩ }

/-- The dashboard is refused while the owner of `sampleSteps` is registered. -/
theorem single_producer_alias :
    (executeInput sampleEnv aliasLease "op" "0" (.raw [97]) { run sampleEnv sampleSteps with running := .external }).1 =
      .err (.protocol .resourceExhausted "terminal input already has another active producer" true) ∧
    ∀ r w', executeInput sampleEnv aliasLease "op" "0" (.raw [97]) { run sampleEnv sampleSteps with running := .external } ≠
      (.ok r, w') := by
  refine ⟨by decide, fun r w' hx => ?_⟩
  have h := (single_producer sampleEnv sampleSteps (sampleEnv_distinct (by decide))).2.1 (by decide) aliasLease sampleOwner
    (by decide) (by decide) (by decide) "op" "0" (.raw [97])
  exact Sat.of_request (s := .handle (.input aliasLease "op" "0" (.raw [97]))) h hx

/-- A request for another pane is told so before anything is said of the producer, though its lease is accepted. -/
theorem alias_other_pane :
    (run sampleEnv sampleSteps).loc.interactiveOwners aliasLease.controlTargetId = some sampleOwner ∧
    (executeInput sampleEnv aliasLease "op" "1" (.raw [97]) { run sampleEnv sampleSteps with running := .external }).1 =
      .err (denied .invalidRequest "managed single-pane target has no logical pane: 1") ∧
    Event.validated aliasLease.controlTargetId aliasLease true true ∈
      (executeInput sampleEnv aliasLease "op" "1" (.raw [97]) { run sampleEnv sampleSteps with running := .external }).2.trace := by
  decide

end Terminal
end TmuxWorktree
