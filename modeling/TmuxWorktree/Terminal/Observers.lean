import TmuxWorktree.Terminal.Safety
/-!
# Observers — what a rejected observation leaves behind

`consumeRelayV2ExactObservation` registers the observer and then saves.  Whatever fails before the registration leaves the
observers as they were; a save that fails after it leaves an observer that nobody holds.
-/
namespace TmuxWorktree
namespace Terminal

open Effect

/-! ## The observers of a process -/

/-- **The observers are as they were**, but for those that other calls retired in the meantime. -/
structure SameObservers (env : Env) (w w' : World) : Prop where
  later : w.tick ≤ w'.tick
  length : w'.loc.observations.length = w.loc.observations.length
  kept : ∀ i o, w.loc.observations[i]? = some o → ∃ o', w'.loc.observations[i]? = some o' ∧
    (o' = o ∨ o' = { o with isOpen := false } ∧ ∃ n, w.tick ≤ n ∧ n < w'.tick ∧
      ∃ nowMs, (Sync.retireObservation i, nowMs) ∈ env.interleaved n)

variable {env : Env}

instance : Std.Refl (SameObservers env) := ⟨fun _ => ⟨le_rfl, rfl, fun _ o ho => ⟨o, ho, .inl rfl⟩⟩⟩

instance : IsTrans World (SameObservers env) := ⟨fun w w₁ w₂ h h' => by
  refine ⟨h.later.trans h'.later, h'.length.trans h.length, fun i o ho => ?_⟩
  obtain ⟨o₁, ho₁, hcase⟩ := h.kept i o ho
  obtain ⟨o₂, ho₂, hcase'⟩ := h'.kept i o₁ ho₁
  refine ⟨o₂, ho₂, ?_⟩
  rcases hcase with rfl | ⟨rfl, n, h1, h2, hn⟩
  · rcases hcase' with rfl | ⟨rfl, n, h1, h2, hn⟩
    · exact .inl rfl
    · exact .inr ⟨rfl, n, h.later.trans h1, h2, hn⟩
  · refine .inr ⟨?_, n, h1, h2.trans_le h'.later, hn⟩
    rcases hcase' with rfl | ⟨rfl, -⟩ <;> rfl⟩

theorem SameObservers.of_eq {w w' : World} (hle : w.tick ≤ w'.tick) (h : w'.loc.observations = w.loc.observations) :
    SameObservers env w w' := ⟨hle, by rw [h], fun i o ho => ⟨o, by rw [h]; exact ho, .inl rfl⟩⟩

instance : Ambient (SameObservers env) where
  tick _ := .of_eq (Nat.le_succ _) rfl
  mem _ _ := .of_eq le_rfl rfl
  persist _ _ := .of_eq le_rfl rfl
  log _ _ := .of_eq le_rfl rfl
  owners _ _ := .of_eq le_rfl rfl

theorem Sync.run_observations (ttlMs nowMs : Int) (running : Running) (l : Local) (call : Sync) :
    (call.run ttlMs nowMs running l).1.observations = match call with
      | .retireObservation i => l.observations.modify i (fun o => { o with isOpen := false })
      | _ => l.observations := by
  cases call <;> simp only [Sync.run] <;> (repeat' split) <;> rfl

theorem interleave_observations (ttlMs : Int) : ∀ (calls : List (Sync × Int)) (w : World),
    (w.interleave ttlMs calls).loc.observations.length = w.loc.observations.length ∧
    ∀ i o, w.loc.observations[i]? = some o → ∃ o', (w.interleave ttlMs calls).loc.observations[i]? = some o' ∧
      (o' = o ∨ o' = { o with isOpen := false } ∧ ∃ nowMs, (Sync.retireObservation i, nowMs) ∈ calls)
  | [], _ => ⟨rfl, fun _ o ho => ⟨o, ho, .inl rfl⟩⟩
  | (call, nowMs) :: rest, w => by
    have hcall := Sync.run_observations ttlMs nowMs w.running w.loc call
    obtain ⟨hlen, hkept⟩ := interleave_observations ttlMs rest
      { w with loc := (call.run ttlMs nowMs w.running w.loc).1, trace := (call.run ttlMs nowMs w.running w.loc).2 ++ w.trace }
    -- what the first call leaves at an index
    have hfirst : (call.run ttlMs nowMs w.running w.loc).1.observations.length = w.loc.observations.length ∧
        ∀ i o, w.loc.observations[i]? = some o → ∃ o', (call.run ttlMs nowMs w.running w.loc).1.observations[i]? = some o' ∧
          (o' = o ∨ o' = { o with isOpen := false } ∧ call = .retireObservation i) := by
      rw [hcall]
      cases call with
      | retireObservation j =>
        refine ⟨List.length_modify .., fun i o ho => ?_⟩
        by_cases hij : j = i
        · subst hij
          exact ⟨{ o with isOpen := false }, by simp [ho], .inr ⟨rfl, rfl⟩⟩
        · exact ⟨o, by simp [List.getElem?_modify, hij, ho], .inl rfl⟩
      | _ => exact ⟨rfl, fun i o ho => ⟨o, ho, .inl rfl⟩⟩
    refine ⟨hlen.trans hfirst.1, fun i o ho => ?_⟩
    obtain ⟨o₁, ho₁, hcase⟩ := hfirst.2 i o ho
    obtain ⟨o₂, ho₂, hcase'⟩ := hkept i o₁ ho₁
    refine ⟨o₂, ho₂, ?_⟩
    rcases hcase with rfl | ⟨rfl, rfl⟩
    · rcases hcase' with rfl | ⟨rfl, t, ht⟩
      · exact .inl rfl
      · exact .inr ⟨rfl, t, List.mem_cons_of_mem _ ht⟩
    · refine .inr ⟨?_, nowMs, List.mem_cons_self⟩
      rcases hcase' with rfl | ⟨rfl, -⟩ <;> rfl

instance : Suspends env (SameObservers env) where
  suspend w := by
    obtain ⟨hlen, hkept⟩ := interleave_observations env.relayV2ExactTargetTtlMs (env.interleaved w.tick)
      { w with tick := w.tick + 1 }
    have htick := interleave_tick env.relayV2ExactTargetTtlMs (env.interleaved w.tick) { w with tick := w.tick + 1 }
    refine ⟨by rw [htick]; exact Nat.le_succ _, hlen, fun i o ho => ?_⟩
    obtain ⟨o', ho', hcase⟩ := hkept i o ho
    refine ⟨o', ho', hcase.imp_right fun ⟨heq, t, ht⟩ => ⟨heq, w.tick, le_rfl, ?_, t, ht⟩⟩
    rw [htick]
    exact Nat.lt_succ_self _

/-! ## The consume, up to its registration -/

/-- `consumeRelayV2ExactObservation` up to the registration of the observer: the checks, the screen size, the output, and
the reservation that is given back. -/
def freeForObservation (env : Env) (record : ClaimRecord) (displaySizeHint : Option (Nat × Nat)) :
    M (Position × TargetRecord) := do
  Eff.require (validDisplaySizeHint displaySizeHint)
    (denied .invalidRequest "terminal display size hint is invalid")
  locked env do
    let id := record.identity.controlTargetId
    let t ← targetById id
    let epoch ← controlEpoch
    Eff.require
      (match t.ownership with
        | .held fence owner leaseId _ => epoch = record.identity.controlEpoch && leaseId = record.lease.leaseId &&
            fence = record.lease.fence && sameOwner owner record.lease.owner
        | _ => false)
      (denied .permissionDenied "Relay v2 exact observation target record is fenced")
    rejectUnlessCurrent env id record
    ensureOperable id
    observeIncarnation env id record
    (match displaySizeHint with
      | none => pure ()
      | some _ => observeProbe env id env.done "could not size the exact terminal before observation: ")
    let w ← Eff.get
    let output ← (if w.loc.observerCount id = 0 then resetOutput env id else prepareOutput env id)
    rejectUnlessCurrent env id record
    resetInteractiveOwners id
    freeOwnership env id
    let t ← targetById id
    return (output, t)

def World.observing (w : World) (record : ClaimRecord) (t : TargetRecord) : World :=
  { w with loc := { w.loc with
      observations := w.loc.observations ++
        [⟨record.identity.controlTargetId, record.identity.controlEpoch, record.identity.targetIncarnationProof,
          t.outputGeneration, toString record.input.pane, true⟩] } }

/-- **The consume is its checks, the registration, and the save.** -/
theorem consume_eq (env : Env) (record : ClaimRecord) (hint : Option (Nat × Nat)) :
    consumeRelayV2ExactObservation env record hint = (do
      let p ← freeForObservation env record hint
      Eff.modify (·.observing record p.2)
      saveTerminalControlState env
      return ⟨record.identity.controlTargetId, record.identity.controlEpoch, record.identity.targetIncarnationProof,
        p.2.outputGeneration, p.1.retainedStartCursor.getD p.1.cursor⟩) := by
  unfold consumeRelayV2ExactObservation freeForObservation locked publishObservation
  simp only [bind_assoc, pure_bind]
  rfl

set_option synthInstance.maxSize 200000 in
instance (record : ClaimRecord) (hint : Option (Nat × Nat)) :
    Along (SameObservers env) (freeForObservation env record hint) := by
  unfold freeForObservation
  cases hint <;> dsimp only <;> infer_instance

def SaveThrows (env : Env) (w : World) : Prop := ∃ e w', saveTerminalControlState env w = (.err e, w')

/-- **A rejected consume leaves the observers as they were, unless everything succeeds but its last save.** -/
theorem consume_err_iff {record : ClaimRecord} {hint : Option (Nat × Nat)} {w w' : World} {e : ControlError}
    (h : consumeRelayV2ExactObservation env record hint w = (.err e, w')) :
    SameObservers env w w' ↔
      ¬ ∃ p w₁, freeForObservation env record hint w = (.ok p, w₁) ∧ SaveThrows env (w₁.observing record p.2) := by
  have hfree := Along.along (R := SameObservers env) (x := freeForObservation env record hint) w
  rw [consume_eq] at h
  simp only [Bind.bind] at h
  rcases hx : freeForObservation env record hint w with ⟨p | f | _, w₁⟩ <;> rw [hx] at h hfree
  · -- the observer is registered, and the save throws
    have hsave := Along.along (R := SameObservers env) (x := saveTerminalControlState env) (w₁.observing record p.2)
    simp only [Eff.modify] at h
    rcases hs : saveTerminalControlState env (w₁.observing record p.2) with ⟨u | f | _, w₂⟩ <;> rw [hs] at h hsave
    · cases h
    · obtain rfl := (Prod.mk.inj h).2
      refine iff_of_false (fun hsame => ?_) (not_not.2 ⟨p, w₁, rfl, f, _, hs⟩)
      have hgrown : w₂.loc.observations.length = w₁.loc.observations.length + 1 :=
        hsave.length.trans (List.length_append ..)
      have hfirst : w₁.loc.observations.length = w.loc.observations.length := hfree.length
      rw [hsame.length] at hgrown
      omega
    · cases h
  · obtain rfl := (Prod.mk.inj h).2
    refine iff_of_true hfree ?_
    rintro ⟨p, w₂, hp, -⟩
    cases hp
  · cases h

/-- **What a rejected observation leaves behind.**  Burning the claim does not touch the observers, whether it succeeds or
not.  A consume that rejects after it, for whatever reason, leaves the observers of every target as they were (other
calls may retire theirs meanwhile) if and only if it is not its last save that threw. -/
theorem rejected_consume_observers (env : Env) :
    (∀ nowMs running l claim input identity,
      (Sync.run env.relayV2ExactTargetTtlMs nowMs running l (.burnClaim claim input identity)).1.observations =
        l.observations) ∧
    ∀ record hint w w' e, consumeRelayV2ExactObservation env record hint w = (.err e, w') →
      (SameObservers env w w' ↔
        ¬ ∃ p w₁, freeForObservation env record hint w = (.ok p, w₁) ∧ SaveThrows env (w₁.observing record p.2)) :=
  ⟨fun nowMs running l claim input identity =>
    Sync.run_observations env.relayV2ExactTargetTtlMs nowMs running l (.burnClaim claim input identity),
    fun _ _ _ _ _ h => consume_err_iff h⟩

/-! ## The save that fails -/

/-- `sampleEnv` with an exact target, and a save that fails at the end of the observation. -/
def observedEnv : Env :=
  { sampleEnv with
    observed := fun _ =>
      .ok ⟨⟨"work", .worktree, 0⟩, "twinc2." ++ String.ofList (List.replicate 43 'i'), some "tmux", "pane"⟩
    save := fun n => if n = 22 then .failedBeforeRename (.file "ENOSPC") else .done }

def observedInput : ExactInput :=
  ⟨"host", "scope", "session", 0, ⟨.localProcess, "local"⟩, "key",
    ⟨"work", .worktree, "twinc2." ++ String.ofList (List.replicate 43 'i')⟩, ⟨.relayV2, "relay"⟩⟩

def observedIdentity : ExactIdentity :=
  ⟨sampleEnv.randomUUID 3, sampleEnv.randomUUID 1, "twct2." ++ String.ofList (List.replicate 64 '0')⟩

/-- A target is prepared, its claim admitted and burned for an observation. -/
def burnedSteps : List Step :=
  [.locked (.prepare observedInput (some ⟨.localProcess, "local"⟩)), .sync .registerClaim,
    .sync (.fenceClaim 0 observedInput), .sync (.burnClaim 0 observedInput observedIdentity)]

/-- The claim that `burnedSteps` burns. -/
def burnedClaim : ClaimRecord :=
  { input := observedInput
    preparationId := sampleEnv.randomUUID 12
    identity := observedIdentity
    lease := ⟨sampleEnv.randomUUID 3, sampleEnv.randomUUID 1, sampleEnv.randomUUID 8, 1, ⟨.relayV2, "relay"⟩, 1009⟩
    externalEpoch := 0
    targetExternalEpoch := 0
    state := .consumed
    registered := false
    observing := true }

/-- The observers of the process after a consume that rejects. -/
def observersAfter (hint : Option (Nat × Nat)) : Option (ControlError × List Bool) :=
  match consumeRelayV2ExactObservation observedEnv burnedClaim hint (run observedEnv burnedSteps) with
  | (.err e, w') => some (e, w'.loc.observations.map (·.isOpen))
  | _ => none

theorem observersAfter_eq {hint : Option (Nat × Nat)} {e : ControlError} {os : List Bool}
    (h : observersAfter hint = some (e, os)) :
    ∃ w', consumeRelayV2ExactObservation observedEnv burnedClaim hint (run observedEnv burnedSteps) = (.err e, w') ∧
      w'.loc.observations.map (·.isOpen) = os := by
  unfold observersAfter at h
  split at h
  next f w' hx =>
    cases h
    exact ⟨w', hx, rfl⟩
  next => cases h

theorem burnedSteps_run : (run observedEnv burnedSteps).loc.claims = [burnedClaim] ∧
    (run observedEnv burnedSteps).loc.observations = [] ∧ observersAfter none = some (.plain "ENOSPC", [true]) ∧
    observersAfter (some (0, 0)) = some (denied .invalidRequest "terminal display size hint is invalid", []) := by
  decide +kernel

/-- A display size that is not valid rejects the consume, and no observer stays. -/
theorem rejected_consume_observers_hint :
    ∃ e w', consumeRelayV2ExactObservation observedEnv burnedClaim (some (0, 0)) (run observedEnv burnedSteps) =
        (.err e, w') ∧ SameObservers observedEnv (run observedEnv burnedSteps) w' := by
  have hafter := burnedSteps_run.2.2.2
  obtain ⟨w', hx, -⟩ := observersAfter_eq hafter
  refine ⟨_, w', hx, ((rejected_consume_observers observedEnv).2 _ _ _ _ _ hx).2 ?_⟩
  rintro ⟨p, w₁, hfree, -⟩
  have hinvalid : freeForObservation observedEnv burnedClaim (some (0, 0)) (run observedEnv burnedSteps) =
    (.err (denied .invalidRequest "terminal display size hint is invalid"), run observedEnv burnedSteps) := rfl
  rw [hinvalid] at hfree
  cases hfree

/-- The save that fails leaves the observer of a claim that a run burned. -/
theorem rejected_consume_leaves_observer :
    ¬ ∀ (env : Env) (steps : List Step) (claim : Nat) (record : ClaimRecord) (hint : Option (Nat × Nat))
        (e : ControlError) (w' : World), (run env steps).loc.claims[claim]? = some record → record.observing →
      consumeRelayV2ExactObservation env record hint (run env steps) = (.err e, w') →
      SameObservers env (run env steps) w' := by
  intro hall
  obtain ⟨hclaims, hnone, hafter, -⟩ := burnedSteps_run
  obtain ⟨w', hx, hopen⟩ := observersAfter_eq hafter
  have hsame := (hall observedEnv burnedSteps 0 burnedClaim none _ w' (by rw [hclaims]; rfl) rfl hx).length
  have hone := congrArg List.length hopen
  rw [List.length_map, hsame, hnone] at hone
  cases hone

end Terminal
end TmuxWorktree
