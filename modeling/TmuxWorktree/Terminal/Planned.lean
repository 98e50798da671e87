import TmuxWorktree.Terminal.Guarded
/-!
# Planned — an interrupted recovery asks for the same output generation again

The generation is a digest of the persisted record.  As long as every state that is saved has the target fenced, no step
of the authority changes that record: a probe or a forced takeover that fails leaves it alone, and so does a new process.
-/
namespace TmuxWorktree
namespace Terminal

open Effect

variable {env : Env} {t₀ : TargetRecord} {n : Nat} {w₀ w w' : World} {id : String}

-- the instance of a section is a tree over its twenty binds
set_option synthInstance.maxSize 200000

/-! ## Steps -/

theorem Closed.onward (h : Closed t₀ n w₀ w) (ho : Onward w w') (hd : w'.disk = w.disk) : Closed t₀ n w₀ w' :=
  h.shut ⟨ho, hd⟩

theorem runSection_closed (hfresh : Fresh env t₀ n w₀) (h : Closed t₀ n w₀ w) (s : Section) :
    Closed t₀ n w₀ (runSection env w s) := by
  unfold runSection
  split
  · have hend : ∀ v, Closed t₀ n w₀ v → Closed t₀ n w₀ { v with running := .none } := fun v hv =>
      hv.onward ⟨le_rfl, [], rfl⟩ rfl
    have hdead : ∀ v, Closed t₀ n w₀ v → Closed t₀ n w₀ v.restart := fun v hv => hv.onward ⟨le_rfl, [.restarted], rfl⟩ rfl
    have hsat : Sat (Closed t₀ n w₀) (s.program env w.loc) { w with running := s.running } (fun _ => Closed t₀ n w₀)
        (fun _ => Closed t₀ n w₀) := by
      rcases (h.onward ⟨le_rfl, [], rfl⟩ rfl : Closed t₀ n w₀ { w with running := s.running }).held with hs | hv
      · exact Sat.of_along (R := Onward) (fun _ ho => .inl (hs.onward ho)) (fun _ _ ho => .inl (hs.onward ho))
          (fun _ _ ho => .inl (hs.onward ho))
      · exact Sat.mono (Section.program_guarded hfresh w.loc s _ hv) (fun _ _ hq => hq.elim .inl Held.closed)
          fun _ _ he => he
    unfold Sat at hsat
    rcases hr : s.program env w.loc { w with running := s.running } with ⟨a | e | _, v⟩ <;> rw [hr] at hsat
    · exact hend v hsat
    · exact hend v hsat
    · exact hdead v hsat
  · exact h

theorem runStep_closed (hfresh : Fresh env t₀ n w₀) (h : Closed t₀ n w₀ w) (step : Step) :
    Closed t₀ n w₀ (runStep env w step) := by
  cases step with
  | sync call =>
    have hon := interleave_onward env.relayV2ExactTargetTtlMs [(call, env.now w.tick)] { w with tick := w.tick + 1 }
    exact h.onward (IsTrans.trans _ _ _ (Ambience.tick w) hon)
      (interleave_states env.relayV2ExactTargetTtlMs [(call, env.now w.tick)] { w with tick := w.tick + 1 }).1
  | locked s => exact runSection_closed hfresh h s
  | die => exact h.onward ⟨le_rfl, [.restarted], rfl⟩ rfl

/-- **Every run guards the record**: it is on file, or the target was freed. -/
theorem runFrom_closed (hfresh : Fresh env t₀ n w₀) (steps : List Step) (h : Closed t₀ n w₀ w) :
    Closed t₀ n w₀ (runFrom env w steps) := by
  induction steps generalizing w with
  | nil => exact h
  | cons step steps ih => exact ih (runStep_closed hfresh h step)

/-! ## Recovery episodes -/

def HasFenced (id : String) (s : ControlState) : Prop := ∃ t, s.get? id = some t ∧ t.lifecycle = .recoveryRequired

/-- **One recovery episode**: every state that was saved in it has the target fenced. -/
def SameEpisode (id : String) (w w' : World) : Prop :=
  ∀ events, w'.trace = events ++ w.trace → ∀ s, Event.saved s ∈ events → HasFenced id s

theorem HasFenced.not_unfenced {s : ControlState} (h : HasFenced id s) : ¬ Unfenced id s := by
  obtain ⟨t, hget, hl⟩ := h
  obtain ⟨hmem, hid⟩ := ControlState.get?_mem hget
  exact fun hu => hu t hmem hid hl

theorem fresh_of_distinct {steps : List Step} {d : ControlState} (hd : env.Distinct n) (hle : (run env steps).tick ≤ n)
    (hdisk : (run env steps).disk = some d) (hmem : t₀ ∈ d.targets) : Fresh env t₀ n (run env steps) := by
  have hs : Sound env noBounds (.rest True) none (run env steps) :=
    run_reaches fun i j hi hj => hd i j (hi.trans_le hle) (hj.trans_le hle)
  obtain ⟨m, hm, hid⟩ := hs.used t₀.controlTargetId (hs.reach.known.disk d hdisk t₀ hmem)
  intro j hj hjn he
  exact absurd (hd j m hjn (hm.trans_le hle) (he.trans hid.symm)) (by omega)

/-- **Stable planned generation.**  A target is persisted as `RECOVERY_REQUIRED`, and any steps of the authority follow in
the same recovery episode: the record on file is the same, and so is the generation that its recovery plans. -/
theorem planned_generation_stable (env : Env) (steps more : List Step) (id : String) (d : ControlState) (t : TargetRecord)
    (hd : env.Distinct (run env (steps ++ more)).tick) (hdisk : (run env steps).disk = some d) (hget : d.get? id = some t)
    (hl : t.lifecycle = .recoveryRequired) (hepisode : SameEpisode id (run env steps) (run env (steps ++ more))) :
    ∃ d' t' generation, (run env (steps ++ more)).disk = some d' ∧ d'.get? id = some t' ∧ t' = t ∧
      plannedOutputRecoveryGeneration env t = .ok generation ∧
      plannedOutputRecoveryGeneration env t' = .ok generation := by
  have hrun : run env (steps ++ more) = runFrom env (run env steps) more := List.foldl_append ..
  have hle : (run env steps).tick ≤ (run env (steps ++ more)).tick := hrun ▸ runFrom_later env more (run env steps)
  obtain ⟨hmem, rfl⟩ := ControlState.get?_mem hget
  have hs : Sound env noBounds (.rest True) none (run env steps) :=
    run_reaches fun i j hi hj => hd i j (hi.trans_le hle) (hj.trans_le hle)
  have hw := (hs.reach.wellFormed rfl).disk d hdisk
  have hfenced : Fenced t d := .of_get hw.ids hw.shape hget hl
  have hclosed := runFrom_closed (fresh_of_distinct hd hle hdisk hmem) more
    (.inr ⟨Std.Refl.refl _, d, hdisk, hfenced⟩ : Closed t (run env (steps ++ more)).tick (run env steps) (run env steps))
  rw [← hrun] at hclosed
  obtain ⟨r, hr⟩ := Option.isSome_iff_exists.1 (hfenced.shape.recovery_iff.1 hl)
  have hplan : plannedOutputRecoveryGeneration env t = .ok (env.digest (.outputRecovery t r)) := by
    simp only [plannedOutputRecoveryGeneration, hl, hr]
  rcases hclosed with (hn | ⟨events, htr, s, hsaved, hu⟩) | ⟨-, d', hdisk', hf⟩
  · exact absurd hn (lt_irrefl _)
  · exact absurd hu (hepisode events htr s hsaved).not_unfenced
  · exact ⟨d', t, _, hdisk', hf.get, rfl, hplan, hplan⟩

/-- `HasFenced`, read off a state. -/
def hasFenced (id : String) (s : ControlState) : Bool := (s.get? id).any (·.lifecycle = .recoveryRequired)

theorem hasFenced_iff {s : ControlState} : hasFenced id s = true ↔ HasFenced id s := by
  simp [hasFenced, HasFenced, Option.any_eq_true]

/-- The output cannot be restored after the restart of `restartSteps`. -/
def recoveringEnv : Env :=
  { dyingEnv with position := fun n => if n < 30 then sampleEnv.position n else .error (.plain "no output") }

/-- A takeover by force fails, the status is polled, the target is resolved, and the process is started again. -/
def interruptedSteps : List Step :=
  [.locked (.handle (.handoffForce (sampleEnv.randomUUID 4) (sampleEnv.randomUUID 27) ⟨.dashboard, "dash"⟩ .ownerUnreachable
    true 20)), .sync (.targetExternalBegin (sampleEnv.randomUUID 4)),
    .locked (.handle (.ownershipStatus (sampleEnv.randomUUID 4))), .locked (.handle (.targetResolve "work")), .die,
    .sync .externalBegin, .locked .initializeContinuity]

theorem interruptedSteps_run :
    (run recoveringEnv restartSteps).disk.any (hasFenced (sampleEnv.randomUUID 4)) = true ∧
    (run recoveringEnv (restartSteps ++ interruptedSteps)).tick ≤ 100 ∧
    (run recoveringEnv (restartSteps ++ interruptedSteps)).trace.take 2 ++ (run recoveringEnv restartSteps).trace =
      (run recoveringEnv (restartSteps ++ interruptedSteps)).trace ∧
    ((run recoveringEnv (restartSteps ++ interruptedSteps)).trace.take 2).all (fun e => match e with
      | .saved s => hasFenced (sampleEnv.randomUUID 4) s
      | _ => true) = true := by
  decide +kernel

/-- The recovery of the input in doubt is interrupted, and plans the same generation after it. -/
theorem planned_generation_stable_interrupted : ∃ d t d' t' generation, (run recoveringEnv restartSteps).disk = some d ∧
    d.get? (sampleEnv.randomUUID 4) = some t ∧ (run recoveringEnv (restartSteps ++ interruptedSteps)).disk = some d' ∧
    d'.get? (sampleEnv.randomUUID 4) = some t' ∧ plannedOutputRecoveryGeneration recoveringEnv t = .ok generation ∧
    plannedOutputRecoveryGeneration recoveringEnv t' = .ok generation := by
  obtain ⟨hany, htick, hlen, hall⟩ := interruptedSteps_run
  obtain ⟨d, hdisk, hf⟩ := (Option.any_eq_true _ _).1 hany
  obtain ⟨t, hget, hl⟩ := hasFenced_iff.1 hf
  have hepisode : SameEpisode (sampleEnv.randomUUID 4) (run recoveringEnv restartSteps)
      (run recoveringEnv (restartSteps ++ interruptedSteps)) := by
    intro events htr s hs
    rw [← List.append_cancel_right (hlen.trans htr)] at hs
    exact hasFenced_iff.1 (List.all_eq_true.1 hall _ hs)
  obtain ⟨d', t', generation, hdisk', hget', -, hplan, hplan'⟩ := planned_generation_stable recoveringEnv restartSteps
    interruptedSteps (sampleEnv.randomUUID 4) d t (fun _ _ => replicate_distinct htick) hdisk hget hl hepisode
  exact ⟨d, t, d', t', generation, hdisk, hget, hdisk', hget', hplan, hplan'⟩

end Terminal
end TmuxWorktree
