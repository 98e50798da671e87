import TmuxWorktree.Terminal.Reserve
/-!
# Runs — every run of the authority is sound

Each section of a run is watched from its own start, against the state file it finds.  A section that neither slips nor
is cut off leaves a sound world; a section that is cut off leaves a good one, and the new process starts with an empty
registry.  By induction over the steps, every run leaves a sound world.
-/
namespace TmuxWorktree
namespace Terminal

open Effect

/-! ## Watching a run -/

def Section.force : Section → Option String
  | .handle (.handoffForce id ..) => some id
  | _ => none

/-- The watch over a section that starts from `w`. -/
def Section.watch (s : Section) (w : World) (careless : Prop) : Watch := ⟨w.tick, w.disk, s.running, s.force, careless⟩

def Watch.rest (careless : Prop) : Watch := ⟨0, none, .none, none, careless⟩

/-- What a step puts into a record is within `B`. -/
def Step.Within (env : Env) (B : Bounds) : Step → Prop
  | .locked (.handle request) => request.Within env B
  | _ => True

/-- **No section of the run may slip**: none forces a target that the state file has draining past its deadline under a
non-feishu owner, and none sees the deadline of such a drain pass. -/
def Unhurried (env : Env) : World → List Step → Prop
  | _, [] => True
  | w, .locked s :: steps => ¬ (s.watch w False).Late env (runStep env w (.locked s)).tick ∧
      Unhurried env (runStep env w (.locked s)) steps
  | w, step :: steps => Unhurried env (runStep env w step) steps

variable {env : Env} {B : Bounds} {c : Watch} {w : World} {α : Type}

theorem Watch.rest_excused {P : Prop} {n : Nat} (h : (Watch.rest P).Excused env n) : P := by
  rcases h with h | ⟨_, _, _, ⟨_, _, _, _, _, hd, _⟩, _⟩
  · exact h
  · cases hd

/-! ## Sections -/

theorem EndsBy.discard {n : Nat} {x : M α} (h : EndsBy env B c n x w) : EndsBy env B c n (discard x) w :=
  Sat.bind h (fun _ _ he => he) (fun _ _ hs => hs)

theorem Ends.discard {x : M α} (h : Ends env B c x w) (n : Nat) : EndsBy env B c n (Terminal.discard x) w :=
  (h.by n).discard

/-- **Every request ends in a sound world.** -/
theorem handleV1_ends (hE : env.Within B) {n : Nat} (hd : env.Distinct n) {request : Request}
    (hB : request.Within env B) (h : Sound env B c none w) (hdisk : w.disk = c.disk) (hstart : c.start ≤ w.tick)
    (hrun : c.running = (Section.handle request).running) (hforce : c.force = (Section.handle request).force) :
    EndsBy env B c n (handleV1 env request) w := by
  cases request with
  | targetResolve name => exact (resolveTarget_ends hE hd h hdisk hstart name).discard
  | ownershipStatus id => exact (status_ends hE h hdisk hstart).discard n
  | leaseAcquire id owner ttlMs => exact (acquire_ends hE h hdisk hstart hB.1 hB.2).discard n
  | leaseRenew lease ttlMs => exact (renew_ends hE h hdisk hstart hB).discard n
  | leaseRelease lease => exact (release_ends hE h hdisk hstart lease).discard n
  | handoffBegin id nextOwner lease => exact (beginHandoff_ends hE h hdisk hstart hB lease).discard n
  | handoffCommit handoffId lease drain ttlMs =>
    exact (commitHandoff_ends hE h hdisk hstart handoffId lease hB.1 hB.2).discard n
  | handoffCancel handoffId lease => exact (cancelHandoff_ends hE h hdisk hstart handoffId lease).discard n
  | handoffWithdraw id handoffId nextOwner =>
    exact (withdrawHandoff_ends hE h hdisk hstart handoffId nextOwner).discard n
  | handoffForce id epoch nextOwner proof acknowledge ttlMs =>
    exact (forceHandoff_ends hE h hdisk hstart hforce hB.1 proof acknowledge hB.2).discard n
  | input lease operationId pane payload =>
    exact (executeInput_ends hE h hdisk hstart hrun hB.1 hB.2 pane payload).discard n
  | lifecycleKill lease operationId => exact (executeLifecycleKill_ends hE h hdisk hstart hB.1 hB.2).discard n
  | outputTail id epoch generation cursor maxBytes =>
    exact (tailOutput_ends hE h hdisk hstart epoch generation cursor maxBytes).discard n
  | outputRenderedSnapshot lease generation pane =>
    exact (agentRead_ends hE h hdisk hstart _ _ _ _ lease generation pane).discard n
  | activityAgentStatus lease generation pane =>
    exact (agentRead_ends hE h hdisk hstart _ _ _ _ lease generation pane).discard n
  | activityAgentResult lease generation pane =>
    exact (agentRead_ends hE h hdisk hstart _ _ _ _ lease generation pane).discard n

/-- **Every section ends in a sound world.** -/
theorem Section.program_ends (hE : env.Within B) {n : Nat} (hd : env.Distinct n) {s : Section}
    (hB : (Step.locked s).Within env B) (h : Sound env B c none w) (hdisk : w.disk = c.disk) (hstart : c.start ≤ w.tick)
    (hrun : c.running = s.running) (hforce : c.force = s.force) (l : Local) :
    EndsBy env B c n (s.program env l) w := by
  cases s with
  | handle request => exact handleV1_ends hE hd hB h hdisk hstart hrun hforce
  | initializeContinuity => exact (initializeContinuity_ends hE h hdisk hstart).discard n
  | prepare input expected => exact prepareRelayV2ExactTargetForProcess_ends hE hd h hdisk hstart input expected
  | rollback claim =>
    simp only [Section.program]
    cases l.claims[claim]? with
    | some record => exact (relayV2RollbackRecord_ends hE h hdisk hstart record).discard n
    | none => exact Ends.by (Sat.pure h) n
  | observe claim hint =>
    simp only [Section.program]
    cases l.claims[claim]? with
    | some record => exact (consumeRelayV2ExactObservation_ends hE h hdisk hstart record hint).discard n
    | none => exact Ends.by (Sat.pure h) n
  | tailObservation observation cursor maxBytes =>
    exact (tailRelayV2ExactObservation_ends hE h hdisk hstart observation cursor maxBytes).discard n
  | closeObservation observation => exact (closeRelayV2ExactObservation_ends hE h hdisk hstart observation).by n
  | idleActivity => exact (relayV2ExactIdleActivitySnapshot_ends hE h hdisk hstart).discard n

/-! ## Steps -/

theorem Sound.enter {P : Prop} (h : Sound env B (.rest P) none w) {s : Section} (ha : s.admissible w.loc = true) :
    Sound env B (s.watch w P) none { w with running := s.running } := by
  refine ⟨⟨h.reach, h.used, h.claims, rfl, fun hr => ?_, h.inputs, h.tidy.imp_right (fun hx => .inl (Watch.rest_excused hx))⟩,
    h.producers⟩
  have hr : s.running = .external := hr
  simp only [Section.admissible, hr, Bool.and_eq_true, decide_eq_true_eq] at ha
  exact ha.1

theorem Good.leave {P : Prop} (h : Good env B c w) (hP : c.Excused env w.tick → P) :
    Good env B (.rest P) { w with running := .none } :=
  ⟨h.reach, h.used, h.claims, rfl, fun hr => (by cases hr), h.inputs, h.tidy.imp_right (fun hx => .inl (hP hx))⟩

theorem Good.restart {P : Prop} (h : Good env B c w) (hP : c.Excused env w.tick → P) :
    Sound env B (.rest P) none w.restart := by
  have hl : Good env B (.rest P) { w with loc := Local.fresh, running := .none } :=
    (h.leave hP).withLocal (fun r hr => (List.not_mem_nil hr).elim) (fun hr => (by cases hr))
  refine ⟨hl.step (n := 0) (k := [.restarted]) .reset rfl rfl rfl rfl ?_ ?_
    (fun hc => .inl (hc.cons_quiet rfl)), Producers.void rfl⟩
  · intro id hid
    simp at hid
  · intro e he id f a
    obtain rfl := List.mem_singleton.1 he
    rfl

theorem Section.watch_excused {P : Prop} {s : Section} {n : Nat} (hP : P ∨ ¬ (s.watch w False).Late env n)
    (hx : (s.watch w P).Excused env n) : P :=
  hx.elim id (fun hl => hP.resolve_right (fun hn => hn hl))

theorem runSection_sound (hE : env.Within B) {P : Prop} {n : Nat} (hd : env.Distinct n) {s : Section}
    (hB : (Step.locked s).Within env B) (h : Sound env B (.rest P) none w)
    (hP : P ∨ ¬ (s.watch w False).Late env (runSection env w s).tick) (hn : (runSection env w s).tick ≤ n) :
    Sound env B (.rest P) none (runSection env w s) := by
  unfold runSection at *
  split at hn
  · rename_i ha
    rw [if_pos ha] at *
    have hend := Section.program_ends hE hd hB (h.enter ha) rfl le_rfl rfl rfl w.loc
    unfold EndsBy Sat at hend
    rcases hr : s.program env w.loc { w with running := s.running } with ⟨a | e | _, w'⟩ <;> rw [hr] at hend hP hn
    · exact ⟨(hend hn).leave (Section.watch_excused hP), (hend hn).producers⟩
    · exact ⟨(hend hn).leave (Section.watch_excused hP), (hend hn).producers⟩
    · exact (hend hn).restart (Section.watch_excused hP)
  · rename_i ha
    rw [if_neg ha]
    exact h

/-! ## Runs -/

theorem Sound.init {P : Prop} : Sound env B (.rest P) none World.init :=
  ⟨⟨.refl, fun _ h => (List.not_mem_nil h).elim, fun _ h => (List.not_mem_nil h).elim, rfl, fun h => (by cases h),
    trivial, .inl trivial⟩, fun _ h => (by cases h)⟩

/-- **One step.** -/
theorem runStep_sound (hE : env.Within B) {P : Prop} {n : Nat} (hd : env.Distinct n) {step : Step}
    (hB : step.Within env B) (h : Sound env B (.rest P) none w) (hP : P ∨ Unhurried env w [step])
    (hn : (runStep env w step).tick ≤ n) : Sound env B (.rest P) none (runStep env w step) := by
  cases step with
  | sync call => exact ((h.ticks 1).interleave).1
  | locked s => exact runSection_sound hE hd hB h (hP.imp_right And.left) hn
  | die => exact h.restart Watch.rest_excused

theorem Unhurried.cons {step : Step} {steps : List Step} (h : Unhurried env w (step :: steps)) :
    Unhurried env w [step] ∧ Unhurried env (runStep env w step) steps := by
  cases step with
  | locked s => exact ⟨⟨h.1, trivial⟩, h.2⟩
  | sync | die => exact ⟨trivial, h⟩

theorem runFrom_sound (hE : env.Within B) {P : Prop} {n : Nat} (hd : env.Distinct n) {steps : List Step}
    (hB : ∀ step ∈ steps, step.Within env B) (h : Sound env B (.rest P) none w) (hP : P ∨ Unhurried env w steps)
    (hn : (runFrom env w steps).tick ≤ n) : Sound env B (.rest P) none (runFrom env w steps) := by
  induction steps generalizing w with
  | nil => exact h
  | cons step steps ih =>
    have hstep : (runStep env w step).tick ≤ n := (runFrom_later env steps (runStep env w step)).trans hn
    have hone := runStep_sound hE hd (hB step List.mem_cons_self) h (hP.imp_right (fun hu => hu.cons.1)) hstep
    exact ih (fun s hs => hB s (List.mem_cons_of_mem _ hs)) hone (hP.imp_right (fun hu => hu.cons.2)) hn

/-- **Every run is sound.** -/
theorem run_sound (hE : env.Within B) {P : Prop} {steps : List Step} (hd : env.Distinct (run env steps).tick)
    (hB : ∀ step ∈ steps, step.Within env B) (hP : P ∨ Unhurried env World.init steps) :
    Sound env B (.rest P) none (run env steps) := runFrom_sound hE hd hB .init hP le_rfl

/-! ## Runs without bounds -/

theorem within_noBounds (env : Env) : env.Within noBounds := by
  constructor <;> intros <;> first | rfl | exact fun _ => rfl | exact ⟨rfl, rfl⟩

theorem Step.within_noBounds (step : Step) : step.Within env noBounds := by
  unfold Step.Within
  split
  · rename_i request
    cases request <;> first | trivial | simp [Request.Within, Env.Grants, noBounds, Bounds.owner, Bounds.drainProof]
  · trivial

theorem run_reaches {steps : List Step} (hd : env.Distinct (run env steps).tick) :
    Sound env noBounds (.rest True) none (run env steps) :=
  run_sound (within_noBounds env) hd (fun step _ => step.within_noBounds) (.inl trivial)

end Terminal
end TmuxWorktree
