import TmuxWorktree.Terminal.Grant
/-!
# Force — `forceHandoff`

The one way out of recovery that an operator takes.  Its first step fences an expired lease as `LEASE_EXPIRED`, whatever
the target was doing; for a drain that is the slip which `Watch.force` excuses.
-/
namespace TmuxWorktree
namespace Terminal

open Effect

variable {env : Env} {B : Bounds} {c : Watch} {m : Mode} {id : String} {t t' : TargetRecord} {w w' : World} {α : Type}

/-- A record that was just read. -/
structure Read (env : Env) (B : Bounds) (c : Watch) (id : String) (t : TargetRecord) (w : World) : Prop where
  on : On env B c (.at False) id t w
  mirrored : Mirrored id t w
  known : Known id w

theorem forceExpired_spec (hE : env.Within B) (h : Read env B c id t w) (hdisk : w.disk = c.disk)
    (hforce : c.force = some id) :
    Sat (Good env B c) (forceExpired env id) w (fun _ w' => ∃ t', Read env B c id t' w')
      (fun _ w' => Sound env B c none w') := by
  refine Sat.next (targetById_eq h.on.get) (Sat.next (x := isoNow env) rfl (Sat.ite (fun hexp => ?_) (fun _ => ?_)))
  · simp only [Bool.and_eq_true, decide_eq_true_eq] at hexp
    have ha := hexp.1
    have hslip : Clean w.trace → slips w.trace (.fenced id t .leaseExpired (env.now (w.tick + 2)) none) = false ∨
        c.Excused env (w.tick + 4) := by
      intro hc
      by_contra hcon
      obtain ⟨hs, hne⟩ := not_or.1 hcon
      simp only [slips, Bool.not_eq_false, Bool.and_eq_true, Bool.or_eq_true, decide_eq_true_eq,
        h.on.unflagged hE h.mirrored ha hc, Bool.false_eq_true, false_or, overdue, Option.any_eq_true] at hs
      obtain ⟨⟨⟨⟨-, hkind⟩, -⟩, -⟩, d, hd, u, hu, x, hx, hle⟩ := hs
      have hdk : w.disk = some d := h.on.sound.reach.saved.trans hd
      obtain ⟨o, d', u', f, l, hh, hd', hu', hact, hown⟩ := h.on.watched d hdk u hu x hx
      obtain rfl : d = d' := Option.some.inj ((hdisk.symm.trans hdk).symm.trans hd')
      obtain rfl : u = u' := Option.some.inj (hu.symm.trans hu')
      refine hne (.inr ⟨id, o, x, ⟨d, u, f, l, hh, hd', hu, hact, hown⟩, w.tick + 2, ?_, by omega, hle,
        .inl ⟨hforce, fun hf => hkind ?_⟩⟩)
      · have := h.on.start
        omega
      · have ho := (h.mirrored.same d hdk u hu).1
        rw [hown] at ho
        simp [TargetRecord.previousOwnerKind, ← ho, hf]
    obtain ⟨w₁, heq, hs⟩ := (h.on.ticks 1).fenceSave hE (r := .leaseExpired) (o := none)
      (.inl (by rw [ha]; decide)) rfl hslip False.elim
    refine Sat.next heq (hs.mono ?_ (fun _ _ he => he.sound))
    rintro _ _ ⟨t', h', hsav, -⟩
    exact ⟨t', h', hsav.mirrored, hsav.known⟩
  · exact Sat.pure ⟨t, h.on.ticks 1, ⟨h.mirrored.same, h.mirrored.new⟩, h.known⟩

theorem completeInFlight_eq (hu : w.mem.UniqueIds) (hget : w.mem.get? id = some t) (hidle : t.inFlight = none) :
    completeInFlight env id w = (.ok (), { w with tick := w.tick + 1 }.moved id [] t) := by
  unfold completeInFlight isoNow nextTick targetById logEvents modifyTarget World.moved
  simp only [Eff.get, Eff.modify, bind, pure, hget, TargetRecord.inDoubtEvictions, hidle, List.nil_append]
  rw [ControlState.update_const hu hget]
  simp only [TargetRecord.completeInFlightAsInDoubt, hidle]

theorem forceIdentity_spec (hE : env.Within B) (h : Read env B c id t w) (hl : t.lifecycle ≠ .targetGone) :
    Sat (Good env B c) (forceIdentity env id) w (fun _ w' => Read env B c id t w')
      (fun _ w' => Sound env B c none w') := by
  refine Sat.tryCatch (F := fun _ w' => On env B c (.at False) id t w')
    (Sat.await h.on.sound (fun _ w' ha hs _ => ⟨h.on.after ha hs, h.mirrored.after ha, by
      rw [Known, ha.disk]; exact h.known⟩) (fun _ w' ha hs => h.on.after ha hs)) ?_
  intro error w₁ h₁
  refine Sat.ite (fun _ => ?_) (fun _ => Sat.throw h₁.sound)
  exact (retireAndThrow_spec hE h₁ hl False.elim _).mono (fun _ _ hq => hq) (fun _ _ he => he.sound)

theorem forceHandoff_ends (hE : env.Within B) (h : Sound env B c none w) (hdisk : w.disk = c.disk)
    (hstart : c.start ≤ w.tick) (hforce : c.force = some id) {epoch : String} {nextOwner : Owner}
    (ho : B.owner nextOwner = true) (proof : RecoveryProofKind) (acknowledge : Bool) {ttlMs : Int}
    (httl : env.Grants B ttlMs) : Ends env B c (forceHandoff env id epoch nextOwner proof acknowledge ttlMs) w := by
  refine Ends.require h (fun _ => ?_)
  refine Sat.locked hE h hdisk hstart (fun _ _ hs => hs) (fun w₀ hl => ?_)
  refine Sat.targetById (fun _ => hl.sound) (fun t hget => ?_)
  obtain ⟨h₀, hsav⟩ := hl.on hget
  have hr : Read env B c id t w₀ := ⟨h₀, hsav.mirrored, hsav.known⟩
  refine Sat.next (x := controlEpoch) rfl ?_
  refine Ends.require hl.sound (fun _ => ?_)
  refine Ends.require hl.sound (fun _ => ?_)
  refine Ends.bind (forceExpired_spec hE hr hl.watch hforce) (fun _ _ he => he) ?_
  rintro - w₁ ⟨t₁, h₁⟩
  refine Sat.next (targetById_eq h₁.on.get) ?_
  refine Ends.require h₁.on.sound (fun hc => ?_)
  have hrec : t₁.lifecycle = .recoveryRequired := by
    simp only [Bool.and_eq_true, decide_eq_true_eq] at hc
    exact hc.1
  have hne : t₁.lifecycle ≠ .active := by rw [hrec]; decide
  have hng : t₁.lifecycle ≠ .targetGone := by rw [hrec]; decide
  refine Ends.require h₁.on.sound (fun _ => ?_)
  refine Ends.bind (forceIdentity_spec hE h₁ hng) (fun _ _ he => he) ?_
  intro _ w₂ h₂
  have hidle := (h₂.on.shape hE).idle hne
  have hfree := (h₂.on.shape hE).free hne
  refine Sat.next (completeInFlight_eq (h₂.on.unique hE) h₂.on.get hidle) ?_
  have hparts := Bounds.target_parts (h₂.on.bounds hE)
  have h₃ := (h₂.on.ticks 1).touch hE hng (r := t₁.revision) hparts.1 hparts.2.1
  refine Ends.bind (recoverOutput_spec hE h₃ hng) (fun _ _ he => he.sound) ?_
  rintro p w₄ ⟨t₄, h₄, ht₄, hk₄, -⟩
  have hmir : Mirrored id t₄ w₄ := Mirrored.kept (w := { w₂ with tick := w₂.tick + 1 })
    ⟨h₂.mirrored.same, h₂.mirrored.new⟩ ht₄ hk₄
  have hrec₄ : t₄.lifecycle = .recoveryRequired := ht₄.facts.1.trans hrec
  have hfree₄ : t₄.ownership.isFree = true := by rw [ht₄.facts.2.1]; exact hfree
  have h₅ := (h₄.reset hE (hmir.free hfree₄) rfl).ticks 3
  have hu := h₄.unique hE
  have hget := h₄.get
  refine Sat.next (x := resetInteractiveOwners id) rfl (Sat.next (x := logEvent _) rfl
    (Sat.next (x := randomUUID env) rfl (Sat.next (x := expiresAt env ttlMs) rfl ?_)))
  refine Sat.next (assign_eq (t := t₄) (by exact hu) (by exact hget) _) ?_
  have hB : B.ownership (.held (t₄.fence + 1) nextOwner (env.randomUUID w₄.tick) (env.now (w₄.tick + 1) + ttlMs))
      = true := by
    simp [Bounds.ownership, ho, hE.uuid, httl _]
  have h₆ := h₅.move (Move.forceAt h₄.known.2 nextOwner (env.randomUUID w₄.tick) (env.now (w₄.tick + 1) + ttlMs)
    (t₄.revision + 1) (env.now (w₄.tick + 2)) hrec₄) (Bounds.target_active (h₄.bounds hE) hB (hE.now _) _)
    (.inl (by rw [hrec₄]; decide)) (fun hs => hs.elim) (.same rfl) (fun hc => .inl ⟨rfl, hc⟩)
  refine Ends.bind (registerAfterReset_spec h₆ rfl (Function.update_self _ _ _) nextOwner
    (E := fun _ w' => Sound env B c none w')) (fun _ _ he => he) ?_
  rintro - _ ⟨l, rfl, h₇⟩
  refine Ends.bind (Q := fun _ w' => ∃ t', Settled env B c id t' w')
    (h₇.settle hE (fun hx => by cases hx) (by simp) (fun hs => ⟨_, hs⟩) (fun _ _ hs => hs)) (fun _ _ he => he) ?_
  rintro _ w' ⟨t', hs⟩
  exact issueGrant_ends hs _ _

end Terminal
end TmuxWorktree
