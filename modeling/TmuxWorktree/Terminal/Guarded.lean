import TmuxWorktree.Terminal.Episode
/-!
# Guarded — every section guards the record of a fenced target

A section of another target leaves the record alone.  A section of this target finds it fenced: a request that operates
the target is refused, and a probe, a forced takeover or a preparation that gets through frees it with the save that tells.
-/
namespace TmuxWorktree
namespace Terminal

open Effect

variable {env : Env} {t₀ : TargetRecord} {n : Nat} {w₀ w : World} {α : Type}

-- the instance of a section is a tree over its twenty binds
set_option synthInstance.maxSize 200000

/-! ## Sections of one target -/

def Guarded (t₀ : TargetRecord) (n : Nat) (w₀ : World) (x : M α) : Prop :=
  ∀ w, Held t₀ w₀ (fun _ => True) w → Guards t₀ n w₀ x w (fun _ v => Held t₀ w₀ (fun _ => True) v)

/-- **A section of a target**: it is this one, or the record is left alone. -/
theorem Anew.guarded {x : M α} (hx : Anew x) (id : String)
    (hother : Assigns (Leaves t₀ n (Fenced t₀)) id → Along (Leaves t₀ n (Fenced t₀)) x)
    (hown : id = t₀.controlTargetId → Guarded t₀ n w₀ x) : Guarded t₀ n w₀ x := by
  intro w h
  by_cases hid : id = t₀.controlTargetId
  · exact hown hid w h
  · haveI := hother (Apart.assigns hid)
    exact hx.guards h

theorem Guarded.discard {x : M α} [Along Onward x] (hx : Guarded t₀ n w₀ x) : Guarded t₀ n w₀ (discard x) :=
  fun w h => Guards.bind (hx w h) fun _ _ hv => Guards.pure hv

theorem Guarded.ofExcept {β : Type} {r : Except ControlError β} {f : β → M α} (hf : ∀ a, Guarded t₀ n w₀ (f a)) :
    Guarded t₀ n w₀ (Eff.ofExcept r >>= f) := fun w h =>
  Sat.step (P := fun _ v => Held t₀ w₀ (fun _ => True) v) (Sat.ofExcept (fun _ _ => h) (fun _ _ => h.closed)) fun a v hv =>
    hf a v hv

theorem Guarded.step {β : Type} {x : M β} {f : β → M α} [Along (Leaves t₀ n (fun _ => True)) x] [∀ a, Along Onward (f a)]
    (hf : ∀ a, Guarded t₀ n w₀ (f a)) : Guarded t₀ n w₀ (x >>= f) :=
  fun _ h => Guards.step h fun a v hv => hf a v hv

theorem Guarded.get {f : World → M α} (hf : ∀ w, Guarded t₀ n w₀ (f w)) : Guarded t₀ n w₀ (Eff.get >>= f) :=
  fun w h => Guards.get (hf w w h)

theorem Guarded.require {x : M α} {c : Bool} {e : ControlError} (hx : Guarded t₀ n w₀ x) :
    Guarded t₀ n w₀ (Eff.require c e >>= fun _ => x) := fun w h =>
  Sat.step (P := fun _ v => Held t₀ w₀ (fun _ => True) v) (Sat.require (fun _ => h) (fun _ => h.closed)) fun _ v hv => hx v hv

theorem Guarded.pure (a : α) : Guarded t₀ n w₀ (Pure.pure a : M α) := fun _ h => Guards.pure h

/-- **A section that operates the target** is refused, if it does not free it. -/
theorem entered_guarded {f : TargetRecord → Unit → M α} (hf : ∀ t a, Along Onward (f t a)) :
    Guarded t₀ n w₀ (locked env (targetById t₀.controlTargetId >>= fun t =>
      assertTargetCurrent env t₀.controlTargetId >>= f t)) :=
  fun _ h => Guards.locked h fun _ hv => Guards.targetById hv (enter_guards hv (hf t₀))

theorem status_guarded (id : String) : Guarded t₀ n w₀ (status env id) := by
  refine (locked_anew _).guarded id (fun _ => (inferInstance : Along _ (status env id))) fun hid => ?_
  subst hid
  refine fun w h => Guards.locked h fun v hv => Guards.targetById hv ?_
  refine Guards.bind (fenceInFlight_guards hv) fun changed v ⟨hc, hv⟩ => ?_
  refine Guards.bind (reconcileAbandonedOwnership_guards hv) fun _ v ⟨_, hv⟩ => Guards.targetById hv ?_
  rw [if_neg (by rw [hv.standing.mem.lifecycle]; decide)]
  refine Guards.bind (Guards.pure (P := fun _ v => Held t₀ w₀ (Fenced t₀) v) hv) fun _ v hv => ?_
  refine Guards.bind (outputCursorOf_guards hv) fun cursor v hv => ?_
  exact Guards.step hv fun _ v hv => Guards.leaves hv fun _ v hv => hv.weaken fun _ _ => trivial

theorem acquire_guarded (id : String) (owner : Owner) (ttlMs : Int) : Guarded t₀ n w₀ (acquire env id owner ttlMs) := by
  refine (locked_anew _).guarded id (fun _ => (inferInstance : Along _ (acquire env id owner ttlMs))) fun hid => ?_
  subst hid
  exact entered_guarded fun _ _ => Along.bind (q := fun t => by split <;> infer_instance)

theorem renew_guarded (lease : Lease) (ttlMs : Int) : Guarded t₀ n w₀ (renew env lease ttlMs) := by
  refine (locked_anew _).guarded lease.controlTargetId (fun _ => (inferInstance : Along _ (renew env lease ttlMs)))
    fun hid => ?_
  dsimp only
  rw [hid]
  exact entered_guarded fun _ _ => inferInstance

theorem release_guarded (lease : Lease) : Guarded t₀ n w₀ (release env lease) := by
  refine (locked_anew _).guarded lease.controlTargetId (fun _ => (inferInstance : Along _ (release env lease)))
    fun hid => ?_
  dsimp only
  rw [hid]
  exact entered_guarded fun _ _ => inferInstance

theorem beginHandoff_guarded (id : String) (nextOwner : Owner) (currentLease : Option Lease) :
    Guarded t₀ n w₀ (beginHandoff env id nextOwner currentLease) := by
  refine (locked_anew _).guarded id (fun _ => (inferInstance : Along _ (beginHandoff env id nextOwner currentLease)))
    fun hid => ?_
  subst hid
  refine entered_guarded fun _ _ => Along.bind (q := fun t => ?_)
  split
  · infer_instance
  · infer_instance
  · refine Along.bind (p := ?_)
    split <;> infer_instance

theorem commitHandoff_guarded (handoffId : String) (lease : Lease) (drain : DrainProof) (ttlMs : Int) :
    Guarded t₀ n w₀ (commitHandoff env handoffId lease drain ttlMs) := by
  refine (locked_anew _).guarded lease.controlTargetId
    (fun _ => (inferInstance : Along _ (commitHandoff env handoffId lease drain ttlMs))) fun hid => ?_
  dsimp only
  rw [hid]
  exact entered_guarded fun _ _ => inferInstance

theorem cancelHandoff_guarded (handoffId : String) (lease : Lease) : Guarded t₀ n w₀ (cancelHandoff env handoffId lease) := by
  refine (locked_anew _).guarded lease.controlTargetId
    (fun _ => (inferInstance : Along _ (cancelHandoff env handoffId lease))) fun hid => ?_
  dsimp only
  rw [hid]
  exact entered_guarded fun _ _ => inferInstance

theorem withdrawHandoff_guarded (id handoffId : String) (nextOwner : Owner) :
    Guarded t₀ n w₀ (withdrawHandoff env id handoffId nextOwner) := by
  refine (locked_anew _).guarded id (fun _ => (inferInstance : Along _ (withdrawHandoff env id handoffId nextOwner)))
    fun hid => ?_
  subst hid
  exact entered_guarded fun _ _ => Along.bind (q := fun t => by split <;> infer_instance)

/-! ## A forced takeover -/

theorem forceIdentity_guards (h : Held t₀ w₀ (Fenced t₀) w) :
    Guards t₀ n w₀ (forceIdentity env t₀.controlTargetId) w (fun _ v => Held t₀ w₀ (Fenced t₀) v) := by
  unfold forceIdentity
  exact Guards.tryCatch h (fun _ _ hv => hv) fun e v hv =>
    Guards.ite (fun _ => retireAndThrow_guards hv _) (fun _ => Guards.throw hv)

theorem forceExpired_guards (h : Held t₀ w₀ (Fenced t₀) w) :
    Guards t₀ n w₀ (forceExpired env t₀.controlTargetId) w (fun _ v => Held t₀ w₀ (Fenced t₀) v) := by
  unfold forceExpired
  refine Guards.targetById h (Guards.step h fun nowMs v hv => Guards.ite (fun ha => ?_) fun _ => Guards.pure hv)
  simp [h.standing.mem.lifecycle] at ha

theorem Fenced.completeInFlight {s : ControlState} (h : Fenced t₀ s) (completedAt : Int) :
    Fenced t₀ (s.update t₀.controlTargetId (·.completeInFlightAsInDoubt completedAt)) := by
  have hidle : t₀.completeInFlightAsInDoubt completedAt = t₀ := by
    simp only [TargetRecord.completeInFlightAsInDoubt, h.shape.idle (by rw [h.lifecycle]; decide)]
  refine ⟨?_, fun t ht hidt => ?_, h.shape, h.lifecycle⟩
  · simp only [ControlState.update, List.mem_map]
    exact ⟨t₀, h.mem, by rw [if_pos rfl, hidle]⟩
  · rcases ControlState.mem_update ht with ⟨u, hu, hidu, rfl⟩ | ⟨hts, -⟩
    · rw [h.only u hu hidu, hidle]
    · exact h.only t hts hidt

theorem completeInFlight_guards (h : Held t₀ w₀ (Fenced t₀) w) :
    Guards t₀ n w₀ (completeInFlight env t₀.controlTargetId) w (fun _ v => Held t₀ w₀ (Fenced t₀) v) := by
  unfold completeInFlight
  refine Guards.step h fun completedAt v hv => Guards.targetById hv (Guards.step hv fun _ v hv => Sat.modify (.inr ?_))
  exact ⟨IsTrans.trans _ _ _ hv.since ⟨le_rfl, [], rfl⟩, hv.standing.file, hv.standing.mem.completeInFlight completedAt⟩

theorem forceHandoff_guarded (id epoch : String) (nextOwner : Owner) (proof : RecoveryProofKind) (acknowledge : Bool)
    (ttlMs : Int) : Guarded t₀ n w₀ (forceHandoff env id epoch nextOwner proof acknowledge ttlMs) := by
  refine ((locked_anew _).require _ _).guarded id
    (fun _ => (inferInstance : Along _ (forceHandoff env id epoch nextOwner proof acknowledge ttlMs))) fun hid => ?_
  subst hid
  refine Guarded.require fun w h => Guards.locked h fun v hv => Guards.targetById hv ?_
  refine Guards.step hv fun _ v hv => Guards.step hv fun _ v hv => Guards.step hv fun _ v hv => ?_
  refine Guards.bind (forceExpired_guards hv) fun _ v hv => Guards.targetById hv ?_
  refine Guards.step hv fun _ v hv => Guards.step hv fun _ v hv => ?_
  refine Guards.bind (forceIdentity_guards hv) fun _ v hv => Guards.bind (completeInFlight_guards hv) fun _ v hv => ?_
  refine Guards.bind (recoverOutput_guards hv) fun output v hv => ?_
  refine Guards.step hv fun _ v hv => Guards.step hv fun _ v hv => Guards.step hv fun leaseId v hv => ?_
  refine Guards.step hv fun expires v hv => Guards.bind (assign_unfences hv fun _ hl => by cases hl) fun _ v hv => ?_
  exact Guards.step hv fun _ v hv => Guards.bind (saves_free hv) fun _ _ hx => hx.elim

/-! ## Input and output -/

theorem locked_guarded {x : M α} (o : Along Onward x)
    (hx : ∀ v, Held t₀ w₀ (Fenced t₀) v → Guards t₀ n w₀ x v (fun _ v => Held t₀ w₀ (fun _ => True) v)) :
    Guarded t₀ n w₀ (locked env x) :=
  fun _ h => Guards.locked h hx

theorem refused_guarded {x : M Unit} {f : Unit → M α} [Along Onward x] (hf : ∀ a, Along Onward (f a))
    (hx : ∀ v, Held t₀ w₀ (Fenced t₀) v → Guards t₀ n w₀ x v (fun _ _ => False)) : Guarded t₀ n w₀ (locked env (x >>= f)) :=
  locked_guarded (Along.bind (q := hf)) fun v hv => Guards.bind (hx v hv) fun _ _ hx => hx.elim

theorem admitInput_guards {lease : Lease} (hid : lease.controlTargetId = t₀.controlTargetId) (pane : String)
    (fencedRaw : Bool) (h : Held t₀ w₀ (Fenced t₀) w) :
    Guards t₀ n w₀ (admitInput env lease pane fencedRaw) w (fun _ _ => False) := by
  unfold admitInput
  dsimp only
  rw [hid]
  refine Guards.targetById h ?_
  cases fencedRaw with
  | false => exact enter_guards h fun _ => inferInstance
  | true =>
    refine Guards.bind (P := fun _ v => Held t₀ w₀ (Fenced t₀) v) ?_ fun _ v hv =>
      Guards.bind (P := fun _ _ => False) (validateLease_guards hv lease false) fun _ _ hx => hx.elim
    exact Guards.bind (reconcileAbandonedOwnership_guards h) fun _ v hv => Guards.pure hv.2

theorem executeInput_guarded (lease : Lease) (operationId pane : String) (payload : InputPayload) :
    Guarded t₀ n w₀ (executeInput env lease operationId pane payload) := by
  refine (locked_anew _).guarded lease.controlTargetId
    (fun _ => (inferInstance : Along _ (executeInput env lease operationId pane payload))) fun hid => ?_
  dsimp only
  refine refused_guarded (fun _ => Along.bind (q := fun t => Along.bind (q := fun completed => ?_)))
    fun _ hv => admitInput_guards hid pane _ hv
  split <;> infer_instance

theorem executeLifecycleKill_guarded (lease : Lease) (operationId : String) :
    Guarded t₀ n w₀ (executeLifecycleKill env lease operationId) := by
  refine (locked_anew _).guarded lease.controlTargetId
    (fun _ => (inferInstance : Along _ (executeLifecycleKill env lease operationId))) fun hid => ?_
  dsimp only
  rw [hid]
  refine locked_guarded (Along.bind (q := fun t => Along.bind (q := fun completed => by split <;> infer_instance)))
    fun v hv => Guards.targetById hv ?_
  refine Sat.step (P := fun _ v => Held t₀ w₀ (Fenced t₀) v) (Sat.ofExcept (fun _ _ => hv) (fun _ _ => hv.closed))
    fun completed v hv => ?_
  cases completed with
  | some op => exact Guards.leaves hv fun _ v hv => hv.weaken fun _ _ => trivial
  | none => exact enter_guards hv fun _ => inferInstance

theorem tailOutput_guarded (id epoch generation : String) (cursor maxBytes : Nat) :
    Guarded t₀ n w₀ (tailOutput env id epoch generation cursor maxBytes) := by
  refine (locked_anew _).guarded id (fun _ => (inferInstance : Along _ (tailOutput env id epoch generation cursor maxBytes)))
    fun hid => ?_
  subst hid
  refine locked_guarded inferInstance fun v hv => Guards.targetById hv ?_
  exact Guards.step hv fun _ v hv => Guards.step hv fun _ v hv => enter_guards hv fun _ => inferInstance

theorem agentRead_guarded (ownerMessage staleMessage : String) (answer : Nat → Except ControlError α) (ownerKind : OwnerKind)
    (lease : Lease) (generation pane : String) :
    Guarded t₀ n w₀ (agentRead env ownerMessage staleMessage answer ownerKind lease generation pane) := by
  refine (locked_anew _).guarded lease.controlTargetId
    (fun _ => (inferInstance : Along _ (agentRead env ownerMessage staleMessage answer ownerKind lease generation pane)))
    fun hid => ?_
  dsimp only
  rw [hid]
  refine locked_guarded inferInstance fun v hv => Guards.targetById hv ?_
  exact Guards.step hv fun _ v hv => enter_guards hv fun _ => inferInstance

/-! ## Sections that choose their target -/

/-- The ids that are made from here on are not the target's. -/
def Fresh (env : Env) (t₀ : TargetRecord) (n : Nat) (w₀ : World) : Prop :=
  ∀ j, w₀.tick ≤ j → j < n → env.randomUUID j ≠ t₀.controlTargetId

section
variable {p : ControlState → Prop}

theorem pushTarget_guards [Apart t₀ p] (hfresh : Fresh env t₀ n w₀) (h : Held t₀ w₀ p w) (session : ManagedSession)
    (tmuxInstanceId : String) : Guards t₀ n w₀ (pushTarget env session tmuxInstanceId) w
      (fun id v => id ≠ t₀.controlTargetId ∧ Held t₀ w₀ p v) := by
  have hnext : Onward w { w with tick := w.tick + 1 } := Ambience.tick w
  have hv : Held t₀ w₀ p { w with tick := w.tick + 1 } := ⟨IsTrans.trans _ _ _ h.since hnext, h.standing.file, h.standing.mem⟩
  unfold pushTarget
  refine Guards.next (show randomUUID env w = (.ok (env.randomUUID w.tick), { w with tick := w.tick + 1 }) from rfl) ?_
  by_cases hn : w.tick < n
  · have hne := hfresh w.tick h.since.1 hn
    refine Guards.step hv fun generation v hv => Guards.step hv fun updatedAt v hv => Guards.step hv fun _ v hv => ?_
    refine Guards.bind (P := fun _ v => Held t₀ w₀ p v) (Sat.modify (.inr ?_)) fun _ v hv => Guards.pure ⟨hne, hv⟩
    exact ⟨IsTrans.trans _ _ _ hv.since ⟨le_rfl, [], rfl⟩, hv.standing.file, Apart.push hne hv.standing.mem⟩
  · exact Guards.slipped (.inl (Nat.lt_succ_of_le (Nat.le_of_not_lt hn)))

theorem invalidateTarget_apart [Apart t₀ p] {id : String} (hne : id ≠ t₀.controlTargetId) (h : Held t₀ w₀ p w) :
    Guards t₀ n w₀ (invalidateTarget env id) w (fun _ v => Held t₀ w₀ p v) := by
  haveI : Assigns (Leaves t₀ n p) _ := Apart.assigns hne
  exact Guards.leaves h fun _ _ hv => hv

theorem invalidateTargets_unfenced : ∀ (ids : List String) {w : World}, Held t₀ w₀ (Unfenced t₀.controlTargetId) w →
    Guards t₀ n w₀ (invalidateTargets env ids) w (fun _ v => Held t₀ w₀ (Unfenced t₀.controlTargetId) v)
  | [], _, h => Guards.pure h
  | id :: ids, w, h => by
    unfold invalidateTargets
    by_cases hid : id = t₀.controlTargetId
    · subst hid
      exact Guards.bind (invalidateTarget_unfences h) fun _ _ hv => invalidateTargets_unfenced ids hv
    · exact Guards.bind (invalidateTarget_apart hid h) fun _ _ hv => invalidateTargets_unfenced ids hv

/-- **The retirement of some targets**, this one among them or not. -/
theorem invalidateTargets_guards : ∀ (ids : List String) {w : World}, Held t₀ w₀ (Fenced t₀) w →
    Guards t₀ n w₀ (invalidateTargets env ids) w
      (fun _ v => if t₀.controlTargetId ∈ ids then Held t₀ w₀ (Unfenced t₀.controlTargetId) v else Held t₀ w₀ (Fenced t₀) v)
  | [], _, h => Guards.pure (by simpa using h)
  | id :: ids, w, h => by
    unfold invalidateTargets
    by_cases hid : id = t₀.controlTargetId
    · subst hid
      simp only [List.mem_cons, true_or, if_true]
      exact Guards.bind (invalidateTarget_unfences h) fun _ _ hv => invalidateTargets_unfenced ids hv
    · have hmem : t₀.controlTargetId ∈ id :: ids ↔ t₀.controlTargetId ∈ ids := by simp [Ne.symm hid]
      simp only [hmem]
      exact Guards.bind (invalidateTarget_apart hid h) fun _ _ hv => invalidateTargets_guards ids hv

/-- What a section knows of the target that it chose: it is another one, or this one with its record. -/
def Chosen (t₀ : TargetRecord) (w₀ : World) (id : String) (w : World) : Prop :=
  (id ≠ t₀.controlTargetId ∧ (Held t₀ w₀ (Fenced t₀) w ∨ Held t₀ w₀ (Unfenced t₀.controlTargetId) w)) ∨
    (id = t₀.controlTargetId ∧ Held t₀ w₀ (Fenced t₀) w)

/-- **A program of the chosen target** guards the record if it does so where the target is this one. -/
theorem Chosen.guards {id : String} (h : Chosen t₀ w₀ id w) {x : M α}
    (hother : ∀ (q : ControlState → Prop) [Apart t₀ q], Assigns (Leaves t₀ n q) id → Along (Leaves t₀ n q) x)
    (hown : id = t₀.controlTargetId → Held t₀ w₀ (Fenced t₀) w →
      Guards t₀ n w₀ x w (fun _ v => Held t₀ w₀ (fun _ => True) v)) :
    Guards t₀ n w₀ x w (fun _ v => Held t₀ w₀ (fun _ => True) v) := by
  rcases h with ⟨hne, h | h⟩ | ⟨hid, h⟩
  · haveI := hother (Fenced t₀) (Apart.assigns hne)
    exact Guards.leaves h fun _ _ hv => hv.weaken fun _ _ => trivial
  · haveI := hother (Unfenced t₀.controlTargetId) (Apart.assigns hne)
    exact Guards.leaves h fun _ _ hv => hv.weaken fun _ _ => trivial
  · exact hown hid h

theorem pushTarget_chosen (hfresh : Fresh env t₀ n w₀)
    (h : Held t₀ w₀ (Fenced t₀) w ∨ Held t₀ w₀ (Unfenced t₀.controlTargetId) w) (session : ManagedSession)
    (tmuxInstanceId : String) : Guards t₀ n w₀ (pushTarget env session tmuxInstanceId) w (Chosen t₀ w₀) := by
  rcases h with h | h
  · exact (pushTarget_guards hfresh h session tmuxInstanceId).mono fun id v hv => .inl ⟨hv.1, .inl hv.2⟩
  · exact (pushTarget_guards hfresh h session tmuxInstanceId).mono fun id v hv => .inl ⟨hv.1, .inr hv.2⟩

theorem pickTarget_onward (env : Env) (found : Option TargetRecord) (session : ManagedSession) (tmuxInstanceId : String) :
    Along Onward (match found with
      | some t => (pure t.controlTargetId : M String)
      | none => pushTarget env session tmuxInstanceId) := by
  cases found <;> infer_instance

theorem resolveTarget_guarded (hfresh : Fresh env t₀ n w₀) (sessionName : String) :
    Guarded t₀ n w₀ (resolveTarget env sessionName) := by
  refine locked_guarded (Along.bind (q := fun _ => Along.bind (q := fun _ => Along.bind (q := fun _ =>
    Along.bind (p := pickTarget_onward _ _ _ _))))) fun v hv => ?_
  refine Guards.step (o := fun _ => Along.bind (q := fun _ => Along.bind (q := fun _ => Along.bind (p := pickTarget_onward _ _ _ _)))) hv
    fun resolved v hv => Guards.get ?_
  dsimp only
  refine Guards.bind (o := fun _ => Along.bind (p := pickTarget_onward _ _ _ _)) (invalidateTargets_guards _ hv) fun _ u hu => ?_
  refine Guards.bind (P := Chosen t₀ w₀) ?_ fun id u hu => ?_
  · have hheld : Held t₀ w₀ (Fenced t₀) u ∨ Held t₀ w₀ (Unfenced t₀.controlTargetId) u := by
      split at hu
      · exact .inr hu
      · exact .inl hu
    split
    · rename_i t hf
      refine Guards.pure ?_
      by_cases hid : t.controlTargetId = t₀.controlTargetId
      · -- the record that was found is the fenced one, which is then none of the stale ones
        have ht := hv.standing.mem.only t (List.mem_of_find?_eq_some hf) hid
        have hsame := List.find?_some hf
        rw [if_neg] at hu
        · exact .inr ⟨hid, hu⟩
        · intro hstale
          obtain ⟨t', ht', hid'⟩ := List.mem_map.1 hstale
          obtain ⟨hmem, hp⟩ := List.mem_filter.1 ht'
          rw [hv.standing.mem.only t' hmem hid'] at hp
          rw [ht] at hsame
          simp only [Bool.and_eq_true, Bool.not_eq_true'] at hp hsame
          rw [hsame.2] at hp
          cases hp.2
      · exact .inl ⟨hid, hheld⟩
    · exact pushTarget_chosen hfresh hheld _ _
  · refine hu.guards (fun q _ _ => inferInstance) fun hid hfenced => ?_
    subst hid
    refine Guards.bind (fenceInFlight_guards hfenced) fun _ u hu => ?_
    refine Guards.bind (reconcileAbandonedOwnership_guards hu.2) fun _ u hu => ?_
    exact Guards.bind (outputCursorOf_guards hu.2) fun _ u hu => Guards.leaves hu fun _ _ hu => hu.weaken fun _ _ => trivial

/-! ## A new process -/

theorem mem_restartTargets_of_quiet {epoch : String} {t : TargetRecord} (hr : restartReason t = none) : ∀ {ts : List TargetRecord}
    (tick : Nat), t ∈ ts → t ∈ (restartTargets env epoch tick ts).1
  | [], _, h => h
  | u :: ts, tick, h => by
    simp only [restartTargets, List.mem_cons]
    rcases List.mem_cons.1 h with rfl | h
    · left
      simp only [restartTarget, hr]
    · exact .inr (mem_restartTargets_of_quiet hr _ h)

theorem restartTarget_id (epoch : String) (a b c : Int) (t : TargetRecord) :
    (restartTarget epoch a b c t).1.controlTargetId = t.controlTargetId := by
  rcases restartTarget_eq epoch a b c t with h | ⟨reason, -, h⟩ <;> rw [h]
  exact KeepsId.keeps (f := fun t => t.markRecovery epoch reason { previousControlEpoch := some epoch } a b c) t

/-- **A new process leaves a fenced record alone.** -/
theorem Fenced.restart (h : Fenced t₀ w.mem) (epoch : String) : Fenced t₀ (w.restartContinuity env epoch).mem := by
  have hr : restartReason t₀ = none := by simp [restartReason, h.lifecycle]
  refine ⟨mem_restartTargets_of_quiet hr _ h.mem, fun t ht hid => ?_, h.shape, h.lifecycle⟩
  obtain ⟨u, hu, a, b, c, rfl, -⟩ := restartTargets_events ht
  rw [h.only u hu ((restartTarget_id _ a b c u).symm.trans hid), restartTarget, hr]

theorem initializeContinuity_guarded : Guarded t₀ n w₀ (initializeContinuity env) := by
  refine locked_guarded inferInstance fun v hv => Guards.step hv fun epoch v hv => ?_
  refine Guards.bind (P := fun _ v => Held t₀ w₀ (Fenced t₀) v) (Sat.modify (.inr ?_)) fun _ v hv =>
    Guards.leaves hv fun _ _ hv => hv.weaken fun _ _ => trivial
  have ho : Onward v (v.restartContinuity env epoch) := Along.along (x := (Eff.modify (·.restartContinuity env epoch) : M Unit)) v
  exact ⟨IsTrans.trans _ _ _ hv.since ho, hv.standing.file, hv.standing.mem.restart epoch⟩

/-! ## Preparation -/

theorem exactIdentity_guards (h : Held t₀ w₀ (Fenced t₀) w) :
    Guards t₀ n w₀ (exactIdentity env t₀.controlTargetId) w (fun _ v => Held t₀ w₀ (Fenced t₀) v) := by
  unfold exactIdentity
  exact Guards.tryCatch h (fun _ _ hv => hv) fun e v hv =>
    Guards.ite (fun _ => retireAndThrow_guards hv _) (fun _ => Guards.throw hv)

theorem reconcileRelayV2ExactInDoubtOperation_guards (h : Held t₀ w₀ (Fenced t₀) w) :
    Guards t₀ n w₀ (reconcileRelayV2ExactInDoubtOperation env t₀.controlTargetId) w
      (fun _ v => Held t₀ w₀ (Fenced t₀) v) := by
  unfold reconcileRelayV2ExactInDoubtOperation
  refine Guards.targetById h (Guards.ite (fun _ => Guards.pure h) fun _ => ?_)
  refine Guards.bind (exactIdentity_guards h) fun _ v hv => Guards.bind (recoverOutput_guards hv) fun _ v hv => ?_
  refine Guards.step hv fun _ v hv => Guards.step hv fun _ v hv => ?_
  exact activation_frees hv (fun _ hl => by cases hl)

theorem reserveExact_guards (input : ExactInput) (externalEpoch : Nat) (paneIdentity : String)
    (h : Held t₀ w₀ (Fenced t₀) w) :
    Guards t₀ n w₀ (reserveExact env input externalEpoch t₀.controlTargetId paneIdentity) w
      (fun _ v => Held t₀ w₀ (fun _ => True) v) := by
  have hl : ∀ f, Along Onward (modifyLocal f) := fun f => Along.modify (fun _ => ⟨le_rfl, [], rfl⟩)
  unfold reserveExact
  dsimp only
  refine Guards.bind (reconcileAbandonedOwnership_guards h) fun _ v hv => ?_
  refine Guards.bind (reconcileRelayV2ExactInDoubtOperation_guards hv.2) fun _ v hv => ?_
  refine Guards.bind (P := fun _ _ => False) ?_ fun _ _ hx => hx.elim
  exact ensureOperable_guards hv

theorem Held.choose (h : Held t₀ w₀ (Fenced t₀) w) (id : String) : Chosen t₀ w₀ id w := by
  by_cases hid : id = t₀.controlTargetId
  · exact .inr ⟨hid, h⟩
  · exact .inl ⟨hid, .inl h⟩

theorem provisionExact_guards (hfresh : Fresh env t₀ n w₀) (h : Held t₀ w₀ (Fenced t₀) w) (input : ExactInput)
    (named : List TargetRecord) :
    Guards t₀ n w₀ (provisionExact env input named) w (fun r v => Chosen t₀ w₀ r.1 v) := by
  unfold provisionExact
  refine Guards.step h fun _ v hv => Guards.step hv fun established v hv => Guards.step hv fun identity v hv => ?_
  refine Guards.bind (invalidateTargets_guards _ hv) fun _ u hu => ?_
  -- the output of the new record is prepared, whatever became of this one
  have hmade : ∀ {p : ControlState → Prop} [Apart t₀ p], Held t₀ w₀ p u → (∀ id v, id ≠ t₀.controlTargetId →
      Held t₀ w₀ p v → Chosen t₀ w₀ id v) → Guards t₀ n w₀
        (pushTarget env established.managedSession (identity.getD "") >>= fun id =>
          prepareOutput env id >>= fun _ => Pure.pure (id, established)) u (fun r v => Chosen t₀ w₀ r.1 v) := by
    intro p _ hu hc
    refine Guards.bind (pushTarget_guards hfresh hu _ _) fun id v ⟨hne, hv⟩ => ?_
    haveI : Assigns (Leaves t₀ n p) _ := Apart.assigns hne
    exact Guards.step hv fun _ v hv => Guards.pure (hc id v hne hv)
  split at hu
  · exact hmade hu fun id v hne hv => .inl ⟨hne, .inr hv⟩
  · exact hmade hu fun id v hne hv => .inl ⟨hne, .inl hv⟩

theorem prepareRelayV2ExactTargetForProcess_guarded (hfresh : Fresh env t₀ n w₀) (input : ExactInput)
    (expected : Option ProcessTarget) :
    Guarded t₀ n w₀ (prepareRelayV2ExactTargetForProcess env input expected) := by
  unfold prepareRelayV2ExactTargetForProcess
  refine Guarded.ofExcept fun input => Guarded.get fun w => Guarded.require (Guarded.require (Guarded.require ?_))
  refine locked_guarded inferInstance fun v hv => Guards.get (Guards.step hv fun _ v hv => ?_)
  refine Guards.step hv fun provision v hv => ?_
  refine Guards.bind (P := fun r v => Chosen t₀ w₀ r.1 v) ?_ fun found v hv => ?_
  · refine Guards.ite (fun _ => provisionExact_guards hfresh hv _ _) fun _ => ?_
    exact Guards.step hv fun r v hv => Guards.pure (hv.choose _)
  · have hl : ∀ (q : ControlState → Prop) (f : Local → Local), Along (Leaves t₀ n q) (modifyLocal f) :=
      fun q f => Along.modify fun _ => .same rfl rfl ⟨le_rfl, [], rfl⟩
    refine hv.guards (fun q _ _ => by have := hl q; unfold reserveExact; dsimp only; infer_instance) fun hid hv => ?_
    rw [hid]
    exact reserveExact_guards _ _ _ hv

/-! ## Reservations and observations -/

theorem relayV2RollbackRecord_guarded (record : ClaimRecord) : Guarded t₀ n w₀ (relayV2RollbackRecord env record) := by
  refine locked_guarded (Along.bind (q := fun w => ?_)) fun v hv => Guards.get ?_
  · split
    · infer_instance
    · split <;> infer_instance
  · cases hget : v.mem.get? record.lease.controlTargetId with
    | none => exact Guards.pure (hv.weaken fun _ _ => trivial)
    | some t =>
      dsimp only
      obtain ⟨hmem, -⟩ := ControlState.get?_mem hget
      refine (hv.choose t.controlTargetId).guards (fun q _ _ => by split <;> infer_instance) fun hid hv' => ?_
      rw [hv.standing.mem.only t hmem hid]
      have hfree := hv.standing.mem.shape.free (by rw [hv.standing.mem.lifecycle]; decide)
      cases ho : t₀.ownership with
      | free => exact Guards.pure (hv.weaken fun _ _ => trivial)
      | held | draining => rw [ho] at hfree; cases hfree

theorem consumeRelayV2ExactObservation_guarded (record : ClaimRecord) (hint : Option (Nat × Nat)) :
    Guarded t₀ n w₀ (consumeRelayV2ExactObservation env record hint) := by
  have hl : ∀ (q : ControlState → Prop) (f : Local → Local), Along (Leaves t₀ n q) (modifyLocal f) :=
    fun q f => Along.modify fun _ => .same rfl rfl ⟨le_rfl, [], rfl⟩
  unfold consumeRelayV2ExactObservation
  refine Guarded.require (locked_guarded (by cases hint <;> dsimp only <;> infer_instance) fun v hv => ?_)
  refine (hv.choose record.identity.controlTargetId).guards (fun q _ _ => ?_) fun hid hv => ?_
  · have hpublish : ∀ output, Along (Leaves t₀ n q)
        (publishObservation env record.identity.controlTargetId record output) := fun output => by
      have := hl q; unfold publishObservation; infer_instance
    cases hint <;> dsimp only <;> infer_instance
  · dsimp only
    rw [hid]
    refine Guards.targetById hv (Guards.step (o := by cases hint <;> dsimp only <;> infer_instance) hv fun epoch v hv => ?_)
    have hfree := hv.standing.mem.shape.free (by rw [hv.standing.mem.lifecycle]; decide)
    refine Sat.step (P := fun _ _ => False) (Sat.require (fun hheld => ?_) fun _ => hv.closed) fun _ _ hx => hx.elim
    cases ho : t₀.ownership with
    | free =>
      rw [ho] at hheld
      cases hheld
    | held | draining =>
      rw [ho] at hfree
      cases hfree

/-- What changes neither the state file nor the section's copy of it. -/
def Shut (w w' : World) : Prop := Onward w w' ∧ w'.disk = w.disk

instance : Std.Refl Shut := ⟨fun w => ⟨Std.Refl.refl w, rfl⟩⟩

instance : IsTrans World Shut := ⟨fun _ _ _ h h' => ⟨IsTrans.trans _ _ _ h.1 h'.1, h'.2.trans h.2⟩⟩

instance : Ambience Shut where
  tick _ := ⟨⟨Nat.le_succ _, [], rfl⟩, rfl⟩
  log es _ := ⟨⟨le_rfl, es, rfl⟩, rfl⟩
  owners _ _ := ⟨⟨le_rfl, [], rfl⟩, rfl⟩

instance : Prunes Shut := ⟨fun _ _ _ => ⟨⟨le_rfl, [], rfl⟩, rfl⟩⟩

theorem Closed.shut {w' : World} (h : Closed t₀ n w₀ w) (hs : Shut w w') : Closed t₀ n w₀ w' := by
  rcases h with h | ⟨ho, d, hd, hf⟩
  · exact .inl (h.onward hs.1)
  · exact .inr ⟨IsTrans.trans _ _ _ ho hs.1, d, hs.2.trans hd, hf⟩

theorem tailRelayV2ExactObservation_guarded (observation cursor maxBytes : Nat) :
    Guarded t₀ n w₀ (tailRelayV2ExactObservation env observation cursor maxBytes) := by
  unfold tailRelayV2ExactObservation
  refine Guarded.require (Guarded.step fun _ => locked_guarded inferInstance fun v hv => ?_)
  refine Guards.step hv fun record v hv => Guards.get (Guards.step hv fun _ v hv => ?_)
  refine (hv.choose record.controlTargetId).guards (fun q _ _ => by dsimp only; infer_instance) fun hid hv => ?_
  dsimp only
  rw [hid]
  refine Guards.targetById hv (Guards.step hv fun _ v hv => Guards.step hv fun _ v hv => Guards.step hv fun _ v hv => ?_)
  refine Guards.bind (P := fun _ _ => False) ?_ fun _ _ hx => hx.elim
  refine Sat.tryCatch (F := fun _ => Closed t₀ n w₀) (assertTargetCurrent_guards hv) fun e v hv => ?_
  refine Sat.step (P := fun _ => Closed t₀ n w₀) ?_ fun _ v hv => Sat.throw hv
  exact Sat.of_along (R := Shut) (fun _ => hv.shut) (fun _ _ => hv.shut) (fun _ _ => hv.shut)

theorem closeRelayV2ExactObservation_guarded (observation : Nat) :
    Guarded t₀ n w₀ (closeRelayV2ExactObservation env observation) := by
  unfold closeRelayV2ExactObservation
  refine Guarded.get fun w => ?_
  cases w.loc.observations[observation]? with
  | none => exact fun _ h => Guards.pure h
  | some record =>
    dsimp only
    split
    · exact fun _ h => Guards.pure h
    · refine locked_guarded (Along.bind (q := fun w => by split <;> infer_instance)) fun v hfenced => Guards.get ?_
      cases hget : v.mem.get? record.controlTargetId with
      | none => exact Guards.pure (hfenced.weaken fun _ _ => trivial)
      | some t =>
        refine (hfenced.choose record.controlTargetId).guards (fun q _ _ => inferInstance) fun hid hv => ?_
        obtain ⟨hmem, hidt⟩ := ControlState.get?_mem hget
        have ht := hfenced.standing.mem.only t hmem (hidt.trans hid)
        refine Guards.step hv fun _ v hv => Guards.get (Guards.ite (fun _ => Guards.pure (hv.weaken fun _ _ => trivial)) ?_)
        intro hopen
        simp [ht, hv.standing.mem.lifecycle] at hopen

theorem Closed.held (h : Closed t₀ n w₀ w) : Slipped t₀.controlTargetId n w₀ w ∨ Held t₀ w₀ (fun _ => True) w :=
  h.imp_right fun ⟨ho, hf⟩ => ⟨ho, hf, trivial⟩

theorem relayV2ExactIdleActivitySnapshot_guarded : Guarded t₀ n w₀ (relayV2ExactIdleActivitySnapshot env) := by
  unfold relayV2ExactIdleActivitySnapshot
  refine Guarded.step fun nowMs w h => Sat.tryCatch (F := fun _ => Closed t₀ n w₀) ?_ fun e v hv => Sat.pure hv.held
  refine (locked_guarded inferInstance fun v hv => Guards.get ?_ : Guarded t₀ n w₀ _) w h
  exact Guards.leaves hv fun _ _ hv => hv.weaken fun _ _ => trivial

/-! ## Every section -/

theorem handleV1_guarded (hfresh : Fresh env t₀ n w₀) (request : Request) : Guarded t₀ n w₀ (handleV1 env request) := by
  cases request with
  | targetResolve name => exact (resolveTarget_guarded hfresh name).discard
  | ownershipStatus id => exact (status_guarded id).discard
  | leaseAcquire id owner ttlMs => exact (acquire_guarded id owner ttlMs).discard
  | leaseRenew lease ttlMs => exact (renew_guarded lease ttlMs).discard
  | leaseRelease lease => exact (release_guarded lease).discard
  | handoffBegin id nextOwner lease => exact (beginHandoff_guarded id nextOwner lease).discard
  | handoffCommit handoffId lease drain ttlMs => exact (commitHandoff_guarded handoffId lease drain ttlMs).discard
  | handoffCancel handoffId lease => exact (cancelHandoff_guarded handoffId lease).discard
  | handoffWithdraw id handoffId nextOwner => exact (withdrawHandoff_guarded id handoffId nextOwner).discard
  | handoffForce id epoch nextOwner proof acknowledge ttlMs =>
    exact (forceHandoff_guarded id epoch nextOwner proof acknowledge ttlMs).discard
  | input lease operationId pane payload => exact (executeInput_guarded lease operationId pane payload).discard
  | lifecycleKill lease operationId => exact (executeLifecycleKill_guarded lease operationId).discard
  | outputTail id epoch generation cursor maxBytes =>
    exact (tailOutput_guarded id epoch generation cursor maxBytes).discard
  | outputRenderedSnapshot lease generation pane => exact (agentRead_guarded _ _ _ _ lease generation pane).discard
  | activityAgentStatus lease generation pane => exact (agentRead_guarded _ _ _ _ lease generation pane).discard
  | activityAgentResult lease generation pane => exact (agentRead_guarded _ _ _ _ lease generation pane).discard

/-- **Every section guards the record of a fenced target.** -/
theorem Section.program_guarded (hfresh : Fresh env t₀ n w₀) (l : Local) (s : Section) :
    Guarded t₀ n w₀ (s.program env l) := by
  cases s with
  | handle request => exact handleV1_guarded hfresh request
  | initializeContinuity => exact initializeContinuity_guarded.discard
  | prepare input expected => exact prepareRelayV2ExactTargetForProcess_guarded hfresh input expected
  | rollback claim =>
    simp only [Section.program]
    cases l.claims[claim]? with
    | some record => exact (relayV2RollbackRecord_guarded record).discard
    | none => exact Guarded.pure ()
  | observe claim hint =>
    simp only [Section.program]
    cases l.claims[claim]? with
    | some record => exact (consumeRelayV2ExactObservation_guarded record hint).discard
    | none => exact Guarded.pure ()
  | tailObservation observation cursor maxBytes =>
    exact (tailRelayV2ExactObservation_guarded observation cursor maxBytes).discard
  | closeObservation observation => exact closeRelayV2ExactObservation_guarded observation
  | idleActivity => exact relayV2ExactIdleActivitySnapshot_guarded.discard

end

end Terminal
end TmuxWorktree
