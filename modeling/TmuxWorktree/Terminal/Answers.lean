import TmuxWorktree.Terminal.Doubt
import TmuxWorktree.Terminal.Runs
/-!
# Answers — what an input request is told when it may not write

Two kinds of request are refused before any write call: one under a lease whose owner is not the registered producer,
and one for an operation that was in flight when a process died.  The checks before the refusal write nothing (`Aside`),
and pass on the journal and the registry as they are.
-/
namespace TmuxWorktree
namespace Terminal

open Effect

/-! ## Checks that write nothing -/

def Event.isAside : Event → Bool
  | .write .. | .validated .. => false
  | _ => true

def Aside (w w' : World) : Prop := ∃ events, w'.trace = events ++ w.trace ∧ ∀ e ∈ events, e.isAside = true

instance : Std.Refl Aside := ⟨fun _ => ⟨[], rfl, fun _ he => (List.not_mem_nil he).elim⟩⟩

instance : IsTrans World Aside := ⟨fun _ _ _ ⟨es, he, hes⟩ ⟨es', he', hes'⟩ =>
  ⟨es' ++ es, by rw [he', he, List.append_assoc], fun e hm => (List.mem_append.1 hm).elim (hes' e) (hes e)⟩⟩

theorem Aside.same {w w' : World} (h : w'.trace = w.trace) : Aside w w' :=
  ⟨[], h, fun _ he => (List.not_mem_nil he).elim⟩

theorem Aside.one {w w' : World} {e : Event} (he : e.isAside = true) (h : w'.trace = e :: w.trace) : Aside w w' :=
  ⟨[e], h, fun _ hm => List.mem_singleton.1 hm ▸ he⟩

variable {env : Env} {B : Bounds} {c : Watch} {id : String} {t : TargetRecord} {w w' : World} {α : Type}

theorem After.aside (h : After w w') : Aside w w' := by
  obtain ⟨events, he, hc⟩ := h.trace
  refine ⟨events, he, fun e hm => ?_⟩
  rcases hc e hm with ⟨_, rfl⟩ | ⟨_, _, rfl⟩ <;> rfl

-- the instance of a check is a tree over its binds
set_option synthInstance.maxSize 200000

instance (f : Local → Local) : Along Aside (modifyLocal f) := Along.modify (fun _ => .same rfl)

instance (id : String) (f : TargetRecord → TargetRecord) : Along Aside (modifyTarget id f) :=
  Along.modify (fun _ => .same rfl)

instance : Along Aside nextTick := ⟨fun _ => .same rfl⟩

instance : Along Aside (isoNow env) := by unfold isoNow; infer_instance

theorem interleave_aside (ttlMs : Int) : ∀ (calls : List (Sync × Int)) (w : World), Aside w (w.interleave ttlMs calls)
  | [], w => Std.Refl.refl w
  | (call, nowMs) :: rest, w => by
    refine IsTrans.trans _ _ _ ⟨_, rfl, fun e he => ?_⟩ (interleave_aside ttlMs rest _)
    rcases (Sync.run_callStep ttlMs nowMs w.running w.loc call).effect with ⟨hs, -⟩ | ⟨-, _, -, _, -, hs, -⟩
    · rw [hs] at he
      cases he
    · rw [hs] at he
      simp only [List.mem_cons, List.not_mem_nil, or_false] at he
      rcases he with rfl | rfl <;> rfl

instance (answer : Nat → Except ControlError α) : Along Aside (await env answer) := by
  have h : ∀ n, Along Aside (Eff.modify (fun w => w.interleave env.relayV2ExactTargetTtlMs (env.interleaved n)) : M Unit) :=
    fun n => Along.modify (fun w => interleave_aside _ _ w)
  unfold await
  infer_instance

instance (s : ControlState) (answer : SaveAnswer) : Along Aside (commitSave s answer) := by
  have hp : Along Aside (Eff.modify (·.persist s) : M Unit) := Along.modify (fun _ => .one (e := .saved s) rfl rfl)
  have hf : Along Aside (logEvent .saveFailed) := Along.modify (fun _ => .one rfl rfl)
  unfold commitSave
  cases answer <;> infer_instance

instance : Along Aside (saveTerminalControlState env) := by
  have hr : ∀ s, Along Aside (logEvent (.saveRejected s)) := fun s => Along.modify (fun _ => .one rfl rfl)
  unfold saveTerminalControlState
  refine Along.bind (q := fun w => ?_)
  split
  · infer_instance
  · split <;> infer_instance

instance (id : String) : Along Aside (targetById id) := by
  unfold targetById
  refine Along.bind (q := fun w => ?_)
  split <;> infer_instance

instance : Along Aside controlEpoch := by unfold controlEpoch; infer_instance

instance (t : TargetRecord) (reason : RecoveryReason) (options : TargetRecord.RecoveryOptions) (a b : Int) :
    Along Aside (logEvents (t.fenceEvents reason options a b)) := Along.modify (fun _ => ⟨_, rfl, fun e he => by
  rcases mem_fenceEvents he with ⟨_, _, _, _, rfl⟩ | ⟨_, rfl⟩ <;> rfl⟩)

instance (id : String) (reason : RecoveryReason) (options : TargetRecord.RecoveryOptions) :
    Along Aside (markRecovery env id reason options) := by
  unfold markRecovery; infer_instance

instance (id : String) : Along Aside (invalidateTarget env id) := by
  have hr : Along Aside (logEvent (.retired id)) := Along.modify (fun _ => .one rfl rfl)
  unfold invalidateTarget
  infer_instance

instance (id : String) (f : TargetRecord → TargetRecord) : Along Aside (assign env id f) := by
  unfold assign; infer_instance

instance (id message : String) : Along Aside (retireAndThrow (α := α) env id message) := by
  unfold retireAndThrow; infer_instance

instance (id : String) (reason : RecoveryReason) (message : String) :
    Along Aside (fenceAndThrow (α := α) env id reason message) := by
  unfold fenceAndThrow; infer_instance

instance : Along Aside (backendAssertCurrent env) := by unfold backendAssertCurrent; infer_instance

instance : Along Aside (backendResetOutput env) := by unfold backendResetOutput; infer_instance

instance (id generation : String) : Along Aside (setOutputGeneration id generation) := by
  unfold setOutputGeneration; infer_instance

instance (id : String) : Along Aside (reconcileOutput env id) := by unfold reconcileOutput; infer_instance

instance (id : String) : Along Aside (reconcileIdentity env id) := by unfold reconcileIdentity; infer_instance

instance (id : String) : Along Aside (reconcileFenced env id) := by
  have ha : Along Aside (logEvent (.activated id .reconciled)) := Along.modify (fun _ => .one rfl rfl)
  unfold reconcileFenced
  infer_instance

instance (id : String) : Along Aside (reconcileAbandonedOwnership env id) := by
  unfold reconcileAbandonedOwnership; infer_instance

instance (id : String) : Along Aside (ensureOperable id) := by unfold ensureOperable; infer_instance

instance (id : String) : Along Aside (assertTargetCurrent env id) := by unfold assertTargetCurrent; infer_instance

instance (id : String) (owner : Owner) : Along Aside (registerInteractiveOwner id owner) := by
  unfold registerInteractiveOwner
  refine Along.bind (q := fun w => Along.ite (q := ?_))
  split <;> infer_instance

/-! ## Entering a section -/

def Reloads (w w' : World) : Prop := w'.trace = w.trace ∧ w'.loc = w.loc

instance : Along Reloads (loadTerminalControlState env) := ⟨fun w => by
  unfold loadTerminalControlState
  simp only [bind, Eff.get]
  cases w.disk with
  | none => exact ⟨rfl, rfl⟩
  | some s =>
    dsimp only
    cases parseTerminalControlState s with
    | error e => exact ⟨rfl, rfl⟩
    | ok state => exact ⟨rfl, rfl⟩⟩

theorem Sat.lockedFrom (hE : env.Within B) {C : World → Prop} {Q : α → World → Prop} {E : ControlError → World → Prop}
    {operation : M α} (h : Sound env B c none w) (hdisk : w.disk = c.disk) (hstart : c.start ≤ w.tick)
    (hC : ∀ w', Aside w w' → C w') (herr : ∀ e w', Aside w w' → E e w')
    (hop : ∀ w', Loaded env B c w' → Aside w w' →
      (c.running = .external → w'.loc.interactiveOwners = w.loc.interactiveOwners) → Sat C operation w' Q E) :
    Sat C (Terminal.locked env operation) w Q E := by
  have hawait : Sat C (Terminal.await env env.lock) w (fun _ w' => After w w' ∧ Sound env B c none w') (fun e w' => E e w') :=
    (Sat.and (Sat.await (E := fun _ _ => True) (Q := fun _ w' => After w w' ∧ Sound env B c none w') h
      (fun _ w' ha hs _ => ⟨ha, hs⟩) (fun _ _ _ _ => trivial))
      (Sat.of_along (R := Aside) (Q := fun _ _ => True) hC (fun _ _ _ => trivial) herr)).imp (fun _ hg => hg.2)
      (fun _ _ hq => hq.1) (fun _ _ he => he.2)
  refine Sat.step hawait ?_
  rintro - w₁ ⟨ha, hs⟩
  have aside : ∀ {w'}, Reloads w₁ w' → Aside w w' := fun hr => IsTrans.trans _ _ _ ha.aside (.same hr.1)
  have hload : Sat C (loadTerminalControlState env) w₁ (fun _ w' => Loaded env B c w' ∧ Reloads w₁ w')
      (fun e w' => E e w') :=
    (Sat.and (loadTerminalControlState_spec hE hs (ha.disk.trans hdisk) (hstart.trans ha.tick))
      (Sat.of_along (R := Reloads) (Q := fun _ => Reloads w₁) (E := fun _ => Reloads w₁) (C := Reloads w₁)
        (fun _ hr => hr) (fun _ _ hr => hr) (fun _ _ hr => hr))).imp
      (fun w' hg => hC w' (aside hg.2)) (fun _ _ hq => hq) (fun e w' he => herr e w' (aside he.2))
  refine Sat.step hload ?_
  rintro - w₂ ⟨hl, hr⟩
  refine hop w₂ hl (aside hr) (fun hx => ?_)
  rw [hr.2]
  exact ha.registry (h.here.trans hx)

/-! ## A lease of another producer -/

def Event.isWrite : Event → Bool
  | .write .. => true
  | _ => false

def Unwritten (w w' : World) : Prop := ∃ events, w'.trace = events ++ w.trace ∧ ∀ e ∈ events, e.isWrite = false

/-- **The request was refused before any write call**, with `expected` if its lease was accepted. -/
def Refused (lease : Lease) (expected : ControlError) (w : World) (e : ControlError) (w' : World) : Prop :=
  ∃ events, w'.trace = events ++ w.trace ∧ (∀ e' ∈ events, e'.isWrite = false) ∧
    (Event.validated lease.controlTargetId lease true true ∈ events → e = expected)

/-- What a request of an owner that is not the producer is told, once its lease is accepted. -/
def notProducer (pane : String) : ControlError :=
  if pane = "0" then .protocol .resourceExhausted "terminal input already has another active producer" true
  else denied .invalidRequest ("managed single-pane target has no logical pane: " ++ pane)

theorem Event.not_isWrite_of_isAside {e : Event} (h : e.isAside = true) : e.isWrite = false := by
  cases e <;> first | rfl | cases h

theorem Aside.unwritten (h : Aside w w') : Unwritten w w' := by
  obtain ⟨events, he, ha⟩ := h
  exact ⟨events, he, fun e hm => Event.not_isWrite_of_isAside (ha e hm)⟩

theorem Aside.refused (h : Aside w w') (lease : Lease) (expected e : ControlError) : Refused lease expected w e w' := by
  obtain ⟨events, he, ha⟩ := h
  refine ⟨events, he, fun e hm => Event.not_isWrite_of_isAside (ha e hm), fun hm => ?_⟩
  cases ha _ hm

theorem Refused.after {w₁ : World} {lease : Lease} {expected e : ControlError} (h : Aside w w₁)
    (hr : Refused lease expected w₁ e w') : Refused lease expected w e w' := by
  obtain ⟨es, he, ha⟩ := h
  obtain ⟨es', he', hw, hacc⟩ := hr
  refine ⟨es' ++ es, by rw [he', he, List.append_assoc], fun e hm => ?_, fun hm => ?_⟩
  · exact (List.mem_append.1 hm).elim (hw e) (fun hm => Event.not_isWrite_of_isAside (ha e hm))
  · exact (List.mem_append.1 hm).elim hacc (fun hm => by cases ha _ hm)

theorem validateLease_refused {lease : Lease} {e : ControlError} (hget : w.mem.get? id = some t)
    {Q : Unit → World → Prop} (hok : t.validateLease w.mem.controlEpoch lease false = .ok () →
      Q () (w.log (.validated id lease (t.leaseMatches w.mem.controlEpoch lease) true))) {C : World → Prop} :
    Sat C (validateLease id lease false) w Q (fun e' w' => Refused lease e w e' w') := by
  refine Sat.next (x := controlEpoch) rfl (Sat.next (targetById_eq hget) ?_)
  cases hv : t.validateLease w.mem.controlEpoch lease false with
  | ok a => exact hok hv
  | error e =>
    refine ⟨[_], rfl, fun e' he' => ?_, fun hm => ?_⟩
    · rw [List.mem_singleton.1 he']
      rfl
    · simp [Except.isOk, Except.toBool] at hm

/-- **The checks of a request whose owner is not the producer**: they do not pass. -/
theorem admitInput_refused (hE : env.Within B) (hl : Loaded env B c w) (hrun : c.running = .external) {lease : Lease}
    {active : Owner} (hreg : w.loc.interactiveOwners lease.controlTargetId = some active) (hne : active ≠ lease.owner)
    (hint : isInteractiveOwner lease.owner = true) (pane : String) (fencedRaw : Bool) :
    Sat (Unwritten w) (admitInput env lease pane fencedRaw) w (fun _ _ => False) (Refused lease (notProducer pane) w) := by
  cases hget : w.mem.get? lease.controlTargetId with
  | none =>
    unfold admitInput
    simp only [Sat, bind, targetById, Eff.get, hget, throw, throwThe, MonadExceptOf.throw]
    exact Aside.refused (Std.Refl.refl w) _ _ _
  | some t =>
    refine Sat.next (targetById_eq hget) ?_
    refine Sat.bind ((Sat.and (admitIdentity_spec hE hl hget fencedRaw)
      (Sat.of_along (R := Aside) (Q := fun _ => Aside w) (E := fun _ => Aside w) (C := Aside w) (fun _ ha => ha)
        (fun _ _ ha => ha) (fun _ _ ha => ha))).imp (fun _ hg => hg.2.unwritten) (fun _ _ hq => hq)
      (fun _ _ he => he)) (fun e w' he => he.2.refused _ _ _) ?_
    rintro - w₁ ⟨⟨t₁, h₁, hlive⟩, ha⟩
    refine Sat.bind (P := fun _ w' => ∃ b, w' = w₁.log (.validated lease.controlTargetId lease b true) ∧
      t₁.validateLease w₁.mem.controlEpoch lease false = .ok ())
      (validateLease_refused (e := notProducer pane) h₁.get (fun hv => ⟨_, rfl, hv⟩))
      (fun e w' he => he.after ha) ?_
    rintro - _ ⟨b, rfl, hv⟩
    -- the lease is accepted, so the registry is the one the section began with
    obtain ⟨hl₁, hcar⟩ := hlive (operable_of_validateLease hv)
    have hreg₁ : w₁.loc.interactiveOwners lease.controlTargetId = some active := by
      rw [hcar.registry hrun (validateLease_ok hv).2.2.1]
      exact hreg
    have hrefuse : ∀ e, e = notProducer pane →
        Refused lease (notProducer pane) w e (w₁.log (.validated lease.controlTargetId lease b true)) := by
      intro e he
      refine Refused.after ha ⟨[_], rfl, fun e' he' => ?_, fun _ => he⟩
      rw [List.mem_singleton.1 he']
      rfl
    refine Sat.bind (P := fun _ w' => w' = w₁.log (.validated lease.controlTargetId lease b true) ∧ pane = "0")
      (Sat.require (fun hp => ⟨rfl, by simpa using hp⟩) (fun hp => hrefuse _ ?_)) (fun _ _ he => he) ?_
    · simp only [decide_eq_false_iff_not] at hp
      rw [notProducer, if_neg hp]
    · rintro - _ ⟨rfl, hp⟩
      refine Sat.next (x := Eff.get) rfl (Sat.ite (fun hn => by rw [hint] at hn; cases hn) (fun _ => ?_))
      rw [show (w₁.log _).loc.interactiveOwners lease.controlTargetId = some active from hreg₁]
      refine Sat.ite (fun _ => Sat.throw (hrefuse _ (by rw [notProducer, if_pos hp]))) (fun hs => ?_)
      exact absurd (sameOwner_iff.1 (by simpa using hs)) hne

/-- **`executeInput` of an owner that is not the producer.** -/
theorem executeInput_refused (hE : env.Within B) (h : Sound env B c none w) (hdisk : w.disk = c.disk)
    (hstart : c.start ≤ w.tick) (hrun : c.running = .external) {lease : Lease} {active : Owner}
    (hreg : w.loc.interactiveOwners lease.controlTargetId = some active) (hne : active ≠ lease.owner)
    (hint : isInteractiveOwner lease.owner = true) (operationId pane : String) (payload : InputPayload) :
    Sat (Unwritten w) (executeInput env lease operationId pane payload) w (fun _ _ => False)
      (Refused lease (notProducer pane) w) := by
  refine Sat.lockedFrom hE h hdisk hstart (fun _ ha => ha.unwritten) (fun e w' ha => ha.refused _ _ e) ?_
  intro w₀ hl ha hown
  have hreg₀ : w₀.loc.interactiveOwners lease.controlTargetId = some active := by rw [hown hrun]; exact hreg
  refine Sat.bind ((admitInput_refused hE hl hrun hreg₀ hne hint pane _).imp ?_ (fun _ _ hq => hq) (fun _ _ he => he))
    (fun e w' he => he.after ha) (fun _ _ hq => hq.elim)
  rintro w' ⟨es', he', hw⟩
  obtain ⟨es, he, ha⟩ := ha.unwritten
  exact ⟨es' ++ es, by rw [he', he, List.append_assoc], fun e hm => (List.mem_append.1 hm).elim (hw e) (ha e)⟩

/-! ## An operation in doubt -/

theorem existingOperation_inDoubt {op : InFlightOperation} (hs : Shape t) {r : OperationRecord}
    (hr : r ∈ t.completedOperations) (hid : r.operationId = op.operationId) (hhash : r.payloadHash = op.payloadHash)
    (hkind : r.kind = op.kind) (hd : r.disposition = .inDoubt) (instanceId : String) (fence : Nat) (hash : String)
    (kind : OperationKind) :
    t.existingOperation op.operationId instanceId fence hash kind =
      if hash = op.payloadHash ∧ kind = op.kind then
        .error (denied .operationInDoubt "operation was accepted previously but its backend disposition is uncertain")
      else .error (denied .invalidRequest "operationId was reused with different ownership or payload") := by
  have hfind : t.completedOperations.find? (fun o => o.operationId = op.operationId) = some r := by
    cases hf : t.completedOperations.find? (fun o => o.operationId = op.operationId) with
    | none => exact absurd hid (by simpa using List.find?_eq_none.1 hf r hr)
    | some o =>
      have ho : o.operationId = op.operationId := by simpa using List.find?_some hf
      exact congrArg some (List.inj_on_of_nodup_map hs.nodup (List.mem_of_find?_eq_some hf) hr (ho.trans hid.symm))
  unfold TargetRecord.existingOperation
  rw [hfind]
  dsimp only
  rw [hhash, hkind, hd]
  by_cases h1 : hash = op.payloadHash <;> by_cases h2 : kind = op.kind <;> simp [h1, h2, eq_comm]

theorem inDoubt_of_loaded (hE : env.Within B) {op : InFlightOperation} (hdoubt : doubted id op w.trace = true)
    (h : Sound env B c none w) (hdisk : w.disk = c.disk) (hl : Loaded env B c w') (hget : w'.mem.get? id = some t) :
    InDoubt t op := by
  obtain ⟨-, d, hd, hgd⟩ := hl.on hget
  obtain ⟨hmem, hid⟩ := ControlState.get?_mem hgd
  exact (h.reach.doubtInv hE.placeholder).disk id op hdoubt d (hdisk.trans (hl.watch.symm.trans hd)) t hmem hid

theorem InDoubt.not_ok {op : InFlightOperation} (hs : Shape t) (h : InDoubt t op) (hidle : t.inFlight = none)
    {instanceId hash : String} {fence : Nat} {kind : OperationKind} {completed : Option OperationRecord} :
    t.existingOperation op.operationId instanceId fence hash kind ≠ .ok completed := by
  rcases h with h | ⟨r, hr, hid, hh, hk, hd⟩
  · rw [hidle] at h; cases h
  · rw [existingOperation_inDoubt hs hr hid hh hk hd]
    split <;> simp

/-- **`executeInput` of an operation in doubt** does not return. -/
theorem executeInput_inDoubt (hE : env.Within B) (h : Sound env B c none w) (hdisk : w.disk = c.disk)
    (hstart : c.start ≤ w.tick) (hrun : c.running = .external) {lease : Lease} {op : InFlightOperation}
    (hdoubt : doubted lease.controlTargetId op w.trace = true) (pane : String) (payload : InputPayload) :
    Sat (Good env B c) (executeInput env lease op.operationId pane payload) w (fun _ _ => False) (fun _ _ => True) := by
  refine Sat.locked hE h hdisk hstart (fun _ _ _ => trivial) (fun w₀ hl => ?_)
  refine Sat.bind (admitInput_spec hE hl hrun lease pane _) (fun _ _ _ => trivial) ?_
  rintro - w₁ ⟨t₀, t₁, hget, hops, h₁⟩
  refine Sat.next (targetById_eq h₁.on.get) (Sat.step (P := fun _ _ => False) ?_ (fun _ _ hf => hf.elim))
  refine Sat.ofExcept (fun completed hex => ?_) (fun _ _ => trivial)
  have hdoubt₁ : InDoubt t₁ op := by
    have := inDoubt_of_loaded hE hdoubt h hdisk hl hget
    rwa [InDoubt, ← hops.1, ← hops.2] at this
  exact hdoubt₁.not_ok (h₁.on.shape hE) h₁.idle hex

theorem mem_operationIds {operationId instanceId hash : String} {fence : Nat} {kind : OperationKind} {r : OperationRecord}
    (h : t.existingOperation operationId instanceId fence hash kind = .ok (some r)) : operationId ∈ t.operationIds := by
  unfold TargetRecord.existingOperation at h
  split at h
  · cases h
  · rename_i o hfind
    have ho : o.operationId = operationId := by simpa using List.find?_some hfind
    exact ho ▸ List.mem_map_of_mem (List.mem_of_find?_eq_some hfind)

/-- **`executeLifecycleKill` of an operation in doubt** does not return. -/
theorem executeLifecycleKill_inDoubt (hE : env.Within B) (h : Sound env B c none w) (hdisk : w.disk = c.disk)
    (hstart : c.start ≤ w.tick) {lease : Lease} {op : InFlightOperation}
    (hdoubt : doubted lease.controlTargetId op w.trace = true) :
    Sat (Good env B c) (executeLifecycleKill env lease op.operationId) w (fun _ _ => False) (fun _ _ => True) := by
  refine Sat.locked hE h hdisk hstart (fun _ _ _ => trivial) (fun w₀ hl => ?_)
  refine Sat.targetById (fun _ => trivial) (fun t hget => ?_)
  obtain ⟨h₀, hsav⟩ := hl.on hget
  have hdoubt₀ := inDoubt_of_loaded hE hdoubt h hdisk hl hget
  refine Sat.step (P := fun completed w' => w₀ = w' ∧ t.existingOperation op.operationId lease.owner.instanceId
      lease.fence (env.digest (.kill "0" t.managedSession.name)) .lifecycleKill = .ok completed)
    (Sat.ofExcept (fun _ ha => ⟨rfl, ha⟩) (fun _ _ => trivial)) ?_
  rintro completed _ ⟨rfl, hex⟩
  -- the journal does not have the operation, so it is still in flight
  have hin : t.inFlight ≠ none := fun hidle => hdoubt₀.not_ok (h₀.shape hE) hidle hex
  cases completed with
  | some r =>
    rcases hdoubt₀ with hf | ⟨r', hr', hid, hh, hk, hd⟩
    · exact absurd (mem_operationIds hex) ((h₀.shape hE).started op hf)
    · rw [existingOperation_inDoubt (h₀.shape hE) hr' hid hh hk hd] at hex
      split at hex <;> cases hex
  | none =>
    refine Sat.bind (assertTargetCurrent_spec hE h₀ hsav.mirrored hsav.known False.elim) (fun _ _ _ => trivial) ?_
    rintro - w₁ ⟨t₁, h₁, hcar⟩
    exact absurd (hcar.operations.2.symm.trans h₁.idle) hin

end Terminal
end TmuxWorktree
