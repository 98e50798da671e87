import TmuxWorktree.Terminal.Safety
import TmuxWorktree.Terminal.Entries
/-!
# Retried — what the journal answers to a request that is repeated

A committed operation is appended to the journal of its target, and the retry is answered from there.  The journal is
bounded: an append that exceeds the bound drops the oldest committed entry.  When every other entry is in doubt, that is
the entry just appended, and the retry is written again.
-/
namespace TmuxWorktree
namespace Terminal

open Effect

variable {env : Env} {B : Bounds} {c : Watch} {t u : TargetRecord} {w w' : World} {α β : Type}

/-! ## Room in the journal -/

/-- **The journal has room for a committed entry**: it is not full, or has an older committed entry to drop. -/
def HasRoom (journal : List OperationRecord) : Prop :=
  journal.length < TargetRecord.maxCompletedOperations ∨ ∃ op ∈ journal, op.disposition = .committed

instance (journal : List OperationRecord) : Decidable (HasRoom journal) := by unfold HasRoom; infer_instance

theorem appendOperation_journal (t : TargetRecord) (op : OperationRecord) :
    (t.appendOperation op).completedOperations =
      match TargetRecord.evictedIndex (t.completedOperations ++ [op]) with
      | none => t.completedOperations ++ [op]
      | some i => (t.completedOperations ++ [op]).eraseIdx i := by
  unfold TargetRecord.appendOperation
  dsimp only
  cases TargetRecord.evictedIndex (t.completedOperations ++ [op]) <;> rfl

theorem evictedIndex_eq {ops : List OperationRecord} {i : Nat} (hfull : TargetRecord.maxCompletedOperations < ops.length)
    (hi : ops.findIdx (fun op => op.disposition = .committed) = i) (hlt : i < ops.length) :
    TargetRecord.evictedIndex ops = some i := by
  unfold TargetRecord.evictedIndex
  rw [if_neg (not_le.2 hfull)]
  dsimp only
  rw [hi, if_pos hlt]

theorem HasRoom.append {op : OperationRecord} (h : HasRoom t.completedOperations) :
    ∃ kept, kept.Sublist t.completedOperations ∧ (t.appendOperation op).completedOperations = kept ++ [op] := by
  rw [appendOperation_journal]
  by_cases hfull : (t.completedOperations ++ [op]).length ≤ TargetRecord.maxCompletedOperations
  · exact ⟨_, List.Sublist.refl _, by rw [TargetRecord.evictedIndex, if_pos hfull]⟩
  · obtain ⟨o, ho, hc⟩ : ∃ o ∈ t.completedOperations, o.disposition = .committed :=
      h.resolve_left (fun hlt => hfull (by rw [List.length_append]; exact hlt))
    -- the oldest committed entry is an older one
    have hlt := List.findIdx_lt_length_of_exists (p := fun o => decide (o.disposition = .committed))
      ⟨o, ho, decide_eq_true hc⟩
    have hi : (t.completedOperations ++ [op]).findIdx (fun o => decide (o.disposition = .committed)) =
        t.completedOperations.findIdx (fun o => decide (o.disposition = .committed)) := by
      rw [List.findIdx_append, if_pos hlt]
    rw [evictedIndex_eq (not_le.1 hfull) hi (by rw [List.length_append]; exact Nat.lt_add_right 1 hlt)]
    exact ⟨_, List.eraseIdx_sublist _ _, List.eraseIdx_append_of_lt_length hlt _⟩

theorem append_of_not_hasRoom {op : OperationRecord} (hop : op.disposition = .committed)
    (h : ¬ HasRoom t.completedOperations) : (t.appendOperation op).completedOperations = t.completedOperations := by
  rw [appendOperation_journal]
  obtain ⟨hfull, hnone⟩ := not_or.1 h
  have hlast : (t.completedOperations ++ [op]).findIdx (fun o => o.disposition = .committed) =
      t.completedOperations.length := by
    have hnot : ∀ o ∈ t.completedOperations, decide (o.disposition = .committed) = false := fun o ho =>
      decide_eq_false (fun hc => hnone ⟨o, ho, hc⟩)
    rw [List.findIdx_append, List.findIdx_eq_length.2 hnot]
    simp [hop]
  rw [evictedIndex_eq (by rw [List.length_append]; exact Nat.lt_succ_of_le (not_lt.1 hfull)) hlast
    (by rw [List.length_append]; exact Nat.lt_succ_self _)]
  dsimp only
  rw [List.eraseIdx_append_of_length_le le_rfl, Nat.sub_self]
  exact List.append_nil _

/-- **What the journal answers for an entry that was just appended.** -/
theorem existingOperation_appended {op : OperationRecord} (hop : op.disposition = .committed)
    (hnew : op.operationId ∉ t.operationIds)
    (hj : u.completedOperations = (t.appendOperation op).completedOperations) :
    u.existingOperation op.operationId op.ownerInstanceId op.fence op.payloadHash op.kind =
      .ok (if HasRoom t.completedOperations then some op else none) := by
  have hother : ∀ kept : List OperationRecord, kept.Sublist t.completedOperations →
      kept.find? (fun o => o.operationId = op.operationId) = none := fun kept hk =>
    List.find?_eq_none.2 (fun o ho => by
      simpa using fun hid => hnew (List.mem_map.2 ⟨o, hk.subset ho, hid⟩))
  unfold TargetRecord.existingOperation
  by_cases hroom : HasRoom t.completedOperations
  · obtain ⟨kept, hk, happ⟩ : ∃ kept, kept.Sublist t.completedOperations ∧
        (t.appendOperation op).completedOperations = kept ++ [op] := hroom.append
    rw [hj, happ, List.find?_append, hother kept hk]
    simp [hop, hroom]
  · rw [hj, append_of_not_hasRoom hop hroom, hother _ (List.Sublist.refl _)]
    simp [hroom]

/-! ## The two halves of an input -/

/-- The first half of `executeInput`, up to the producer registry. -/
def admission (env : Env) (lease : Lease) (pane : String) (payload : InputPayload) : M Unit :=
  locked env (admitInput env lease pane (payload.kind = .raw && env.hasRawFenced))

/-- The second half of `executeInput`, from the journal on. -/
def answerInput (env : Env) (lease : Lease) (operationId pane : String) (payload : InputPayload) : M OperationResult := do
  let id := lease.controlTargetId
  let fencedRaw := payload.kind = .raw && env.hasRawFenced
  let hash := env.digest (.input pane payload)
  let t ← targetById id
  let completed ← Eff.ofExcept (t.existingOperation operationId lease.owner.instanceId lease.fence hash payload.kind)
  match completed with
  | some op => do
    (if fencedRaw then assertTargetCurrent env id else pure ())
    let epoch ← controlEpoch
    return operationResult epoch op true
  | none => performInput env lease operationId payload hash fencedRaw

theorem locked_bind (x : M α) (f : α → M β) : locked env (x >>= f) = locked env x >>= f := by
  unfold locked
  simp only [bind_assoc]

theorem executeInput_eq (env : Env) (lease : Lease) (operationId pane : String) (payload : InputPayload) :
    executeInput env lease operationId pane payload =
      admission env lease pane payload >>= fun _ => answerInput env lease operationId pane payload := by
  unfold executeInput admission answerInput
  exact locked_bind _ _

/-- The identity check that a fenced raw write otherwise leaves to the backend. -/
def identityCheck (env : Env) (lease : Lease) (payload : InputPayload) : M Unit :=
  if payload.kind = .raw && env.hasRawFenced then assertTargetCurrent env lease.controlTargetId else pure ()

/-- **The checks of a request that is answered from the journal.** -/
def retryChecks (env : Env) (lease : Lease) (pane : String) (payload : InputPayload) : M Unit := do
  admission env lease pane payload
  identityCheck env lease payload

/-! ## The first request -/

theorem Sat.anything {x : M α} : Sat (fun _ => True) x w (fun _ _ => True) (fun _ _ => True) := by
  unfold Sat
  rcases x w with ⟨a | e | _, w'⟩ <;> trivial

theorem Sat.last {x : M α} {f : α → M β} {Q : β → World → Prop}
    (hf : ∀ a w', Sat (fun _ => True) (f a) w' Q (fun _ _ => True)) :
    Sat (fun _ => True) (x >>= f) w Q (fun _ _ => True) :=
  Sat.step Sat.anything (fun a w' _ => hf a w')

theorem performInput_new (env : Env) (lease : Lease) (operationId : String) (payload : InputPayload) (hash : String)
    (fencedRaw : Bool) (w : World) :
    Sat (fun _ => True) (performInput env lease operationId payload hash fencedRaw) w
      (fun r _ => r.deduplicated = false) (fun _ _ => True) := by
  unfold performInput
  exact Sat.last fun _ _ => Sat.last fun _ _ => Sat.last fun _ _ => Sat.last fun _ _ => Sat.last fun _ _ =>
    Sat.last fun _ _ => Sat.last fun _ _ => Sat.last fun _ _ => Sat.last fun _ _ => Sat.pure rfl

/-- **The state file journals the operation**: what the append left of the record's journal. -/
def Journalled (id : String) (t : TargetRecord) (op : OperationRecord) (w : World) : Prop :=
  ∃ d t', w.disk = some d ∧ d.get? id = some t' ∧ t'.completedOperations = (t.appendOperation op).completedOperations

/-- The entry of an operation of this request. -/
structure EntryOf (lease : Lease) (operationId hash : String) (kind : OperationKind) (op : OperationRecord) : Prop where
  operationId : op.operationId = operationId
  owner : op.ownerInstanceId = lease.owner.instanceId
  fence : op.fence = lease.fence
  hash : op.payloadHash = hash
  kind : op.kind = kind
  committed : op.disposition = .committed

/-- **A written operation is journalled** before its request returns. -/
theorem Flying.journals (hE : env.Within B) {m : Mode} {id : String} {op : InFlightOperation}
    (h : Flying env B c m id t op w) {a : Int} (ha : B.time a = true) {f : Unit → M β} {Q : β → World → Prop}
    (hf : ∀ w', Journalled id t (asCommitted op a) w' → Sat (Good env B c) (f ()) w' Q (fun _ _ => True)) :
    Sat (Good env B c) (appendOperation id (asCommitted op a) >>= fun _ => assign env id (fun t => t) >>= fun _ =>
      saveTerminalControlState env >>= f) w Q (fun _ _ => True) := by
  have hframe := Bounds.appendOperation_frame t (asCommitted op a)
  have hact : (t.appendOperation (asCommitted op a)).lifecycle = .active := by rw [hframe]; exact h.active
  have hstill : ({ t.appendOperation (asCommitted op a) with inFlight := none } : TargetRecord).drainsUntil = none := by
    rw [hframe]
    exact h.still
  refine Sat.next (appendOperation_eq (h.on.unique hE) h.on.get _) ?_
  obtain ⟨w₁, t₁, heq, h₁, ht₁⟩ := (h.commit hE ha).revise hE (by simp [hact])
  have hact₁ : t₁.lifecycle = .active := ht₁.facts.1.trans hact
  refine Sat.next heq (Sat.bind (Q := Q) (F := fun _ _ => True) (h₁.save hE (p := false)
    (Q := fun _ w' => Journalled id t (asCommitted op a) w') (fun hx => ?_) (ht₁.drains.trans hstill)
    (fun _ => .inr (.inl (by simp [hact₁]))) (fun _ => ?_) (fun _ _ _ => trivial)) (fun _ _ _ => trivial)
    (fun _ w' hj => hf w' hj))
  · rw [h.settled] at hx
    cases hx
  · obtain ⟨d, hd, hget⟩ := h₁.saved hE (by simp [hact₁])
    exact ⟨d, t₁, hd, hget, ht₁.facts.2.2.2.1⟩

/-- **An input that returns is journalled.** -/
theorem performInput_journals (hE : env.Within B) {lease : Lease} (h : Admitted env B c (.by lease.owner) lease t w)
    {operationId hash : String} (hop : operationId ∉ t.operationIds) (ho : B.stored operationId 192 = true)
    (hown : B.owner lease.owner = true) (hh : B.hash hash = true) (payload : InputPayload) (fencedRaw : Bool) :
    Sat (Good env B c) (performInput env lease operationId payload hash fencedRaw) w
      (fun r w' => ∃ op epoch, r = operationResult epoch op false ∧ EntryOf lease operationId hash payload.kind op ∧
        Journalled lease.controlTargetId t op w') (fun _ _ => True) := by
  refine Sat.bind (inputPosition_spec hE h fencedRaw) (fun _ _ _ => trivial) ?_
  intro p w₁ hp
  obtain ⟨t₁, h₁, ht₁, hpw⟩ := h.probed hp
  refine Sat.next (x := isoNow env) rfl ?_
  have hj₁ : t₁.completedOperations = t.completedOperations := ht₁.facts.2.2.2.1
  have hop₁ : operationId ∉ t₁.operationIds := by
    rw [TargetRecord.operationIds, hj₁]
    exact hop
  have hadm := h₁.ticks 1
  have hB : B.inFlight ⟨operationId, lease.owner.instanceId, lease.fence, hash, payload.kind, some p.generation,
      some p.cursor, env.now w₁.tick⟩ = true := bounds_inFlight ho hown hh hpw (hE.now _)
  refine Sat.bind (beginOperation_spec hE hadm.on hadm.settled hadm.active hadm.idle hadm.still hadm.held hop₁ hB)
    (fun _ _ _ => trivial) ?_
  rintro - w₂ ⟨r, u, h₂, hst⟩
  have hfly : Flying env B c (.by lease.owner) lease.controlTargetId _ _ w₂ :=
    ⟨h₂, hadm.seen, hadm.settled, hadm.active, hadm.still, rfl, hst.underway, hB⟩
  refine Sat.bind (writeInput_spec hE hfly hst hadm.fence payload) (fun _ _ _ => trivial) ?_
  intro _ w₃ h₃
  refine Sat.next (x := isoNow env) rfl ((h₃.ticks 1).journals hE (hE.now w₃.tick) (fun w₄ hj => ?_))
  refine Sat.next (x := controlEpoch) rfl (Sat.pure ⟨_, _, rfl, ⟨rfl, rfl, rfl, rfl, rfl, rfl⟩, ?_⟩)
  obtain ⟨d, t₄, hd, hget, hj⟩ := hj
  refine ⟨d, t₄, hd, hget, hj.trans ?_⟩
  simp only [appendOperation_journal, hj₁]
  rfl

/-- **An admitted request finds the journal that the state file has.** -/
theorem admission_spec (hE : env.Within B) (h : Sound env B c none w) (hdisk : w.disk = c.disk) (hstart : c.start ≤ w.tick)
    (hrun : c.running = .external) (lease : Lease) (pane : String) (payload : InputPayload) :
    Sat (Good env B c) (admission env lease pane payload) w
      (fun _ w' => ∃ d t₀ t, w.disk = some d ∧ d.get? lease.controlTargetId = some t₀ ∧ SameOperations t₀ t ∧
        Admitted env B c (.by lease.owner) lease t w') (fun _ w' => Sound env B c none w') := by
  refine Sat.locked hE h hdisk hstart (fun _ _ hs => hs) (fun w₀ hl => ?_)
  refine (admitInput_spec hE hl hrun lease pane _).mono ?_ (fun _ _ hs => hs)
  rintro - w₁ ⟨t₀, t₁, hget, hops, h₁⟩
  obtain ⟨-, d, hd, hgd⟩ := hl.on hget
  exact ⟨d, t₀, t₁, hdisk.trans (hl.watch.symm.trans hd), hgd, hops, h₁⟩

/-- **The first request**: an input that returns and is not deduplicated was not in the journal, and is put there. -/
theorem executeInput_journals (hE : env.Within B) (h : Sound env B c none w) (hdisk : w.disk = c.disk)
    (hstart : c.start ≤ w.tick) (hrun : c.running = .external) {lease : Lease} {operationId : String}
    (ho : B.stored operationId 192 = true) (hown : B.owner lease.owner = true) (pane : String) (payload : InputPayload) :
    Sat (Good env B c) (executeInput env lease operationId pane payload) w
      (fun r w' => r.deduplicated = false → ∃ d t op epoch, w.disk = some d ∧ d.get? lease.controlTargetId = some t ∧
        operationId ∉ t.operationIds ∧ r = operationResult epoch op false ∧
        EntryOf lease operationId (env.digest (.input pane payload)) payload.kind op ∧
        Journalled lease.controlTargetId t op w') (fun _ _ => True) := by
  rw [executeInput_eq]
  refine Sat.bind (admission_spec hE h hdisk hstart hrun lease pane payload) (fun _ _ _ => trivial) ?_
  rintro - w₁ ⟨d, t₀, t₁, hd, hget, hops, h₁⟩
  refine Sat.next (targetById_eq h₁.on.get) ?_
  refine Sat.step (P := fun completed w' => w₁ = w' ∧ t₁.existingOperation operationId lease.owner.instanceId lease.fence
      (env.digest (.input pane payload)) payload.kind = .ok completed)
    (Sat.ofExcept (fun _ ha => ⟨rfl, ha⟩) (fun _ _ => trivial)) ?_
  rintro completed _ ⟨rfl, hex⟩
  cases completed with
  | some op =>
    refine Sat.bind (Q := fun (r : OperationResult) _ => r.deduplicated = false → _) (P := fun _ _ => True)
      (F := fun _ _ => True) (Sat.ite (fun _ => ?_) (fun _ => Sat.pure trivial)) (fun _ _ _ => trivial)
      (fun _ _ _ => Sat.next (x := controlEpoch) rfl (Sat.pure (fun hr => by cases hr)))
    exact (assertTargetCurrent_spec hE (h₁.on.forget (fun hx => hx)) h₁.mirrored h₁.known (fun _ => h₁.idle)).mono
      (fun _ _ _ => trivial) (fun _ _ _ => trivial)
  | none =>
    have hnew := not_mem_operationIds hex
    refine (performInput_journals hE h₁ hnew ho hown (hE.digest _) payload _).mono ?_ (fun _ _ _ => trivial)
    rintro r w₂ ⟨op, epoch, hr, hentry, d₂, t₂, hd₂, hget₂, hj₂⟩ -
    refine ⟨d, t₀, op, epoch, hd, hget, ?_, hr, hentry, d₂, t₂, hd₂, hget₂, hj₂.trans ?_⟩
    · rwa [TargetRecord.operationIds, ← hops.1]
    · simp only [appendOperation_journal, hops.1]

/-! ## The retry -/

instance : Std.Refl Unwritten := ⟨fun _ => ⟨[], rfl, fun _ he => (List.not_mem_nil he).elim⟩⟩

instance : IsTrans World Unwritten := ⟨fun _ _ _ ⟨es, he, hes⟩ ⟨es', he', hes'⟩ =>
  ⟨es' ++ es, by rw [he', he, List.append_assoc], fun e hm => (List.mem_append.1 hm).elim (hes' e) (hes e)⟩⟩

instance (priority := low) {x : M α} [h : Along Aside x] : Along Unwritten x := Along.mono (fun _ _ ha => ha.unwritten) h

instance : Along Unwritten (loadTerminalControlState env) :=
  Along.mono (fun _ _ hr => (Aside.same hr.1).unwritten) (inferInstance : Along Reloads (loadTerminalControlState env))

instance (id : String) (lease : Lease) (allowDraining : Bool) : Along Unwritten (validateLease id lease allowDraining) := by
  have hl : ∀ b b', Along Unwritten (logEvent (.validated id lease b b')) := fun b b' =>
    Along.modify (fun w => ⟨[.validated id lease b b'], rfl, fun e he => by rw [List.mem_singleton.1 he]; rfl⟩)
  unfold validateLease; infer_instance

-- the instance of a section is a tree over its binds
set_option synthInstance.maxSize 200000 in
instance (lease : Lease) (pane : String) (payload : InputPayload) :
    Along Unwritten (admission env lease pane payload) := by
  unfold admission locked admitInput; dsimp only; infer_instance

theorem answerInput_run {lease : Lease} {operationId pane : String} {payload : InputPayload}
    {completed : Option OperationRecord} (hget : w.mem.get? lease.controlTargetId = some t)
    (hex : t.existingOperation operationId lease.owner.instanceId lease.fence (env.digest (.input pane payload))
      payload.kind = .ok completed) :
    answerInput env lease operationId pane payload w =
      (match completed with
        | some op => (do
          identityCheck env lease payload
          let epoch ← controlEpoch
          return operationResult epoch op true)
        | none => performInput env lease operationId payload (env.digest (.input pane payload))
            (decide (payload.kind = OperationKind.raw) && env.hasRawFenced)) w := by
  unfold answerInput
  rw [Eff.bind_run (targetById_eq hget), Eff.bind_run (a := completed) (v := w) (by simp only [Eff.ofExcept, hex])]
  rfl

instance (lease : Lease) (payload : InputPayload) : Along Unwritten (identityCheck env lease payload) := by
  unfold identityCheck; infer_instance

/-- **The retry is the first answer again**: it is deduplicated, with the same fence and position, and nothing is written. -/
def Repeated (r : OperationResult) (x : M OperationResult) (w : World) : Prop :=
  ∃ r' w', x w = (.ok r', w') ∧ r'.deduplicated = true ∧ r'.operationId = r.operationId ∧ r'.fence = r.fence ∧
    r'.outputGeneration = r.outputGeneration ∧ r'.outputCursor = r.outputCursor ∧ Unwritten w w'

/-- **The retry of a journalled operation**: it is answered from the journal if and only if there was room for the entry and
the retry passes its checks. -/
theorem retry_iff (hE : env.Within B) (h : Sound env B c none w) (hdisk : w.disk = c.disk) (hstart : c.start ≤ w.tick)
    (hrun : c.running = .external) {lease : Lease} {operationId pane : String} {payload : InputPayload}
    {op : OperationRecord} (hentry : EntryOf lease operationId (env.digest (.input pane payload)) payload.kind op)
    (hnew : operationId ∉ t.operationIds) (hj : Journalled lease.controlTargetId t op w) (epoch : String) :
    Repeated (operationResult epoch op false) (executeInput env lease operationId pane payload) w ↔
      HasRoom t.completedOperations ∧ ∃ w', retryChecks env lease pane payload w = (.ok (), w') := by
  have hadm := admission_spec hE h hdisk hstart hrun lease pane payload
  have hquiet := Along.along (R := Unwritten) (x := admission env lease pane payload) w
  unfold Sat at hadm
  rw [executeInput_eq]
  unfold retryChecks Repeated
  simp only [Bind.bind]
  rcases hx : admission env lease pane payload w with ⟨_ | e | _, w₁⟩ <;> rw [hx] at hadm hquiet
  · obtain ⟨d, t₀, t₁, hd, hget, hops, h₁⟩ := hadm
    obtain ⟨d', t', hd', hget', hj'⟩ := hj
    obtain rfl : d' = d := Option.some.inj (hd'.symm.trans hd)
    obtain rfl : t' = t₀ := Option.some.inj (hget'.symm.trans hget)
    have hex : t₁.existingOperation operationId lease.owner.instanceId lease.fence (env.digest (.input pane payload))
        payload.kind = .ok (if HasRoom t.completedOperations then some op else none) := by
      have hfound := existingOperation_appended (u := t₁) hentry.committed (hentry.operationId ▸ hnew) (hops.1.trans hj')
      rwa [hentry.operationId, hentry.owner, hentry.fence, hentry.hash, hentry.kind] at hfound
    dsimp only
    by_cases hroom : HasRoom t.completedOperations
    · rw [if_pos hroom] at hex
      rw [answerInput_run h₁.on.get hex]
      simp only [hroom, true_and, Bind.bind]
      have hcheck := Along.along (R := Unwritten) (x := identityCheck env lease payload) w₁
      rcases hc : identityCheck env lease payload w₁ with ⟨_ | e | _, w₂⟩ <;> rw [hc] at hcheck
      · exact iff_of_true ⟨_, w₂, rfl, rfl, rfl, rfl, rfl, rfl, IsTrans.trans _ _ _ hquiet hcheck⟩ ⟨w₂, rfl⟩
      · simp
      · simp
    · -- the entry was dropped, so the input is performed once more
      refine iff_of_false ?_ (fun hh => hroom hh.1)
      rw [if_neg hroom] at hex
      rintro ⟨r, w₂, hrun, hdedup, -⟩
      rw [answerInput_run h₁.on.get hex] at hrun
      have hperf := performInput_new env lease operationId payload (env.digest (.input pane payload))
        (payload.kind = .raw && env.hasRawFenced) w₁
      unfold Sat at hperf
      dsimp only at hrun
      rw [hrun] at hperf
      rw [show r.deduplicated = false from hperf] at hdedup
      cases hdedup
  · simp
  · simp

/-! ## Runs -/

/-- A step between two requests: a synchronous call, or the death of the process. -/
def Step.isPause : Step → Bool
  | .locked _ => false
  | _ => true

theorem interleave_disk (ttlMs : Int) : ∀ (calls : List (Sync × Int)) (w : World), (w.interleave ttlMs calls).disk = w.disk
  | [], _ => rfl
  | _ :: rest, _ => interleave_disk ttlMs rest _

theorem runFrom_pauses : ∀ {pauses : List Step} (w : World), (∀ s ∈ pauses, s.isPause = true) →
    (runFrom env w pauses).disk = w.disk
  | [], _, _ => rfl
  | s :: pauses, w, hp => by
    have ih := runFrom_pauses (runStep env w s) (fun s hs => hp s (List.mem_cons_of_mem _ hs))
    refine ih.trans ?_
    cases s with
    | sync call => exact interleave_disk _ [_] _
    | locked s => cases hp _ List.mem_cons_self
    | die => rfl

theorem run_append (env : Env) (steps later : List Step) : run env (steps ++ later) = runFrom env (run env steps) later :=
  List.foldl_append

def World.journal (w : World) (id : String) : List OperationRecord :=
  ((w.disk.bind (·.get? id)).map (·.completedOperations)).getD []

def inputStep (lease : Lease) (operationId pane : String) (payload : InputPayload) : Step :=
  .locked (.handle (.input lease operationId pane payload))

/-- **Commit, then retry.**  The request that repeats an input that was committed is its first answer again if and only if
the journal had room for the entry and the retry passes its checks.  An entry in doubt stays in the journal of a target that
is not gone, and its operation is never written, as long as no record that is retired in memory is fenced. -/
theorem commit_then_retry (env : Env) (steps : List Step) (hd : env.Distinct (run env steps).tick) :
    (∀ before lease operationId pane payload pauses r w₁,
      steps = before ++ inputStep lease operationId pane payload :: pauses → (∀ s ∈ pauses, s.isPause = true) →
      0 < (run env before).loc.relayV2ExternalOperations → 0 < (run env steps).loc.relayV2ExternalOperations →
      executeInput env lease operationId pane payload { run env before with running := .external } = (.ok r, w₁) →
      r.deduplicated = false →
      (Repeated r (executeInput env lease operationId pane payload) { run env steps with running := .external } ↔
        HasRoom ((run env before).journal lease.controlTargetId) ∧
          ∃ w', retryChecks env lease pane payload { run env steps with running := .external } = (.ok (), w'))) ∧
    (∀ later e mid s earlier id r, (run env steps).trace = later ++ e :: (mid ++ Event.saved s :: earlier) →
      hasEntry id r s = true → r.disposition = .inDoubt → (∀ e' ∈ mid, e'.revives id = false) →
      (∀ s', e = .saved s' → KeepsEntry id r s') ∧ e.writes id r.operationId = false) := by
  have hs := run_reaches hd
  have hE := within_noBounds env
  refine ⟨?_, fun later e mid s earlier id r htr hsaved hr hmid => ?_⟩
  · rintro before lease operationId pane payload pauses r w₁ rfl hp hopen hopen' hfirst hdedup
    have hrun : run env (before ++ inputStep lease operationId pane payload :: pauses) =
        runFrom env (runStep env (run env before) (inputStep lease operationId pane payload)) pauses := run_append env before _
    have ha : (Section.handle (.input lease operationId pane payload)).admissible (run env before).loc = true := by
      simpa [Section.admissible, Section.running] using hopen
    have ha' : (Section.handle (.input lease operationId pane payload)).admissible
        (run env (before ++ inputStep lease operationId pane payload :: pauses)).loc = true := by
      simpa [Section.admissible, Section.running] using hopen'
    have hd₀ : env.Distinct (run env before).tick := fun i j hi hj =>
      have hle : (run env before).tick ≤ (run env (before ++ inputStep lease operationId pane payload :: pauses)).tick := by
        rw [run_append]
        exact runFrom_later env _ _
      hd i j (hi.trans_le hle) (hj.trans_le hle)
    obtain ⟨d, t, op, epoch, hdk, hget, hnew, rfl, hentry, hj⟩ := Sat.of_request
      (s := .handle (.input lease operationId pane payload))
      (executeInput_journals hE ((run_reaches hd₀).enter ha) rfl le_rfl rfl rfl rfl pane payload) hfirst hdedup
    -- the retry finds the state file as the first request left it
    have hdisk : (run env (before ++ inputStep lease operationId pane payload :: pauses)).disk = w₁.disk := by
      rw [hrun, runFrom_pauses _ hp, inputStep, runStep, runSection, if_pos ha]
      simp only [Section.program, handleV1, discard, Section.running, Bind.bind, hfirst]
      rfl
    have hjournal : (run env before).journal lease.controlTargetId = t.completedOperations := by
      have hdk : (run env before).disk = some d := hdk
      simp [World.journal, hdk, hget]
    rw [hjournal]
    exact retry_iff hE (hs.enter ha') rfl le_rfl rfl hentry hnew (by rwa [Journalled, ← hdisk] at hj) epoch
  · have hlog : NoLoss (run env steps).trace := (hs.reach.entryInv rfl).log
    rw [htr] at hlog
    have hj : journalled id r (mid ++ .saved s :: earlier) = true := journalled_of_saved hsaved hmid
    have hlast := hlog.of_append
    cases e with
    | saved s' =>
      refine ⟨fun s'' he => ?_, rfl⟩
      obtain rfl := Event.saved.inj he
      exact hlast.2 id r hr hj
    | write target operationId kind owner fence returned =>
      refine ⟨fun _ he => (by cases he), ?_⟩
      by_contra hw
      simp only [Event.writes, Bool.not_eq_false, Bool.and_eq_true, decide_eq_true_eq] at hw
      obtain ⟨rfl, rfl⟩ := hw
      rw [hlast.2 r hr rfl] at hj
      cases hj
    | _ => exact ⟨fun _ he => (by cases he), rfl⟩

/-- The input of `sampleSteps`' owner is answered from the journal when it is repeated. -/
theorem commit_then_retry_sample :
    Repeated ⟨"op", false, sampleEnv.randomUUID 2, 1, some "generation", some 0⟩
      (executeInput sampleEnv sampleLease "op" "0" (.raw [97]))
      { run sampleEnv (sampleSteps ++ [sampleInput]) with running := .external } := by
  have hd : sampleEnv.Distinct (run sampleEnv (sampleSteps ++ [sampleInput])).tick := sampleEnv_distinct (by decide)
  have hfirst : (executeInput sampleEnv sampleLease "op" "0" (.raw [97])
      { run sampleEnv sampleSteps with running := .external }).1 =
        .ok ⟨"op", false, sampleEnv.randomUUID 2, 1, some "generation", some 0⟩ := by decide
  have hchecks : (retryChecks sampleEnv sampleLease "0" (.raw [97])
      { run sampleEnv (sampleSteps ++ [sampleInput]) with running := .external }).1 = .ok () := by decide
  exact ((commit_then_retry sampleEnv (sampleSteps ++ [sampleInput]) hd).1 sampleSteps sampleLease "op" "0" (.raw [97]) [] _ _
    rfl (fun _ hs => (List.not_mem_nil hs).elim) (by decide) (by decide) (Prod.ext hfirst rfl) rfl).2
    ⟨by decide, _, Prod.ext hchecks rfl⟩

/-- `op` is in doubt and its target forced.  A read of the output fails, the probe after it finds the session gone, and the
save of the retirement fails. -/
def lostEnv : Env :=
  { dyingEnv with
    chunk := fun _ => .error (.plain "read failed")
    done := fun n => if n = 46 then .error (denied .targetGone "session is gone") else .ok ()
    save := fun n => if n = 48 then .failedBeforeRename (.file "disk is full") else .done }

def lostSteps : List Step := forcedSteps ++
  [.locked (.handle (.outputTail (sampleEnv.randomUUID 4) (sampleEnv.randomUUID 27) "generation" 0 10))]

/-- The entry of `op` that the restart left. -/
def lostEntry : OperationRecord :=
  ⟨"op", "cli", 1, String.ofList (List.replicate 64 '0'), .raw, .inDoubt, some "generation", some 0, 28⟩

/-- The target of `lostSteps` is fenced with an empty journal, though `op` was in doubt before. -/
theorem fenced_without_entry :
    lostEntry ∈ (run lostEnv forcedSteps).journal (sampleEnv.randomUUID 4) ∧
    ((run lostEnv lostSteps).disk.bind (·.get? (sampleEnv.randomUUID 4))).map (fun t => (t.lifecycle, t.completedOperations)) =
      some (.recoveryRequired, []) := by
  decide

end Terminal
end TmuxWorktree
