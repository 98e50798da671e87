import TmuxWorktree.Terminal.Focus
/-!
# Fence — what the authority's mutations do to the section's record

The mutations of a record (`markRecovery`, `invalidateTarget`, `assign`, …) as moves of the protocol, and the two ways a
section gives up on its target: `fenceAndThrow` and `retireAndThrow`.
-/
namespace TmuxWorktree
namespace Terminal

open Effect

variable {env : Env} {B : Bounds} {c : Watch} {m : Mode} {id : String} {t t' : TargetRecord} {w w' : World} {α : Type}

/-! ## Bounds -/

namespace Bounds

theorem target_touch (h : B.target t = true) {g : String} {u : Int} (hg : B.stored g 128 = true)
    (hu : B.time u = true) (r : Nat) :
    B.target { t with outputGeneration := g, revision := r, updatedAt := u } = true := by
  simp only [Bounds.target, Bool.and_eq_true] at h ⊢
  tauto

theorem target_ownership (h : B.target t = true) {o : Ownership} {u : Int} (ho : B.ownership o = true)
    (hu : B.time u = true) (r : Nat) : B.target { t with ownership := o, revision := r, updatedAt := u } = true := by
  simp only [Bounds.target, Bool.and_eq_true] at h ⊢
  tauto

theorem target_active (h : B.target t = true) {o : Ownership} {u : Int} (ho : B.ownership o = true)
    (hu : B.time u = true) (r : Nat) :
    B.target { t with lifecycle := .active, recovery := none, ownership := o, revision := r, updatedAt := u } = true := by
  simp only [Bounds.target, Bool.and_eq_true, Option.all_none] at h ⊢
  tauto

theorem target_inFlight (h : B.target t = true) {op : InFlightOperation} {u : Int} (ho : B.inFlight op = true)
    (hu : B.time u = true) (r : Nat) : B.target { t with inFlight := some op, revision := r, updatedAt := u } = true := by
  simp only [Bounds.target, Bool.and_eq_true, Option.all_some] at h ⊢
  tauto

theorem target_cleared (h : B.target t = true) : B.target { t with recovery := none } = true := by
  simp only [Bounds.target, Bool.and_eq_true, Option.all_none] at h ⊢
  tauto

theorem target_idle (h : B.target t = true) : B.target { t with inFlight := none } = true := by
  simp only [Bounds.target, Bool.and_eq_true, Option.all_none] at h ⊢
  tauto

theorem target_retired (h : B.target t = true) {u : Int} (hu : B.time u = true) :
    B.target (t.invalidateTarget u) = true := by
  simp only [Bounds.target, Bool.and_eq_true, TargetRecord.invalidateTarget, Bounds.ownership, List.all_nil,
    Option.all_none] at h ⊢
  tauto

theorem operations_appendOperation {op : OperationRecord} (h : t.completedOperations.all B.operation = true)
    (ho : B.operation op = true) : (t.appendOperation op).completedOperations.all B.operation = true := by
  have hall : ∀ x ∈ t.completedOperations ++ [op], B.operation x = true := by
    intro x hx
    rcases List.mem_append.1 hx with hx | hx
    · exact List.all_eq_true.1 h x hx
    · rw [List.mem_singleton.1 hx]; exact ho
  unfold TargetRecord.appendOperation
  dsimp only
  split
  · exact List.all_eq_true.2 hall
  · exact List.all_eq_true.2 (fun x hx => hall x ((List.eraseIdx_sublist _ _).subset hx))

theorem appendOperation_frame (t : TargetRecord) (op : OperationRecord) :
    t.appendOperation op = { t with completedOperations := (t.appendOperation op).completedOperations } := by
  unfold TargetRecord.appendOperation
  dsimp only
  split <;> rfl

theorem target_append (h : B.target t = true) {op : OperationRecord} (ho : B.operation op = true) :
    B.target { t.appendOperation op with inFlight := none } = true := by
  rw [appendOperation_frame]
  simp only [Bounds.target, Bool.and_eq_true, Option.all_none] at h ⊢
  have := operations_appendOperation (t := t) h.1.1.1.2 ho
  tauto

theorem operation_asInDoubt {op : InFlightOperation} {a : Int} (h : B.inFlight op = true) (ha : B.time a = true) :
    B.operation (TargetRecord.InFlightOperation.asInDoubt op a) = true := by
  simp only [Bounds.inFlight, Bounds.operation, TargetRecord.InFlightOperation.asInDoubt, Bool.and_eq_true] at h ⊢
  tauto

theorem target_completed (h : B.target t = true) {a : Int} (ha : B.time a = true) :
    B.target (t.completeInFlightAsInDoubt a) = true := by
  unfold TargetRecord.completeInFlightAsInDoubt
  cases hin : t.inFlight with
  | none => exact h
  | some op =>
    refine target_append h (operation_asInDoubt ?_ ha)
    simp only [Bounds.target, Bool.and_eq_true, hin, Option.all_some] at h
    exact h.1.1.2

theorem target_fenced (h : B.target t = true) {epoch : String} {reason : RecoveryReason}
    {options : TargetRecord.RecoveryOptions} {x y z : Int} (hx : B.time x = true) (hy : B.time y = true)
    (hz : B.time z = true) (he : B.stored (options.previousControlEpoch.getD epoch) 128 = true)
    (ho : options.operationId.all (B.stored · 192) = true) :
    B.target (t.markRecovery epoch reason options x y z) = true := by
  have hc := target_completed h hx
  have hop : (options.operationId <|> t.inFlight.map (·.operationId)).all (B.stored · 192) = true := by
    cases hopt : options.operationId with
    | some s => simpa [hopt] using ho
    | none =>
      cases hin : t.inFlight with
      | none => rfl
      | some op =>
        simp only [Bounds.target, Bounds.inFlight, Bool.and_eq_true, hin, Option.all_some] at h
        simpa using h.1.1.2.1.1.1.1.1
  unfold TargetRecord.markRecovery
  simp only [Bounds.target, Bool.and_eq_true, Bounds.recovery, Option.all_some, Bounds.ownership] at hc ⊢
  tauto

end Bounds

/-! ## The mutations as moves -/

theorem Move.clearRecovery (h : t.recovery = none) : Move t [] { t with recovery := none } := by
  have heq : ({ t with recovery := none } : TargetRecord) = t := by
    cases t
    simp_all
  rw [heq]
  exact .touch t t.outputGeneration t.revision t.updatedAt

section
variable (hid : t.controlTargetId = id)
include hid

theorem Move.retireAt (u : Int) : Move t [.retired id] (t.invalidateTarget u) := by
  subst hid
  exact .retire t u

theorem Move.reconcileAt (r : Nat) (u : Int) (h : t.isAutoRecoverableNonFeishuState = true) :
    Move t [.activated id .reconciled]
      { t with lifecycle := .active, recovery := none, ownership := .free t.fence, revision := r, updatedAt := u } := by
  subst hid
  exact .reconcile t r u h

theorem Move.acknowledgeAt (r : Nat) (u : Int) (h : isExactInDoubt t = true) :
    Move t [.activated id .exactPreparation]
      { t with lifecycle := .active, recovery := none, ownership := .free t.fence, revision := r, updatedAt := u } := by
  subst hid
  exact .acknowledge t r u h

theorem Move.forceAt (owner : Owner) (leaseId : String) (x : Int) (r : Nat) (u : Int)
    (h : t.lifecycle = .recoveryRequired) :
    Move t [.activated id .forced]
      { t with
        lifecycle := .active, recovery := none, ownership := .held (t.fence + 1) owner leaseId x
        revision := r, updatedAt := u } := by
  subst hid
  exact .force t owner leaseId x r u h

theorem Move.startAt (op : InFlightOperation) (r : Nat) (u : Int) (ha : t.lifecycle = .active) (hn : t.inFlight = none)
    (hf : op.operationId ∉ t.operationIds) :
    Move t [.started id op.operationId] { t with inFlight := some op, revision := r, updatedAt := u } := by
  subst hid
  exact .start t op r u ha hn hf

theorem Move.abandonAt {op : InFlightOperation} (h : t.inFlight = some op) :
    Move t [.provenNotApplied id op.operationId] { t with inFlight := none } := by
  subst hid
  exact .abandon t op h

end

theorem markRecovery_eq (hu : w.mem.UniqueIds) (hget : w.mem.get? id = some t) (reason : RecoveryReason)
    (options : TargetRecord.RecoveryOptions) :
    markRecovery env id reason options w = (.ok (), { w with tick := w.tick + 3 }.moved id
      (t.fenceEvents reason options (env.now w.tick) (env.now (w.tick + 1)))
      (t.markRecovery w.mem.controlEpoch reason options (env.now w.tick) (env.now (w.tick + 1))
        (env.now (w.tick + 2)))) := by
  unfold markRecovery isoNow nextTick controlEpoch targetById logEvents modifyTarget World.moved
  simp only [Eff.get, Eff.modify, bind, pure, hget]
  rw [ControlState.update_const hu hget]

theorem invalidateTarget_eq (hu : w.mem.UniqueIds) (hget : w.mem.get? id = some t) :
    invalidateTarget env id w = (.ok (), { w with tick := w.tick + 1 }.moved id [.retired id]
      (t.invalidateTarget (env.now w.tick))) := by
  unfold invalidateTarget isoNow nextTick logEvent modifyTarget World.moved World.log
  simp only [Eff.modify, bind, pure, List.singleton_append]
  rw [ControlState.update_const hu hget]

theorem assign_eq (hu : w.mem.UniqueIds) (hget : w.mem.get? id = some t) (f : TargetRecord → TargetRecord) :
    assign env id f w = (.ok (), { w with tick := w.tick + 1 }.moved id []
      { f t with revision := t.revision + 1, updatedAt := env.now w.tick }) := by
  unfold assign isoNow nextTick modifyTarget World.moved
  simp only [Eff.modify, bind, pure, List.nil_append]
  rw [ControlState.update_const hu hget]

theorem modifyTarget_eq (hu : w.mem.UniqueIds) (hget : w.mem.get? id = some t) (f : TargetRecord → TargetRecord) :
    modifyTarget id f w = (.ok (), w.moved id [] (f t)) := by
  unfold modifyTarget World.moved
  simp only [Eff.modify, List.nil_append]
  rw [ControlState.update_const hu hget]

/-! ## Fencing -/

/-- **Past its checks, a section cannot slip** unless a deadline passed under it. -/
theorem On.unslipped (h : On env B c m id t w) (hseen : m.seen) {j n : Nat} (hj : w.tick ≤ j) (hn : j < n)
    (reason : RecoveryReason) (operationId : Option String) :
    slips w.trace (.fenced id t reason (env.now j) operationId) = false ∨ c.Excused env n := by
  rcases h.calm hseen with hx | hc
  · exact .inr (hx.mono (hj.trans hn.le))
  by_contra hcon
  obtain ⟨hslip, hne⟩ := not_or.1 hcon
  simp only [slips, Bool.not_eq_false, Bool.and_eq_true, Bool.or_eq_true, decide_eq_true_eq] at hslip
  obtain ⟨⟨⟨⟨-, hkind⟩, -⟩, -⟩, hflag⟩ := hslip
  obtain ⟨hf, hfresh⟩ := hc (fun _ => hkind)
  rw [hf] at hflag
  simp only [Bool.false_eq_true, false_or, overdue, Option.any_eq_true, decide_eq_true_eq] at hflag
  obtain ⟨d, hd, u, hu, x, hx, hle⟩ := hflag
  have hdisk : w.disk = some d := h.sound.reach.saved.trans hd
  obtain ⟨o, ho⟩ := h.watched d hdisk u hu x hx
  obtain ⟨i, hi1, hi2, hi3⟩ := hfresh d hdisk u hu x hx
  exact hne (.inr ⟨id, o, x, ho, j, h.start.trans hj, hn, hle, .inr ⟨i, hi1, hi2.trans_le hj, hi3⟩⟩)

theorem On.fence (hE : env.Within B) (h : On env B c m id t w) (reason : RecoveryReason)
    (operationId : Option String) (hlive : t.lifecycle ≠ .targetGone ∨ m.seen)
    (ho : operationId.all (B.stored · 192) = true)
    (hslip : Clean w.trace → slips w.trace (.fenced id t reason (env.now (w.tick + 1)) operationId) = false ∨
      c.Excused env (w.tick + 3)) :
    On env B c m id
      (t.markRecovery w.mem.controlEpoch reason { operationId := operationId } (env.now w.tick) (env.now (w.tick + 1))
        (env.now (w.tick + 2)))
      ({ w with tick := w.tick + 3 }.moved id
        (t.fenceEvents reason { operationId := operationId } (env.now w.tick) (env.now (w.tick + 1)))
        (t.markRecovery w.mem.controlEpoch reason { operationId := operationId } (env.now w.tick)
          (env.now (w.tick + 1)) (env.now (w.tick + 2)))) := by
  refine (h.ticks 3).move (.fence t w.mem.controlEpoch reason _ _ _ _) ?_ hlive ?_
    (.parked (by simp [TargetRecord.markRecovery])) ?_
  · exact Bounds.target_fenced (h.bounds hE) (hE.now _) (hE.now _) (hE.now _) (h.sound.wellFormed hE).mem.epoch ho
  · exact fun _ hk _ => hk rfl
  · intro hc
    refine (hslip hc).imp_left (fun hs => ?_)
    refine ⟨?_, hc.append inDoubtEvictions_slips⟩
    rw [h.known.2]
    exact (slips_append_inert inDoubtEvictions_isInert _).trans hs

def Saved (id : String) (t : TargetRecord) (w : World) : Prop := ∃ d, w.disk = some d ∧ d.get? id = some t

theorem On.saved (hE : env.Within B) (h : On env B c m id t w) (hl : t.lifecycle ≠ .targetGone) :
    Saved id t w.written := ⟨compact w.mem, rfl, compact_get (h.sound.wellFormed hE).mem h.get hl⟩

theorem On.presentable (h : On env B c m id t w) (hseen : m.seen) {j n : Nat} (hj : w.tick ≤ j) (hn : j < n)
    {r : RecoveryRecord} (hr : r.since = env.now j) (hk : r.previousOwnerKind = t.previousOwnerKind)
    (hop : r.operationId = none) (hreason : r.reason ≠ .drainUncertain) :
    c.Excused env n ∨ (t.previousOwnerKind ≠ some .feishu → isUncertain w.disk w.mem.controlEpoch id r = false) := by
  rcases h.calm hseen with hx | hc
  · exact .inl (hx.mono (hj.trans hn.le))
  by_contra hcon
  obtain ⟨hne, hun⟩ := not_or.1 hcon
  obtain ⟨hkind, hun⟩ := Classical.not_imp.1 hun
  simp only [isUncertain, Bool.not_eq_false, Bool.or_eq_true, Option.any_eq_true, decide_eq_true_eq, hk, hop,
    Option.isSome_none, Bool.false_eq_true, or_false] at hun
  rcases hun with hf | ⟨d, hd, u, hu, x, hx, (hle | hep) | hre⟩
  · exact hkind hf
  · obtain ⟨o, ho⟩ := h.watched d hd u hu x hx
    obtain ⟨i, hi1, hi2, hi3⟩ := (hc (fun _ => hkind)).2 d hd u hu x hx
    rw [hr] at hle
    exact hne (.inr ⟨id, o, x, ho, j, h.start.trans hj, hn, hle, .inr ⟨i, hi1, hi2.trans_le hj, hi3⟩⟩)
  · exact hep (h.epochs d hd)
  · exact hreason hre

/-- The section gave the target up, or never got hold of it. -/
def Dropped (env : Env) (B : Bounds) (c : Watch) (m : Mode) (id : String) (w' : World) : Prop :=
  ∃ t', On env B c { m with pending := false } id t' w'

/-- **`markRecovery`**, and the save after it. -/
theorem On.fenceSave (hE : env.Within B) (h : On env B c m id t w) {r : RecoveryReason} {o : Option String}
    (hlive : t.lifecycle ≠ .targetGone ∨ m.seen) (ho : o.all (B.stored · 192) = true)
    (hslip : Clean w.trace → slips w.trace (.fenced id t r (env.now (w.tick + 1)) o) = false ∨
      c.Excused env (w.tick + 3))
    (hpres : m.seen → c.Excused env (w.tick + 3) ∨
      (r ≠ .drainUncertain ∧ t.inFlight = none ∧ o = none)) :
    ∃ w₁, markRecovery env id r { operationId := o } w = (.ok (), w₁) ∧
      Sat (Good env B c) (saveTerminalControlState env) w₁
        (fun _ w' => ∃ t', On env B c { m with pending := false } id t' w' ∧ Saved id t' w' ∧
          ∃ x y z, t' = t.markRecovery w.mem.controlEpoch r { operationId := o } x y z)
        (fun _ => Dropped env B c m id) := by
  refine ⟨_, markRecovery_eq (h.unique hE) h.get r _, ?_⟩
  have h' := h.fence hE r o hlive ho hslip
  have hadv := (h.ticks 3).advanced hE
    (.fence t w.mem.controlEpoch r { operationId := o } (env.now w.tick) (env.now (w.tick + 1))
      (env.now (w.tick + 2))) (by simp [TargetRecord.fence, TargetRecord.markRecovery])
  refine h'.save hE (p := false) (fun _ => .inr hadv) (by simp [TargetRecord.drainsUntil, TargetRecord.markRecovery])
    (fun hseen => ?_) (fun hs => ⟨_, hs, h'.saved hE (by simp [TargetRecord.markRecovery]), _, _, _, rfl⟩)
    (fun e w' hw => ⟨_, hw⟩)
  rcases hpres hseen with hx | ⟨hre, hin, hop⟩
  · exact .inl hx
  · subst hop
    rcases h.presentable hseen (j := w.tick + 1) (n := w.tick + 3) (Nat.le_succ _) (by omega)
      (r := ⟨r, env.now (w.tick + 1), w.mem.controlEpoch, t.previousOwnerKind, none⟩) rfl rfl rfl hre with hx | hu
    · exact .inl hx
    · refine .inr (.inr (fun hk r hr => ?_))
      obtain rfl : _ = r := Option.some.inj hr
      simp only [hin, Option.map_none] at hu ⊢
      exact hu hk

/-- **`invalidateTarget`**, and the save after it. -/
theorem On.retireSave (hE : env.Within B) (h : On env B c m id t w) (hlive : t.lifecycle ≠ .targetGone)
    (hkind : m.seen → t.lifecycle = .recoveryRequired → t.previousOwnerKind ≠ some .feishu) :
    ∃ w₁, invalidateTarget env id w = (.ok (), w₁) ∧
      Sat (Good env B c) (saveTerminalControlState env) w₁ (fun _ => Dropped env B c m id)
        (fun _ => Dropped env B c m id) := by
  refine ⟨_, invalidateTarget_eq (h.unique hE) h.get, ?_⟩
  have hm := Move.retireAt h.known.2 (env.now w.tick)
  have h' := (h.ticks 1).move hm (Bounds.target_retired (h.bounds hE) (hE.now _)) (.inl hlive)
    (fun hs _ => hkind hs) (.parked (by simp [TargetRecord.invalidateTarget])) (fun hc => .inl ⟨rfl, hc⟩)
  have hadv := (h.ticks 1).advanced hE hm (by simp [TargetRecord.fence, TargetRecord.invalidateTarget])
  exact h'.save hE (p := false) (fun _ => .inr hadv) (by simp [TargetRecord.drainsUntil, TargetRecord.invalidateTarget])
    (fun _ => .inr (.inl (by simp [TargetRecord.invalidateTarget]))) (fun hs => ⟨_, hs⟩) (fun e w' hw => ⟨_, hw⟩)

theorem fenceAndThrow_spec (hE : env.Within B) {Q : α → World → Prop} (h : On env B c m id t w) (hseen : m.seen)
    (hidle : t.inFlight = none) {reason : RecoveryReason} (hr : reason ≠ .drainUncertain) (message : String) :
    Sat (Good env B c) (fenceAndThrow env id reason message) w Q (fun _ => Dropped env B c m id) := by
  obtain ⟨w₁, heq, hs⟩ := h.fenceSave hE (r := reason) (o := none) (.inr hseen) rfl
    (fun _ => h.unslipped hseen (Nat.le_succ _) (by omega) _ _) (fun _ => .inr ⟨hr, hidle, rfl⟩)
  exact Sat.next heq (Sat.step hs (fun _ _ ⟨t', h', _⟩ => Sat.throw ⟨t', h'⟩))

theorem retireAndThrow_spec (hE : env.Within B) {Q : α → World → Prop} (h : On env B c m id t w)
    (hlive : t.lifecycle ≠ .targetGone)
    (hkind : m.seen → t.lifecycle = .recoveryRequired → t.previousOwnerKind ≠ some .feishu) (message : String) :
    Sat (Good env B c) (retireAndThrow env id message) w Q (fun _ => Dropped env B c m id) := by
  obtain ⟨w₁, heq, hs⟩ := h.retireSave hE hlive hkind
  exact Sat.next heq (Sat.step hs (fun _ _ h' => Sat.throw h'))

end Terminal
end TmuxWorktree
