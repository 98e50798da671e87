import TmuxWorktree.Terminal.Protocol
/-!
# Shape — the representation invariant of the persisted state

`Shape` is what every record satisfies and `WellFormed` what every state does; both are preserved by every step of the
protocol.  `parseTerminalControlState` checks a part of this, and with the bounds of `store.ts` it accepts all of it.
-/
namespace TmuxWorktree
namespace Terminal

/-- **The fields that go together in a record.** -/
structure Shape (t : TargetRecord) : Prop where
  recovery_iff : t.lifecycle = .recoveryRequired ↔ t.recovery.isSome = true
  free : t.lifecycle ≠ .active → t.ownership.isFree = true
  idle : t.lifecycle ≠ .active → t.inFlight = none
  journal : t.lifecycle = .targetGone → t.completedOperations = []
  nodup : t.operationIds.Nodup
  started : ∀ op ∈ t.inFlight, op.operationId ∉ t.operationIds

def UniqueNames (s : ControlState) : Prop :=
  ∀ t ∈ s.targets, ∀ u ∈ s.targets, t.lifecycle ≠ .targetGone → u.lifecycle ≠ .targetGone →
    t.managedSession.name = u.managedSession.name → t.controlTargetId = u.controlTargetId

/-- **The representation invariant.** -/
structure WellFormed (B : Bounds) (s : ControlState) : Prop where
  epoch : B.stored s.controlEpoch 128 = true
  ids : s.UniqueIds
  names : UniqueNames s
  shape : ∀ t ∈ s.targets, Shape t
  bounds : ∀ t ∈ s.targets, B.target t = true

/-! ## Records -/

namespace TargetRecord

theorem operationIds_appendOperation (t : TargetRecord) (op : OperationRecord) :
    (t.appendOperation op).operationIds.Sublist (t.operationIds ++ [op.operationId]) := by
  unfold appendOperation operationIds
  have hmap : t.completedOperations.map (·.operationId) ++ [op.operationId] =
      (t.completedOperations ++ [op]).map (·.operationId) := by simp
  rw [hmap]
  dsimp only
  split
  · exact List.Sublist.refl _
  · exact (List.eraseIdx_sublist _ _).map _

theorem nodup_appendOperation {t : TargetRecord} {op : OperationRecord} (hn : t.operationIds.Nodup)
    (hop : op.operationId ∉ t.operationIds) : (t.appendOperation op).operationIds.Nodup := by
  refine (operationIds_appendOperation t op).nodup ?_
  rw [List.nodup_append]
  refine ⟨hn, by simp, fun a ha b hb => ?_⟩
  rw [List.mem_singleton.1 hb]
  exact fun he => hop (he ▸ ha)

theorem nodup_completeInFlightAsInDoubt {t : TargetRecord} (h : Shape t) (completedAt : Int) :
    (t.completeInFlightAsInDoubt completedAt).operationIds.Nodup := by
  unfold completeInFlightAsInDoubt
  cases hin : t.inFlight with
  | none => exact h.nodup
  | some op => exact nodup_appendOperation h.nodup (h.started op hin)

end TargetRecord

theorem Shape.markRecovery {t : TargetRecord} (h : Shape t) (epoch : String) (reason : RecoveryReason)
    (options : TargetRecord.RecoveryOptions) (a b c : Int) : Shape (t.markRecovery epoch reason options a b c) where
  recovery_iff := by simp [TargetRecord.markRecovery]
  free := by simp [TargetRecord.markRecovery]
  idle := by
    intro _
    simp only [TargetRecord.markRecovery, TargetRecord.completeInFlightAsInDoubt]
    split <;> simp_all
  journal := by simp [TargetRecord.markRecovery]
  nodup := TargetRecord.nodup_completeInFlightAsInDoubt h a
  started := by
    intro op hop
    have : (t.markRecovery epoch reason options a b c).inFlight = none := by
      simp only [TargetRecord.markRecovery, TargetRecord.completeInFlightAsInDoubt]
      split <;> simp_all
    rw [this] at hop
    cases hop

theorem Shape.invalidateTarget {t : TargetRecord} (u : Int) : Shape (t.invalidateTarget u) := by
  constructor <;> simp [TargetRecord.invalidateTarget, TargetRecord.operationIds]

theorem Move.shape {t t' : TargetRecord} {events : List Event} (hm : Move t events t') (h : Shape t) : Shape t' := by
  cases hm with
  | touch g r u => exact ⟨h.recovery_iff, h.free, h.idle, h.journal, h.nodup, h.started⟩
  | fence epoch reason options a b c => exact h.markRecovery epoch reason options a b c
  | retire u => exact Shape.invalidateTarget u
  | grant owner leaseId x r u ha =>
    exact ⟨h.recovery_iff, fun hn => absurd ha hn, h.idle, h.journal, h.nodup, h.started⟩
  | free r u ha => exact ⟨h.recovery_iff, fun hn => absurd ha hn, h.idle, h.journal, h.nodup, h.started⟩
  | sameLease o r u ha hf hl ho =>
    exact ⟨h.recovery_iff, fun hn => absurd ha hn, h.idle, h.journal, h.nodup, h.started⟩
  | reconcile r u hauto =>
    exact ⟨by simp, fun hn => absurd rfl hn, fun hn => absurd rfl hn, fun hg => by simp at hg, h.nodup, h.started⟩
  | acknowledge r u hx =>
    exact ⟨by simp, fun hn => absurd rfl hn, fun hn => absurd rfl hn, fun hg => by simp at hg, h.nodup, h.started⟩
  | force owner leaseId x r u hr =>
    exact ⟨by simp, fun hn => absurd rfl hn, fun hn => absurd rfl hn, fun hg => by simp at hg, h.nodup, h.started⟩
  | start op r u ha hn hf =>
    refine ⟨h.recovery_iff, h.free, fun hne => absurd ha hne, h.journal, h.nodup, fun o ho => ?_⟩
    have : op = o := by simpa using ho
    exact this ▸ hf
  | abandon op hop => exact ⟨h.recovery_iff, h.free, fun _ => rfl, h.journal, h.nodup, fun o ho => by cases ho⟩
  | commit op record hop hid =>
    have hact : t.lifecycle = .active := Classical.byContradiction (fun hne => by simp [h.idle hne] at hop)
    have hlife : (t.appendOperation record).lifecycle = t.lifecycle := by
      unfold TargetRecord.appendOperation; dsimp only; split <;> rfl
    have hrec : (t.appendOperation record).recovery = t.recovery := by
      unfold TargetRecord.appendOperation; dsimp only; split <;> rfl
    refine ⟨?_, ?_, fun _ => rfl, ?_, ?_, fun o ho => by cases ho⟩
    · simpa only [hlife, hrec] using h.recovery_iff
    · exact fun hne => absurd (hlife.trans hact) hne
    · intro hg
      simp [hlife, hact] at hg
    · exact TargetRecord.nodup_appendOperation h.nodup (hid ▸ h.started op hop)

theorem Move.frame {t t' : TargetRecord} {events : List Event} (hm : Move t events t') :
    t'.controlTargetId = t.controlTargetId ∧ t'.managedSession = t.managedSession := by
  cases hm with
  | fence epoch reason options a b c =>
    simp only [TargetRecord.markRecovery, TargetRecord.completeInFlightAsInDoubt, TargetRecord.appendOperation]
    split <;> (try split) <;> exact ⟨rfl, rfl⟩
  | commit op record hop hid =>
    simp only [TargetRecord.appendOperation]
    split <;> exact ⟨rfl, rfl⟩
  | _ => exact ⟨rfl, rfl⟩

/-! ## States -/

theorem WellFormed.get {B : Bounds} {s : ControlState} (h : WellFormed B s) {t : TargetRecord} (ht : t ∈ s.targets) :
    s.get? t.controlTargetId = some t := ControlState.get?_eq_of_mem h.ids ht

theorem WellFormed.compact {B : Bounds} {s : ControlState} (h : WellFormed B s) : WellFormed B (compact s) where
  epoch := h.epoch
  ids := (ids_compact_sublist s).nodup h.ids
  names := by
    intro t ht u hu hgt hgu hn
    obtain ⟨t0, ht0, ⟨-, rfl⟩ | ⟨hg, rfl⟩⟩ := mem_compact ht
    · obtain ⟨u0, hu0, ⟨-, rfl⟩ | ⟨hg, rfl⟩⟩ := mem_compact hu
      · exact h.names _ ht0 _ hu0 hgt hgu hn
      · exact absurd hg hgu
    · exact absurd hg hgt
  shape := by
    intro t ht
    obtain ⟨t0, ht0, ⟨-, rfl⟩ | ⟨hg, rfl⟩⟩ := mem_compact ht
    · exact h.shape _ ht0
    · have hs := h.shape _ ht0
      have hidle := hs.idle (by rw [hg]; decide)
      exact ⟨hs.recovery_iff, hs.free, hs.idle, fun _ => rfl, List.nodup_nil, fun o ho => by simp [hidle] at ho⟩
  bounds := by
    intro t ht
    obtain ⟨t0, ht0, ⟨-, rfl⟩ | ⟨-, rfl⟩⟩ := mem_compact ht
    · exact h.bounds _ ht0
    · have hb := h.bounds _ ht0
      simp only [Bounds.target, Bool.and_eq_true, List.all_nil] at hb ⊢
      tauto

theorem WellFormed.update {B : Bounds} {s : ControlState} (h : WellFormed B s) {t t' : TargetRecord}
    (hget : s.get? t.controlTargetId = some t) (hid : t'.controlTargetId = t.controlTargetId)
    (hname : t'.managedSession = t.managedSession) (hs : Shape t') (hB : B.target t' = true)
    (halone : t.lifecycle = .targetGone → t'.lifecycle ≠ .targetGone → Alone s t) :
    WellFormed B (s.update t.controlTargetId (fun _ => t')) := by
  have hmem : t ∈ s.targets := (ControlState.get?_mem hget).1
  have hcase : ∀ u ∈ (s.update t.controlTargetId (fun _ => t')).targets,
      u = t' ∨ (u ∈ s.targets ∧ u.controlTargetId ≠ t.controlTargetId) := by
    intro u hu
    rcases ControlState.mem_update hu with ⟨v, -, -, rfl⟩ | hv
    · exact .inl rfl
    · exact .inr hv
  -- two live records of one name: the replaced one stands for the record it replaces
  have hnames : ∀ u ∈ s.targets, u.lifecycle ≠ .targetGone → t'.lifecycle ≠ .targetGone →
      u.managedSession.name = t'.managedSession.name → u.controlTargetId = t.controlTargetId := by
    intro u hu hgu hgt' hn
    rw [hname] at hn
    by_cases hg : t.lifecycle = .targetGone
    · exact halone hg hgt' u hu hgu hn
    · exact h.names u hu t hmem hgu hg hn
  refine ⟨h.epoch, ?_, ?_, ?_, ?_⟩
  · unfold ControlState.UniqueIds
    rw [ControlState.map_id_update (fun u _ hu => by rw [hid, hu])]
    exact h.ids
  · intro u hu v hv hgu hgv hn
    rcases hcase u hu with rfl | ⟨hus, -⟩ <;> rcases hcase v hv with rfl | ⟨hvs, -⟩
    · rfl
    · exact hid.trans (hnames v hvs hgv hgu hn.symm).symm
    · exact (hnames u hus hgu hgv hn).trans hid.symm
    · exact h.names u hus v hvs hgu hgv hn
  · intro u hu
    rcases hcase u hu with rfl | ⟨hus, -⟩
    · exact hs
    · exact h.shape u hus
  · intro u hu
    rcases hcase u hu with rfl | ⟨hus, -⟩
    · exact hB
    · exact h.bounds u hus

theorem WellFormed.push {B : Bounds} {s : ControlState} (h : WellFormed B s) {id generation : String}
    {session : ManagedSession} {tmuxInstanceId : String} {u : Int}
    (hfresh : ∀ t ∈ s.targets, t.controlTargetId ≠ id)
    (hB : B.target (newTarget id generation session tmuxInstanceId u) = true)
    (hname : ∀ t ∈ s.targets, t.lifecycle ≠ .targetGone → t.managedSession.name ≠ session.name) :
    WellFormed B (s.push (newTarget id generation session tmuxInstanceId u)) := by
  have hcase : ∀ t ∈ (s.push (newTarget id generation session tmuxInstanceId u)).targets,
      t ∈ s.targets ∨ t = newTarget id generation session tmuxInstanceId u := by
    intro t ht
    simpa [ControlState.push] using ht
  refine ⟨h.epoch, ?_, ?_, ?_, ?_⟩
  · simp only [ControlState.UniqueIds, ControlState.push, List.map_append, List.map_cons, List.map_nil]
    rw [List.nodup_append]
    refine ⟨h.ids, by simp, fun a ha b hb => ?_⟩
    obtain ⟨t, ht, rfl⟩ := List.mem_map.1 ha
    rw [List.mem_singleton.1 hb]
    exact hfresh t ht
  · intro t ht v hv hgt hgv hn
    rcases hcase t ht with hts | rfl <;> rcases hcase v hv with hvs | rfl
    · exact h.names t hts v hvs hgt hgv hn
    · exact absurd hn (hname t hts hgt)
    · exact absurd hn.symm (hname v hvs hgv)
    · rfl
  · intro t ht
    rcases hcase t ht with hts | rfl
    · exact h.shape t hts
    · constructor <;> simp [newTarget, TargetRecord.operationIds]
  · intro t ht
    rcases hcase t ht with hts | rfl
    · exact h.bounds t hts
    · exact hB

/-! ## Restart -/

theorem restartTarget_eq (epoch : String) (a b c : Int) (t : TargetRecord) :
    restartTarget epoch a b c t = (t, []) ∨
      ∃ reason, restartReason t = some reason ∧ restartTarget epoch a b c t =
        (t.markRecovery epoch reason { previousControlEpoch := some epoch } a b c,
          t.fenceEvents reason { previousControlEpoch := some epoch } a b) := by
  unfold restartTarget
  cases restartReason t with
  | none => exact .inl rfl
  | some reason => exact .inr ⟨reason, rfl, rfl⟩

theorem mem_restartTargets {env : Env} {epoch : String} {ts : List TargetRecord} {tick : Nat} {t' : TargetRecord}
    (h : t' ∈ (restartTargets env epoch tick ts).1) : ∃ t ∈ ts, ∃ a b c, t' = (restartTarget epoch a b c t).1 := by
  induction ts generalizing tick with
  | nil => simp [restartTargets] at h
  | cons t ts ih =>
    simp only [restartTargets, List.mem_cons] at h
    rcases h with h | h
    · exact ⟨t, List.mem_cons_self, _, _, _, h⟩
    · obtain ⟨u, hu, a, b, c, hc⟩ := ih h
      exact ⟨u, List.mem_cons_of_mem _ hu, a, b, c, hc⟩

theorem restartTarget_frame (epoch : String) (a b c : Int) (t : TargetRecord) :
    (restartTarget epoch a b c t).1.controlTargetId = t.controlTargetId ∧
      (restartTarget epoch a b c t).1.managedSession = t.managedSession := by
  rcases restartTarget_eq epoch a b c t with h | ⟨reason, -, h⟩
  · rw [h]; exact ⟨rfl, rfl⟩
  · rw [h]; exact (Move.fence t epoch reason _ a b c).frame

theorem restartTarget_shape {t : TargetRecord} (h : Shape t) (epoch : String) (a b c : Int) :
    Shape (restartTarget epoch a b c t).1 := by
  rcases restartTarget_eq epoch a b c t with he | ⟨reason, -, he⟩
  · rw [he]; exact h
  · rw [he]; exact h.markRecovery epoch reason _ a b c

theorem restartTarget_gone (epoch : String) (a b c : Int) (t : TargetRecord) :
    (restartTarget epoch a b c t).1.lifecycle = .targetGone ↔ t.lifecycle = .targetGone := by
  rcases restartTarget_eq epoch a b c t with h | ⟨reason, hr, h⟩
  · rw [h]
  · rw [h]
    have hact : t.lifecycle = .active := by
      by_contra hne
      simp [restartReason, hne] at hr
    simp [TargetRecord.markRecovery, hact]

theorem ids_restartTargets {env : Env} {epoch : String} : ∀ (ts : List TargetRecord) (tick : Nat),
    (restartTargets env epoch tick ts).1.map (·.controlTargetId) = ts.map (·.controlTargetId)
  | [], _ => rfl
  | t :: ts, tick => by
    simp only [restartTargets, List.map_cons, ids_restartTargets ts (tick + 3)]
    rw [(restartTarget_frame epoch _ _ _ t).1]

theorem WellFormed.restart {B : Bounds} {s : ControlState} (h : WellFormed B s) (env : Env) (tick : Nat) {epoch : String}
    (hB : B.stored epoch 128 = true)
    (hBt : ∀ t ∈ (restartTargets env s.controlEpoch tick s.targets).1, B.target t = true) :
    WellFormed B ⟨epoch, (restartTargets env s.controlEpoch tick s.targets).1⟩ := by
  refine ⟨hB, ?_, ?_, ?_, hBt⟩
  · unfold ControlState.UniqueIds
    rw [ids_restartTargets]
    exact h.ids
  · intro t ht u hu hgt hgu hn
    obtain ⟨t0, ht0, a, b, c, rfl⟩ := mem_restartTargets ht
    obtain ⟨u0, hu0, a', b', c', rfl⟩ := mem_restartTargets hu
    rw [(restartTarget_frame _ _ _ _ t0).2, (restartTarget_frame _ _ _ _ u0).2] at hn
    rw [(restartTarget_frame _ _ _ _ t0).1, (restartTarget_frame _ _ _ _ u0).1]
    exact h.names t0 ht0 u0 hu0 (fun hg => hgt ((restartTarget_gone _ _ _ _ t0).2 hg))
      (fun hg => hgu ((restartTarget_gone _ _ _ _ u0).2 hg)) hn
  · intro t ht
    obtain ⟨t0, ht0, a, b, c, rfl⟩ := mem_restartTargets ht
    exact restartTarget_shape (h.shape t0 ht0) _ _ _ _

/-! ## Known ids -/

/-- **No record, lease or write is about an id that was never created.** -/
structure Ledger.Known (l : Ledger) : Prop where
  mem : ∀ t ∈ l.mem.targets, Event.created t.controlTargetId ∈ l.trace
  disk : ∀ d ∈ l.disk, ∀ t ∈ d.targets, Event.created t.controlTargetId ∈ l.trace
  trace : ∀ e ∈ l.trace, ∀ id, e.names id → Event.created id ∈ l.trace

theorem evictions_names {t : TargetRecord} {op : OperationRecord} {e : Event} (he : e ∈ t.evictions op) {id : String}
    (h : e.names id) : id = t.controlTargetId := by
  simp only [TargetRecord.evictions, Option.mem_toList, Option.map_eq_some_iff] at he
  obtain ⟨d, -, rfl⟩ := he
  exact h.symm

theorem fenceEvents_names {t : TargetRecord} {reason : RecoveryReason} {options : TargetRecord.RecoveryOptions}
    {a b : Int} {e : Event} (he : e ∈ t.fenceEvents reason options a b) {id : String} (h : e.names id) :
    id = t.controlTargetId := by
  rcases List.mem_cons.1 he with rfl | he
  · exact h.symm
  · unfold TargetRecord.inDoubtEvictions at he
    split at he
    · cases he
    · exact evictions_names he h

theorem Move.names {t t' : TargetRecord} {events : List Event} (hm : Move t events t') {e : Event} (he : e ∈ events)
    {id : String} (h : e.names id) : id = t.controlTargetId := by
  cases hm with
  | fence epoch reason options a b c => exact fenceEvents_names he h
  | commit op record hop hid => exact evictions_names he h
  | retire | reconcile | acknowledge | force | start | abandon =>
    obtain rfl := List.mem_singleton.1 he
    exact h.symm
  | touch | grant | free | sameLease => cases he

theorem restartTargets_names {env : Env} {epoch : String} : ∀ (ts : List TargetRecord) (tick : Nat),
    ∀ e ∈ (restartTargets env epoch tick ts).2, ∀ id, e.names id → ∃ t ∈ ts, t.controlTargetId = id
  | [], _ => fun _ he => by cases he
  | t :: ts, tick => by
    intro e he id hn
    simp only [restartTargets, List.mem_append] at he
    rcases he with he | he
    · obtain ⟨u, hu, hid⟩ := restartTargets_names ts (tick + 3) e he id hn
      exact ⟨u, List.mem_cons_of_mem _ hu, hid⟩
    · rcases restartTarget_eq epoch (env.now tick) (env.now (tick + 1)) (env.now (tick + 2)) t with h | ⟨reason, -, h⟩
      · rw [h] at he; cases he
      · rw [h] at he; exact ⟨t, List.mem_cons_self, (fenceEvents_names he hn).symm⟩

theorem Ledger.Notes.names {l : Ledger} {e : Event} (h : l.Notes e) {id : String} (hn : e.names id) :
    (∃ t ∈ l.mem.targets, t.controlTargetId = id) ∨ ∃ e' ∈ l.trace, e'.names id := by
  have found : ∀ {t}, l.mem.get? id = some t → ∃ t ∈ l.mem.targets, t.controlTargetId = id := fun hget =>
    ⟨_, ControlState.get?_mem hget⟩
  cases e with
  | issued lease =>
    obtain rfl : lease.controlTargetId = id := hn
    rcases h with ⟨⟨t, o, hget, -⟩, -⟩ | ⟨first, hfirst, heq, -⟩
    · exact .inl (found hget)
    · exact .inr ⟨_, hfirst, by rw [heq]; rfl⟩
  | validated target lease agrees accepted =>
    obtain rfl : target = id := hn
    obtain ⟨⟨t, hget, -⟩, -⟩ := h
    exact .inl (found hget)
  | write target operationId kind owner fence returned =>
    obtain rfl : target = id := hn
    obtain ⟨-, -, d, t, op, -, -, hget, -⟩ := h
    exact .inl (found hget)
  | released target owner =>
    obtain rfl : target = id := hn
    exact .inl h
  | rebound target owner =>
    obtain rfl : target = id := hn
    obtain ⟨first, hfirst, rfl⟩ := h
    exact .inr ⟨_, hfirst, rfl⟩
  | saved | created | started | provenNotApplied | evicted | retired | fenced | activated => exact h.elim
  | saveFailed | saveRejected | restarted => exact hn.elim

theorem LedgerStep.known {B : Bounds} {l l' : Ledger} (h : l.Known) (hs : LedgerStep B l l') : l'.Known := by
  cases hs with
  | load s hd => exact ⟨h.disk s hd, h.disk, h.trace⟩
  | create epoch hd hB => exact ⟨fun _ ht => (List.not_mem_nil ht).elim, h.disk, h.trace⟩
  | move t events t' hepoch hget hmove hB halone =>
    have hid : ∀ id, Event.created id ∈ l.trace → Event.created id ∈ events ++ l.trace := fun _ =>
      List.mem_append_right _
    refine ⟨fun u hu => hid _ ?_, fun d hd u hu => hid _ (h.disk d hd u hu), fun e he id hn => hid _ ?_⟩
    · rcases ControlState.mem_update hu with ⟨v, hv, hve, rfl⟩ | ⟨hus, -⟩
      · rw [hmove.frame.1]; exact h.mem t (ControlState.get?_mem hget).1
      · exact h.mem u hus
    · rcases List.mem_append.1 he with he | he
      · rw [hmove.names he hn]; exact h.mem t (ControlState.get?_mem hget).1
      · exact h.trace e he id hn
  | push id generation session tmux u hfresh hB hname =>
    refine ⟨fun t ht => ?_, fun d hd t ht => List.mem_cons_of_mem _ (h.disk d hd t ht), fun e he id' hn => ?_⟩
    · rcases List.mem_append.1 ht with ht | ht
      · exact List.mem_cons_of_mem _ (h.mem t ht)
      · rw [List.mem_singleton.1 ht]; exact List.mem_cons_self
    · rcases List.mem_cons.1 he with rfl | he
      · obtain rfl : id = id' := hn
        exact List.mem_cons_self
      · exact List.mem_cons_of_mem _ (h.trace e he id' hn)
  | restart env tick epoch hload hB hBt =>
    have hid : ∀ id, Event.created id ∈ l.trace → Event.created id ∈
        (restartTargets env l.mem.controlEpoch tick l.mem.targets).2 ++ l.trace := fun _ => List.mem_append_right _
    refine ⟨fun t ht => hid _ ?_, fun d hd u hu => hid _ (h.disk d hd u hu), fun e he id hn => hid _ ?_⟩
    · obtain ⟨t0, ht0, a, b, c, rfl⟩ := mem_restartTargets ht
      rw [(restartTarget_frame _ a b c t0).1]
      exact h.mem t0 ht0
    · rcases List.mem_append.1 he with he | he
      · obtain ⟨t, ht, rfl⟩ := restartTargets_names _ _ e he id hn
        exact h.mem t ht
      · exact h.trace e he id hn
  | save =>
    have hc : ∀ t ∈ (compact l.mem).targets, Event.created t.controlTargetId ∈ l.trace := fun t ht => by
      obtain ⟨u, hu, ⟨-, he⟩ | ⟨-, he⟩⟩ := mem_compact ht <;> rw [he] <;> exact h.mem u hu
    refine ⟨fun t ht => List.mem_cons_of_mem _ (h.mem t ht), fun d hd t ht => List.mem_cons_of_mem _ ?_,
      fun e he id hn => List.mem_cons_of_mem _ ?_⟩
    · obtain rfl : compact l.mem = d := by simpa using hd
      exact hc t ht
    · rcases List.mem_cons.1 he with rfl | he
      · obtain ⟨t, ht, rfl⟩ := hn
        exact hc t ht
      · exact h.trace e he id hn
  | note e he =>
    refine ⟨fun t ht => List.mem_cons_of_mem _ (h.mem t ht), fun d hd t ht => List.mem_cons_of_mem _ (h.disk d hd t ht),
      fun e' he' id hn => List.mem_cons_of_mem _ ?_⟩
    rcases List.mem_cons.1 he' with rfl | he'
    · rcases he.names hn with ⟨t, ht, rfl⟩ | ⟨e', he', hn'⟩
      · exact h.mem t ht
      · exact h.trace e' he' id hn'
    · exact h.trace e' he' id hn
  | reset =>
    refine ⟨fun _ ht => (List.not_mem_nil ht).elim, fun d hd t ht => List.mem_cons_of_mem _ (h.disk d hd t ht),
      fun e he id hn => List.mem_cons_of_mem _ ?_⟩
    rcases List.mem_cons.1 he with rfl | he
    · exact hn.elim
    · exact h.trace e he id hn

theorem Ledger.Reachable.known {B : Bounds} {l : Ledger} (h : l.Reachable B) : l.Known :=
  h.induct ⟨fun _ ht => (List.not_mem_nil ht).elim, fun _ hd => (Option.not_mem_none _ hd).elim,
    fun _ he => (List.not_mem_nil he).elim⟩ (fun _ _ _ hl hs => hs.known hl)

/-! ## What a save accepts -/

theorem isTarget_of_shape {t : TargetRecord} (hs : Shape t) (hb : storeBounds.target t = true) : isTarget t = true := by
  have hr := hs.recovery_iff
  unfold isTarget
  simp only [Bool.and_eq_true, decide_eq_true_eq]
  refine ⟨⟨⟨⟨⟨hb, hs.nodup⟩, ?_⟩, ?_⟩, ?_⟩, ?_⟩
  · cases hi : t.inFlight with
    | none => rfl
    | some op => simpa using hs.started op hi
  · cases hrec : t.recovery <;> simp_all
  · cases hrec : t.recovery <;> simp_all
  · by_cases ha : t.lifecycle = .active
    · simp [ha]
    · simp [hs.free ha]

/-- **A well-formed state passes the checks of a save.** -/
theorem WellFormed.parse {s : ControlState} (h : WellFormed storeBounds s) : parseTerminalControlState s = .ok s := by
  have he : isStoredString s.controlEpoch 128 = true := h.epoch
  have ht : s.targets.any (fun t => !isTarget t) = false := by
    simpa using fun t ht => isTarget_of_shape (h.shape t ht) (h.bounds t ht)
  unfold parseTerminalControlState
  rw [if_neg (by simp [he]), if_neg (by simp [ht]), if_neg (by simpa [ControlState.UniqueIds] using h.ids)]

/-! ## The ledger -/

/-- The section's copy and the state file are well formed. -/
structure Ledger.WellFormed (B : Bounds) (l : Ledger) : Prop where
  mem : Terminal.WellFormed B l.mem
  disk : ∀ d ∈ l.disk, Terminal.WellFormed B d

theorem wellFormed_empty {B : Bounds} {epoch : String} (h : B.stored epoch 128 = true) :
    WellFormed B ⟨epoch, []⟩ :=
  ⟨h, List.nodup_nil, fun _ ht => (List.not_mem_nil ht).elim, fun _ ht => (List.not_mem_nil ht).elim,
    fun _ ht => (List.not_mem_nil ht).elim⟩

theorem LedgerStep.wellFormed {B : Bounds} (hB : B.stored "-" 128 = true) {l l' : Ledger} (hk : l.Known)
    (h : l.WellFormed B) (hs : LedgerStep B l l') : l'.WellFormed B := by
  cases hs with
  | load s hd => exact ⟨h.disk s hd, h.disk⟩
  | create epoch hd hB => exact ⟨wellFormed_empty hB, h.disk⟩
  | move t events t' hepoch hget hmove hB halone =>
    refine ⟨h.mem.update hget hmove.frame.1 hmove.frame.2 ?_ hB halone, h.disk⟩
    exact hmove.shape (h.mem.shape t (ControlState.get?_mem hget).1)
  | push id generation session tmux u hfresh hB hname =>
    exact ⟨h.mem.push (fun t ht he => hfresh (he ▸ hk.mem t ht)) hB hname, h.disk⟩
  | restart env tick epoch hload hB hBt => exact ⟨h.mem.restart env tick hB hBt, h.disk⟩
  | save =>
    refine ⟨h.mem, fun d hd => ?_⟩
    have : compact l.mem = d := by simpa using hd
    exact this ▸ h.mem.compact
  | note e he => exact ⟨h.mem, h.disk⟩
  | reset => exact ⟨wellFormed_empty hB, h.disk⟩

/-- **Every reachable ledger is well formed**, on disk and in the section. -/
theorem Ledger.Reachable.wellFormed {B : Bounds} (hB : B.stored "-" 128 = true) {l : Ledger} (h : l.Reachable B) :
    l.WellFormed B :=
  h.induct ⟨wellFormed_empty hB, fun _ hd => (Option.not_mem_none _ hd).elim⟩
    (fun _ _ hr hl hs => hs.wellFormed hB hr.known hl)

end Terminal
end TmuxWorktree
