import TmuxWorktree.Stream.Walk
/-!
# Ops — the operations of the manager make moves

`Walk` goes on through the operations: sweeps, requests, control frames and opens.  An open that publishes a new
generation and a chunk from a backend make the two kinds of steps that are not moves.
-/
namespace TmuxWorktree
namespace Stream

open Effect

def Step (C : Config) (m m' : Manager) : Prop := Change C m m' ∨ Birth C m m' ∨ Intake m m'

/-- **Any number of steps**, after which every loss has been seen through. -/
structure Steps (C : Config) (m m' : Manager) : Prop where
  path : Relation.ReflTransGen (Step C) m m'
  tidy : Tidy m m'

variable {C : Config} {α : Type}

namespace Steps

theorem refl {m : Manager} : Steps C m m := ⟨.refl, Tidy.rfl⟩

theorem trans {m m' m'' : Manager} (h : Steps C m m') (h' : Steps C m' m'') : Steps C m m'' :=
  ⟨h.path.trans h'.path, h.tidy.trans h'.tidy⟩

theorem birth {m m' : Manager} (h : Birth C m m') : Steps C m m' := by
  refine ⟨.single (.inr (.inl h)), ?_, fun hf => hf.birth h, fun key _ hc => .inl ?_⟩
  · cases h
    exact ⟨rfl, le_rfl⟩
  · cases h with
    | @publish r generation canonicalBinding tokenHash t _ _ =>
      intro s hs hlost
      by_cases hk : key = r.key
      · cases hk
        cases (stream_put_self (newStream C r generation canonicalBinding tokenHash t)).symm.trans hs
        cases hlost
      · exact hc s ((stream_put_ne hk).symm.trans hs) hlost

theorem intake {m m' : Manager} (h : Intake m m') : Steps C m m' := by
  refine ⟨.single (.inr (.inr h)), ?_, fun hf => hf.intake h, fun key _ hc => .inl ?_⟩
  · cases h with
    | deliver | settle => exact ⟨rfl, le_rfl⟩
    | append => unfold Manager.appendRing; split <;> exact ⟨rfl, le_rfl⟩
  · cases h with
    | deliver | settle => exact hc
    | append =>
      intro s hs
      rw [stream_appendRing] at hs
      rcases stream_update_cases hs fun _ => rfl with ⟨_, hs⟩ | ⟨rfl, s₀, hs₀, rfl⟩
      · exact hc s hs
      · exact hc s₀ hs₀

end Steps

instance : Std.Refl (Steps C) := ⟨fun _ => .refl⟩
instance : IsTrans Manager (Steps C) := ⟨fun _ _ _ => Steps.trans⟩

theorem Moves.steps {m m' : Manager} (h : Moves C m m') : Steps C m m' :=
  ⟨Relation.ReflTransGen.mono (fun _ _ h => Or.inl h) _ _ h.path, h.tidy⟩

/-! ## Closing and sweeping -/

theorem commit_moves {L : Limits} {t : Nat} {reason : CloseReason} {exitCode : Option Int} {s : TerminalStream}
    (h : s.status ≠ .lost) : StreamMove s (s.commit L t reason exitCode) := by
  unfold TerminalStream.commit
  split
  · exact .stay ⟨rfl, rfl, rfl, rfl⟩ rfl rfl rfl (controlMove_rfl _)
  · rename_i hnone
    exact .commit ⟨rfl, rfl, rfl, rfl⟩ h (Option.not_isSome_iff_eq_none.mp hnone) rfl ⟨_, rfl, rfl⟩ rfl rfl

theorem commit_key {L : Limits} {t : Nat} {reason : CloseReason} {exitCode : Option Int} (s : TerminalStream) :
    (s.commit L t reason exitCode).key = s.key := by
  unfold TerminalStream.commit
  split <;> rfl

/-- The stream at `key`, if there is one, is not lost. -/
def Alive (key : StreamKey) (m : Manager) : Prop := ∀ s, m.stream key = some s → s.status ≠ .lost

theorem Alive.calm {key : StreamKey} {m m' : Manager} (h : Alive key m) (hc : Calm m m') : Alive key m' := by
  intro s' hs'
  have hk := hc key
  rw [hs', Option.map_some] at hk
  obtain ⟨s, hs, hface⟩ := Option.map_eq_some_iff.mp hk.symm
  rw [show s'.status = s.status from (congrArg Face.status hface).symm]
  exact h s hs

theorem still_alive {x : Act α} {m : Manager} {key : StreamKey} [Along (Still C) x] (h : Alive key m) :
    Walks C x m (fun _ => Alive key) (fun _ => True) := .of_still (fun _ _ hc => h.calm hc) fun _ _ => trivial

theorem commitTerminalCondition_walks {m : Manager} {key : StreamKey} (h : Alive key m) (L : Limits)
    (reason : CloseReason) (exitCode : Option Int) :
    Walks C (commitTerminalCondition L key reason exitCode) m (fun _ _ => True) (fun _ => True) := by
  refine .streamAt ?_
  split
  · exact .now fun t => .modify (.single (.stream commit_key fun s hs => commit_moves (h s hs))) .rest
  · exact .pure trivial

theorem settleBackendClosed_walks {m : Manager} {key : StreamKey} (h : Alive key m)
    (result : CloseReason × Option Int) :
    Walks C (settleBackendClosed C.limits key result) m (fun _ _ => True) (fun _ => True) := by
  have hnote : Along (Still C) (update key fun s => { s with backend := false, backendPaused := false }) :=
    update_still (fun _ => rfl) (fun _ => rfl) (fun _ => rfl)
  have hmap : Along (Moves C) (mapBinding key fun b => { b with closeNotification := true, closeNotified := false }) :=
    mapBinding_moves fun _ => ⟨rfl, rfl, rfl, rfl⟩
  refine .seq (still_alive h) fun _ _ _ h => .seq (still_alive h) fun _ _ _ h => .seq (still_alive h) fun _ _ _ h =>
    .seq (commitTerminalCondition_walks h C.limits result.1 result.2) fun _ _ _ _ => .streamAt ?_
  split <;> exact .rest

theorem markStreamClosed_walks {m : Manager} (L : Limits) (key : StreamKey) :
    Walks C (markStreamClosed L key) m (fun marked m' => marked = true → Calm m m') (fun _ => True) := by
  refine .await trivial fun a => ?_
  split
  · exact .pure fun _ => (quiet_tick m).calm
  · exact .seq .rest fun _ _ _ _ => .seq .rest fun _ _ _ _ => .pure fun h => nomatch h

instance backendClosed_moves (key : StreamKey) (generation : Nat) (reason : CloseReason) (exitCode : Option Int) :
    Along (Moves C) (backendClosed C.limits key generation reason exitCode) := by
  refine along_of_walks fun m => .streamAt ?_
  split
  · rename_i hany
    have halive : Alive key m := by
      intro s hs hlost
      rw [hs, Option.any_some, hlost] at hany
      simp at hany
    refine .seq (.attempt (Q := fun marked m' => marked = .ok true → Calm m m') ?_) fun marked m₁ _ hm => ?_
    · refine (markStreamClosed_walks C.limits key).mono (fun marked m' h heq => h ?_) fun _ _ _ h => nomatch h
      cases heq
      rfl
    · rcases marked with e | _ | _
      · exact .rest
      · exact .pure trivial
      · exact .seq (settleBackendClosed_walks (halive.calm (hm rfl)) _) fun _ _ _ _ => .rest
  · exact .pure trivial

instance backendResetRequired_moves (key : StreamKey) (generation : Nat) :
    Along (Moves C) (backendResetRequired C.limits key generation) := by
  unfold backendResetRequired
  infer_instance

instance maintainLease_still (key : StreamKey) (lease : Lease) (t : Nat) :
    Along (Still C) (maintainLease key lease t) := by
  unfold maintainLease
  split
  · infer_instance
  · refine .seq inferInstance fun result => ?_
    cases result <;> infer_instance

instance expireDetached_moves (L : Limits) (key : StreamKey) (t : Nat) : Along (Moves C) (expireDetached L key t) := by
  refine along_of_walks fun m => Sat.next rfl ?_
  have hloss : Loss m (m.update key fun s => { s with status := .lost, retainedUntil := t + L.controlRetentionMs }) := by
    refine .lose (fun _ => rfl) fun s _ => ⟨⟨rfl, rfl, rfl, rfl⟩, rfl, rfl, .inl rfl, fun kind => ?_⟩
    cases kind <;> exact ⟨rfl, rfl, .inl rfl⟩
  refine (adrift_of_loss (C := C) hloss fun _ hk => stream_update_ne (fun _ => rfl) hk).releasing ?_ fun m₁ hm₁ hd => ?_
  · intro s hs
    obtain ⟨s₀, _, rfl⟩ := of_stream_update hs fun _ => rfl
    rfl
  · refine ((Walks.seq (removeRing_dead hd) fun _ _ _ hd => still_dead hd).mono ?_ ?_).after hm₁
    · exact fun _ _ _ => trivial
    · exact fun _ _ => trivial

theorem removeRing_rest {m : Manager} {key : StreamKey} {retained : Bool}
    (h : ∀ s, m.stream key = some s →
      (s.status = .detached ∧ retained = true) ∨ (s.status = .closed ∨ s.status = .lost)) :
    Walks C (removeRing key retained) m (fun _ _ => True) (fun _ => True) :=
  (removeRing_walks h).mono (fun _ _ _ => trivial) fun _ _ => trivial

instance expireStream_moves (L : Limits) (key : StreamKey) (t : Nat) : Along (Moves C) (expireStream L key t) := by
  refine along_of_walks fun m => .streamAt ?_
  cases hs : m.stream key with
  | none => exact .pure trivial
  | some s =>
    dsimp only
    split
    · exact .rest
    · split
      · rename_i _ hclosed
        refine removeRing_rest fun s' hs' => ?_
        cases hs.symm.trans hs'
        exact .inr (.inl hclosed.1)
      · exact .pure trivial

instance sweepStream_moves (L : Limits) (maintain : Bool) (t : Nat) (key : StreamKey) :
    Along (Moves C) (sweepStream L maintain t key) := by
  refine .seq inferInstance fun s => ?_
  split <;> infer_instance

instance forgetStream_moves (t : Nat) (key : StreamKey) : Along (Moves C) (forgetStream t key) := by
  refine along_of_walks fun m => .get ?_
  split
  · rename_i hforget
    refine .await trivial fun _ => .seq (removeRing_rest fun s hs => .inr ?_) fun _ _ _ _ => .rest
    rw [stream_ticked] at hs
    rw [hs, Option.any_some] at hforget
    simp only [Manager.forgettable, Bool.and_eq_true, Bool.or_eq_true, decide_eq_true_eq] at hforget
    exact hforget.1.1.1
  · exact .pure trivial

theorem quiet_sweepRecords (m : Manager) (t : Nat) : Quiet m (m.sweepRecords t) :=
  ⟨rfl, rfl, rfl, rfl, rfl, rfl, rfl, rfl, le_rfl, fun _ h => .inl (List.mem_filter.mp h).1⟩

instance sweepQuarantined_still (t : Nat) : Along (Still C) (sweepQuarantined t) := by
  refine .seq inferInstance fun m => .seq (quiet_still fun _ => ?_) fun _ => inferInstance
  exact ⟨rfl, rfl, rfl, rfl, rfl, rfl, rfl, rfl, le_rfl, fun _ h => .inl h⟩

instance sweepInternal_moves (L : Limits) (maintain : Bool) : Along (Moves C) (sweepInternal L maintain) := by
  refine .seq inferInstance fun t => .seq inferInstance fun _ => .seq inferInstance fun keys => .seq inferInstance fun _ =>
    .seq ?_ fun _ => inferInstance
  exact still_moves (h := quiet_still fun m => quiet_sweepRecords m t)

/-! ## Binding -/

instance assertHost_still (r : Request) : Along (Still C) (assertHost C r) := by
  unfold assertHost
  infer_instance

instance parseCounter_still (value : Nat) (label : String) : Along (Still C) (parseCounter value label) := by
  unfold parseCounter
  infer_instance

instance sendResetResponse_still (r : Request) (generation : Option Nat) (reason : ResetReason) :
    Along (Still C) (sendResetResponse r generation reason) := sendFrame_still fun _ => trivial

theorem through_of_face {s s' : TerminalStream} (h : s'.face = s.face) : s'.through = s.through := by
  unfold TerminalStream.through
  rw [show s'.close = s.close from congrArg Face.close h, show s'.ring = s.ring from congrArg Face.ring h]

instance fenceChangedBinding_still (key : StreamKey) (route : Nat) : Along (Still C) (fenceChangedBinding key route) := by
  refine .seq inferInstance fun s => ?_
  split
  · exact .seq inferInstance fun _ => update_still (fun _ => rfl) (fun _ => rfl) (fun _ => rfl)
  · infer_instance

instance rearmBackend_still (key : StreamKey) : Along (Still C) (rearmBackend key) := by
  unfold rearmBackend
  infer_instance

theorem requireBoundStream_walks {m : Manager} (key : StreamKey) (route generation : Nat) :
    Walks C (requireBoundStream key route generation) m
      (fun s m' => m' = m ∧ m.stream key = some s ∧ s.status ≠ .lost ∧ s.generation = generation)
      (fun _ => True) := by
  refine .streamAt ?_
  cases hs : m.stream key with
  | none => exact .throw trivial
  | some s =>
    dsimp only
    split
    · exact .throw trivial
    · split
      · exact .throw trivial
      · split
        · exact .throw trivial
        · rename_i hlost _ hgen
          exact .pure ⟨rfl, rfl, hlost, (not_not.mp hgen).symm⟩

theorem prepareClosedNotification_walks {m : Manager} (key : StreamKey) :
    Walks C (prepareClosedNotification key) m (fun _ m' => m' = m) (fun _ => True) := by
  refine .get ?_
  split
  · exact .pure rfl
  · split
    · exact .pure rfl
    · split
      · exact .throw trivial
      · exact .pure rfl

theorem boundAt_bind (m : Manager) (key : StreamKey) (route generation offset through : Nat) (notification : Bool) :
    boundAt (m.bind key route generation offset through notification).trace m.bindings =
      some (key, generation, offset) := by
  simp [Manager.bind, Manager.emit, Manager.update, boundAt]

theorem bindStream_walks {m : Manager} {key : StreamKey} {s : TerminalStream} {route generation offset through : Nat}
    (hs : m.stream key = some s) (hg : s.generation = generation) (ht : s.through = through) (hlost : s.status ≠ .lost)
    (hbound : s.status = .detached → s.binding ≠ none) (hreplay : s.canReplay offset through = true) :
    Walks C (bindStream key route generation offset through) m
      (fun id m' => boundAt m'.trace id = some (key, generation, offset)) (fun _ => True) := by
  subst hg ht
  refine .seq (prepareClosedNotification_walks key) fun notification m' _ hm => ?_
  subst hm
  exact .get (.modify (.single (.bind hs hlost hbound hreplay)) (.pure (boundAt_bind ..)))

theorem touch_still (key : StreamKey) (t : Nat) : Along (Still C) (update key fun s => { s with lastUsedAt := t }) :=
  update_still (fun _ => rfl) (fun _ => rfl) (fun _ => rfl)

theorem bindOpened_walks {m : Manager} {r : Request} {offset : Nat} {s : TerminalStream} (hs : m.stream r.key = some s)
    (hlost : s.status ≠ .lost) (hreplay : s.canReplay offset s.through = true) :
    Walks C (bindOpened C r offset) m (fun _ _ => True) (fun _ => True) := by
  refine .streamAt ?_
  rw [hs]
  refine .seq (.of_still (fun _ _ h => h) fun _ _ => trivial) fun _ m₁ _ hc => ?_
  obtain ⟨s₁, hs₁, hface⟩ := hc.stream hs
  have hst : s₁.status = s.status := congrArg Face.status hface
  have hth : s₁.through = s.through := through_of_face hface
  have hre : s₁.canReplay offset s₁.through = true := by
    rw [hth]
    unfold TerminalStream.canReplay
    rw [show s₁.ringRetained = s.ringRetained from congrArg Face.ringRetained hface,
      show s₁.ring = s.ring from congrArg Face.ring hface]
    exact hreplay
  refine .modify (.single (.stream (fun _ => rfl) fun s' hs' => ?_)) ?_
  · cases hs₁.symm.trans hs'
    exact .restore ⟨rfl, rfl, rfl, rfl⟩ (hst ▸ hlost) rfl rfl rfl rfl
  have hs₂ : (m₁.update r.key fun s => { s with
      status := if s.close.isSome then .closed else .live, detachedUntil := none }).stream r.key =
      some { s₁ with status := if s₁.close.isSome then .closed else .live, detachedUntil := none } :=
    stream_updated hs₁ fun _ => rfl
  refine .seq (bindStream_walks hs₂ (congrArg Face.generation hface) hth ?_ ?_ (hth ▸ hre)) fun id m₂ _ hid => ?_
  · show (if s₁.close.isSome then Status.closed else Status.live) ≠ .lost
    split <;> decide
  · show (if s₁.close.isSome then Status.closed else Status.live) = .detached → _
    split <;> exact fun h => nomatch h
  refine .now fun t => .modify ((touch_still r.key t).along m₂.ticked).1 ?_
  refine .seq (P := fun _ _ => True) ?_ fun _ _ _ _ => .rest
  exact .await trivial fun _ => ⟨.single (.say (hid : boundAt m₂.trace id = _)), trivial⟩

theorem rebindReplay_walks {m : Manager} {r : Request} {offset : Nat} {s : TerminalStream} (hs : m.stream r.key = some s)
    (hlost : s.status ≠ .lost) (hbound : s.binding ≠ none) (hreplay : s.canReplay offset s.through = true) :
    Walks C (rebindReplay C r s offset) m (fun _ _ => True) (fun _ => True) := by
  refine .seq (.of_still (fun _ _ h => h) fun _ _ => trivial) fun _ m₁ _ hc => ?_
  obtain ⟨s₁, hs₁, hface⟩ := hc.stream hs
  have hring : s₁.ring = s.ring := congrArg Face.ring hface
  have hth : s₁.through = s.through := through_of_face hface
  have hre : s₁.canReplay offset s.through = true := by
    unfold TerminalStream.canReplay
    rw [show s₁.ringRetained = s.ringRetained from congrArg Face.ringRetained hface, hring]
    exact hreplay
  have hst : s₁.status = s.status := congrArg Face.status hface
  have hb : s₁.binding = s.binding := congrArg Face.binding hface
  refine .seq (bindStream_walks hs₁ (congrArg Face.generation hface) hth (hst ▸ hlost) (fun _ => hb ▸ hbound) hre)
    fun id m₂ _ hid => ?_
  refine .seq (P := fun _ _ => True) ?_ fun _ _ _ _ => .rest
  exact .await trivial fun _ => ⟨.single (.say (hid : boundAt m₂.trace id = _)), trivial⟩

theorem replayStream_walks {m : Manager} {r : Request} {generation offset : Nat} {s : TerminalStream}
    (hs : m.stream r.key = some s) (hlost : s.status ≠ .lost) :
    Walks C (replayStream C r generation offset s) m (fun _ _ => True) (fun _ => True) := by
  unfold replayStream
  split
  · exact .throw trivial
  · rename_i hroute
    split
    · exact .rest
    · split
      · exact .rest
      · split
        · exact .throw trivial
        · split
          · exact .rest
          · rename_i hreplay
            refine rebindReplay_walks hs hlost (fun hnone => hroute ?_) (by simpa using hreplay)
            rw [hnone]
            rfl

instance replayInternal_moves (r : Request) (generation offset : Nat) :
    Along (Moves C) (replayInternal C r generation offset) := by
  refine along_of_walks fun m => .seq .rest fun _ _ _ _ => .seq .rest fun _ _ _ _ => .seq .rest fun fromOffset m₁ _ _ =>
    .streamAt ?_
  cases hs : m₁.stream r.key with
  | none => exact .rest
  | some s =>
    dsimp only
    split
    · exact .rest
    · rename_i hlost
      exact replayStream_walks hs hlost

/-! ## Acknowledging and leaving -/

instance outputAckInternal_moves (key : StreamKey) (route generation offset : Nat) :
    Along (Moves C) (outputAckInternal C key route generation offset) := by
  refine along_of_walks fun m => .seq .rest fun _ m₁ _ _ => .seq (requireBoundStream_walks key route generation)
    fun s m₂ _ h => ?_
  obtain ⟨rfl, hs, _, _⟩ := h
  refine .seq (P := fun _ m' => m' = m₂) ?_ fun next m₃ _ h => ?_
  · unfold parseCounter
    split
    · exact .throw trivial
    · exact .pure rfl
  subst h
  cases hb : s.binding with
  | none => exact .pure trivial
  | some b =>
    dsimp only
    split
    · exact .throw trivial
    · split
      · exact .pure trivial
      · rename_i hsent hacked
        have hmove : Move C m₃ (m₃.acknowledge key next) :=
          .acknowledge hs hb (Nat.le_of_not_lt hsent) (Nat.lt_of_not_le hacked)
        refine .modify (.single hmove) (.seq .rest fun _ _ _ _ => .now fun t => ?_)
        have := touch_still (C := C) key t
        exact .rest

theorem unbind_move (s : TerminalStream) : StreamMove s { s with binding := none } :=
  .unbind ⟨rfl, rfl, rfl, rfl⟩ rfl rfl rfl rfl

theorem detachStream_walks {m : Manager} {L : Limits} {key : StreamKey} {s : TerminalStream} (hs : m.stream key = some s)
    (hlive : s.status = .live) (hb : s.binding = none) :
    Walks C (detachStream L key) m (fun _ _ => True) (fun _ => True) := by
  refine .seq (.of_still (fun _ _ h => h) fun _ _ => trivial) fun _ m₁ _ hc => .now fun t => ?_
  obtain ⟨s₁, hs₁, hface⟩ := hc.stream hs
  have hst : s₁.status = s.status := congrArg Face.status hface
  have hb₁ : s₁.binding = s.binding := congrArg Face.binding hface
  refine .modify (.single (.stream (m := m₁.ticked) (fun _ => rfl) fun s' hs' => ?_)) .rest
  cases hs₁.symm.trans hs'
  exact .detach ⟨rfl, rfl, rfl, rfl⟩ (hst.trans hlive) rfl rfl (hb₁.trans hb) (hb₁.trans hb) rfl

instance unbindStream_moves (L : Limits) (auth route : Nat) (key : StreamKey) :
    Along (Moves C) (unbindStream L auth route key) := by
  refine along_of_walks fun m => .streamAt ?_
  cases hs : m.stream key with
  | none => exact .pure trivial
  | some s =>
    dsimp only
    split
    · refine .modify (.single (.stream (fun _ => rfl) fun s _ => unbind_move s)) ?_
      have hs₁ : (m.update key fun s => { s with binding := none }).stream key = some { s with binding := none } :=
        stream_updated hs fun _ => rfl
      split
      · rename_i hlive
        exact detachStream_walks hs₁ hlive rfl
      · exact .pure trivial
    · exact .pure trivial

instance unbind_moves (L : Limits) (auth route : Nat) : Along (Moves C) (unbind L auth route) := by
  unfold unbind
  infer_instance

instance shutdownStream_moves (key : StreamKey) : Along (Moves C) (shutdownStream key) :=
  .seq (update_moves (fun _ => rfl) unbind_move) fun _ => inferInstance

instance shutdown_moves : Along (Moves C) shutdown := by
  refine .seq (still_moves (h := quiet_still fun _ => ⟨rfl, rfl, rfl, rfl, rfl, rfl, rfl, rfl, le_rfl, fun _ h => .inl h⟩)) fun _ =>
    .seq inferInstance fun keys => .seq inferInstance fun _ => .seq inferInstance fun m =>
    .seq (still_moves (h := quiet_still fun _ => ⟨rfl, rfl, rfl, rfl, rfl, rfl, rfl, rfl, le_rfl, fun _ h => .inl h⟩)) fun _ => inferInstance

/-! ## Closing on request -/

theorem Sane.moves {m m' : Manager} (h : Sane m) (hm : Moves C m m') : Sane m' := by
  obtain ⟨hpath, -⟩ := hm
  induction hpath with
  | refl => exact h
  | tail _ hchange ih => exact hchange.elim ih.move ih.loss

theorem RecordOk.moves {m m' : Manager} {r : CloseRecord} (h : RecordOk m r) (hm : Moves C m m') : RecordOk m' r := by
  obtain ⟨hpath, -⟩ := hm
  induction hpath with
  | refl => exact h
  | tail _ hchange ih => exact hchange.elim ih.move ih.loss

instance queueCloseResponse_still (key : StreamKey) (p : PendingCloseResponse) :
    Along (Still C) (queueCloseResponse key p) := by
  refine .seq inferInstance fun s => ?_
  split
  · infer_instance
  · exact update_still (fun _ => rfl) (fun _ => rfl) (fun _ => rfl)

instance deliverCloseResponse_moves (r : Request) (record : CloseRecord) (deduplicated : Bool) :
    Along (Moves C) (deliverCloseResponse C r record deduplicated) := by
  refine .seq inferInstance fun s => ?_
  split
  · infer_instance
  · exact still_moves (h := sendFrame_still fun _ => trivial)

theorem quiet_cacheCloseRecord {m : Manager} {record : CloseRecord} (h : RecordOk m record) :
    Quiet m (m.cacheCloseRecord C record) := by
  unfold Manager.cacheCloseRecord
  split
  · refine ⟨rfl, rfl, rfl, rfl, rfl, rfl, rfl, rfl, le_rfl, fun r hr => ?_⟩
    rcases Keyed.mem_put hr with rfl | hr
    · exact .inr h
    · exact .inl hr
  · exact ⟨rfl, rfl, rfl, rfl, rfl, rfl, rfl, rfl, le_rfl, fun _ h => .inl h⟩

instance checkTombstone_still (record : CloseRecord) : Along (Still C) (checkTombstone record) := by
  unfold checkTombstone
  infer_instance

instance checkClose_still (r : CloseRequest) (s : TerminalStream) : Along (Still C) (checkClose C r s) := by
  unfold checkClose requireControlSlots
  infer_instance

/-- A close that fits the stream it is of, as it stands. -/
def Proposable (m : Manager) (record : CloseRecord) : Prop :=
  ∃ s, m.stream record.streamKey = some s ∧ record.generation = s.generation ∧ record.finalOffset = s.through

theorem Proposable.calm {m m' : Manager} {record : CloseRecord} (h : Proposable m record) (hc : Calm m m') :
    Proposable m' record := by
  obtain ⟨s, hs, hg, ht⟩ := h
  obtain ⟨s', hs', hface⟩ := hc.stream hs
  exact ⟨s', hs', hg.trans (congrArg Face.generation hface).symm, ht.trans (through_of_face hface).symm⟩

theorem closeTarget_walks {m : Manager} {E : Manager → Prop} (r : CloseRequest) :
    Walks C (closeTarget r) m
      (fun s m' => m' = m ∧ ∀ s', s = some s' → m.stream r.key = some s' ∧ s'.status ≠ .lost) E := by
  refine .streamAt (.pure ⟨rfl, fun s' h => ?_⟩)
  obtain ⟨hs, hkeep⟩ := Option.filter_eq_some_iff.mp h
  simp only [Bool.and_eq_true, decide_eq_true_eq] at hkeep
  exact ⟨hs, hkeep.1⟩

theorem proposeClose_walks {m : Manager} (r : CloseRequest) :
    Walks C (proposeClose C r) m (fun proposed m' => ∀ record, proposed = some record → Proposable m' record)
      (fun _ => True) := by
  refine .seq (closeTarget_walks r) fun target m' _ h => ?_
  obtain ⟨rfl, hs⟩ := h
  cases target with
  | none => exact .pure fun _ h => nomatch h
  | some s =>
    have hs := (hs s rfl).1
    refine .seq (.of_still (fun _ _ h => h) fun _ _ => trivial) fun _ m₁ _ hc => .now fun t => .pure fun record h => ?_
    cases h
    exact Proposable.calm (m := m') ⟨s, hs, rfl, rfl⟩ hc

def CloseState.record : CloseState → CloseRecord
  | .final record => record
  | .intent record _ => record

theorem Proposable.recordOk {m : Manager} {record : CloseRecord} (h : Proposable m record) (hsane : Sane m) :
    RecordOk m record := by
  obtain ⟨s, hs, hg, ht⟩ := h
  refine ⟨hg ▸ hsane.streams _ s hs, fun s' hs' _ => ?_⟩
  cases hs.symm.trans hs'
  exact ht.le

theorem Proposable.store {m : Manager} {record : CloseRecord} (h : Proposable m record) :
    Move C m (m.storeClose record) := by
  obtain ⟨s, hs, hg, ht⟩ := h
  exact .store hs hg ht

theorem claimStoredClose_walks {m : Manager} (hsane : Sane m) (r : CloseRequest) (final : Bool) :
    Walks C (claimStoredClose r final) m (fun state m' => RecordOk m' state.record) (fun _ => True) := by
  refine .get ?_
  split
  · exact .throw trivial
  · rename_i record hfind
    have hok : RecordOk m record := hsane.records record (List.mem_append_right _ (Keyed.mem_of_find hfind))
    split
    · exact .throw trivial
    · refine .seq (.of_along (fun _ _ h => h) fun _ _ => trivial) fun _ m₁ _ hm => ?_
      cases final <;> exact .pure (hok.moves hm)

theorem claimNewClose_walks {m : Manager} (hsane : Sane m) (a : Answer) {proposed : Option CloseRecord}
    (h : ∀ record, proposed = some record → Proposable m record) :
    Walks C (claimNewClose a proposed) m (fun state m' => RecordOk m' state.record) (fun _ => True) := by
  cases proposed with
  | none => exact .throw trivial
  | some record =>
    have hp : Proposable m { record with expiresAt := max record.expiresAt a.time } := h record rfl
    refine .modify (.single hp.store) (.seq (.of_along (fun _ _ h => h) fun _ _ => trivial) fun _ m₁ _ hm => .pure ?_)
    exact ((hp.recordOk hsane).move (C := C) hp.store).moves hm

theorem claimRejected_walks {m : Manager} {Q : CloseState → Manager → Prop} (a : Answer) {proposed : Option CloseRecord}
    (h : ∀ record, proposed = some record → Proposable m record) :
    Walks C (claimRejected a proposed) m Q (fun _ => True) := by
  cases proposed with
  | none => exact .throw trivial
  | some record =>
    unfold claimRejected
    dsimp only
    split
    · exact .modify (.single (h record rfl).store) (.throw trivial)
    · exact .throw trivial

theorem claimClose_walks {m : Manager} (hsane : Sane m) (r : CloseRequest) {proposed : Option CloseRecord}
    (h : ∀ record, proposed = some record → Proposable m record) :
    Walks C (claimClose r proposed) m (fun state m' => RecordOk m' state.record) (fun _ => True) := by
  refine .ask fun a => ?_
  have hsane' : Sane m.ticked := hsane.moves (C := C) (ticked_moves m)
  split
  · split
    · exact .throw trivial
    · exact .throw trivial
    · exact claimStoredClose_walks hsane' r true
    · exact claimStoredClose_walks hsane' r false
    · exact claimNewClose_walks hsane' a h
  · exact claimRejected_walks a h

instance closeStream_moves (r : CloseRequest) (record : CloseRecord) : Along (Moves C) (closeStream C r record) := by
  refine along_of_walks fun m => .seq (closeTarget_walks r) fun target m' _ h => ?_
  obtain ⟨rfl, htarget⟩ := h
  split
  · rename_i hany
    obtain ⟨s, rfl, _⟩ := (Option.any_eq_true _ _).mp hany
    obtain ⟨hs, hlost⟩ := htarget s rfl
    have halive : Alive r.key m' := fun s' hs' => by
      cases hs.symm.trans hs'
      exact hlost
    refine .seq (commitTerminalCondition_walks halive ..) fun _ _ _ _ => .streamAt ?_
    split <;> exact .rest
  · exact .pure trivial

theorem nameClose_still (key : StreamKey) (record : CloseRecord) : Along (Still C) (update key fun s =>
    if s.generation = record.generation then { s with closeId := some record.closeId, reservedCloseRecord := false }
    else s) := by
  refine update_still ?_ ?_ ?_ <;> intro s <;> split <;> rfl

theorem finalizeClose_walks {m : Manager} (r : CloseRequest) {record : CloseRecord} (h : RecordOk m record)
    (deduplicated : Bool) :
    Walks C (finalizeClose C r record deduplicated) m (fun _ _ => True) (fun _ => True) := by
  have hname := nameClose_still (C := C) r.key record
  refine .await trivial fun _ => .seq (.of_along (fun _ _ h => h) fun _ _ => trivial) fun _ m₁ _ hm => ?_
  have hok : RecordOk m₁ record := (h.moves (C := C) (ticked_moves m)).moves hm
  exact .modify (.single (.quiet (quiet_cacheCloseRecord hok))) .rest

theorem closeDurably_walks {m : Manager} (hsane : Sane m) (r : CloseRequest) :
    Walks C (closeDurably C r) m (fun _ _ => True) (fun _ => True) := by
  refine .seq (proposeClose_walks r) fun proposed m₁ hm₁ hp => ?_
  refine .seq (claimClose_walks (hsane.moves hm₁) r hp) fun state m₂ _ hok => ?_
  cases state with
  | final record => exact .modify (.single (.quiet (quiet_cacheCloseRecord hok))) .rest
  | intent record fresh =>
    exact .seq (.of_along (fun _ _ h => h) fun _ _ => trivial) fun _ m₃ _ hm => finalizeClose_walks r (hok.moves hm) _

theorem closeInternal_walks {m : Manager} (hsane : Sane m) (r : CloseRequest) :
    Walks C (closeInternal C r) m (fun _ _ => True) (fun _ => True) := by
  refine .seq (.of_along (fun _ _ h => h) fun _ _ => trivial) fun _ m₁ _ hm₁ =>
    .seq (.of_along (fun _ _ h => h) fun _ _ => trivial) fun _ m₂ _ hm₂ => .get ?_
  split
  · split
    · exact .throw trivial
    · exact .rest
  · exact closeDurably_walks ((hsane.moves hm₁).moves hm₂) r

end Stream
end TmuxWorktree
