import TmuxWorktree.Stream.Ops
/-!
# Runs — every run of the manager is a run of its moves

The last programs: control frames, opens and the bytes of a backend.  What follows for whole runs is at the end: a
property that the moves, a birth and the intake of bytes keep is kept by every run.
-/
namespace TmuxWorktree
namespace Stream

open Effect

variable {C : Config} {α : Type}

/-! ## Control frames -/

theorem updateWindow_still {key : StreamKey} {kind : Kind} {f : Window → Window} (h : ∀ w, WindowMove w (f w)) :
    Along (Still C) (updateWindow key kind f) := updateControl_still fun _ => setWindow_move (h _)

theorem windowMove_rfl (w : Window) : WindowMove w w := ⟨rfl, .inl ⟨rfl, rfl⟩⟩

instance setPending_still (kind : Kind) (key : StreamKey) (pending : Option PendingSequence) :
    Along (Still C) (setPending kind key pending) := updateWindow_still windowMove_rfl

instance cancelRetry_still (kind : Kind) (key : StreamKey) : Along (Still C) (cancelRetry kind key) :=
  updateWindow_still windowMove_rfl

instance cancelRetryOf_still (kind : Kind) (key : StreamKey) (seq : Nat) :
    Along (Still C) (updateWindow key kind (Window.cancelRetryOf seq)) := by
  refine updateWindow_still fun w => ?_
  unfold Window.cancelRetryOf
  split <;> exact windowMove_rfl w

instance dropPending_still (kind : Kind) (key : StreamKey) (seq : Nat) :
    Along (Still C) (updateWindow key kind (Window.dropPending seq)) := by
  refine updateWindow_still fun w => ?_
  unfold Window.dropPending
  split <;> exact windowMove_rfl w

instance scheduleRetry_still (kind : Kind) (key : StreamKey) (seq : Nat) (payload : Payload) (route : Nat) :
    Along (Still C) (updateWindow key kind fun w => w.scheduleRetry seq payload route) := by
  refine updateWindow_still fun w => ?_
  unfold Window.scheduleRetry
  split <;> exact windowMove_rfl w

instance sendControlAck_moves (kind : Kind) (key : StreamKey) (seq : Nat) :
    Along (Moves C) (sendControlAck kind key seq) := by
  refine along_of_walks fun m => .streamAt ?_
  cases hs : m.stream key with
  | none => exact .pure trivial
  | some s =>
    dsimp only
    split
    · exact .await trivial fun _ => ⟨.single (.say ⟨s, hs, rfl, rfl⟩), trivial⟩
    · exact .pure trivial

instance sendControlError_moves (kind : Kind) (key : StreamKey) (seq : Nat) (code : ErrorCode) :
    Along (Moves C) (sendControlError kind key seq code) := by
  refine along_of_walks fun m => .streamAt ?_
  cases hs : m.stream key with
  | none => exact .pure trivial
  | some s =>
    dsimp only
    split
    · exact .await trivial fun _ => ⟨.single (.say ⟨s, hs, rfl, rfl⟩), trivial⟩
    · exact .pure trivial

instance answerKnown_moves (kind : Kind) (f : Frame) (same : Bool) : Along (Moves C) (answerKnown kind f same) := by
  unfold answerKnown
  infer_instance

instance leaveInDoubt_moves (kind : Kind) (f : Frame) (fp : Fingerprint) (e : StructuredError) :
    Along (Moves C) (leaveInDoubt kind f fp e) := by
  unfold leaveInDoubt
  infer_instance

instance retryOrRefuse_moves (kind : Kind) (f : Frame) (e : StructuredError) :
    Along (Moves C) (retryOrRefuse kind f e) := by
  unfold retryOrRefuse
  infer_instance

instance rejectWrite_moves (kind : Kind) (f : Frame) (e : StructuredError) : Along (Moves C) (rejectWrite kind f e) := by
  unfold rejectWrite
  infer_instance

def Writable (kind : Kind) (f : Frame) (m : Manager) : Prop :=
  ∃ s, m.stream f.key = some s ∧ s.generation = f.generation ∧ s.status ≠ .lost ∧
    f.seq = (s.control.window kind).acked + 1

theorem Writable.calm {kind : Kind} {f : Frame} {m m' : Manager} (h : Writable kind f m) (hc : Calm m m') :
    Writable kind f m' := by
  obtain ⟨s, hs, hg, hst, hseq⟩ := h
  obtain ⟨s', hs', hface⟩ := hc.stream hs
  have hstatus : s'.status = s.status := congrArg Face.status hface
  have hacked : (s'.control.window kind).acked = (s.control.window kind).acked :=
    congrFun (congrArg Face.acked hface) kind
  exact ⟨s', hs', (congrArg Face.generation hface).trans hg, hstatus ▸ hst, hacked ▸ hseq⟩

theorem writeFrame_walks {m : Manager} {kind : Kind} {f : Frame} (h : Writable kind f m) :
    Walks C (writeFrame C kind f) m (fun _ _ => True) (fun _ => True) := by
  obtain ⟨s, hs, hg, hst, hseq⟩ := h
  refine .ask fun a => .modify (.single (.write (m := m.ticked) hs hg hst hseq)) ?_
  split <;> exact .rest

theorem writeNext_walks {m : Manager} {kind : Kind} {f : Frame} (h : Writable kind f m) :
    Walks C (writeNext C kind f) m (fun _ _ => True) (fun _ => True) := by
  refine .seq (.of_still (fun _ _ h => h) fun _ _ => trivial) fun _ m₁ _ hc₁ =>
    .seq (.of_still (fun _ _ h => h) fun _ _ => trivial) fun lease m₂ _ hc₂ => ?_
  cases lease with
  | accepted lease => exact writeFrame_walks ((h.calm hc₁).calm hc₂)
  | uncertain e => exact .rest
  | rejected e => exact .rest

theorem admitFrame_walks {m : Manager} {kind : Kind} {f : Frame} {s : TerminalStream} (hs : m.stream f.key = some s)
    (hg : s.generation = f.generation) (hst : s.status ≠ .lost) :
    Walks C (admitFrame C kind f (s.control.window kind)) m (fun _ _ => True) (fun _ => True) := by
  unfold admitFrame
  split
  · exact .rest
  · rename_i hseq
    split
    · exact .rest
    · split
      · exact .rest
      · exact writeNext_walks ⟨s, hs, hg, hst, not_not.mp hseq⟩

theorem admitUnlessInDoubt_walks {m : Manager} {kind : Kind} {f : Frame} {s : TerminalStream}
    (hs : m.stream f.key = some s) (hg : s.generation = f.generation) (hst : s.status ≠ .lost) :
    Walks C (admitUnlessInDoubt C kind f) m (fun _ _ => True) (fun _ => True) := by
  refine .seq (.of_still (fun _ _ h => h) fun _ _ => trivial) fun _ m₁ _ hc => .streamAt ?_
  obtain ⟨s₁, hs₁, hface⟩ := hc.stream hs
  have hstatus : s₁.status = s.status := congrArg Face.status hface
  rw [hs₁]
  dsimp only
  split
  · exact .rest
  · exact admitFrame_walks hs₁ ((congrArg Face.generation hface).trans hg) (hstatus ▸ hst)

instance checkPayload_still (payload : Payload) : Along (Still C) (checkPayload C payload) := by
  cases payload <;> unfold checkPayload <;> infer_instance

instance parsePositiveCounter_still (value : Nat) (label : String) :
    Along (Still C) (parsePositiveCounter value label) := by
  unfold parsePositiveCounter
  infer_instance

instance controlInternal_moves (kind : Kind) (f : Frame) : Along (Moves C) (controlInternal C kind f) := by
  refine along_of_walks fun m => .seq .rest fun _ m₁ _ _ => .seq (requireBoundStream_walks f.key f.route f.generation)
    fun s m₂ _ h => ?_
  obtain ⟨rfl, hs, hst, hg⟩ := h
  split
  · exact .rest
  · refine .seq (.of_still (fun _ _ h => h) fun _ _ => trivial) fun _ m₃ _ hc₃ =>
      .seq (.of_still (fun _ _ h => h) fun _ _ => trivial) fun _ m₄ _ hc₄ => ?_
    obtain ⟨s₁, hs₁, hface⟩ := (hc₃.trans hc₄).stream hs
    have hstatus : s₁.status = s.status := congrArg Face.status hface
    unfold handleFrame
    split
    · exact .rest
    · exact admitUnlessInDoubt_walks hs₁ ((congrArg Face.generation hface).trans hg) (hstatus ▸ hst)

instance retryFires_moves (kind : Kind) (key : StreamKey) : Along (Moves C) (retryFires C kind key) := by
  refine .seq inferInstance fun m => ?_
  split
  · infer_instance
  · exact .seq (still_moves (h := updateWindow_still windowMove_rfl)) fun _ => inferInstance

/-! ## Open records and answers -/

instance checkOpen_still (r : OpenRequest) : Along (Still C) (checkOpen C r) := by
  refine .seq inferInstance fun m => ?_
  split
  · infer_instance
  · refine .seq inferInstance fun _ => .seq inferInstance fun _ => ?_
    split
    · infer_instance
    · split <;> infer_instance

theorem quiet_openRecords {m : Manager} (records : List OpenRecord) : Quiet m { m with openRecords := records } :=
  ⟨rfl, rfl, rfl, rfl, rfl, rfl, rfl, rfl, le_rfl, fun _ h => .inl h⟩

theorem quiet_cacheOpenRecord (m : Manager) (record : OpenRecord) : Quiet m (m.cacheOpenRecord C record) := by
  unfold Manager.cacheOpenRecord
  split
  · exact quiet_openRecords _
  · exact quiet_openRecords m.openRecords

instance cacheOutcome_still (r : OpenRequest) (outcome : OpenOutcome) (tokenHash : Option Nat) :
    Along (Still C) (cacheOutcome C r outcome tokenHash) :=
  .seq inferInstance fun _ => quiet_still fun m => quiet_cacheOpenRecord m _

instance answerUnopened_still (r : OpenRequest) (outcome : OpenOutcome) : Along (Still C) (answerUnopened r outcome) := by
  cases outcome <;> unfold answerUnopened <;> infer_instance

instance settleOpenRecord_still (r : OpenRequest) (proposed : OpenOutcome) (tokenHash : Option Nat) (retainLocal : Bool) :
    Along (Still C) (settleOpenRecord C r proposed tokenHash retainLocal) := by
  refine .seq inferInstance fun a => ?_
  split <;> infer_instance

instance failOpen_still (r : OpenRequest) (proposed : OpenOutcome) (retainLocal : Bool) :
    Along (Still C) (failOpen C r proposed retainLocal) := by
  unfold failOpen
  infer_instance

/-! ## Fencing -/

instance unbindAt_moves (key : StreamKey) : Along (Moves C) (update key fun s => { s with binding := none }) :=
  update_moves (fun _ => rfl) unbind_move

instance cleanupDivergentLocalStream_moves (key : StreamKey) :
    Along (Moves C) (cleanupDivergentLocalStream C key) := by
  unfold cleanupDivergentLocalStream
  infer_instance

instance quarantineDivergentLocalStream_moves (key : StreamKey) :
    Along (Moves C) (quarantineDivergentLocalStream C key) := by
  refine .seq inferInstance fun t => .seq (.modify fun m => ?_) fun _ => .seq inferInstance fun _ =>
    still_moves (h := quiet_still fun _ => quiet_openRecords _)
  unfold Manager.quarantine
  split
  · exact .refl
  · rename_i s hs
    exact .single (.drop (.inr ⟨s, hs, rfl⟩))

instance fenceDivergentLocalStream_moves (key : StreamKey) (localFenceAuthorized effectTargetProven : Bool) :
    Along (Moves C) (fenceDivergentLocalStream C key localFenceAuthorized effectTargetProven) := by
  unfold fenceDivergentLocalStream
  infer_instance

/-! ## Replays of a durable outcome -/

instance replayDurableOpen_still (r : OpenRequest) (outcome : OpenOutcome) :
    Along (Still C) (replayDurableOpen C r outcome) := by
  unfold replayDurableOpen
  infer_instance

instance recoverOpenRecord_still (r : OpenRequest) (outcome : OpenOutcome) :
    Along (Still C) (recoverOpenRecord C r outcome) :=
  .seq inferInstance fun _ => .seq (quiet_still fun _ => quiet_openRecords _) fun _ => inferInstance

instance hintSize_still (s : TerminalStream) : Along (Still C) (hintSize s) := by
  unfold hintSize
  infer_instance

theorem canReplay_of_face {s s' : TerminalStream} {offset through : Nat} (h : s'.face = s.face) :
    s'.canReplay offset through = s.canReplay offset through := by
  unfold TerminalStream.canReplay
  rw [show s'.ringRetained = s.ringRetained from congrArg Face.ringRetained h,
    show s'.ring = s.ring from congrArg Face.ring h]

theorem bindOpened_calm {m m' : Manager} {r : Request} {offset : Nat} {s : TerminalStream} (hs : m.stream r.key = some s)
    (hlost : s.status ≠ .lost) (hreplay : s.canReplay offset s.through = true) (hc : Calm m m') :
    Walks C (bindOpened C r offset) m' (fun _ _ => True) (fun _ => True) := by
  obtain ⟨s', hs', hface⟩ := hc.stream hs
  have hstatus : s'.status = s.status := congrArg Face.status hface
  exact bindOpened_walks hs' (hstatus ▸ hlost) (by rw [canReplay_of_face hface, through_of_face hface]; exact hreplay)

theorem replayOpenRecord_walks {m m' : Manager} {r : OpenRequest} {s : TerminalStream} (hs : m.stream r.key = some s)
    (hc : Calm m m') (outcome : OpenOutcome) (tokenHash : Option Nat) (offset preparedBinding : Nat) :
    Walks C (replayOpenRecord C r s outcome tokenHash offset preparedBinding) m' (fun _ _ => True) (fun _ => True) := by
  unfold replayOpenRecord
  split
  · exact .rest
  · rename_i hfit
    split
    · exact .rest
    · rename_i hreplay
      have hlost : s.status ≠ .lost := by
        intro h
        simp [h] at hfit
      refine .seq (.of_still (fun _ _ h => h) fun _ _ => trivial) fun _ m₁ _ hc₁ => ?_
      exact bindOpened_calm hs hlost (by simpa using hreplay) (hc.trans hc₁)

theorem reconcileOpened_exact {r : OpenRequest} {found : Option TerminalStream}
    {generation tokenHash preparedBinding : Nat} {outcome : OpenOutcome} {retained : Option OpenRecord}
    {s : TerminalStream}
    (h : reconcileOpened r found generation tokenHash preparedBinding outcome retained = .exact s) : found = some s := by
  unfold reconcileOpened at h
  cases found with
  | none => cases h
  | some s' =>
    dsimp only at h
    split at h
    · cases h
    · split at h
      · cases h
        rfl
      · cases h

instance replayOpened_moves (r : OpenRequest) (generation offset tokenHash preparedBinding : Nat)
    (outcome : OpenOutcome) : Along (Moves C) (replayOpened C r generation offset tokenHash preparedBinding outcome) := by
  refine along_of_walks fun m => .get ?_
  dsimp only
  split
  · exact .rest
  · exact .rest
  · rename_i s hexact
    have hs := reconcileOpened_exact hexact
    split
    · exact .seq (.of_still (fun _ _ h => h) fun _ _ => trivial) fun _ m₁ _ hc => replayOpenRecord_walks hs hc ..
    · exact replayOpenRecord_walks hs Calm.rfl ..

instance reconcileAndReplay_moves (r : OpenRequest) (outcome : OpenOutcome) (tokenHash : Nat)
    (preparedBinding : Option Nat) : Along (Moves C) (reconcileAndReplay C r outcome tokenHash preparedBinding) := by
  unfold reconcileAndReplay
  split <;> infer_instance

/-! ## Preparation -/

instance releaseUnprepared_moves (r : OpenRequest) : Along (Moves C) (releaseUnprepared C r) := by
  refine .seq inferInstance fun a => ?_
  split <;> infer_instance

instance failUnavailable_still (r : OpenRequest) (fault : Fault) : Along (Still C) (failUnavailable C r fault) := by
  unfold failUnavailable
  infer_instance

instance prepareDurably_moves (r : OpenRequest) : Along (Moves C) (prepareDurably C r) := by
  refine .seq inferInstance fun a => ?_
  split <;> infer_instance

instance prepareCanonicalTarget_moves (r : OpenRequest) : Along (Moves C) (prepareCanonicalTarget C r) := by
  refine .seq inferInstance fun a => ?_
  split
  · refine .seq inferInstance fun prepared => ?_
    split <;> infer_instance
  · infer_instance

theorem prepareRetainedDurably_walks {m : Manager} (r : OpenRequest) :
    Walks C (prepareRetainedDurably C r) m (fun go m' => go = true → Calm m m') (fun _ => True) := by
  refine .await trivial fun a => ?_
  split
  · exact .pure fun _ => (quiet_tick m).calm
  · exact .seq .rest fun _ _ _ _ => .pure fun h => nomatch h
  · exact .throw trivial

theorem prepareRetainedTarget_walks {m : Manager} (r : OpenRequest) :
    Walks C (prepareRetainedTarget C r) m (fun go m' => go = true → Calm m m') (fun _ => True) := by
  refine .seq (.attempt (Q := fun prepared m' => prepared = .ok true → Calm m m') ?_) fun prepared m₁ _ hp => ?_
  · refine (prepareRetainedDurably_walks r).mono (fun go m' h heq => h ?_) fun _ _ _ h => by cases h
    cases heq
    rfl
  · cases prepared with
    | ok go =>
      refine .pure fun h => hp ?_
      rw [h]
    | error fault =>
      dsimp only
      split
      · exact .throw trivial
      · exact .seq .rest fun _ _ _ _ => .pure fun h => by cases h

/-! ## Resumes -/

theorem settleResume_walks {m m' : Manager} {r : OpenRequest} {s : TerminalStream} {offset : Nat}
    (hs : m.stream r.key = some s) (hlost : s.status ≠ .lost) (hreplay : s.canReplay offset s.through = true)
    (hc : Calm m m') : Walks C (settleResume C r s offset) m' (fun _ _ => True) (fun _ => True) := by
  refine .seq (.of_still (fun _ _ h => h) fun _ _ => trivial) fun _ m₁ _ hc₁ =>
    .seq (.of_still (fun _ _ h => h) fun _ _ => trivial) fun settled m₂ _ hc₂ => ?_
  split
  · exact bindOpened_calm hs hlost hreplay ((hc.trans hc₁).trans hc₂)
  · exact .rest

theorem bindResume_walks {m : Manager} {r : OpenRequest} {s : TerminalStream} {offset : Nat}
    (hs : m.stream r.key = some s) (hlost : s.status ≠ .lost) (hreplay : s.canReplay offset s.through = true) :
    Walks C (bindResume C r s offset) m (fun _ _ => True) (fun _ => True) := by
  refine .seq (prepareRetainedTarget_walks r) fun go m₁ _ hc => ?_
  cases go with
  | false => exact .pure trivial
  | true => exact settleResume_walks hs hlost hreplay (hc rfl)

theorem not_lost_of_isFor {s : TerminalStream} {a : StreamAuthority} (h : s.isFor a = true) : s.status ≠ .lost := by
  intro hlost
  unfold TerminalStream.isFor TerminalStream.producing at h
  rw [hlost] at h
  cases hclosed : a.closed <;> simp [hclosed] at h

theorem resumePlan_bind {s : TerminalStream} {offset offset' : Nat} (h : s.resumePlan offset = .bind offset') :
    offset' = offset ∧ s.canReplay offset s.through = true := by
  unfold TerminalStream.resumePlan at h
  split at h
  · cases h
  · split at h
    · rename_i hreplay
      cases h
      exact ⟨rfl, hreplay⟩
    · cases h

theorem planResume_bind {r : OpenRequest} {existing : Option TerminalStream} {authority : Option StreamAuthority}
    {resume : Resume} {offset offset' : Nat} {s : TerminalStream}
    (h : planResume r existing authority resume offset = .bind offset') (hs : existing = some s) :
    s.status ≠ .lost ∧ s.canReplay offset' s.through = true := by
  subst hs
  unfold planResume at h
  cases authority with
  | none => cases h
  | some a =>
    dsimp only at h
    split at h
    · cases h
    · cases hfor : s.isFor a with
      | false =>
        rw [Option.filter_some_neg (by simp [hfor])] at h
        cases h
      | true =>
        rw [Option.filter_some_pos (by simp [hfor])] at h
        dsimp only at h
        split at h
        · cases h
        · obtain ⟨rfl, hreplay⟩ := resumePlan_bind h
          exact ⟨not_lost_of_isFor hfor, hreplay⟩

theorem resumeGeneration_walks {m : Manager} {r : OpenRequest} {existing : Option TerminalStream}
    (hexisting : ∀ s, existing = some s → m.stream r.key = some s) (authority : Option StreamAuthority) :
    Walks C (resumeGeneration C r existing authority) m (fun _ _ => True) (fun _ => True) := by
  unfold resumeGeneration
  split
  · exact .throw trivial
  · split
    · exact .throw trivial
    · exact .rest
    · rename_i offset s hplan
      obtain ⟨hlost, hreplay⟩ := planResume_bind hplan rfl
      exact bindResume_walks (hexisting s rfl) hlost hreplay
    · exact .throw trivial

/-! ## New generations -/

instance yieldLease_still (key : StreamKey) : Along (Still C) (yieldLease key) := by
  refine .seq inferInstance fun s => ?_
  split
  · refine .seq inferInstance fun result => ?_
    split <;> infer_instance
  · infer_instance

instance retirePrevious_moves (key : StreamKey) : Along (Moves C) (retirePrevious key) := by
  refine along_of_walks fun m => Sat.next rfl ?_
  have hloss : Loss m (m.update key fun s => { s with binding := none, status := .lost, detachedUntil := none }) := by
    refine .lose (fun _ => rfl) fun s _ => ⟨⟨rfl, rfl, rfl, rfl⟩, rfl, rfl, .inr rfl, fun kind => ?_⟩
    cases kind <;> exact ⟨rfl, rfl, .inl rfl⟩
  refine (adrift_of_loss (C := C) hloss fun _ hk => stream_update_ne (fun _ => rfl) hk).clearing ?_ fun m₁ hm₁ hd => ?_
  · intro s hs
    obtain ⟨s₀, _, rfl⟩ := of_stream_update hs fun _ => rfl
    rfl
  · refine ((Walks.seq (removeRing_dead hd) fun _ _ _ hd => still_dead hd).mono ?_ ?_).after hm₁
    · exact fun _ _ _ => trivial
    · exact fun _ _ => trivial

instance retireFor_moves (previous : Previous) (key : StreamKey) : Along (Moves C) (retireFor previous key) := by
  cases previous <;> unfold retireFor <;> infer_instance

instance freeCloseSlot_still (previous : Previous) (key : StreamKey) : Along (Still C) (freeCloseSlot previous key) := by
  unfold freeCloseSlot
  split
  · exact update_still (fun _ => rfl) (fun _ => rfl) (fun _ => rfl)
  · infer_instance

instance discardProvisional_still (r : OpenRequest) : Along (Still C) (discardProvisional r) :=
  .seq (quiet_still fun _ => quiet_openRecords _) fun _ => inferInstance

instance failAttachment_still (r : OpenRequest) (generation : Nat) (previous : Previous) (a : Answer) :
    Along (Still C) (failAttachment C r generation previous a) := by
  unfold failAttachment
  infer_instance

def Aside (m m' : Manager) : Prop :=
  m'.streams = m.streams ∧ m'.trace = m.trace ∧ m'.closeRecords = m.closeRecords ∧
    m'.durableCloses = m.durableCloses ∧ m'.generations = m.generations

instance : Std.Refl Aside := ⟨fun _ => ⟨rfl, rfl, rfl, rfl, rfl⟩⟩

instance : IsTrans Manager Aside := ⟨fun _ _ _ h h' =>
  ⟨h'.1.trans h.1, h'.2.1.trans h.2.1, h'.2.2.1.trans h.2.2.1, h'.2.2.2.1.trans h.2.2.2.1,
    h'.2.2.2.2.trans h.2.2.2.2⟩⟩

instance await_aside : Along Aside await := by
  have : Along Aside ask := ⟨fun m => by
    unfold ask
    dsimp only
    split <;> exact ⟨rfl, rfl, rfl, rfl, rfl⟩⟩
  unfold await
  infer_instance

instance cacheOutcome_aside (r : OpenRequest) (outcome : OpenOutcome) (tokenHash : Option Nat) :
    Along Aside (cacheOutcome C r outcome tokenHash) := by
  have : Along Aside now := ⟨fun _ => ⟨rfl, rfl, rfl, rfl, rfl⟩⟩
  refine .seq inferInstance fun t => .modify fun m => ?_
  unfold Manager.cacheOpenRecord
  split <;> exact ⟨rfl, rfl, rfl, rfl, rfl⟩

instance settleOpenRecord_aside (r : OpenRequest) (proposed : OpenOutcome) (tokenHash : Option Nat)
    (retainLocal : Bool) : Along Aside (settleOpenRecord C r proposed tokenHash retainLocal) := by
  have hfail : ∀ message, Along Aside (fail .internal message : Act (Bool × OpenOutcome)) := fun message =>
    inferInstanceAs (Along Aside (throw _ : Act (Bool × OpenOutcome)))
  refine .seq inferInstance fun a => ?_
  split <;> infer_instance

theorem Untouched.aside {generation : Nat} {m m' : Manager} (h : Untouched generation m) (ha : Aside m m') :
    Untouched generation m' := by
  obtain ⟨hs, ht, hc, hd, _⟩ := ha
  refine ⟨fun key => ?_, fun kind key => ?_, fun r hr => ?_, fun key s hkey => ?_⟩
  · rw [ht]
    exact h.delivered key
  · rw [ht]
    exact h.accepted kind key
  · rw [hc, hd] at hr
    exact h.records r hr
  · unfold Manager.stream at hkey
    rw [hs] at hkey
    exact h.streams key s hkey

/-- `x`, run from `m`, makes steps that take no bytes. -/
def Treads (C : Config) (x : Act α) (m : Manager) : Prop :=
  Goes (Steps C) x m (fun _ m' => m'.inbox = m.inbox) (fun m' => m'.inbox = m.inbox)

theorem Move.inbox {m m' : Manager} (h : Move C m m') : m'.inbox = m.inbox := by
  cases h with
  | quiet h => exact h.inbox
  | clear => unfold Manager.clearRing; split <;> rfl
  | acknowledge => unfold Manager.acknowledge; split <;> rfl
  | write => unfold Manager.wrote; split <;> rfl
  | issue | store | stream | say | abandon | output | bind | drop => rfl

theorem Moves.inbox {m m' : Manager} (h : Moves C m m') : m'.inbox = m.inbox := by
  obtain ⟨hpath, -⟩ := h
  induction hpath with
  | refl => rfl
  | tail _ hchange ih =>
    rcases hchange with hmove | ⟨_, _⟩
    · exact hmove.inbox.trans ih
    · exact ih

theorem Walks.treads {x : Act α} {m : Manager} (h : Walks C x m (fun _ _ => True) (fun _ => True)) : Treads C x m :=
  Sat.imp h (fun _ h => h.steps) (fun _ _ h => ⟨h.1.steps, h.1.inbox⟩) (fun _ _ h => ⟨h.1.steps, h.1.inbox⟩)

theorem Treads.after {β : Type} {x : Act α} {f : α → Act β} {m : Manager} {P : α → Manager → Prop}
    (h : Walks C x m P (fun _ => True)) (hf : ∀ a m', Moves C m m' → P a m' → Treads C (f a) m') :
    Treads C (x >>= f) m := by
  refine Goes.seq (P := fun a m' => Moves C m m' ∧ P a m') (Sat.imp h ?_ ?_ ?_) fun a m' _ hp => ?_
  · exact fun _ h => h.steps
  · exact fun _ _ h => ⟨h.1.steps, h⟩
  · exact fun _ _ h => ⟨h.1.steps, h.1.inbox⟩
  · have hinbox : m'.inbox = m.inbox := hp.1.inbox
    exact Goes.mono (hf a m' hp.1 hp.2) (fun _ _ h => h.trans hinbox) fun _ h => h.trans hinbox

theorem publish_treads {m : Manager} {r : OpenRequest} {generation canonicalBinding tokenHash t : Nat}
    (hg : generation < m.generations) (hfresh : Untouched generation m) (disposition : Disposition) :
    Treads C (publish C r (newStream C r generation canonicalBinding tokenHash t) disposition) m := by
  refine Goes.modify (Steps.birth (.publish hg hfresh)) (Walks.treads ?_)
  refine .seq (.of_still (fun _ _ h => h) fun _ _ => trivial) fun _ m₁ _ hc => ?_
  exact bindOpened_calm (stream_put_self (newStream C r generation canonicalBinding tokenHash t)) (nomatch ·) rfl hc

theorem settleGeneration_treads {m : Manager} {r : OpenRequest} {generation canonicalBinding tokenHash t : Nat}
    (hg : generation < m.generations) (hfresh : Untouched generation m) (disposition : Disposition) :
    Treads C (settleGeneration C r (newStream C r generation canonicalBinding tokenHash t) disposition) m := by
  refine .after (P := fun _ => Aside m) ?_ fun completion m₁ _ ha => ?_
  · refine .attempt ?_
    have haside := (settleOpenRecord_aside (C := C) r (.opened generation disposition 0) (some tokenHash) false).along m
    have hstill := (settleOpenRecord_still (C := C) r (.opened generation disposition 0) (some tokenHash) false).along m
    show Goes (Moves C) (settleOpenRecord C r (.opened generation disposition 0) (some tokenHash) false) m
      (fun _ m' => Aside m m') (fun m' => ∀ _, Aside m m')
    unfold Goes Sat
    split <;> rename_i heq <;> rw [heq] at haside hstill
    · exact ⟨hstill.1, haside⟩
    · exact ⟨hstill.1, fun _ => haside⟩
    · exact hstill.1
  · rcases completion with e | ⟨_ | _, outcome⟩
    · exact Walks.treads .rest
    · exact Walks.treads .rest
    · exact publish_treads (ha.2.2.2.2 ▸ hg) (hfresh.aside ha) disposition

theorem attachGeneration_treads {m : Manager} (hsane : Sane m) (r : OpenRequest) (disposition : Disposition)
    (previous : Previous) (canonicalBinding : Nat) :
    Treads C (attachGeneration C r disposition previous canonicalBinding) m := by
  refine .after (P := fun _ _ => True) .rest fun _ m₁ hm₁ _ => .after (P := fun _ _ => True) .rest fun t m₂ hm₂ _ =>
    .after (P := fun _ _ => True) .rest fun a m₃ hm₃ _ => ?_
  have hsane₃ : Sane m₃ := ((hsane.moves hm₁).moves hm₂).moves hm₃
  refine Goes.next rfl (Moves.steps (.single .issue)) ?_
  split
  · refine settleGeneration_treads (Nat.lt_succ_self _) ?_ disposition
    exact ⟨hsane₃.untouched.delivered, hsane₃.untouched.accepted, hsane₃.untouched.records, hsane₃.untouched.streams⟩
  · exact Walks.treads .rest

theorem attachPrepared_treads {m : Manager} (hsane : Sane m) (r : OpenRequest) (disposition : Disposition)
    (previous : Previous) : Treads C (do
      let prepared ← prepareCanonicalTarget C r
      match prepared with
      | none => pure ()
      | some canonicalBinding => attachGeneration C r disposition previous canonicalBinding) m := by
  refine .after (P := fun _ _ => True) .rest fun prepared m₁ hm₁ _ => ?_
  cases prepared with
  | none => exact Walks.treads .rest
  | some canonicalBinding => exact attachGeneration_treads (hsane.moves hm₁) r disposition previous canonicalBinding

theorem createGeneration_treads {m : Manager} (hsane : Sane m) (r : OpenRequest) (disposition : Disposition)
    (previous : Previous) : Treads C (createGeneration C r disposition previous) m := by
  unfold createGeneration
  split
  · exact .after (P := fun _ _ => True) .rest fun _ m₁ hm₁ _ => attachPrepared_treads (hsane.moves hm₁) r disposition previous
  · exact attachPrepared_treads hsane r disposition previous

theorem resetGeneration_treads {m : Manager} (hsane : Sane m) (r : OpenRequest) (existing : Option TerminalStream)
    (authority : Option StreamAuthority) (alreadyLost : Bool) :
    Treads C (resetGeneration C r existing authority alreadyLost) m := by
  unfold resetGeneration
  split
  · exact createGeneration_treads hsane ..
  · split
    · exact createGeneration_treads hsane ..
    · split
      · exact createGeneration_treads hsane ..
      · exact Walks.treads .rest

/-! ## Opens -/

theorem openReconciled_treads {m : Manager} (hsane : Sane m) (r : OpenRequest) (authority : Option StreamAuthority)
    {existing : Option TerminalStream} (hexisting : ∀ s, existing = some s → m.stream r.key = some s)
    (alreadyLost : Bool) : Treads C (openReconciled C r authority existing alreadyLost) m := by
  refine Goes.get ?_
  split
  · exact Walks.treads .rest
  · split
    · exact Walks.treads .rest
    · split
      · exact createGeneration_treads hsane ..
      · exact Walks.treads (resumeGeneration_walks hexisting authority)
      · exact resetGeneration_treads hsane ..

instance openDivergent_moves (r : OpenRequest) (reconciliation : Reconciliation) :
    Along (Moves C) (openDivergent C r reconciliation) := by
  refine .seq inferInstance fun settled => ?_
  cases reconciliation <;> infer_instance

theorem reconcileClaimed_exact {found : Option TerminalStream} {authority : Option StreamAuthority}
    {retained : Option OpenRecord} {s : TerminalStream} (h : reconcileClaimed found authority retained = .exact s) :
    found = some s := by
  unfold reconcileClaimed at h
  cases found with
  | none => cases h
  | some s' =>
    dsimp only at h
    split at h
    · cases h
    · split at h
      · cases h
        rfl
      · cases h

/-- The stream an open goes on with is the one at its key. -/
def Found (r : OpenRequest) (found : Reconciliation × Bool) (m : Manager) : Prop :=
  ∀ s, found.1 = .exact s → m.stream r.key = some s

theorem reconcileHere_walks {m : Manager} {E : Manager → Prop} (r : OpenRequest) (authority : Option StreamAuthority) :
    Walks C (reconcileHere r authority) m (fun found m' => Found r found m') E :=
  ⟨.refl, fun _ h => reconcileClaimed_exact h⟩

theorem reconcilePast_walks {m : Manager} (r : OpenRequest) (authority : Option StreamAuthority) :
    Walks C (reconcilePast C r authority) m (fun found m' => Found r found m') (fun _ => True) := by
  refine .seq (reconcileHere_walks r authority) fun first m₁ _ hfound => ?_
  split
  · exact .seq .rest fun _ _ _ _ => reconcileHere_walks r authority
  · exact .pure hfound

theorem openClaimed_treads {m : Manager} (hsane : Sane m) (r : OpenRequest) (authority : Option StreamAuthority) :
    Treads C (openClaimed C r authority) m := by
  refine .after (reconcilePast_walks r authority) fun found m₁ hm₁ hfound => ?_
  have hsane₁ := hsane.moves hm₁
  dsimp only
  split
  · rename_i s
    refine openReconciled_treads hsane₁ r authority (fun s' h => ?_) _
    cases h
    exact hfound s rfl
  · refine openReconciled_treads hsane₁ r authority ?_ _
    exact fun _ h => nomatch h
  · split
    · refine openReconciled_treads hsane₁ r authority ?_ true
      exact fun _ h => nomatch h
    · exact Walks.treads .rest

theorem openInternal_treads {m : Manager} (hsane : Sane m) (r : OpenRequest) : Treads C (openInternal C r) m := by
  refine .after (P := fun _ _ => True) .rest fun _ m₁ hm₁ _ => .after (P := fun _ _ => True) .rest fun a m₂ hm₂ _ => ?_
  split
  · exact Walks.treads .rest
  · exact Walks.treads .rest
  · exact Walks.treads .rest
  · exact openClaimed_treads ((hsane.moves hm₁).moves hm₂) r _

/-! ## The bytes of a backend -/

/-- The rest of the chunk in hand, if any, is of a stream that takes no more bytes. -/
def Settled (m : Manager) : Prop :=
  ∀ key generation rest, m.inbox = some (key, generation, rest) → rest ≠ [] →
    ∀ s, m.stream key = some s → s.generation = generation → s.producing = false

theorem settled_of_taken {m : Manager} {key : StreamKey} {generation : Nat}
    (h : m.inbox = some (key, generation, [])) : Settled m := by
  intro key' generation' rest hin hne
  cases h.symm.trans hin
  exact absurd rfl hne

theorem settled_of_dead {m : Manager} {key : StreamKey} {generation : Nat} {rest : Bytes} (hd : Dead key m)
    (h : m.inbox = some (key, generation, rest)) : Settled m := by
  intro key' generation' rest' hin _ s hs _
  cases h.symm.trans hin
  simp [TerminalStream.producing, hd s hs]

theorem reclaimLoop_walks {m : Manager} {L : Limits} {n : Nat} {key : StreamKey} {keys : List StreamKey}
    (hsane : Sane m) (hkeys : key ∉ keys) :
    Walks C (reclaimLoop L n keys) m (fun _ m' => m'.stream key = m.stream key) (fun _ => False) := by
  induction keys generalizing m with
  | nil => exact .pure rfl
  | cons k rest ih =>
    have hne : key ≠ k := fun h => hkeys (h ▸ List.mem_cons_self)
    have hrest : key ∉ rest := fun h => hkeys (List.mem_cons_of_mem k h)
    refine .get ?_
    cases hs : m.stream k with
    | none => exact ih hsane hrest
    | some s =>
      dsimp only
      split
      · rename_i hstatus
        have hfree : ∀ s', m.stream k = some s' →
            (s'.status = .detached ∧ decide (s.status ≠ .closed) = true) ∨ (s'.status = .closed ∨ s'.status = .lost) := by
          intro s' hs'
          cases hs.symm.trans hs'
          rcases hstatus with hclosed | hdetached
          · exact .inr (.inl hclosed)
          · exact .inl ⟨hdetached, by simp [hdetached]⟩
        have hmove : Move C m (m.clearRing k (decide (s.status ≠ .closed))) := .clear hfree
        have hother : (m.clearRing k (decide (s.status ≠ .closed))).stream key = m.stream key := by
          rw [stream_clearRing]
          exact stream_update_ne (fun _ => rfl) hne
        refine .next (removeRing_run hsane.funded) (.single hmove) (.get ?_)
        split
        · exact .pure hother
        · exact (ih (hsane.move hmove) hrest).mono (fun _ _ h => h.trans hother) fun _ h => h
      · exact .pure rfl

theorem reclaimHostRing_walks {m : Manager} {L : Limits} {n : Nat} {key : StreamKey} (hsane : Sane m) :
    Walks C (reclaimHostRing L n key) m (fun _ m' => m'.stream key = m.stream key) (fun _ => False) := by
  refine .get ?_
  split
  · exact .pure rfl
  · refine reclaimLoop_walks hsane fun hmem => ?_
    obtain ⟨s, hs, hk⟩ := List.mem_map.mp hmem
    have hfilter := (List.mem_insertionSort _).mp hs
    simp [hk] at hfilter

def Taken (accepted : Bool) (m : Manager) : Prop :=
  Settled m ∧ (accepted = true → ∃ key generation, m.inbox = some (key, generation, []))

theorem acceptBytes_goes {m : Manager} {L : Limits} {key : StreamKey} {s : TerminalStream} {data : Bytes}
    (hs : m.stream key = some s) (hlive : s.producing = true) (hin : m.inbox = some (key, s.generation, data))
    (hroom : s.overtakes data.length = false) : Goes (Steps C) (acceptBytes L key data) m Taken Settled := by
  have happend : Intake m (m.appendRing key data) :=
    .append hs hlive (show m.inbox = some (key, s.generation, data ++ []) by rw [List.append_nil]; exact hin) hroom
  have hinbox : (m.appendRing key data).inbox = some (key, s.generation, []) := by
    unfold Manager.appendRing
    rw [hs, hin]
    simp
  refine Goes.modify (Steps.intake happend) ?_
  have hrest : Along (Still C) (do
      let t ← now
      update key fun s => { s with lastUsedAt := t }
      let m ← Eff.get
      if (L.hostRingBytes : Int) < m.ringBytes then fail .none "Relay v2 terminal host ring exceeded its hard limit"
      else pure true : Act Bool) :=
    .seq inferInstance fun t => .seq (touch_still key t) fun _ => inferInstance
  refine Goes.mono (Walks.treads (Walks.of_still (fun _ _ _ => trivial) fun _ _ => trivial)) (fun _ m' h => ?_) fun m' h => ?_
  · exact ⟨settled_of_taken (h.trans hinbox), fun _ => ⟨key, s.generation, h.trans hinbox⟩⟩
  · exact settled_of_taken (h.trans hinbox)

theorem refuseBytes_goes {m : Manager} {L : Limits} {key : StreamKey} {generation : Nat} {rest : Bytes}
    (hin : m.inbox = some (key, generation, rest)) (reason : ResetReason) :
    Goes (Steps C) (refuseBytes L key reason) m Taken Settled := by
  have hdead : Goes (Steps C) (loseStream L key reason true) m (fun _ => Settled) Settled := by
    refine Sat.imp (loseStream_walks L key reason true) (fun _ h => h.steps) (fun _ m' h => ?_) fun _ m' h => ?_
    · exact ⟨h.1.steps, settled_of_dead h.2 (h.1.inbox.trans hin)⟩
    · exact ⟨h.1.steps, settled_of_dead h.2 (h.1.inbox.trans hin)⟩
  exact hdead.seq fun _ _ _ h => Goes.pure ⟨h, fun hfalse => nomatch hfalse⟩

theorem appendOutput_goes {m : Manager} {L : Limits} {key : StreamKey} {s : TerminalStream} {data : Bytes}
    (hsane : Sane m) (hs : m.stream key = some s) (hlive : s.producing = true)
    (hin : m.inbox = some (key, s.generation, data)) : Goes (Steps C) (appendOutput L key data) m Taken Settled := by
  refine Goes.next (a := some s) (by simp only [streamAt, hs]) .refl ?_
  dsimp only
  split
  · exact refuseBytes_goes hin _
  · split
    · exact refuseBytes_goes hin _
    · rename_i hroom
      refine Goes.seq (P := fun _ m' => Moves C m m' ∧ m'.stream key = m.stream key)
        (Sat.imp (reclaimHostRing_walks hsane) (fun _ h => h.steps) (fun _ _ h => ⟨h.1.steps, h⟩)
          fun _ _ h => h.2.elim) fun _ m₁ _ hm₁ => ?_
      have hin₁ : m₁.inbox = some (key, s.generation, data) := hm₁.1.inbox.trans hin
      refine Goes.get ?_
      split
      · exact refuseBytes_goes hin₁ _
      · exact acceptBytes_goes (hm₁.2.trans hs) hlive hin₁ (Bool.eq_false_of_not_eq_true hroom)

theorem appendParts_goes {m : Manager} {L : Limits} {key : StreamKey} {s : TerminalStream} {data : Bytes}
    (hsane : Sane m) (hs : m.stream key = some s) (hlive : s.producing = true)
    (hin : m.inbox = some (key, s.generation, data)) (hlen : data.length ≤ L.maxFrameBytes) :
    Goes (Steps C) (appendParts L key data.length data) m Taken Settled := by
  cases hn : data.length with
  | zero =>
    have hnil : data = [] := List.eq_nil_of_length_eq_zero hn
    subst hnil
    exact Goes.pure ⟨settled_of_taken hin, fun _ => ⟨key, s.generation, hin⟩⟩
  | succ n =>
    have hdrop : ∀ fuel, appendParts L key fuel (data.drop L.maxFrameBytes) = pure true := by
      intro fuel
      rw [List.drop_of_length_le hlen]
      cases fuel <;> rfl
    unfold appendParts
    rw [if_neg (by omega), List.take_of_length_le hlen]
    refine (appendOutput_goes hsane hs hlive hin).seq fun accepted m₁ _ h => ?_
    cases accepted with
    | false => exact Goes.pure h
    | true =>
      rw [if_pos rfl, hdrop]
      exact Goes.pure h

theorem backendOutput_goes {m : Manager} {key : StreamKey} {generation : Nat} {data : Bytes} (hsane : Sane m)
    (hin : m.inbox = some (key, generation, data)) (hlen : data.length ≤ C.limits.maxFrameBytes) :
    Goes (Steps C) (backendOutput C.limits key generation data) m (fun _ => Settled) Settled := by
  refine Goes.next (a := m.stream key) rfl .refl ?_
  split
  · rename_i hany
    obtain ⟨s, hs, hfit⟩ := (Option.any_eq_true _ _).mp hany
    rw [Bool.and_eq_true, decide_eq_true_eq] at hfit
    obtain ⟨rfl, hlive⟩ := hfit
    refine (appendParts_goes hsane hs hlive hin hlen).seq fun accepted m₁ _ h => ?_
    cases accepted with
    | false => exact Goes.pure h.1
    | true =>
      obtain ⟨key', generation', hin₁⟩ := h.2 rfl
      have hrest : Treads C (do
          pump C.limits key
          refreshBackpressure C.limits) m₁ := Walks.treads .rest
      exact hrest.mono (fun _ _ h => settled_of_taken (h.trans hin₁)) fun _ h => settled_of_taken (h.trans hin₁)
  · rename_i hnone
    refine Goes.pure fun key' generation' rest hin' _ s hs hg => ?_
    cases hin.symm.trans hin'
    rw [hs, Option.any_some] at hnone
    simpa [hg] using hnone

theorem rejectBackendChunk_goes {m : Manager} {L : Limits} {key : StreamKey} {generation : Nat} {data : Bytes}
    (hin : m.inbox = some (key, generation, data)) :
    Goes (Steps C) (rejectBackendChunk L key generation) m (fun _ => Settled) Settled := by
  refine Goes.next (a := m.stream key) rfl .refl ?_
  split
  · refine Sat.imp (loseStream_walks L key .streamLost true) (fun _ h => h.steps) (fun _ m' h => ?_) fun _ m' h => ?_
    · exact ⟨h.1.steps, settled_of_dead h.2 (h.1.inbox.trans hin)⟩
    · exact ⟨h.1.steps, settled_of_dead h.2 (h.1.inbox.trans hin)⟩
  · rename_i hnone
    refine Goes.pure fun key' generation' rest hin' _ s hs hg => ?_
    cases hin.symm.trans hin'
    rw [hs, Option.any_some, Bool.and_eq_true, decide_eq_true_eq, decide_eq_true_eq] at hnone
    have hlost : s.status = .lost := not_not.mp fun h => hnone ⟨hg, h⟩
    simp [TerminalStream.producing, hlost]

theorem takeChunk_goes {m : Manager} {key : StreamKey} {generation : Nat} {data : Bytes} (hsane : Sane m)
    (hin : m.inbox = some (key, generation, data)) :
    Goes (Steps C) (takeChunk C.limits key generation data) m (fun _ => Settled) Settled := by
  unfold takeChunk
  split
  · exact rejectBackendChunk_goes hin
  · rename_i hlen
    exact backendOutput_goes hsane hin (Nat.le_of_not_lt hlen)

theorem onBytes_goes {m : Manager} {key : StreamKey} {generation : Nat} {data : Bytes} (hsane : Sane m)
    (hg : generation < m.generations) (hfree : m.inbox = none) :
    Goes (Steps C) (onBytes C.limits key generation data) m (fun _ m' => m'.inbox = none) (fun m' => m'.inbox = none) := by
  have hdeliver : Intake m (m.deliver key generation data) := .deliver hg hfree
  refine Goes.modify (Steps.intake hdeliver) ?_
  refine Goes.seq (.attempt (Q := fun _ => Settled) (Goes.mono (takeChunk_goes (hsane.intake hdeliver) rfl)
    (fun _ _ h => h) fun _ h _ => h)) fun result m₁ _ hsettled => ?_
  refine Goes.modify (Steps.intake (.settle hsettled)) ?_
  cases result with
  | ok _ => exact Goes.pure rfl
  | error e => exact Goes.throw (e := e) rfl

/-! ## Runs -/

theorem Sane.step {m m' : Manager} (h : Sane m) (hstep : Step C m m') : Sane m' := by
  rcases hstep with (hmove | hloss) | hbirth | hintake
  · exact h.move hmove
  · exact h.loss hloss
  · exact h.birth hbirth
  · exact h.intake hintake

theorem Sane.steps {m m' : Manager} (h : Sane m) (hsteps : Steps C m m') : Sane m' := by
  obtain ⟨hpath, -⟩ := hsteps
  induction hpath with
  | refl => exact h
  | tail _ hstep ih => exact ih.step hstep

theorem callback_goes {m : Manager} {generation : Nat} {x : Act Unit} (hfree : m.inbox = none)
    (h : generation < m.generations → Goes (Steps C) x m (fun _ m' => m'.inbox = none) (fun m' => m'.inbox = none)) :
    Goes (Steps C) (callback generation x) m (fun _ m' => m'.inbox = none) (fun m' => m'.inbox = none) := by
  refine Goes.get ?_
  split
  · rename_i hg
    exact h hg
  · exact Goes.pure hfree

/-- **An operation makes steps**, and has no chunk in hand when it ends. -/
theorem Op.goes (op : Op) {m : Manager} (hsane : Sane m) (hfree : m.inbox = none) :
    Goes (Steps C) (op.run C) m (fun _ m' => m'.inbox = none) (fun m' => m'.inbox = none) := by
  have hcalm : ∀ x : Act Unit, Treads C x m →
      Goes (Steps C) x m (fun _ m' => m'.inbox = none) (fun m' => m'.inbox = none) := fun x h =>
    h.mono (fun _ _ h => h.trans hfree) fun _ h => h.trans hfree
  cases op with
  | «open» r => exact hcalm _ (openInternal_treads hsane r)
  | replay r generation offset => exact hcalm (replayInternal C r generation offset) (Walks.treads .rest)
  | ack key route generation offset =>
    exact hcalm (outputAckInternal C key route generation offset) (Walks.treads .rest)
  | input key route generation seq data =>
    exact hcalm (controlInternal C .input ⟨key, route, generation, seq, .data data⟩) (Walks.treads .rest)
  | resize key route generation seq cols rows =>
    exact hcalm (controlInternal C .resize ⟨key, route, generation, seq, .size cols rows⟩) (Walks.treads .rest)
  | retry kind key => exact hcalm (retryFires C kind key) (Walks.treads .rest)
  | close r => exact hcalm _ (Walks.treads (closeInternal_walks hsane r))
  | unbind auth route => exact hcalm (Stream.unbind C.limits auth route) (Walks.treads .rest)
  | sweep => exact hcalm (sweepInternal C.limits true) (Walks.treads .rest)
  | shutdown => exact hcalm Stream.shutdown (Walks.treads .rest)
  | bytes key generation data => exact callback_goes hfree fun hg => onBytes_goes hsane hg hfree
  | backendClosed key generation reason exitCode => exact callback_goes hfree fun _ => hcalm _ (Walks.treads .rest)
  | backendReset key generation => exact callback_goes hfree fun _ => hcalm _ (Walks.treads .rest)

theorem run_steps (ops : List Op) {m : Manager} (hsane : Sane m) (hfree : m.inbox = none) : Steps C m (run C ops m) := by
  induction ops generalizing m with
  | nil => exact .refl
  | cons op ops ih =>
    have hop := op.goes (C := C) hsane hfree
    unfold Goes Sat at hop
    unfold run
    split at hop <;> rename_i heq <;> rw [heq]
    · exact hop.1.trans (ih (hsane.steps hop.1) hop.2)
    · exact hop.1.trans (ih (hsane.steps hop.1) hop.2)
    · exact hop

/-- **What every step keeps, every run keeps.** -/
theorem run_keeps {I : Manager → Prop} (hstep : ∀ m m', Sane m → I m → Step C m m' → I m') {generations : Nat}
    {closes : List CloseRecord} {answers : Nat → Answer} (hstart : I (Manager.start generations closes answers))
    (ops : List Op) : I (run C ops (Manager.start generations closes answers)) := by
  have hsane := sane_start generations closes answers
  suffices h : ∀ m, Relation.ReflTransGen (Step C) (Manager.start generations closes answers) m → I m ∧ Sane m from
    (h _ (run_steps ops hsane rfl).path).1
  intro m hpath
  induction hpath with
  | refl => exact ⟨hstart, hsane⟩
  | tail _ hstep' ih => exact ⟨hstep _ _ ih.2 ih.1 hstep', ih.2.step hstep'⟩

/-- **Between operations the windows of lost streams are empty.** -/
theorem run_clear (generations : Nat) (closes : List CloseRecord) {answers : Nat → Answer}
    (huncut : ∀ n, (answers n).cut = false) (ops : List Op) (key : StreamKey) :
    ClearAt key (run C ops (Manager.start generations closes answers)) := by
  have hsane := sane_start generations closes answers
  have hsteps := run_steps (C := C) ops hsane rfl
  rcases hsteps.tidy.clear key hsane.funded fun _ hs => nomatch hs with hclear | ⟨n, _, hcut⟩
  · exact hclear
  · rw [hsteps.tidy.later.answers] at hcut
    exact absurd ((huncut n).symm.trans hcut) (by decide)

end Stream
end TmuxWorktree
