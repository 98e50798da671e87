import TmuxWorktree.Sync.Converge
import TmuxWorktree.Sync.Watermark
/-!
# Live — a live cache is past every event it heard

An event that waits is after the cursor and at or below the watermark, and a live cache has reached its watermark: nothing
waits for it.  An event that is news raises the watermark, and nothing lowers it while the epoch lives.  So what was heard
once is behind the cursor of every later live cache, although a commit may take the cursor back.
-/
namespace TmuxWorktree
namespace Sync

variable {C : Core} {s s' : Store} {n : Namespace} {a a' : Authority} {t t' : Tables} {op : Op} {k : Nat}

/-! ## What waits -/

/-- **What waits is still to come.** -/
structure Ahead (a : Authority) (t : Tables) : Prop where
  watched : Watched a t
  after : ∀ e ∈ t.events, ∀ c, a.cursorEventSeq = some c → c < e.eventSeq
  reached : a.phase = .live → ∃ c, a.cursorEventSeq = some c ∧ a.requiredThroughEventSeq ≤ c

theorem Ahead.resyncing (hphase : a.phase = .resyncing) (hnone : t.events = []) : Ahead a t where
  watched := watched_nil hnone
  after := by simp [hnone]
  reached := by simp [hphase]

/-- Nothing waits for a live cache. -/
theorem Ahead.events_live (h : Ahead a t) (hlive : a.phase = .live) : t.events = [] := by
  obtain ⟨c, hc, hle⟩ := h.reached hlive
  refine List.eq_nil_iff_forall_not_mem.mpr fun e he => ?_
  have hbelow := h.watched e he
  have hafter := h.after e he c hc
  omega

theorem Moved.ahead (h : Ahead a (s.tables n)) (hj : a.Journal) (hj' : a'.Journal)
    (hnews : ∀ e, op = .applyStateEvent e → e.namespace = n → a.cursorEventSeq.any (e.eventSeq ≤ ·) = true →
      t' = s.tables n) (hmoved : Moved C s n a (s.tables n) op a' t') : Ahead a' t' := by
  have hwatched : Watched a' t' := hmoved.watched h.watched
  cases hmoved with
  | kept held pending phase required staging events =>
    refine ⟨hwatched, fun e he c hc => ?_, by simp [phase]⟩
    have hcursor : a.cursorEventSeq = some c := by
      rcases held with cache | ⟨-, reset⟩
      · exact cache.cursor.symm.trans hc
      · rw [reset.cursor] at hc
        cases hc
    rcases events with hsame | hnone | ⟨e', hop, hplace, hmore, -, -⟩
    · exact h.after e (hsame ▸ he) c hcursor
    · rw [hnone] at he
      cases he
    · rw [hmore] at he
      rcases List.mem_append.mp he with he | he
      · exact h.after e he c hcursor
      · obtain rfl := List.mem_singleton.mp he
        by_contra hle
        -- an event at or below the cursor is a duplicate, and leaves the buffer as it was
        have hdup : a.cursorEventSeq.any (e.eventSeq ≤ ·) = true := by simpa [hcursor] using hle
        have hsame := congrArg Tables.events (hnews e hop hplace hdup)
        simp [hmore] at hsame
  | released o held idle pending names required cleared =>
    exact .resyncing (hj'.resyncing (by rw [pending]; rfl)) cleared.2.2
  | dropped cache idle pending gone phase required =>
    rcases phase with hphase | rfl
    · exact .resyncing hphase rfl
    · exact ⟨hwatched, by simp [Tables.cleared], h.reached⟩
  | matched cache idle pending unstaged phase required reached => exact ⟨hwatched, by simp [Tables.cleared], fun _ => reached⟩
  | staged place idle phase taken => exact ⟨hwatched, h.after, h.reached⟩
  | @applied e _ _ place idle phase advances =>
    obtain ⟨c, hc, hle⟩ := h.reached phase
    obtain ⟨c', hc', hnext⟩ := advances.next
    obtain ⟨-, hrequired, -, -, -, hcursor⟩ := advances.same
    have hnone : t'.events = [] := advances.keeps.2.2.trans (h.events_live phase)
    have hsame : c' = c := Option.some.inj (hc'.symm.trans hc)
    refine ⟨hwatched, by simp [hnone], fun _ => ⟨e.eventSeq, hcursor, ?_⟩⟩
    rw [hrequired]
    exact max_le (by omega) (le_refl _)
  | committed idle staging sound written advanced names => exact .resyncing rfl rfl
  | @completed o pending plan planned =>
    refine ⟨hwatched, h.after, fun hlive => ?_⟩
    cases plan with
    | restartSnapshot => cases hlive
    | queryPendingCommands => exact hj.query planned

/-! ## The watermark -/

theorem Moved.required (hmoved : Moved C s n a t op a' t') : a.requiredThroughEventSeq ≤ a'.requiredThroughEventSeq := by
  cases hmoved with
  | kept held pending phase required => exact required
  | released o held idle pending names required => exact required
  | dropped cache idle pending gone phase required => exact required
  | matched cache idle pending unstaged phase required => exact required
  | staged => exact le_refl _
  | applied place idle phase advances =>
    rw [advances.same.2.1]
    exact Nat.le_max_left _ _
  | committed idle staging sound written advanced => exact advanced.same.2.1.ge
  | completed => exact le_refl _

/-- The epoch lives, and its watermark is at or above `k`. -/
def Marked (n : Namespace) (k : Nat) (s : Store) : Prop := ∃ a, s.authority n = some a ∧ k ≤ a.requiredThroughEventSeq

theorem Turn.marked (hm : Marked n k s) (hstays : ¬ op.leaves n ∧ ¬ op.fresh n) (ht : Turn C s op s') : Marked n k s' := by
  obtain ⟨a, ha, hle⟩ := hm
  cases ht with
  | stays => exact ⟨a, ha, hle⟩
  | @moved _ _ m b b' t' before place journal moved =>
    by_cases hn : n = m
    · subst hn
      obtain rfl := Option.some.inj (ha.symm.trans before)
      exact ⟨b', place.here, hle.trans moved.required⟩
    · exact ⟨a, (place.elsewhere n hn).1.trans ha, hle⟩
  | @founded _ h _ b' journal founded =>
    by_cases hn : h.namespace = n
    · rcases founded.disposition with hfresh | hnone
      · exact absurd ⟨hn, hfresh⟩ hstays.2
      · rw [hn, ha] at hnone
        cases hnone
    · have hi : n.connectIdentity ≠ h.namespace.connectIdentity := by
        intro hi
        refine hstays.1 ⟨hi.symm, fun hepoch => hn ?_⟩
        simp only [Namespace.connectIdentity, Identity.mk.injEq] at hi
        obtain ⟨h₁, h₂, h₃, h₄⟩ := hi
        cases hh : h.namespace
        cases n
        simp_all
      exact ⟨a, (founded.elsewhere n hi).1.trans ha, hle⟩
  | cleared profileId =>
    refine ⟨a, ?_, hle⟩
    rw [authority_cleared, if_neg fun hp => hstays.1 hp.symm]
    exact ha

/-! ## An event that is news -/

section
variable {b : Authority} {e : Event} {E : Fault → Prop}

theorem putAuthority_marked (hn : b.namespace = n) (hk : k ≤ b.requiredThroughEventSeq) :
    Ends (s.putAuthority b) (Marked n k) fun _ => True := by
  refine Ends.seq (fun _ _ => Ends.pure ⟨b, ?_, hk⟩) fun _ _ => trivial
  rw [← hn]
  exact Keyed.find_put_self

theorem giveUpStaged_marked (hs : Marked n k s) (hn : b.namespace = n) (hk : k ≤ b.requiredThroughEventSeq)
    (reason : ReleaseReason) : Ends (giveUpStaged s b reason) (fun r => Marked n k r.1) fun _ => True := by
  unfold giveUpStaged
  split
  · refine Ends.bind (P := fun r => Marked n k r.1) ?_ fun r hr => Ends.pure hr
    exact Ends.seq (fun _ _ => Ends.bind (putAuthority_marked hn hk) fun _ h => Ends.pure h) fun _ _ => trivial
  · exact Ends.pure hs

theorem bufferEventOrRestart_marked (hs : Marked e.namespace k s) (hn : b.namespace = e.namespace)
    (hk : k ≤ b.requiredThroughEventSeq) (reason : ResyncReason) :
    Ends (bufferEventOrRestart s b e reason) (fun r => Marked e.namespace k r.1) fun _ => True := by
  unfold bufferEventOrRestart
  dsimp only
  split
  · refine Ends.ite (fun _ => Ends.pure hs) fun _ => ?_
    exact Ends.bind (giveUpStaged_marked hs hn hk _) fun _ h => Ends.seq (fun _ _ => Ends.pure h) fun _ _ => trivial
  · refine Ends.ite (fun _ => ?_) fun _ => Ends.ite (fun _ => ?_) fun _ => ?_
    · refine Ends.bind (giveUpStaged_marked hs hn hk _) fun _ _ => Ends.bind (putAuthority_marked hn hk) fun _ h => ?_
      exact Ends.seq (fun _ _ => Ends.pure h) fun _ _ => trivial
    · exact Ends.seq (fun _ _ => Ends.pure hs) fun _ _ => trivial
    · exact Ends.seq (fun _ _ => Ends.pure hs) fun _ _ => trivial

theorem bufferEventWhileReleasePending_marked (hn : b.namespace = e.namespace) (hk : k ≤ b.requiredThroughEventSeq) :
    Ends (bufferEventWhileReleasePending s b e) (fun r => Marked e.namespace k r.1) fun _ => True := by
  unfold bufferEventWhileReleasePending
  refine Ends.seq (fun _ _ => Ends.seq (fun _ _ => ?_) fun _ _ => trivial) fun _ _ => trivial
  refine Ends.bind (putAuthority_marked hn hk) fun s₁ h => ?_
  split
  · exact Ends.ite (fun _ => Ends.pure h) fun _ => Ends.pure h
  · refine Ends.ite (fun _ => Ends.pure h) fun _ => ?_
    exact Ends.seq (fun _ _ => Ends.pure h) fun _ _ => trivial

/-- **An event that is news raises the watermark**, whether it is applied, waits, or ends the staging. -/
theorem applyStateEvent_marked (ha : s.authority e.namespace = some a)
    (news : a.cursorEventSeq.any (e.eventSeq ≤ ·) = false) :
    Ends (applyStateEvent s e) (fun r => Marked e.namespace e.eventSeq r.1) fun _ => True := by
  unfold applyStateEvent
  dsimp only
  rw [ha]
  dsimp only
  rw [if_neg (by simp [news])]
  have hn : (a.raised e.eventSeq).namespace = e.namespace :=
    show a.namespace = e.namespace from Store.namespace_of_authority ha
  have hk : e.eventSeq ≤ (a.raised e.eventSeq).requiredThroughEventSeq := Nat.le_max_right _ _
  refine Ends.bind (putAuthority_marked hn hk) fun s₁ h₁ => Ends.ite (fun _ => ?_) fun _ => Ends.ite (fun _ => ?_) fun _ => ?_
  · exact bufferEventWhileReleasePending_marked hn hk
  · refine Ends.seq (fun _ _ => Ends.ite (fun _ => ?_) fun _ => ?_) fun _ _ => trivial
    · refine Ends.bind ((applyLiveEvent_ends e).mono (fun _ => id) fun _ _ => trivial) fun applied happlied => ?_
      split
      · rename_i s₂ b'
        obtain ⟨t', -, advances⟩ := happlied s₂ b' rfl
        obtain ⟨hsame, hrequired, -⟩ := advances.same
        exact Ends.bind (putAuthority_marked (hsame.trans hn) (hrequired ▸ hk)) fun _ h => Ends.pure h
      · exact Ends.bind (putAuthority_marked hn hk) fun _ h => bufferEventOrRestart_marked h hn hk _
    · exact Ends.bind (putAuthority_marked hn hk) fun _ h => bufferEventOrRestart_marked h hn hk _
  · exact bufferEventOrRestart_marked h₁ hn hk _

/-- An event at or below the cursor changes nothing. -/
theorem step_duplicate (ha : s.authority e.namespace = some a) (hdup : a.cursorEventSeq.any (e.eventSeq ≤ ·) = true) :
    step C s (.applyStateEvent e) = .ok (s, .result .duplicateEvent) := by
  show (applyStateEvent s e).map _ = _
  unfold applyStateEvent
  dsimp only
  rw [ha]
  dsimp only
  rw [if_pos hdup]
  rfl

end

/-! ## Runs -/

/-- What waits for an authority of the store is still to come. -/
def Store.Ahead (s : Store) : Prop := ∀ n a, s.authority n = some a → Sync.Ahead a (s.tables n)

theorem after_ahead (hs : s.Sound) (h : s.Ahead) (op : Op) : (after C s op).Ahead := by
  unfold after
  split
  · rename_i s' r hstep
    refine Turn.every h ((step_turns hs op).value hstep) (fun m b b' t' hb ht hj' hmoved => ?_) fun b hphase =>
      .resyncing hphase rfl
    refine hmoved.ahead (h m b hb) (hs.journal_of hb) hj' fun e hop hplace hdup => ?_
    subst hop hplace
    rw [step_duplicate hb hdup] at hstep
    obtain rfl : s = s' := congrArg Prod.fst (Except.ok.inj hstep)
    exact ht.symm
  · exact h

theorem run_ahead (C : Core) (ops : List Op) : (run C ops).Ahead := by
  have hempty : Store.empty.Ahead := fun n a ha => by cases ha
  have hboth : (run C ops).Sound ∧ (run C ops).Ahead :=
    run_induction (I := fun s => s.Sound ∧ s.Ahead) ⟨Store.sound_empty, hempty⟩
      (fun _ op hs => ⟨after_sound hs.1 op, after_ahead hs.1 hs.2 op⟩) ops
  exact hboth.2

theorem after_marked (hs : s.Sound) (hm : Marked n k s) (hstays : ¬ op.leaves n ∧ ¬ op.fresh n) :
    Marked n k (after C s op) := by
  unfold after
  split
  · rename_i h
    exact Turn.marked hm hstays ((step_turns hs op).value h)
  · exact hm

theorem foldl_marked {ops : List Op} (hs : s.Sound) (hm : Marked n k s)
    (hstays : ∀ op ∈ ops, ¬ op.leaves n ∧ ¬ op.fresh n) : Marked n k (ops.foldl (after C) s) := by
  induction ops generalizing s with
  | nil => exact hm
  | cons op rest ih =>
    exact ih (after_sound hs op) (after_marked hs hm (hstays op List.mem_cons_self)) fun op' hop =>
      hstays op' (List.mem_cons_of_mem op hop)

/-- **What the phone heard, it does not miss.**  An event that was news when it came, and whose transaction was not rolled
back, is owed from then on: as long as the epoch lives, the watermark is at or above it, and whenever the cache is live,
the cursor is, and nothing waits. -/
theorem heard_events_reached (C : Core) (past rest : List Op) (e : Event) {a : Authority}
    (here : (run C past).authority e.namespace = some a) (news : a.cursorEventSeq.any (e.eventSeq ≤ ·) = false)
    (answered : (step C (run C past) (.applyStateEvent e)).isOk = true)
    (stays : ∀ op ∈ rest, ¬ op.leaves e.namespace ∧ ¬ op.fresh e.namespace) :
    ∃ b, (run C (past ++ .applyStateEvent e :: rest)).authority e.namespace = some b ∧
      e.eventSeq ≤ b.requiredThroughEventSeq ∧
      (b.phase = .live → (∃ c, b.cursorEventSeq = some c ∧ e.eventSeq ≤ c) ∧
        ((run C (past ++ .applyStateEvent e :: rest)).tables e.namespace).events = []) := by
  have hsplit : run C (past ++ .applyStateEvent e :: rest) =
      rest.foldl (after C) (after C (run C past) (.applyStateEvent e)) := by
    simp [run, List.foldl_append]
  have hheard : Marked e.namespace e.eventSeq (after C (run C past) (.applyStateEvent e)) := by
    unfold after
    split
    · rename_i s' r hstep
      have hends : Ends (step C (run C past) (.applyStateEvent e)) (fun p => Marked e.namespace e.eventSeq p.1) fun _ => True :=
        Ends.map (applyStateEvent_marked here news)
      exact hends.value hstep
    · rename_i hstep
      rw [hstep] at answered
      cases answered
  obtain ⟨b, hb, hle⟩ := foldl_marked (after_sound (run_sound C past) _) hheard stays
  rw [← hsplit] at hb
  have hahead := run_ahead C (past ++ .applyStateEvent e :: rest) e.namespace b hb
  refine ⟨b, hb, hle, fun hlive => ⟨?_, hahead.events_live hlive⟩⟩
  obtain ⟨c, hc, hreached⟩ := hahead.reached hlive
  exact ⟨c, hc, hle.trans hreached⟩

def Sample.late : Event := ⟨Sample.epoch, 2, 2, .scopeDelete "x", 100⟩

/-- An event waits for the snapshot that covers it. -/
theorem heard_events_reached_covered :
    ∃ b, (run Sample.core ([.hello Sample.plan Sample.hello] ++ .applyStateEvent Sample.late :: Sample.ahead.tail)).authority
        Sample.epoch = some b ∧
      2 ≤ b.requiredThroughEventSeq ∧
      (b.phase = .live → (∃ c, b.cursorEventSeq = some c ∧ 2 ≤ c) ∧
        ((run Sample.core ([.hello Sample.plan Sample.hello] ++ .applyStateEvent Sample.late :: Sample.ahead.tail)).tables
          Sample.epoch).events = []) :=
  heard_events_reached Sample.core [.hello Sample.plan Sample.hello] Sample.ahead.tail Sample.late
    (a := newAuthority Sample.epoch 0) (by decide +kernel) rfl (by decide +kernel)
    (by simp [Sample.ahead, Op.leaves, Op.fresh])

end Sync
end TmuxWorktree
