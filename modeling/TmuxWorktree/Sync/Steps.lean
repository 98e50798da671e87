import TmuxWorktree.Sync.Turns
/-!
# Steps — every operation is a turn

Each operation on a store in order ends with a turn, or with a fault that no check of a release has thrown.
-/
namespace TmuxWorktree
namespace Sync

variable {C : Core} {s s₁ : Store} {n : Namespace} {a b : Authority} {t : Tables} {op : Op}

def Fault.foreign (f : Fault) : Prop := f.ofRelease = false

/-- The operation ends with a turn, or with a foreign fault. -/
def Turns (C : Core) (s : Store) (op : Op) {β : Type} (x : Except Fault (Store × β)) : Prop :=
  Ends x (fun r => Turn C s op r.1) Fault.foreign

/-! ## Small ends -/

theorem check_ends {c : Bool} {f : Fault} (h : f.foreign) : Ends (check c f) (fun _ => c = true) Fault.foreign := by
  unfold check
  exact Ends.ite (fun hc => Ends.ok hc) fun _ => Ends.error h

theorem increment_ends {m : Nat} : Ends (increment m) (fun r => r = m + 1) Fault.foreign := by
  unfold increment
  exact Ends.ite (fun _ => Ends.ok rfl) fun _ => Ends.error rfl

theorem resyncRequired_ends {r : Resync} (hpair : r.release.isNone = r.afterReleasePhase.isNone)
    (hnew : r.supersedesQueryCompletion = true → ∃ required, r.requiredThroughEventSeq = some required ∧
      ∀ c, r.durableCursorEventSeq = some c → c < required) :
    Ends (resyncRequired r) (fun _ => True) Fault.foreign := by
  unfold resyncRequired
  have hfirst : check (r.release.isNone = r.afterReleasePhase.isNone) .invalidResult = .ok () := by simp [check, hpair]
  refine Ends.next hfirst ?_
  cases hs : r.supersedesQueryCompletion with
  | false => exact Ends.pure trivial
  | true =>
    obtain ⟨required, hrequired, hlt⟩ := hnew hs
    have hsecond : check (r.durableCursorEventSeq.all fun c => c < required) .invalidResult = .ok () := by
      cases hc : r.durableCursorEventSeq with
      | none => rfl
      | some c => simp [check, hlt c hc]
    rw [hrequired]
    refine Ends.next rfl (Ends.next hsecond ?_)
    exact Ends.pure trivial

theorem afterOf_isNone (o : Option Obligation) : o.isNone = (afterOf o).isNone := by cases o <;> rfl

theorem eventBuffered_ends {e : Nat} {cursor : Option Nat} {required : Nat} {recovery : BufferedRecovery}
    (h : e ≤ required) : Ends (eventBuffered n e cursor required recovery) (fun _ => True) Fault.foreign := by
  unfold eventBuffered
  have hcheck : check (e ≤ required) .invalidResult = .ok () := by simp [check, h]
  refine Ends.next hcheck ?_
  exact Ends.pure trivial

theorem releasePending_turns (hs : s.Sound) (ha : s.authority n = some a) {o : Obligation}
    (ho : a.pendingRelease = some o) :
    Turns C s op (do
      let r ← releasePending n a o
      return (s, r)) := by
  obtain ⟨plan, hplan⟩ := (hs.journal_of ha).plan_some ho
  unfold Turns releasePending
  rw [hplan]
  exact Ends.pure (.stays op)

/-! ## Giving up -/

theorem giveUp_ends {directive : Directive} {reason : ReleaseReason} {plan : PostReleasePhase} (h : s.At s₁ n a t)
    (hn : b.namespace = n) (hd : directive.namespace = n) (hidle : b.pendingRelease = none)
    (hplan : plan = .restartSnapshot ∨ plan = .queryPendingCommands ∧
      (∃ c, b.cursorEventSeq = some c ∧ b.requiredThroughEventSeq ≤ c) ∧
      (reason = .completed ∨ reason = .snapshotRestartRequired)) :
    Ends (giveUp s₁ b directive reason plan) (fun r => r.2.directive = directive ∧
      s.At r.1 n { b with phase := .resyncing, pendingRelease := some r.2, afterReleasePhase := some plan } t.cleared ∧
      ({ b with phase := .resyncing, pendingRelease := some r.2, afterReleasePhase := some plan } : Authority).Journal)
      Fault.foreign := by
  subst hn
  unfold giveUp
  have hmade : b.releaseObligation directive reason =
      .ok ⟨b.namespace, directive.snapshotRequestId, directive.snapshotId, b.cursorEventSeq, reason⟩ := by
    unfold Authority.releaseObligation
    rw [hidle, hd]
    simp [check, Bind.bind, Except.bind, Pure.pure, Except.pure]
  refine Ends.next hmade ?_
  set o : Obligation := ⟨b.namespace, directive.snapshotRequestId, directive.snapshotId, b.cursorEventSeq, reason⟩ with ho
  have hjournal : ({ b with phase := .resyncing, pendingRelease := some o, afterReleasePhase := some plan } :
      Authority).Journal := by
    rcases hplan with rfl | ⟨rfl, ⟨c, hc, hle⟩, hreason⟩
    · exact .restart rfl rfl rfl rfl rfl
    · exact .queried rfl rfl rfl rfl rfl hc hle hreason
  refine Ends.bind (h.put hjournal rfl) fun s₂ h₂ => ?_
  have hdirective : o.directive = directive := by rw [ho, Obligation.directive, ← hd]
  exact Ends.pure ⟨hdirective, h₂.cleared, hjournal⟩

/-- What `giveUpStaged` leaves. -/
def GivenUp (s : Store) (n : Namespace) (a b : Authority) (t : Tables) (r : Store × Option Obligation) : Prop :=
  match r.2 with
  | some o => (∃ st, t.snapshot = some st ∧ o.directive = st.releaseDirective n) ∧
      s.At r.1 n { b with phase := .resyncing, pendingRelease := some o, afterReleasePhase := some .restartSnapshot } t.cleared ∧
      ({ b with phase := .resyncing, pendingRelease := some o, afterReleasePhase := some .restartSnapshot } : Authority).Journal
  | none => t.snapshot = none ∧ s.At r.1 n a t.cleared

theorem giveUpStaged_ends {reason : ReleaseReason} (h : s.At s₁ n a t) (hn : b.namespace = n)
    (hidle : b.pendingRelease = none) :
    Ends (giveUpStaged s₁ b reason) (GivenUp s n a b t) Fault.foreign := by
  unfold giveUpStaged
  rw [hn, h.snapshot]
  cases hst : t.snapshot with
  | none => exact Ends.pure ⟨hst, h.cleared⟩
  | some st =>
    refine Ends.bind (giveUp_ends h hn rfl hidle (.inl rfl)) fun r hr => ?_
    exact Ends.pure ⟨⟨st, hst, hr.1⟩, hr.2⟩

theorem GivenUp.put {release : Option Obligation} (h : GivenUp s n a b t (s₁, release)) (hn : b.namespace = n) :
    Ends (s₁.putAuthority { b with phase := .resyncing, pendingRelease := release, afterReleasePhase := afterOf release })
      (GivenUp s n { b with phase := .resyncing, pendingRelease := none, afterReleasePhase := none } b t ⟨·, release⟩)
      Fault.foreign := by
  cases release with
  | none =>
    have hj : ({ b with phase := .resyncing, pendingRelease := none, afterReleasePhase := none } : Authority).Journal :=
      .idle rfl rfl
    exact (h.2.put hj hn).mono (fun _ h₂ => ⟨h.1, h₂⟩) fun _ => id
  | some o => exact (h.2.1.put h.2.2 hn).mono (fun _ h₂ => ⟨h.1, h₂, h.2.2⟩) fun _ => id

theorem GivenUp.turn {r : Store × Option Obligation} {a₁ : Authority} (h : GivenUp s n a₁ b (s.tables n) r)
    (ha : s.authority n = some a) (hidle : a.pendingRelease = none) (hcache : Cache a b (s.tables n) (s.tables n).cleared)
    (hrequired : a.requiredThroughEventSeq ≤ b.requiredThroughEventSeq)
    (hnone : (s.tables n).snapshot = none → a₁.Journal ∧ a₁.pendingRelease = none ∧
      Cache a a₁ (s.tables n) (s.tables n).cleared ∧ (a₁.phase = .resyncing ∨ a₁ = a) ∧
      a.requiredThroughEventSeq ≤ a₁.requiredThroughEventSeq) : Turn C s op r.1 := by
  obtain ⟨s₁, release⟩ := r
  cases release with
  | none =>
    obtain ⟨hst, hat⟩ := h
    obtain ⟨hj, hp, hc, hphase, hle⟩ := hnone hst
    refine .moved ha hat hj (.dropped hc hidle hp (fun st h => ?_) hphase hle)
    rw [hst] at h
    cases h
  | some o =>
    obtain ⟨⟨st, hst, hd⟩, hat, hj⟩ := h
    refine .moved ha hat hj (.released o (.inl ?_) hidle rfl (fun st' h => ?_) hrequired ⟨rfl, rfl, rfl⟩)
    · exact ⟨hcache.cursor, hcache.scopesRevision, hcache.count, hcache.bytes, rfl, rfl⟩
    · rw [hst] at h
      obtain rfl := Option.some.inj h
      exact hd

theorem cache_cleared (a : Authority) (t : Tables) : Cache a a t t.cleared := ⟨rfl, rfl, rfl, rfl, rfl, rfl⟩

/-! ## The operations without a hello -/

theorem beginManualResync_turns (hs : s.Sound) : Turns C s (.beginManualResync n) (beginManualResync s n) := by
  unfold beginManualResync
  cases ha : s.authority n with
  | none => exact Ends.pure (.stays _)
  | some a =>
    cases hp : a.pendingRelease with
    | some o => simpa only [hp] using releasePending_turns hs ha hp
    | none =>
      have hn := Store.namespace_of_authority ha
      simp only [hp]
      refine Ends.bind (giveUpStaged_ends (Store.At.refl ha) hn hp) fun r hr => ?_
      obtain ⟨s₁, release⟩ := r
      refine Ends.bind (GivenUp.put hr hn) fun s₂ h₂ => ?_
      refine Ends.bind (resyncRequired_ends (afterOf_isNone release) (by simp)) fun _ _ => ?_
      refine Ends.pure (h₂.turn ha hp (cache_cleared a _) (le_refl _) fun _ => ?_)
      exact ⟨.idle rfl rfl, rfl, ⟨rfl, rfl, rfl, rfl, rfl, rfl⟩, .inl rfl, le_refl _⟩

theorem discardSnapshot_turns (hs : s.Sound) : Turns C s (.discardSnapshot n) (discardSnapshot s n) := by
  unfold discardSnapshot
  cases ha : s.authority n with
  | none => exact Ends.pure (.stays _)
  | some a =>
    cases hp : a.pendingRelease with
    | some o =>
      simp only [hp]
      exact Ends.pure (.stays _)
    | none =>
      simp only [hp]
      refine (giveUpStaged_ends (Store.At.refl ha) (Store.namespace_of_authority ha) hp).mono (fun r hr => ?_) fun _ => id
      refine hr.turn ha hp (cache_cleared a _) (le_refl _) fun _ => ?_
      exact ⟨hs.journal_of ha, hp, cache_cleared a _, .inr rfl, le_refl _⟩

theorem expireSnapshotContinuation_turns (hs : s.Sound) (requestId snapshotId : String) :
    Turns C s (.expireSnapshotContinuation n requestId snapshotId)
      (expireSnapshotContinuation s n requestId snapshotId) := by
  unfold expireSnapshotContinuation
  cases ha : s.authority n with
  | none => exact Ends.pure (.stays _)
  | some a =>
    cases hp : a.pendingRelease with
    | some o => simpa only [hp] using releasePending_turns hs ha hp
    | none =>
      simp only [hp]
      cases hst : s.snapshot n with
      | none => exact Ends.bind (resyncRequired_ends rfl (by simp)) fun _ _ => Ends.pure (.stays _)
      | some st =>
        simp only []
        refine Ends.ite (fun _ => Ends.pure (.stays _)) fun hsame => ?_
        have hids : st.snapshotRequestId = requestId ∧ st.snapshotId = snapshotId := by simpa using hsame
        have hn := Store.namespace_of_authority ha
        have hj : ({ a with phase := .resyncing, pendingRelease := none } : Authority).Journal :=
          .idle rfl ((hs.journal_of ha).plan_none hp)
        refine Ends.bind ((Store.At.refl ha).put hj hn) fun s₁ h₁ => ?_
        refine Ends.pure (.moved ha h₁.cleared hj
          (.dropped ⟨rfl, rfl, rfl, rfl, rfl, rfl⟩ hp rfl (fun st' h => ?_) (.inl rfl) (le_refl _)))
        have hst' : st' = st := Option.some.inj (h.symm.trans hst)
        rw [hst', hids.1, hids.2]

theorem completeSnapshotRelease_turns (hs : s.Sound) (o : Obligation) :
    Turns C s (.completeSnapshotRelease o) (completeSnapshotRelease s o) := by
  unfold completeSnapshotRelease
  cases ha : s.authority o.namespace with
  | none => exact Ends.pure (.stays _)
  | some a =>
    refine Ends.next (hs.journal_of ha).validated (Ends.ite (fun _ => Ends.pure (.stays _)) fun hsame => ?_)
    have ho : a.pendingRelease = some o := not_not.mp hsame
    obtain ⟨plan, hplan⟩ := (hs.journal_of ha).plan_some ho
    rw [hplan]
    refine Ends.next rfl ?_
    have hn := Store.namespace_of_authority ha
    refine Ends.bind ((Store.At.refl ha).put (.idle rfl rfl) hn) fun s₁ h₁ => ?_
    exact Ends.pure (.moved ha h₁ (.idle rfl rfl) (.completed ho hplan))

/-! ## Rejections -/

def ResyncReason.Released (reason : ResyncReason) : Prop := ∃ r, reason.releaseReason = .ok r

theorem reject_turns {directive : Directive} {reason : ResyncReason} (ha : s.authority n = some a)
    (hidle : a.pendingRelease = none) (hr : reason.Released) (hd : directive.namespace = n)
    (hnames : ∀ st, s.snapshot n = some st → directive = st.releaseDirective n) :
    Turns C s op (reject s a directive reason) := by
  have hn := Store.namespace_of_authority ha
  obtain ⟨name, hname⟩ := hr
  unfold reject
  refine Ends.next hname (Ends.bind (giveUp_ends (Store.At.refl ha) hn hd hidle (.inl rfl)) fun r hr => ?_)
  obtain ⟨hdirective, hat, hj⟩ := hr
  refine Ends.bind (resyncRequired_ends rfl (by simp)) fun _ _ => Ends.pure ?_
  refine .moved ha hat hj (.released r.2 (.inl ⟨rfl, rfl, rfl, rfl, rfl, rfl⟩) hidle rfl (fun st hst => ?_) (le_refl _)
    ⟨rfl, rfl, rfl⟩)
  rw [hdirective]
  exact hnames st hst

theorem staged_error {c : ChunkFields} {existing : Option StoredSnapshot} {reason : ResyncReason}
    (h : c.staged existing = .error reason) : reason.Released := by
  have hcontinues : ∀ r, c.continues existing = .error r → r.Released := by
    intro r hr
    unfold ChunkFields.continues at hr
    cases existing with
    | none =>
      simp only [] at hr
      split at hr
      · cases hr
        exact ⟨_, rfl⟩
      · cases hr
    | some st =>
      simp only [] at hr
      split at hr
      · cases hr
        exact ⟨_, rfl⟩
      · cases hr
  have hends : Ends (c.staged existing) (fun _ => True) ResyncReason.Released := by
    unfold ChunkFields.staged
    refine Ends.ite (fun _ => Ends.error ⟨_, rfl⟩) fun _ => ?_
    refine Ends.bind (P := fun _ => True) ?_ fun base _ => ?_
    · cases hc : c.continues existing with
      | ok _ => trivial
      | error r => exact hcontinues r hc
    · split
      · exact Ends.error ⟨_, rfl⟩
      · refine Ends.ite (fun _ => Ends.error ⟨_, rfl⟩) fun _ => ?_
        exact Ends.ite (fun _ => Ends.error ⟨_, rfl⟩) fun _ => Ends.pure trivial
  exact hends.fault h

theorem stageSnapshotChunk_turns (hs : s.Sound) (c : Chunk) :
    Turns C s (.stageSnapshotChunk c) (stageSnapshotChunk s c) := by
  unfold stageSnapshotChunk
  dsimp only
  cases ha : s.authority c.namespace with
  | none => exact Ends.pure (.stays _)
  | some a =>
    cases hp : a.pendingRelease with
    | some o => simpa only [hp] using releasePending_turns hs ha hp
    | none =>
      simp only [hp]
      refine Ends.ite (fun _ => ?_) fun hphase => ?_
      · exact Ends.bind (resyncRequired_ends rfl (by simp)) fun _ _ => Ends.pure (.stays _)
      · have hr : a.phase = .resyncing := not_not.mp hphase
        cases htaken : c.staged (s.snapshot c.namespace) with
        | error reason =>
          refine reject_turns ha hp (staged_error htaken) ?_ fun st hst => ?_
          · cases s.snapshot c.namespace <;> rfl
          · rw [hst]
            rfl
        | ok updated =>
          refine Ends.pure (.moved ha ?_ (hs.journal_of ha) (.staged rfl hp hr htaken))
          have hat := ((Store.At.refl ha).onTables fun t =>
            { t with records := t.records ++ c.rows ((s.snapshot c.namespace).elim 0 StoredSnapshot.receivedRecords) }).onTables
            fun t => { t with snapshot := some updated }
          exact hat

/-! ## Events -/

/-- The rows of an effect keep the staging and the buffer. -/
def Keeps (t : Tables) (r : Option Effect) : Prop :=
  ∀ f, r = some f → f.rows.snapshot = t.snapshot ∧ f.rows.records = t.records ∧ f.rows.events = t.events

theorem keeps_none : Keeps t none := by simp [Keeps]

theorem keeps_some {f : Effect}
    (h : f.rows.snapshot = t.snapshot ∧ f.rows.records = t.records ∧ f.rows.events = t.events) : Keeps t (some f) := by
  rintro f' ⟨⟩
  exact h

theorem scopeUpsert_ends (revision : Option Nat) (resulting : Nat) (item : ScopeItem) :
    Ends (t.scopeUpsert revision resulting item) (Keeps t) Fault.foreign := by
  unfold Tables.scopeUpsert
  split
  · exact Ends.pure keeps_none
  · refine Ends.bind increment_ends fun _ _ => Ends.ite (fun _ => Ends.pure keeps_none) fun _ => ?_
    split <;> exact Ends.pure (keeps_some ⟨rfl, rfl, rfl⟩)

theorem scopeDelete_ends (revision : Option Nat) (resulting : Nat) (scopeId : String) :
    Ends (t.scopeDelete revision resulting scopeId) (Keeps t) Fault.foreign := by
  unfold Tables.scopeDelete
  split
  · exact Ends.pure keeps_none
  · refine Ends.bind increment_ends fun _ _ => Ends.ite (fun _ => Ends.pure keeps_none) fun _ => ?_
    split
    · exact Ends.pure keeps_none
    · exact Ends.pure (keeps_some ⟨rfl, rfl, rfl⟩)

theorem sessionUpsert_ends (revision : Option Nat) (resulting : Nat) (item : SessionItem) :
    Ends (t.sessionUpsert revision resulting item) (Keeps t) Fault.foreign := by
  unfold Tables.sessionUpsert
  split
  · exact Ends.pure keeps_none
  · refine Ends.bind increment_ends fun _ _ => Ends.ite (fun _ => Ends.pure keeps_none) fun _ => ?_
    dsimp only
    split <;> exact Ends.pure (keeps_some ⟨rfl, rfl, rfl⟩)

theorem sessionDelete_ends (revision : Option Nat) (resulting : Nat) (scopeId sessionId : String) :
    Ends (t.sessionDelete revision resulting scopeId sessionId) (Keeps t) Fault.foreign := by
  unfold Tables.sessionDelete
  split
  · exact Ends.pure keeps_none
  · refine Ends.bind increment_ends fun _ _ => Ends.ite (fun _ => Ends.pure keeps_none) fun _ => ?_
    split
    · exact Ends.pure keeps_none
    · exact Ends.pure (keeps_some ⟨rfl, rfl, rfl⟩)

theorem applyChange_ends (revision : Option Nat) (resulting : Nat) (change : Change) :
    Ends (t.applyChange revision resulting change) (Keeps t) Fault.foreign := by
  cases change with
  | scopeUpsert item => exact scopeUpsert_ends revision resulting item
  | scopeDelete scopeId => exact scopeDelete_ends revision resulting scopeId
  | sessionUpsert item => exact sessionUpsert_ends revision resulting item
  | sessionDelete scopeId sessionId => exact sessionDelete_ends revision resulting scopeId sessionId

theorem Advances.keeps {e : Event} {a' : Authority} {t' : Tables} (h : Advances a t e a' t') :
    t'.snapshot = t.snapshot ∧ t'.records = t.records ∧ t'.events = t.events := by
  obtain ⟨f, hf, rfl, -⟩ := h.effect
  exact (applyChange_ends _ _ _).value hf f rfl

theorem applyLiveEvent_ends (e : Event) :
    Ends (applyLiveEvent s a e) (fun r => ∀ s' a', r = some (s', a') →
      ∃ t', s' = s.onTables e.namespace (fun _ => t') ∧ Advances a (s.tables e.namespace) e a' t') Fault.foreign := by
  unfold applyLiveEvent
  cases hc : a.cursorEventSeq with
  | none => exact Ends.pure (by simp)
  | some c =>
    refine Ends.bind increment_ends fun next hnext => Ends.ite (fun _ => Ends.pure (by simp)) fun hseq => ?_
    have hnumber : e.eventSeq = c + 1 := (not_not.mp hseq).trans hnext
    refine Ends.seq (fun effect heffect => ?_) fun f hf => (applyChange_ends _ _ _).fault hf
    cases effect with
    | none => exact Ends.pure (by simp)
    | some f =>
      refine Ends.ite (fun _ => Ends.pure (by simp)) fun _ => Ends.pure ?_
      intro s' a' h
      cases h
      exact ⟨f.rows, rfl, ⟨c, hc, hnumber⟩, f, heffect, rfl, rfl⟩

theorem raised_cache (e : Nat) : Cache a (a.raised e) t t := ⟨rfl, rfl, rfl, rfl, rfl, rfl⟩

theorem raised_required (e : Nat) : a.requiredThroughEventSeq ≤ (a.raised e).requiredThroughEventSeq := le_max_left _ _

theorem raised_journal (h : a.Journal) (e : Nat) : (a.raised e).Journal := by
  cases hp : a.pendingRelease with
  | none => exact .idle hp (by simp [Authority.raised, hp])
  | some o =>
    have hphase : (a.raised e).phase = .resyncing := by simp [Authority.raised, hp]
    by_cases hq : (a.afterReleasePhase = some .queryPendingCommands &&
        o.durableCursorEventSeq.any (max a.requiredThroughEventSeq e ≤ ·)) = true
    · have hplan : (a.raised e).afterReleasePhase = some .queryPendingCommands := by
        simp only [Authority.raised, hp, Option.map_some]
        rw [if_pos hq]
      simp only [Bool.and_eq_true, decide_eq_true_eq] at hq
      obtain ⟨c, hc, hle⟩ := (Option.any_eq_true _ _).mp hq.2
      exact .queried hp hplan (h.names o hp) hphase (h.cursor o hp) ((h.cursor o hp).symm.trans hc)
        (of_decide_eq_true hle) (h.reason o hp hq.1)
    · have hplan : (a.raised e).afterReleasePhase = some .restartSnapshot := by
        simp only [Authority.raised, hp, Option.map_some]
        rw [if_neg hq]
      exact .restart hp hplan (h.names o hp) hphase (h.cursor o hp)

theorem bufferedEvent_none {e : Nat} (h : s.bufferedEvent n e = none) : ∀ e' ∈ (s.tables n).events, e'.eventSeq ≠ e := by
  intro e' he' heq
  have := List.find?_eq_none.mp h e' he'
  exact this (decide_eq_true heq)

theorem bufferEventWhileReleasePending_turns {e : Event} (ha : s.authority e.namespace = some a)
    (hat : s.At s₁ e.namespace b (s.tables e.namespace)) (hb : b = a.raised e.eventSeq) (hj : b.Journal)
    (hsome : b.pendingRelease.isSome) :
    Turns C s (.applyStateEvent e) (bufferEventWhileReleasePending s₁ b e) := by
  obtain ⟨o, ho⟩ := Option.isSome_iff_exists.mp hsome
  have hn := Store.namespace_of_authority hat.here
  have hp : a.pendingRelease = some o := by
    rw [hb] at ho
    exact ho
  have hvalidated : b.validatedPendingRelease = .ok (some o) := by rw [hj.validated, ho]
  unfold bufferEventWhileReleasePending
  refine Ends.next hvalidated (Ends.next rfl ?_)
  set b' : Authority := { b with phase := .resyncing, afterReleasePhase := some .restartSnapshot } with hb'
  have hj' : b'.Journal := .restart ho rfl (hj.names o ho) rfl (hj.cursor o ho)
  have hcache : Cache a b' (s.tables e.namespace) (s.tables e.namespace) := by
    rw [hb', hb]
    exact ⟨rfl, rfl, rfl, rfl, rfl, rfl⟩
  have hpending : b'.pendingRelease = a.pendingRelease := ho.trans hp.symm
  have hrequired : a.requiredThroughEventSeq ≤ b'.requiredThroughEventSeq := by
    rw [hb', hb]
    exact raised_required _
  have hreached : e.eventSeq ≤ b'.requiredThroughEventSeq := by
    rw [hb', hb]
    exact le_max_right _ _
  refine Ends.bind (hat.put hj' hn) fun s₂ h₂ => ?_
  have hemptied : Turn C s (.applyStateEvent e) (s₂.deleteBufferedEvents e.namespace) :=
    .moved ha (h₂.onTables fun t => { t with events := [] }) hj'
      (.kept (.inl ⟨hcache.cursor, hcache.scopesRevision, hcache.count, hcache.bytes, rfl, rfl⟩) hpending rfl hrequired
        ⟨rfl, rfl⟩ (.inr (.inl rfl)))
  split
  · exact Ends.ite (fun _ => Ends.pure (.moved ha h₂ hj' (.kept (.inl hcache) hpending rfl hrequired ⟨rfl, rfl⟩ (.inl rfl))))
      fun _ => Ends.pure hemptied
  · rename_i hnew
    refine Ends.ite (fun _ => Ends.pure hemptied) fun _ => Ends.bind (eventBuffered_ends hreached) fun _ _ => Ends.pure ?_
    have hfresh := bufferedEvent_none hnew
    rw [h₂.rows] at hfresh
    exact .moved ha (h₂.onTables fun t => { t with events := t.events ++ [e] }) hj'
      (.kept (.inl ⟨hcache.cursor, hcache.scopesRevision, hcache.count, hcache.bytes, rfl, rfl⟩) hpending rfl hrequired
        ⟨rfl, rfl⟩ (.inr (.inr ⟨e, rfl, rfl, rfl, hfresh, hreached⟩)))

theorem raised_idle (hidle : a.pendingRelease = none) (e : Nat) :
    (a.raised e).pendingRelease = none ∧ (a.raised e).afterReleasePhase = none ∧ (a.raised e).phase = a.phase := by
  simp [Authority.raised, hidle]

theorem bufferEventOrRestart_turns {e : Event} {reason : ResyncReason} (ha : s.authority e.namespace = some a)
    (hidle : a.pendingRelease = none) (hb : b = a.raised e.eventSeq)
    (hat : s.At s₁ e.namespace { b with phase := .resyncing } (s.tables e.namespace))
    (hlater : ∀ c, b.cursorEventSeq = some c → c < b.requiredThroughEventSeq) :
    Turns C s (.applyStateEvent e) (bufferEventOrRestart s₁ b e reason) := by
  have hbn : b.namespace = e.namespace := Store.namespace_of_authority (a := { b with phase := .resyncing }) hat.here
  obtain ⟨hbidle, hbplan, -⟩ : b.pendingRelease = none ∧ b.afterReleasePhase = none ∧ b.phase = a.phase := by
    rw [hb]
    exact raised_idle hidle _
  have hj : ({ b with phase := .resyncing } : Authority).Journal := .idle hbidle hbplan
  have hcache : Cache a b (s.tables e.namespace) (s.tables e.namespace).cleared := by
    rw [hb]
    exact ⟨rfl, rfl, rfl, rfl, rfl, rfl⟩
  have hrequired : a.requiredThroughEventSeq ≤ b.requiredThroughEventSeq := by
    rw [hb]
    exact raised_required _
  have hreached : e.eventSeq ≤ b.requiredThroughEventSeq := by
    rw [hb]
    exact le_max_right _ _
  have hanswer : ∀ r release, Ends (restartAnswer b e r release) (fun _ => True) Fault.foreign := fun r release =>
    resyncRequired_ends (afterOf_isNone release) fun _ => ⟨_, rfl, hlater⟩
  unfold bufferEventOrRestart
  dsimp only
  split
  · refine Ends.ite (fun _ => Ends.pure ?_) fun _ => ?_
    · exact .moved ha hat hj (.kept (.inl ⟨hcache.cursor, hcache.scopesRevision, hcache.count, hcache.bytes, rfl, rfl⟩)
        (hbidle.trans hidle.symm) rfl hrequired ⟨rfl, rfl⟩ (.inl rfl))
    · refine Ends.bind (giveUpStaged_ends hat hbn hbidle) fun r hr => Ends.bind (hanswer _ _) fun _ _ => Ends.pure ?_
      refine hr.turn ha hidle hcache hrequired fun _ => ⟨hj, hbidle, ?_, .inl rfl, hrequired⟩
      exact ⟨hcache.cursor, hcache.scopesRevision, hcache.count, hcache.bytes, rfl, rfl⟩
  · rename_i hnew
    refine Ends.ite (fun _ => ?_) fun _ => ?_
    · refine Ends.bind (giveUpStaged_ends hat hbn hbidle) fun r hr => ?_
      obtain ⟨s₂, release⟩ := r
      refine Ends.bind (GivenUp.put hr hbn) fun s₃ h₃ => Ends.bind (hanswer _ _) fun _ _ => Ends.pure ?_
      refine h₃.turn ha hidle hcache hrequired fun _ => ⟨.idle rfl rfl, rfl, ?_, .inl rfl, hrequired⟩
      exact ⟨hcache.cursor, hcache.scopesRevision, hcache.count, hcache.bytes, rfl, rfl⟩
    · have hfresh := bufferedEvent_none hnew
      rw [hat.rows] at hfresh
      have hturn : Turn C s (.applyStateEvent e) (s₁.putBufferedEvent e) :=
        .moved ha (hat.onTables fun t => { t with events := t.events ++ [e] }) hj
          (.kept (.inl ⟨hcache.cursor, hcache.scopesRevision, hcache.count, hcache.bytes, rfl, rfl⟩)
            (hbidle.trans hidle.symm) rfl hrequired ⟨rfl, rfl⟩
            (.inr (.inr ⟨e, rfl, rfl, rfl, hfresh, hreached⟩)))
      refine Ends.ite (fun _ => ?_) fun _ => ?_
      · exact Ends.bind (eventBuffered_ends hreached) fun _ _ => Ends.pure hturn
      · exact Ends.bind (resyncRequired_ends rfl (by simp)) fun _ _ => Ends.pure hturn

theorem nextEvent_ends (cursor : Option Nat) : Ends (nextEvent cursor) (fun _ => True) Fault.foreign := by
  cases cursor with
  | none => exact Ends.ok trivial
  | some c => exact Ends.map (increment_ends.mono (fun _ _ => trivial) fun _ => id)

theorem applyStateEvent_turns (hs : s.Sound) (e : Event) :
    Turns C s (.applyStateEvent e) (applyStateEvent s e) := by
  unfold applyStateEvent
  dsimp only
  cases ha : s.authority e.namespace with
  | none => exact Ends.pure (.stays _)
  | some a =>
    refine Ends.ite (fun _ => Ends.pure (.stays _)) fun hnew => ?_
    have hn := Store.namespace_of_authority ha
    set b : Authority := a.raised e.eventSeq with hb
    have hj : b.Journal := raised_journal (hs.journal_of ha) _
    have hlater : ∀ c, b.cursorEventSeq = some c → c < b.requiredThroughEventSeq := by
      intro c hc
      have hlt : c < e.eventSeq := by
        have hcur : a.cursorEventSeq = some c := hc
        simpa [hcur] using hnew
      exact hlt.trans_le (le_max_right _ _)
    refine Ends.bind ((Store.At.refl ha).put hj hn) fun s₁ h₁ => Ends.ite (fun hsome => ?_) fun hnone => ?_
    · exact bufferEventWhileReleasePending_turns ha h₁ hb hj hsome
    · have hbidle : b.pendingRelease = none := Option.not_isSome_iff_eq_none.mp hnone
      have hidle : a.pendingRelease = none := hbidle
      have hplan := hj.plan_none hbidle
      have hjr : ({ b with phase := .resyncing } : Authority).Journal := .idle hbidle hplan
      refine Ends.ite (fun hlive => ?_) fun hlive => ?_
      · refine Ends.bind (nextEvent_ends b.cursorEventSeq) fun next _ => Ends.ite (fun _ => ?_) fun _ => ?_
        · refine Ends.bind (applyLiveEvent_ends e) fun applied happlied => ?_
          split
          · rename_i s₂ b'
            obtain ⟨t', hs₂, hadv⟩ := happlied s₂ b' rfl
            rw [h₁.rows] at hadv
            obtain ⟨f, -, -, hb'⟩ := hadv.effect
            have hj' : b'.Journal := by
              rw [hb']
              exact .idle hbidle hplan
            have hn' : b'.namespace = e.namespace := by
              rw [hb']
              exact hn
            have h₂ : s.At s₂ e.namespace b t' := by
              rw [hs₂]
              exact h₁.onTables fun _ => t'
            refine Ends.bind (h₂.put hj' hn') fun s₃ h₃ => Ends.pure ?_
            exact .moved ha h₃ hj' (.applied rfl hidle ((raised_idle hidle _).2.2.symm.trans hlive) hadv)
          · refine Ends.bind (h₁.put hjr hn) fun s₂ h₂ => ?_
            exact bufferEventOrRestart_turns ha hidle hb h₂ hlater
        · refine Ends.bind (h₁.put hjr hn) fun s₂ h₂ => ?_
          exact bufferEventOrRestart_turns ha hidle hb h₂ hlater
      · have hsame : ({ b with phase := .resyncing } : Authority) = b := by
          have hphase : b.phase = .resyncing := by
            cases hph : b.phase with
            | live => exact absurd hph hlive
            | resyncing => rfl
          rw [← hphase]
        refine bufferEventOrRestart_turns ha hidle hb ?_ hlater
        rw [hsame]
        exact h₁

/-! ## The commit -/

/-- The number of the last event, from `seq` on. -/
def lastSeqOf (seq : Nat) (events : List Event) : Nat := events.foldl (fun _ e => e.eventSeq) seq

theorem Advances.same {e : Event} {a' : Authority} {t' : Tables} (h : Advances a t e a' t') :
    a'.namespace = a.namespace ∧ a'.requiredThroughEventSeq = a.requiredThroughEventSeq ∧ a'.phase = a.phase ∧
      a'.pendingRelease = a.pendingRelease ∧ a'.afterReleasePhase = a.afterReleasePhase ∧
      a'.cursorEventSeq = some e.eventSeq := by
  obtain ⟨f, -, -, rfl⟩ := h.effect
  exact ⟨rfl, rfl, rfl, rfl, rfl, rfl⟩

theorem AdvancesAll.same {events : List Event} {a' : Authority} {t' : Tables} (h : AdvancesAll a t events a' t') :
    a'.namespace = a.namespace ∧ a'.requiredThroughEventSeq = a.requiredThroughEventSeq ∧ a'.phase = a.phase ∧
      a'.pendingRelease = a.pendingRelease ∧ a'.afterReleasePhase = a.afterReleasePhase := by
  induction h with
  | nil => exact ⟨rfl, rfl, rfl, rfl, rfl⟩
  | cons first _ ih =>
    obtain ⟨h₁, h₂, h₃, h₄, h₅, -⟩ := first.same
    exact ⟨ih.1.trans h₁, ih.2.1.trans h₂, ih.2.2.1.trans h₃, ih.2.2.2.1.trans h₄, ih.2.2.2.2.trans h₅⟩

theorem AdvancesAll.cursor {events : List Event} {a' : Authority} {t' : Tables} (h : AdvancesAll a t events a' t') {c : Nat}
    (hc : a.cursorEventSeq = some c) : a'.cursorEventSeq = some (lastSeqOf c events) := by
  induction h generalizing c with
  | nil => exact hc
  | cons first _ ih => exact ih first.same.2.2.2.2.2

theorem commitRecord_ends (p : Tables × Option ScopeItem) (r : Record) :
    Ends (commitRecord p r) (fun _ => True) Fault.foreign := by
  obtain ⟨t, waiting⟩ := p
  cases waiting <;> cases r <;> simp only [commitRecord] <;>
    first
    | exact Ends.ok trivial
    | exact Ends.error rfl
    | exact Ends.ite (fun _ => Ends.ok trivial) fun _ => Ends.error rfl

theorem commitFold_ends (rs : List Record) (p : Tables × Option ScopeItem) :
    Ends (rs.foldlM commitRecord p) (fun _ => True) Fault.foreign := by
  induction rs generalizing p with
  | nil => exact Ends.pure trivial
  | cons r rs ih => exact Ends.bind (commitRecord_ends p r) fun p _ => ih p

theorem commitRecords_ends (t : Tables) (rs : List Record) : Ends (commitRecords t rs) (fun _ => True) Fault.foreign := by
  unfold commitRecords
  exact Ends.bind (commitFold_ends rs _) fun _ _ => Ends.bind (check_ends rfl) fun _ _ => Ends.pure trivial

theorem change_ends {snapshotId : String} {v : Shadows} (resulting : Nat) (change : Change) :
    Ends (v.change t snapshotId resulting change) (fun r => ∀ reason, r = .error reason → reason.Released)
      Fault.foreign := by
  have hconflict : ∀ reason, (.error ResyncReason.eventRevisionConflict : Except ResyncReason Shadows) = .error reason →
      reason.Released := by
    intro reason h
    cases h
    exact ⟨_, rfl⟩
  cases change with
  | scopeUpsert item =>
    refine Ends.bind increment_ends fun _ _ => Ends.ite (fun _ => Ends.pure hconflict) fun _ => ?_
    split <;> exact Ends.pure (by simp)
  | scopeDelete scopeId =>
    refine Ends.bind increment_ends fun _ _ => Ends.ite (fun _ => Ends.pure hconflict) fun _ => ?_
    split
    · exact Ends.pure hconflict
    · exact Ends.pure (by simp)
  | sessionUpsert item =>
    rw [Shadows.change]
    split
    · exact Ends.pure hconflict
    · exact Ends.bind increment_ends fun _ _ => Ends.ite (fun _ => Ends.pure hconflict) fun _ => Ends.pure (by simp)
  | sessionDelete scopeId sessionId =>
    rw [Shadows.change]
    split
    · exact Ends.pure hconflict
    · refine Ends.bind increment_ends fun _ _ => Ends.ite (fun _ => Ends.pure hconflict) fun _ => ?_
      split
      · exact Ends.pure hconflict
      · exact Ends.pure (by simp)

theorem validateFrom_ends {snapshotId : String} (events : List Event) (v : Shadows) :
    Ends (validateFrom t snapshotId v events) (fun r => (∀ reason, r.failure = some reason → reason.Released) ∧
      (r.failure = none → r.lastEventSeq = lastSeqOf v.lastSeq events)) Fault.foreign := by
  have hgap : ResyncReason.eventGap.Released := ⟨_, rfl⟩
  have hlimit : ResyncReason.snapshotLimitExceeded.Released := ⟨_, rfl⟩
  induction events generalizing v with
  | nil => exact Ends.ok ⟨by simp, fun _ => rfl⟩
  | cons e rest ih =>
    unfold validateFrom
    refine Ends.bind increment_ends fun _ _ => Ends.ite (fun _ => Ends.pure ⟨?_, by simp⟩) fun _ => ?_
    · rintro reason ⟨⟩
      exact hgap
    refine Ends.bind (change_ends _ _) fun changed hchanged => ?_
    cases changed with
    | error reason =>
      refine Ends.pure ⟨?_, by simp⟩
      rintro reason' ⟨⟩
      exact hchanged reason rfl
    | ok changed =>
      refine Ends.ite (fun _ => Ends.pure ⟨?_, by simp⟩) fun _ => ih _
      rintro reason ⟨⟩
      exact hlimit

theorem commitFailure_ends {st : StoredSnapshot} {snapshotId : String} {buffered : List Event} :
    Ends (commitFailure C t a st snapshotId buffered) (fun r => (∀ reason, r = some reason → reason.Released) ∧
      (r = none → a.requiredThroughEventSeq ≤ lastSeqOf st.throughEventSeq buffered)) Fault.foreign := by
  have hreleased : ∀ reason : ResyncReason, reason.Released →
      ∀ reason', (some reason : Option ResyncReason) = some reason' → reason'.Released := by
    rintro reason h reason' ⟨⟩
    exact h
  unfold commitFailure
  refine Ends.ite (fun _ => Ends.pure ⟨hreleased _ ⟨_, rfl⟩, by simp⟩) fun _ => ?_
  refine Ends.ite (fun _ => Ends.pure ⟨hreleased _ ⟨_, rfl⟩, by simp⟩) fun _ => ?_
  refine Ends.bind (P := fun _ => True) (Ends.bind (check_ends rfl) fun _ _ => Ends.pure trivial) fun actual _ => ?_
  refine Ends.ite (fun _ => Ends.pure ⟨hreleased _ ⟨_, rfl⟩, by simp⟩) fun _ => ?_
  refine Ends.ite (fun _ => Ends.pure ⟨hreleased _ ⟨_, rfl⟩, by simp⟩) fun _ => ?_
  refine Ends.bind (validateFrom_ends buffered _) fun validation hvalidation => ?_
  refine Ends.ite (fun _ => Ends.pure ⟨hreleased _ ?_, by simp⟩) fun hvalid => Ends.pure ⟨by simp, fun _ => ?_⟩
  · cases hf : validation.failure with
    | none => exact ⟨_, rfl⟩
    | some reason => exact hvalidation.1 reason hf
  · simp only [Bool.or_eq_true, decide_eq_true_eq, not_or, not_lt] at hvalid
    have hnone : validation.failure = none := Option.not_isSome_iff_eq_none.mp hvalid.1
    exact hvalid.2.trans_eq (hvalidation.2 hnone)

theorem applyBuffered_ends {a₁ : Authority} (events : List Event) (hevents : ∀ e ∈ events, e.namespace = n)
    (h : s.At s₁ n b t) :
    Ends (applyBuffered (s₁, a₁) events) (fun r => ∃ t', s.At r.1 n b t' ∧ AdvancesAll a₁ t events r.2 t')
      Fault.foreign := by
  induction events generalizing s₁ a₁ t with
  | nil => exact Ends.ok ⟨t, h, .nil _ _⟩
  | cons e rest ih =>
    have he : e.namespace = n := hevents e List.mem_cons_self
    refine Ends.bind (applyLiveEvent_ends e) fun applied happlied => ?_
    cases applied with
    | none => exact Ends.error rfl
    | some sa =>
      obtain ⟨s₂, a₂⟩ := sa
      obtain ⟨t₂, hs₂, hadv⟩ := happlied s₂ a₂ rfl
      rw [he, h.rows] at hadv
      have h₂ : s.At s₂ n b t₂ := by
        rw [hs₂, he]
        exact h.onTables fun _ => t₂
      refine Ends.next rfl ((ih (fun e he => hevents e (List.mem_cons_of_mem _ he)) h₂).mono (fun r hr => ?_) fun _ => id)
      obtain ⟨t', hat, hall⟩ := hr
      exact ⟨t', hat, .cons hadv hall⟩

theorem bufferedEvents_mem {e : Event} (h : e ∈ s.bufferedEvents n) : e ∈ (s.tables n).events :=
  (List.mem_insertionSort _).mp h

theorem commitCut_turns (hs : s.Sound) (ha : s.authority n = some a) (hidle : a.pendingRelease = none) {st : StoredSnapshot}
    (hst : s.snapshot n = some st) {snapshotId : String}
    (hsound : commitFailure C (s.tables n) a st snapshotId (s.bufferedAfter n st) = .ok none) :
    Turns C s (.commitSnapshot n snapshotId) (commitCut s a st (s.bufferedAfter n st)) := by
  have hn := Store.namespace_of_authority ha
  have hreached := (commitFailure_ends.value hsound).2 rfl
  have hevents : ∀ e ∈ s.bufferedAfter n st, e.namespace = n := fun e he =>
    hs.addressed n e (bufferedEvents_mem (List.mem_of_mem_filter he))
  subst hn
  unfold commitCut
  dsimp only
  refine Ends.seq (fun rows hrows => ?_) fun f hf => (commitRecords_ends _ _).fault hf
  refine Ends.bind (applyBuffered_ends _ hevents ((Store.At.refl ha).onTables fun _ => rows)) fun r hr => ?_
  obtain ⟨s₂, a₂⟩ := r
  obtain ⟨t₂, h₂, hall⟩ := hr
  obtain ⟨hn₂, hrequired, -, hpending, -⟩ := hall.same
  have hcursor := hall.cursor (c := st.throughEventSeq) rfl
  have hquery : a₂.requiredThroughEventSeq ≤ lastSeqOf st.throughEventSeq (s.bufferedAfter a.namespace st) := by
    rw [hrequired]
    exact hreached
  refine Ends.bind (giveUp_ends h₂ hn₂ rfl (hpending.trans hidle)
    (.inr ⟨rfl, ⟨_, hcursor, hquery⟩, .inl rfl⟩)) fun r hr => ?_
  obtain ⟨s₃, o⟩ := r
  obtain ⟨hdirective, h₃, hj⟩ := hr
  refine Ends.next (a := lastSeqOf st.throughEventSeq (s.bufferedAfter a.namespace st)) (by rw [hcursor]; rfl) (Ends.pure ?_)
  exact .moved ha h₃ hj (.committed hidle hst hsound hrows hall hdirective)

theorem commitSnapshot_turns (hs : s.Sound) (snapshotId : String) :
    Turns C s (.commitSnapshot n snapshotId) (commitSnapshot C s n snapshotId) := by
  unfold commitSnapshot
  cases ha : s.authority n with
  | none => exact Ends.pure (.stays _)
  | some a =>
    cases hp : a.pendingRelease with
    | some o => simpa only [hp] using releasePending_turns hs ha hp
    | none =>
      simp only [hp]
      cases hst : s.snapshot n with
      | none => exact Ends.bind (resyncRequired_ends rfl (by simp)) fun _ _ => Ends.pure (.stays _)
      | some st =>
        refine Ends.seq (fun failure hfailure => ?_) fun f hf => commitFailure_ends.fault hf
        cases failure with
        | some reason =>
          refine reject_turns ha hp ((commitFailure_ends.value hfailure).1 reason rfl) rfl fun st' hst' => ?_
          obtain rfl := Option.some.inj (hst.symm.trans hst')
          rfl
        | none => exact commitCut_turns hs ha hp hst hfailure

end Sync
end TmuxWorktree
