import TmuxWorktree.Sync.Welcome
/-!
# Obligations — no release is lost and none is doubled

The store stays in order over every run, and the journal of each turn says where an obligation comes from and how it goes.
-/
namespace TmuxWorktree
namespace Sync

variable {C : Core} {s s' : Store} {n : Namespace} {a a' : Authority} {t t' : Tables} {op : Op}

/-- **Every operation is a turn**, or it fails with a foreign fault. -/
theorem step_turns (hs : s.Sound) (op : Op) : Turns C s op (step C s op) := by
  cases op with
  | hello plan h => exact Ends.map (applyHello_turns hs plan h)
  | beginManualResync n => exact Ends.map (beginManualResync_turns hs)
  | stageSnapshotChunk c => exact Ends.map (stageSnapshotChunk_turns hs c)
  | applyStateEvent e => exact Ends.map (applyStateEvent_turns hs e)
  | commitSnapshot n snapshotId => exact Ends.map (commitSnapshot_turns hs snapshotId)
  | discardSnapshot n => exact Ends.map (discardSnapshot_turns hs)
  | completeSnapshotRelease expected => exact Ends.map (completeSnapshotRelease_turns hs expected)
  | expireSnapshotContinuation n requestId snapshotId =>
    exact Ends.map (expireSnapshotContinuation_turns hs requestId snapshotId)
  | clearProfile profileId => exact Ends.ok (.cleared profileId)

/-! ## The store stays in order -/

theorem Store.Sound.of (keys : (s.authorities.map Authority.namespace).Nodup)
    (rows : ∀ m b, s.authority m = some b → b.Journal ∧ (b.pendingRelease.isSome ∨ b.phase = .live → s.snapshot m = none) ∧
      (b.phase = .live → b.cursorEventSeq.isSome))
    (single : ∀ m m' b b', s.authority m = some b → s.authority m' = some b' →
      m.connectIdentity = m'.connectIdentity → m = m')
    (hosted : ∀ m, (s.snapshot m).isSome → (s.authority m).isSome)
    (addressed : ∀ m, ∀ e ∈ (s.tables m).events, e.namespace = m) : s.Sound where
  keys := keys
  journal := fun b hb => (rows b.namespace b (Keyed.find_of_mem keys hb)).1
  single := by
    intro b hb b' hb' hi
    have hfind := Keyed.find_of_mem keys hb
    have hfind' := Keyed.find_of_mem keys hb'
    have hn := single _ _ b b' hfind hfind' hi
    rw [hn] at hfind
    exact Option.some.inj (hfind.symm.trans hfind')
  unstaged := fun b hb => (rows b.namespace b (Keyed.find_of_mem keys hb)).2.1
  seated := fun b hb => (rows b.namespace b (Keyed.find_of_mem keys hb)).2.2
  hosted := hosted
  addressed := addressed

theorem Store.Sound.unstaged_of (hs : s.Sound) (ha : s.authority n = some a)
    (h : a.pendingRelease.isSome ∨ a.phase = .live) : s.snapshot n = none := by
  rw [← Store.namespace_of_authority ha]
  exact hs.unstaged a (Store.mem_of_authority ha) h

theorem Store.Sound.single_of (hs : s.Sound) {m : Namespace} {b : Authority} (ha : s.authority n = some a)
    (hb : s.authority m = some b) (hi : n.connectIdentity = m.connectIdentity) : n = m := by
  have hn := Store.namespace_of_authority ha
  have hm := Store.namespace_of_authority hb
  have := hs.single a (Store.mem_of_authority ha) b (Store.mem_of_authority hb) (by rw [hn, hm, hi])
  rw [← hn, ← hm, this]

theorem Store.Sound.place (hs : s.Sound) (ha : s.authority n = some a) (hat : s.At s' n a' t') (hj : a'.Journal)
    (hun : a'.pendingRelease.isSome ∨ a'.phase = .live → t'.snapshot = none)
    (hseat : a'.phase = .live → a'.cursorEventSeq.isSome) (haddr : ∀ e ∈ t'.events, e.namespace = n) : s'.Sound := by
  have hsome : ∀ m b, s'.authority m = some b → ∃ b₀, s.authority m = some b₀ := by
    intro m b hb
    by_cases hm : m = n
    · exact ⟨a, hm ▸ ha⟩
    · exact ⟨b, (hat.elsewhere m hm).1.symm.trans hb⟩
  refine .of (hat.keys hs.keys) (fun m b hb => ?_) (fun m m' b b' hb hb' hi => ?_) (fun m hm => ?_) fun m e he => ?_
  · by_cases hm : m = n
    · subst hm
      obtain rfl := Option.some.inj (hb.symm.trans hat.here)
      rw [hat.snapshot]
      exact ⟨hj, hun, hseat⟩
    · have hb₀ : s.authority m = some b := (hat.elsewhere m hm).1.symm.trans hb
      have hsnap : s'.snapshot m = s.snapshot m := by
        unfold Store.snapshot
        rw [(hat.elsewhere m hm).2]
      rw [hsnap]
      exact ⟨hs.journal_of hb₀, hs.unstaged_of hb₀, hs.seated b (Store.mem_of_authority hb₀)⟩
  · obtain ⟨b₀, hb₀⟩ := hsome m b hb
    obtain ⟨b₁, hb₁⟩ := hsome m' b' hb'
    exact hs.single_of hb₀ hb₁ hi
  · by_cases h : m = n
    · rw [h, hat.here]
      rfl
    · rw [(hat.elsewhere m h).1]
      refine hs.hosted m ?_
      unfold Store.snapshot at hm ⊢
      rwa [(hat.elsewhere m h).2] at hm
  · by_cases h : m = n
    · subst h
      rw [hat.rows] at he
      exact haddr e he
    · rw [(hat.elsewhere m h).2] at he
      exact hs.addressed m e he

theorem Moved.sound (hs : s.Sound) (ha : s.authority n = some a) (hat : s.At s' n a' t') (hj : a'.Journal)
    (h : Moved C s n a (s.tables n) op a' t') : s'.Sound := by
  have haddr := hs.addressed n
  cases h with
  | kept held pending phase required staging events =>
    refine hs.place ha hat hj (fun hor => ?_) (fun hl => ?_) ?_
    · rw [staging.1]
      refine hs.unstaged_of ha (.inl ?_)
      rcases hor with hp | hl
      · rwa [← pending]
      · rw [phase] at hl
        cases hl
    · rw [phase] at hl
      cases hl
    · intro e he
      rcases events with hsame | hnil | ⟨e', -, hn, happ, -⟩
      · exact haddr e (hsame ▸ he)
      · rw [hnil] at he
        cases he
      · rw [happ, List.mem_append, List.mem_singleton] at he
        exact he.elim (haddr e) fun h => h ▸ hn
  | released o held idle pending names required cleared =>
    refine hs.place ha hat hj (fun _ => cleared.1) (fun hl => ?_) ?_
    · have := hj.resyncing (by rw [pending]; rfl)
      rw [this] at hl
      cases hl
    · rw [cleared.2.2]
      simp
  | dropped cache idle pending gone phase required =>
    refine hs.place ha hat hj (fun _ => rfl) (fun hl => ?_) (by simp [Tables.cleared])
    rcases phase with hr | hsame
    · rw [hr] at hl
      cases hl
    · subst hsame
      exact hs.seated _ (Store.mem_of_authority ha) hl
  | matched cache idle pending unstaged phase required reached =>
    refine hs.place ha hat hj (fun _ => rfl) (fun _ => ?_) (by simp [Tables.cleared])
    obtain ⟨c, hc, -⟩ := reached
    rw [hc]
    rfl
  | staged _ idle phase taken =>
    refine hs.place ha hat hj (fun hor => ?_) (hs.seated a (Store.mem_of_authority ha)) haddr
    rw [idle, phase] at hor
    simp at hor
  | applied _ idle phase advances =>
    obtain ⟨hsnap, -, hevents⟩ := advances.keeps
    refine hs.place ha hat hj (fun _ => ?_) (fun _ => ?_) ?_
    · rw [hsnap]
      exact hs.unstaged_of ha (.inr phase)
    · rw [advances.same.2.2.2.2.2]
      rfl
    · rw [hevents]
      exact haddr
  | committed idle staging sound written advanced names =>
    refine hs.place ha hat hj (fun _ => rfl) (fun hl => ?_) (by simp [Tables.cleared])
    cases hl
  | completed pending planned =>
    refine hs.place ha hat hj (fun _ => ?_) (fun hl => ?_) haddr
    · exact hs.unstaged_of ha (.inl (by rw [pending]; rfl))
    · rename_i plan
      cases plan with
      | restartSnapshot => cases hl
      | queryPendingCommands =>
        obtain ⟨c, hc, -⟩ := (hs.journal_of ha).query planned
        rw [hc]
        rfl

theorem Founded.sound {h : Hello} (hs : s.Sound) (hj : a'.Journal) (hf : Founded s h s' a') : s'.Sound := by
  have hwhere : ∀ m b, s'.authority m = some b → m = h.namespace ∧ b = a' ∨
      m.connectIdentity ≠ h.namespace.connectIdentity ∧ s.authority m = some b ∧ s'.tables m = s.tables m := by
    intro m b hb
    by_cases hm : m = h.namespace
    · subst hm
      exact .inl ⟨rfl, Option.some.inj (hb.symm.trans hf.here)⟩
    · by_cases hi : m.connectIdentity = h.namespace.connectIdentity
      · rw [(hf.others m hm hi).1] at hb
        cases hb
      · obtain ⟨hauth, htab⟩ := hf.elsewhere m hi
        exact .inr ⟨hi, hauth.symm.trans hb, htab⟩
  refine .of hf.keys (fun m b hb => ?_) (fun m m' b b' hb hb' hi => ?_) (fun m hm => ?_) fun m e he => ?_
  · rcases hwhere m b hb with ⟨rfl, rfl⟩ | ⟨-, hb₀, htab⟩
    · refine ⟨hj, fun _ => ?_, fun hl => ?_⟩
      · unfold Store.snapshot
        rw [hf.rows]
      · rw [hf.phase] at hl
        cases hl
    · unfold Store.snapshot
      rw [htab]
      exact ⟨hs.journal_of hb₀, hs.unstaged_of hb₀, hs.seated b (Store.mem_of_authority hb₀)⟩
  · rcases hwhere m b hb with ⟨rfl, -⟩ | ⟨hne, hb₀, -⟩ <;> rcases hwhere m' b' hb' with ⟨rfl, -⟩ | ⟨hne', hb₁, -⟩
    · rfl
    · exact absurd hi.symm hne'
    · exact absurd hi hne
    · exact hs.single_of hb₀ hb₁ hi
  · by_cases h₁ : m = h.namespace
    · rw [h₁, hf.here]
      rfl
    · by_cases hi : m.connectIdentity = h.namespace.connectIdentity
      · rw [(hf.others m h₁ hi).2.1] at hm
        cases hm
      · rw [(hf.elsewhere m hi).1]
        refine hs.hosted m ?_
        unfold Store.snapshot at hm ⊢
        rwa [(hf.elsewhere m hi).2] at hm
  · by_cases h₁ : m = h.namespace
    · subst h₁
      rw [hf.rows] at he
      cases he
    · by_cases hi : m.connectIdentity = h.namespace.connectIdentity
      · exact hs.addressed m e ((hf.others m h₁ hi).2.2 he)
      · rw [(hf.elsewhere m hi).2] at he
        exact hs.addressed m e he

theorem authority_cleared {profileId : String} (m : Namespace) :
    (s.deleteProfileState profileId).authority m = if m.profileId = profileId then none else s.authority m := by
  unfold Store.authority Store.deleteProfileState Keyed.find
  rw [List.find?_filter]
  split
  · rename_i hm
    refine List.find?_eq_none.mpr fun b _ hb => ?_
    simp only [Bool.and_eq_true, decide_eq_true_eq] at hb
    exact hb.1 (by rw [hb.2, hm])
  · rename_i hm
    congr 1
    funext b
    by_cases hb : b.namespace = m
    · simp [hb, hm]
    · simp [hb]

theorem tables_cleared {profileId : String} (m : Namespace) :
    (s.deleteProfileState profileId).tables m = if m.profileId = profileId then {} else s.tables m := rfl

theorem cleared_sound (hs : s.Sound) (profileId : String) : (s.deleteProfileState profileId).Sound := by
  have hwhere : ∀ m b, (s.deleteProfileState profileId).authority m = some b →
      s.authority m = some b ∧ (s.deleteProfileState profileId).tables m = s.tables m := by
    intro m b hb
    rw [authority_cleared] at hb
    rw [tables_cleared]
    split at hb
    · cases hb
    · rename_i hm
      exact ⟨hb, if_neg hm⟩
  refine .of (hs.keys.sublist (List.filter_sublist.map _)) (fun m b hb => ?_) (fun m m' b b' hb hb' hi => ?_)
    (fun m hm => ?_) fun m e he => ?_
  · obtain ⟨hb₀, htab⟩ := hwhere m b hb
    unfold Store.snapshot
    rw [htab]
    exact ⟨hs.journal_of hb₀, hs.unstaged_of hb₀, hs.seated b (Store.mem_of_authority hb₀)⟩
  · exact hs.single_of (hwhere m b hb).1 (hwhere m' b' hb').1 hi
  · unfold Store.snapshot at hm
    rw [tables_cleared] at hm
    rw [authority_cleared]
    split at hm
    · cases hm
    · rename_i hne
      rw [if_neg hne]
      exact hs.hosted m hm
  · rw [tables_cleared] at he
    split at he
    · cases he
    · exact hs.addressed m e he

theorem Turn.sound (hs : s.Sound) (h : Turn C s op s') : s'.Sound := by
  cases h with
  | stays => exact hs
  | moved before place journal moved => exact moved.sound hs before place journal
  | founded journal founded => exact founded.sound hs journal
  | cleared profileId => exact cleared_sound hs profileId

theorem after_sound (hs : s.Sound) (op : Op) : (after C s op).Sound := by
  unfold after
  split
  · rename_i h
    exact Turn.sound hs ((step_turns hs op).value h)
  · exact hs

theorem run_induction {I : Store → Prop} (hempty : I Store.empty) (hstep : ∀ s op, I s → I (after C s op)) (ops : List Op) :
    I (run C ops) := by
  have hfold : ∀ (l : List Op) s, I s → I (l.foldl (after C) s) := by
    intro l
    induction l with
    | nil => exact fun s hs => hs
    | cons op l ih => exact fun s hs => ih _ (hstep s op hs)
  exact hfold ops Store.empty hempty

/-- **Every store of a run is in order.** -/
theorem run_sound (C : Core) (ops : List Op) : (run C ops).Sound :=
  run_induction Store.sound_empty (fun _ op hs => after_sound hs op) ops

/-! ## The account of a turn -/

/-- The operation ends the epoch: a hello of another epoch of the same host, or the profile is cleared. -/
def Op.leaves (n : Namespace) : Op → Prop
  | .hello _ h => h.namespace.connectIdentity = n.connectIdentity ∧ h.namespace.hostEpoch ≠ n.hostEpoch
  | .clearProfile profileId => profileId = n.profileId
  | _ => False

/-- **Every obligation is accounted for.** -/
structure Accounted (s : Store) (op : Op) (s' : Store) : Prop where
  /-- A staged snapshot goes with one obligation that names it, or because the host has said that it is gone. -/
  removed : ∀ n st, ¬ op.leaves n → s.snapshot n = some st →
    (∀ st', s'.snapshot n = some st' → st'.releaseDirective n ≠ st.releaseDirective n) →
    op = .expireSnapshotContinuation n st.snapshotRequestId st.snapshotId ∨
      ∃ a a' o, s.authority n = some a ∧ a.pendingRelease = none ∧ s'.authority n = some a' ∧
        a'.pendingRelease = some o ∧ o.directive = st.releaseDirective n
  /-- An obligation stays until its own completion, or until its epoch ends. -/
  stays : ∀ n a o, s.authority n = some a → a.pendingRelease = some o →
    (∃ a', s'.authority n = some a' ∧ a'.pendingRelease = some o) ∨ op = .completeSnapshotRelease o ∨ op.leaves n

theorem accounted_refl (s : Store) (op : Op) : Accounted s op s where
  removed := fun _ st _ hst hgone => absurd rfl (hgone st hst)
  stays := fun _ a _ ha ho => .inl ⟨a, ha, ho⟩

theorem accounted_at (ha : s.authority n = some a) (hat : s.At s' n a' t')
    (hremoved : ∀ st, (s.tables n).snapshot = some st →
      (∀ st', t'.snapshot = some st' → st'.releaseDirective n ≠ st.releaseDirective n) →
      op = .expireSnapshotContinuation n st.snapshotRequestId st.snapshotId ∨
        a.pendingRelease = none ∧ ∃ o, a'.pendingRelease = some o ∧ o.directive = st.releaseDirective n)
    (hstays : ∀ o, a.pendingRelease = some o → a'.pendingRelease = some o ∨ op = .completeSnapshotRelease o) :
    Accounted s op s' where
  removed := by
    intro m st _ hst hgone
    by_cases hm : m = n
    · subst hm
      rw [hat.snapshot] at hgone
      rcases hremoved st hst hgone with hexp | ⟨hidle, o, ho, hd⟩
      · exact .inl hexp
      · exact .inr ⟨a, a', o, ha, hidle, hat.here, ho, hd⟩
    · refine absurd rfl (hgone st ?_)
      unfold Store.snapshot at hst ⊢
      rwa [(hat.elsewhere m hm).2]
  stays := by
    intro m b o hb ho
    by_cases hm : m = n
    · subst hm
      obtain rfl := Option.some.inj (hb.symm.trans ha)
      rcases hstays o ho with h | h
      · exact .inl ⟨a', hat.here, h⟩
      · exact .inr (.inl h)
    · exact .inl ⟨b, (hat.elsewhere m hm).1.trans hb, ho⟩

theorem staged_directive {c : ChunkFields} {st updated : StoredSnapshot} (h : c.staged (some st) = .ok updated) :
    updated.releaseDirective n = st.releaseDirective n := by
  have hends : Ends (c.staged (some st)) (fun u => u.releaseDirective n = st.releaseDirective n) (fun _ => True) := by
    unfold ChunkFields.staged
    refine Ends.ite (fun _ => Ends.error trivial) fun _ => ?_
    refine Ends.bind (P := fun base => base = st) ?_ fun base hbase => ?_
    · exact Ends.ite (fun _ => Ends.error trivial) fun _ => Ends.ok rfl
    · subst hbase
      split
      · exact Ends.error trivial
      · refine Ends.ite (fun _ => Ends.error trivial) fun _ => ?_
        exact Ends.ite (fun _ => Ends.error trivial) fun _ => Ends.pure rfl
  exact hends.value h

theorem Moved.accounted (hs : s.Sound) (ha : s.authority n = some a) (hat : s.At s' n a' t')
    (h : Moved C s n a (s.tables n) op a' t') : Accounted s op s' := by
  have hnever : ∀ {o}, a.pendingRelease = none → a.pendingRelease = some o →
      a'.pendingRelease = some o ∨ op = .completeSnapshotRelease o := by
    intro o hidle ho
    rw [hidle] at ho
    cases ho
  cases h with
  | kept held pending phase required staging events =>
    refine accounted_at ha hat (fun st hst hgone => ?_) fun o ho => .inl (pending.trans ho)
    exact absurd rfl (hgone st (staging.1.trans hst))
  | released o held idle pending names required cleared =>
    exact accounted_at ha hat (fun st hst _ => .inr ⟨idle, o, pending, names st hst⟩) fun _ => hnever idle
  | dropped cache idle pending gone phase required =>
    exact accounted_at ha hat (fun st hst _ => .inl (gone st hst)) fun _ => hnever idle
  | matched cache idle pending unstaged phase required reached =>
    refine accounted_at ha hat (fun st hst _ => ?_) fun _ => hnever idle
    rw [unstaged] at hst
    cases hst
  | staged _ idle phase taken =>
    refine accounted_at ha hat (fun st hst hgone => ?_) fun _ => hnever idle
    rw [hst] at taken
    exact absurd (staged_directive taken) (hgone _ rfl)
  | applied _ idle phase advances =>
    refine accounted_at ha hat (fun st hst hgone => ?_) fun _ => hnever idle
    exact absurd rfl (hgone st (advances.keeps.1.trans hst))
  | committed idle staging sound written advanced names =>
    refine accounted_at ha hat (fun st hst _ => .inr ⟨idle, _, rfl, ?_⟩) fun _ => hnever idle
    obtain rfl := Option.some.inj (hst.symm.trans staging)
    exact names
  | completed pending planned =>
    refine accounted_at ha hat (fun st hst hgone => absurd rfl (hgone st hst)) fun o ho => .inr ?_
    rw [Option.some.inj (pending.symm.trans ho)]

theorem Founded.accounted {plan : ConnectPlan} {h : Hello} (hs : s.Sound) (hf : Founded s h s' a') :
    Accounted s (.hello plan h) s' where
  removed := by
    intro m st hliving hst hgone
    by_cases hi : m.connectIdentity = h.namespace.connectIdentity
    · -- the hello is of this epoch
      have hm : m = h.namespace := by
        by_contra hm
        refine hliving ⟨hi.symm, fun he => hm ?_⟩
        rw [namespace_ext hi, ← he]
      subst hm
      obtain ⟨a, ha⟩ := Option.isSome_iff_exists.mp (hs.hosted _ (by rw [hst]; rfl))
      obtain ⟨o, ho, hd⟩ := hf.released st hst
      exact .inr ⟨a, a', o, ha, hf.idle a ha, hf.here, ho, hd⟩
    · refine absurd rfl (hgone st ?_)
      unfold Store.snapshot at hst ⊢
      rwa [(hf.elsewhere m hi).2]
  stays := by
    intro m b o hb ho
    by_cases hi : m.connectIdentity = h.namespace.connectIdentity
    · by_cases hm : m = h.namespace
      · subst hm
        rw [hf.idle b hb] at ho
        cases ho
      · refine .inr (.inr ⟨hi.symm, fun he => hm ?_⟩)
        rw [namespace_ext hi, ← he]
    · exact .inl ⟨b, (hf.elsewhere m hi).1.trans hb, ho⟩

theorem cleared_accounted (profileId : String) : Accounted s (.clearProfile profileId) (s.deleteProfileState profileId) where
  removed := by
    intro m st hliving hst hgone
    have hm : ¬ m.profileId = profileId := fun h => hliving h.symm
    refine absurd rfl (hgone st ?_)
    unfold Store.snapshot at hst ⊢
    rwa [tables_cleared, if_neg hm]
  stays := by
    intro m b o hb ho
    by_cases hm : m.profileId = profileId
    · exact .inr (.inr hm.symm)
    · exact .inl ⟨b, by rw [authority_cleared, if_neg hm, hb], ho⟩

theorem Turn.accounted (hs : s.Sound) (h : Turn C s op s') : Accounted s op s' := by
  cases h with
  | stays => exact accounted_refl s op
  | moved before place journal moved => exact moved.accounted hs before place
  | founded journal founded => exact founded.accounted hs
  | cleared profileId => exact cleared_accounted profileId

/-! ## The connect plan -/

theorem Store.Sound.authoritiesOf_length (hs : s.Sound) (i : Identity) : (s.authoritiesOf i).length ≤ 1 := by
  have hnodup : (s.authoritiesOf i).Nodup := (List.Nodup.of_map _ hs.keys).filter _
  match hl : s.authoritiesOf i with
  | [] => exact Nat.zero_le 1
  | [_] => exact le_refl 1
  | a :: b :: rest =>
    have ha : a ∈ s.authoritiesOf i := by rw [hl]; exact List.mem_cons_self
    have hb : b ∈ s.authoritiesOf i := by rw [hl]; exact List.mem_cons_of_mem _ List.mem_cons_self
    obtain ⟨ha, hai⟩ := mem_authoritiesOf.mp ha
    obtain ⟨hb, hbi⟩ := mem_authoritiesOf.mp hb
    rw [hl, hs.single a ha b hb (hai.trans hbi.symm)] at hnodup
    simp at hnodup

theorem loadConnectPlan_ends (hs : s.Sound) (i : Identity) :
    Ends (loadConnectPlan C s i) (fun _ => True) (· = .invalidResult) := by
  have hone : check ((s.authoritiesOf i).length ≤ 1) .ambiguousResume = .ok () := by
    simp [check, hs.authoritiesOf_length i]
  have hfields : Ends (planFields C s i (s.authoritiesOf i).head?) (fun _ => True) (· = .invalidResult) := by
    cases hfound : (s.authoritiesOf i).head? with
    | none => exact Ends.ok trivial
    | some a =>
      have hmem : a ∈ s.authorities := (mem_authoritiesOf.mp (List.mem_of_head? hfound)).1
      have hlive : check (a.phase ≠ .live || (a.cursorEventSeq.isSome && a.pendingRelease.isNone)) .liveWithoutCursor =
          .ok () := by
        cases hphase : a.phase with
        | resyncing => rfl
        | live =>
          have hidle : a.pendingRelease = none := by
            cases hp : a.pendingRelease with
            | none => rfl
            | some o =>
              have := (hs.journal a hmem).resyncing (by rw [hp]; rfl)
              rw [hphase] at this
              cases this
          rw [hidle, hs.seated a hmem hphase]
          rfl
      have hstaging : check (a.phase = .resyncing || (s.snapshot a.namespace).isNone) .liveWithStaging = .ok () := by
        cases hphase : a.phase with
        | resyncing => rfl
        | live =>
          rw [hs.unstaged a hmem (.inr hphase)]
          rfl
      unfold planFields
      exact Ends.next (hs.journal a hmem).validated (Ends.next hlive (Ends.next hstaging (Ends.pure trivial)))
  unfold loadConnectPlan
  refine Ends.next hone (Ends.bind hfields fun fields _ => ?_)
  split
  · exact Ends.pure trivial
  · exact Ends.error rfl

/-! ## The whole account -/

/-- **What holds of every store of a run, and of every operation on it.** -/
structure Store.Accountable (C : Core) (s : Store) : Prop where
  paired : ∀ a ∈ s.authorities, a.pendingRelease.isSome = a.afterReleasePhase.isSome
  pending : ∀ a ∈ s.authorities, a.pendingRelease.isSome → s.snapshot a.namespace = none ∧ a.phase ≠ .live
  live : ∀ a ∈ s.authorities, a.phase = .live → s.snapshot a.namespace = none
  single : ∀ i, (s.authoritiesOf i).length ≤ 1
  /-- No operation fails a check of the releases, and no connect plan a check of the store. -/
  unfailing : ∀ op f, step C s op = .error f → f.ofRelease = false
  planned : ∀ i f, loadConnectPlan C s i = .error f → f = .invalidResult
  accounted : ∀ op s' r, step C s op = .ok (s', r) → Accounted s op s'

theorem Store.Sound.accountable (hs : s.Sound) : s.Accountable C where
  paired := fun a ha => (hs.journal a ha).paired.symm
  pending := by
    intro a ha hp
    refine ⟨hs.unstaged a ha (.inl hp), fun hl => ?_⟩
    rw [(hs.journal a ha).resyncing hp] at hl
    cases hl
  live := fun a ha hl => hs.unstaged a ha (.inr hl)
  single := hs.authoritiesOf_length
  unfailing := fun op f hf => (step_turns hs op).fault hf
  planned := fun i f hf => (loadConnectPlan_ends hs i).fault hf
  accounted := fun op s' r hr => Turn.accounted hs ((step_turns hs op).value hr)

/-- **Release obligations are never lost and never doubled**: the store of every run of operations accounts for them, and so
does every operation on it. -/
theorem obligations_accounted (C : Core) (ops : List Op) : (run C ops).Accountable C := (run_sound C ops).accountable

end Sync
end TmuxWorktree
