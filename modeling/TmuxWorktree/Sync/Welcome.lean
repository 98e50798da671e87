import TmuxWorktree.Sync.Steps
/-!
# Welcome — a hello is a turn

The plan of a hello still agrees with the store, so the hello meets the one authority of its connect identity: it goes on
with that epoch, or it replaces it by another.
-/
namespace TmuxWorktree
namespace Sync

variable {C : Core} {s s₁ : Store} {n : Namespace} {a b : Authority} {t : Tables} {op : Op}

/-! ## The plan -/

/-- A plan that was validated: the store has no authority for its identity, or the one of its epoch. -/
inductive Agreed (s : Store) (plan : ConnectPlan) : Prop where
  | empty (recovery : plan.recovery = .empty) (found : s.authoritiesOf plan.identity = [])
  | one {a : Authority} (recovery : plan.recovery ≠ .empty) (found : s.authoritiesOf plan.identity = [a])
      (epoch : plan.durableHostEpoch = some a.namespace.hostEpoch)
      (recovered : a.recovery a.pendingRelease = plan.recovery)

theorem validateConnectPlan_ends (hs : s.Sound) (plan : ConnectPlan) :
    Ends (validateConnectPlan C s plan) (fun _ => Agreed s plan) Fault.foreign := by
  unfold validateConnectPlan
  refine Ends.ite (fun hempty => ?_) fun hsome => ?_
  · refine (check_ends (f := .staleConnectPlan) rfl).mono (fun _ h => .empty hempty ?_) fun _ => id
    exact List.isEmpty_iff.mp h
  · split
    · rename_i a hfound
      have hmem : a ∈ s.authorities :=
        List.mem_of_mem_filter (p := fun a => decide (a.namespace.connectIdentity = plan.identity))
          (by rw [show s.authorities.filter _ = [a] from hfound]; exact List.mem_singleton_self a)
      refine Ends.bind (check_ends rfl) fun _ hepoch => ?_
      refine Ends.next (hs.journal a hmem).validated (Ends.bind (check_ends rfl) fun _ hsame => ?_)
      refine (check_ends (f := .staleContinuation) rfl).mono (fun _ _ => .one hsome hfound ?_ ?_) fun _ => id
      · exact (of_decide_eq_true hepoch).symm
      · simp only [Bool.and_eq_true, decide_eq_true_eq] at hsame
        exact hsame.1.1.1
    · exact Ends.error rfl

theorem mem_authoritiesOf {i : Identity} : a ∈ s.authoritiesOf i ↔ a ∈ s.authorities ∧ a.namespace.connectIdentity = i := by
  simp [Store.authoritiesOf]

theorem Agreed.found_of (h : Agreed s plan) (hb : s.authority n = some b) (hn : n.connectIdentity = plan.identity) :
    plan.recovery ≠ .empty ∧ plan.durableHostEpoch = some n.hostEpoch ∧ b.recovery b.pendingRelease = plan.recovery := by
  have hbn := Store.namespace_of_authority hb
  have hmem : b ∈ s.authoritiesOf plan.identity := mem_authoritiesOf.mpr ⟨Store.mem_of_authority hb, by rw [hbn, hn]⟩
  cases h with
  | empty _ hfound =>
    rw [hfound] at hmem
    cases hmem
  | one hrecovery hfound hepoch hrecovered =>
    rw [hfound, List.mem_singleton] at hmem
    subst hmem
    exact ⟨hrecovery, by rw [hepoch, hbn], hrecovered⟩

/-! ## The same epoch -/

theorem coversFrom_ends (through limit expected : Nat) (events : List Event) :
    Ends (coversFrom through limit expected events) (fun _ => True) Fault.foreign := by
  induction events generalizing expected with
  | nil => exact Ends.ok trivial
  | cons e rest ih =>
    unfold coversFrom
    refine Ends.ite (fun _ => ih _) fun _ => Ends.ite (fun _ => ih _) fun _ => ?_
    refine Ends.ite (fun _ => Ends.pure trivial) fun _ => Ends.ite (fun _ => Ends.pure trivial) fun _ => ?_
    exact Ends.bind increment_ends fun _ _ => ih _

theorem stagingUseless_ends (s : Store) (n : Namespace) (required : Nat) :
    Ends (stagingUseless s n required) (fun r => r = true → ∃ st, s.snapshot n = some st) Fault.foreign := by
  unfold stagingUseless
  split
  · exact Ends.pure (by simp)
  · rename_i st hst
    refine Ends.ite (fun _ => Ends.pure fun _ => ⟨st, hst⟩) fun _ => Ends.ite (fun _ => ?_) fun _ => Ends.pure (by simp)
    refine Ends.bind (Ends.bind increment_ends fun _ _ => coversFrom_ends _ _ _ _) fun _ _ => Ends.pure fun _ => ⟨st, hst⟩

theorem resumeStaging_turns {cursor : Option Nat} (ha : s.authority n = some a) (hidle : a.pendingRelease = none)
    (hat : s.At s₁ n a t) (hn : b.namespace = n) (hbidle : b.pendingRelease = none) (hplan : b.afterReleasePhase = none)
    (hphase : b.phase = .resyncing) (hrequired : a.requiredThroughEventSeq ≤ b.requiredThroughEventSeq)
    (hheld : Held n op a b (s.tables n) t)
    (hstaging : t.snapshot = (s.tables n).snapshot ∧ t.records = (s.tables n).records ∧ t.events = (s.tables n).events) :
    Turns C s op (resumeStaging s₁ b cursor) := by
  subst hn
  have hj : b.Journal := .idle hbidle hplan
  unfold resumeStaging
  dsimp only
  refine Ends.bind (hat.put hj rfl) fun s₂ h₂ => ?_
  refine Ends.bind (stagingUseless_ends _ _ _) fun useless huseless => Ends.ite (fun h => ?_) fun _ => ?_
  · obtain ⟨st, hst⟩ := huseless h
    refine Ends.next (a := st) (by rw [hst]; rfl) ?_
    have hst' : (s.tables b.namespace).snapshot = some st := by rw [← hstaging.1, ← h₂.snapshot, hst]
    refine Ends.bind (giveUp_ends h₂ rfl rfl hbidle (.inl rfl)) fun r hr => ?_
    obtain ⟨hdirective, h₃, hj₃⟩ := hr
    refine Ends.bind (resyncRequired_ends rfl (by simp)) fun _ _ => Ends.pure ?_
    refine .moved ha h₃ hj₃ (.released r.2 ?_ hidle rfl (fun st' h => ?_) hrequired ⟨rfl, rfl, rfl⟩)
    · exact hheld.imp (fun h => ⟨h.cursor, h.scopesRevision, h.count, h.bytes, h.scopes, h.sessions⟩)
        fun h => ⟨h.1, h.2.cursor, h.2.scopesRevision, h.2.count, h.2.bytes, h.2.scopes, h.2.sessions⟩
    · obtain rfl := Option.some.inj (h.symm.trans hst')
      exact hdirective
  · refine Ends.bind (resyncRequired_ends rfl (by simp)) fun _ _ => Ends.pure ?_
    exact .moved ha h₂ hj (.kept hheld (hbidle.trans hidle.symm) hphase hrequired ⟨hstaging.1, hstaging.2.1⟩
      (.inl hstaging.2.2))

theorem matched_cursor {hello : Hello} (h : hello.disposition = .matched) :
    hello.resume.map Cursor.eventSeq = some hello.welcomeEventSeq := by
  have hok := hello.ok
  rw [h] at hok
  obtain ⟨c, hc, hsame⟩ := (Option.any_eq_true _ _).mp hok
  simp only [Bool.and_eq_true, decide_eq_true_eq] at hsame
  rw [hc, Option.map_some, hsame.2]

theorem applySameEpochWelcome_turns (hs : s.Sound) (plan : ConnectPlan) (hello : Hello)
    (hidle : ∀ a, s.authority hello.namespace = some a → a.pendingRelease = none) :
    Turns C s (.hello plan hello) (applySameEpochWelcome s (s.authority hello.namespace) hello) := by
  unfold applySameEpochWelcome
  dsimp only
  cases ha : s.authority hello.namespace with
  | none => exact Ends.pure (.stays _)
  | some a =>
    have hp := hidle a ha
    have hn := Store.namespace_of_authority ha
    have hplan := (hs.journal_of ha).plan_none hp
    refine Ends.ite (fun _ => Ends.pure (.stays _)) fun hsame => Ends.ite (fun _ => Ends.pure (.stays _)) fun hregress => ?_
    have hcursor : a.cursorEventSeq = hello.resume.map Cursor.eventSeq := by
      simp only [Bool.or_eq_true, decide_eq_true_eq, not_or, not_not] at hsame
      exact hsame.2
    refine Ends.ite (fun hmatched => ?_) fun _ => Ends.ite (fun hfresh => ?_) fun _ => ?_
    · have hat : a.cursorEventSeq = some hello.welcomeEventSeq := hcursor.trans (matched_cursor hmatched)
      have hreached : max a.requiredThroughEventSeq hello.welcomeEventSeq ≤ hello.welcomeEventSeq :=
        max_le (not_lt.mp hregress) (le_refl _)
      split
      · rename_i st hst
        refine Ends.bind (giveUp_ends (b := { a with
            requiredThroughEventSeq := max a.requiredThroughEventSeq hello.welcomeEventSeq, phase := .live })
          (Store.At.refl ha) hn rfl hp (.inr ⟨rfl, ⟨_, hat, hreached⟩, .inr rfl⟩)) fun r hr => ?_
        obtain ⟨hdirective, h₁, hj₁⟩ := hr
        refine Ends.pure (.moved ha h₁ hj₁ (.released r.2 (.inl ⟨rfl, rfl, rfl, rfl, rfl, rfl⟩) hp rfl (fun st' h => ?_)
          (le_max_left _ _) ⟨rfl, rfl, rfl⟩))
        obtain rfl := Option.some.inj (h.symm.trans hst)
        exact hdirective
      · rename_i hst
        have hj : ({ a with requiredThroughEventSeq := max a.requiredThroughEventSeq hello.welcomeEventSeq, phase := .live } :
            Authority).Journal := .idle hp hplan
        refine Ends.bind ((Store.At.refl ha).put hj hn) fun s₁ h₁ => ?_
        refine Ends.next (a := hello.welcomeEventSeq) (by rw [hat]; rfl) (Ends.pure ?_)
        exact .moved ha h₁.cleared hj (.matched ⟨rfl, rfl, rfl, rfl, rfl, rfl⟩ hp hp hst rfl (le_max_left _ _)
          ⟨_, hat, hreached⟩)
    · refine resumeStaging_turns ha hp (((Store.At.refl ha).onTables fun t => { t with sessions := [] }).onTables
        fun t => { t with scopes := [] }) rfl rfl rfl rfl (le_max_left _ _) ?_ ⟨rfl, rfl, rfl⟩
      exact .inr ⟨⟨rfl, hfresh⟩, ⟨rfl, rfl, rfl, rfl, rfl, rfl⟩⟩
    · exact resumeStaging_turns ha hp (Store.At.refl ha) hn hp hplan rfl (le_max_left _ _)
        (.inl ⟨rfl, rfl, rfl, rfl, rfl, rfl⟩) ⟨rfl, rfl, rfl⟩

/-! ## A release is pending -/

theorem applyPendingHello_turns (hs : s.Sound) {plan : ConnectPlan} {hello : Hello} {o : Obligation}
    (ha : s.authority hello.namespace = some a) (ho : a.pendingRelease = some o) :
    Turns C s (.hello plan hello) (applyPendingHello s a o hello) := by
  have hj := hs.journal_of ha
  have hn := Store.namespace_of_authority ha
  unfold applyPendingHello
  dsimp only
  generalize hafter : (if (decide (a.afterReleasePhase = some PostReleasePhase.queryPendingCommands) &&
      decide (hello.disposition ≠ .fresh) && decide (hello.disposition ≠ .hostEpochChanged) &&
      o.durableCursorEventSeq.any fun c => decide (max a.requiredThroughEventSeq hello.welcomeEventSeq ≤ c)) = true
    then PostReleasePhase.queryPendingCommands else .restartSnapshot) = after
  set b : Authority := { a with
    requiredThroughEventSeq := max a.requiredThroughEventSeq hello.welcomeEventSeq
    phase := .resyncing
    afterReleasePhase := some after } with hb
  have hj' : b.Journal := by
    split at hafter
    · rename_i hquery
      subst hafter
      simp only [Bool.and_eq_true, decide_eq_true_eq] at hquery
      obtain ⟨c, hc, hle⟩ := (Option.any_eq_true _ _).mp hquery.2
      exact .queried ho rfl (hj.names o ho) rfl (hj.cursor o ho) ((hj.cursor o ho).symm.trans hc)
        (of_decide_eq_true hle) (hj.reason o ho hquery.1.1.1)
    · subst hafter
      exact .restart ho rfl (hj.names o ho) rfl (hj.cursor o ho)
  refine Ends.bind ((Store.At.refl ha).put hj' hn) fun s₁ h₁ => Ends.pure ?_
  exact .moved ha h₁ hj' (.kept (.inl ⟨rfl, rfl, rfl, rfl, rfl, rfl⟩) rfl rfl (le_max_left _ _) ⟨rfl, rfl⟩ (.inl rfl))

/-! ## Another epoch -/

namespace Store

theorem authority_delete_self : (s.deleteNamespaceState n).authority n = none := Keyed.find_erase_self

theorem authority_delete_ne {m : Namespace} (h : m ≠ n) : (s.deleteNamespaceState n).authority m = s.authority m :=
  Keyed.find_erase_ne h

theorem tables_delete_self : (s.deleteNamespaceState n).tables n = {} := by simp [deleteNamespaceState]

theorem tables_delete_ne {m : Namespace} (h : m ≠ n) : (s.deleteNamespaceState n).tables m = s.tables m := by
  simp [deleteNamespaceState, h]

theorem keys_delete (h : (s.authorities.map Authority.namespace).Nodup) :
    ((s.deleteNamespaceState n).authorities.map Authority.namespace).Nodup := Keyed.keys_erase h

end Store

/-- The connect identity of `n` has no other epoch. -/
structure Emptied (s s₁ : Store) (n : Namespace) : Prop where
  others : ∀ m, m ≠ n → m.connectIdentity = n.connectIdentity →
    s₁.authority m = none ∧ s₁.snapshot m = none ∧ (s₁.tables m).events ⊆ (s.tables m).events
  elsewhere : ∀ m, m.connectIdentity ≠ n.connectIdentity → s₁.authority m = s.authority m ∧ s₁.tables m = s.tables m
  keys : (s₁.authorities.map Authority.namespace).Nodup

theorem Store.Sound.snapshot_none (hs : s.Sound) (h : s.authority n = none) : s.snapshot n = none := by
  cases hst : s.snapshot n with
  | none => rfl
  | some st =>
    have := hs.hosted n (by rw [hst]; rfl)
    rw [h] at this
    cases this

theorem emptied_refl (hs : s.Sound)
    (hnone : ∀ m, m ≠ n → m.connectIdentity = n.connectIdentity → s.authority m = none) : Emptied s s n where
  others := fun m hm hi => ⟨hnone m hm hi, hs.snapshot_none (hnone m hm hi), fun _ h => h⟩
  elsewhere := fun _ _ => ⟨rfl, rfl⟩
  keys := hs.keys

theorem emptied_delete (hs : s.Sound) {m₀ : Namespace} (h₀ : m₀.connectIdentity = n.connectIdentity)
    (hone : ∀ m b, m ≠ n → m.connectIdentity = n.connectIdentity → s.authority m = some b → m = m₀) :
    Emptied s (s.deleteNamespaceState m₀) n where
  others := by
    intro m hm hi
    by_cases h : m = m₀
    · subst h
      unfold Store.snapshot
      rw [Store.tables_delete_self]
      exact ⟨Store.authority_delete_self, rfl, List.nil_subset _⟩
    · have hnone : s.authority m = none := by
        cases hb : s.authority m with
        | none => rfl
        | some b => exact absurd (hone m b hm hi hb) h
      unfold Store.snapshot
      rw [Store.tables_delete_ne h, Store.authority_delete_ne h]
      exact ⟨hnone, hs.snapshot_none hnone, fun _ he => he⟩
  elsewhere := by
    intro m hi
    have h : m ≠ m₀ := by
      rintro rfl
      exact hi h₀
    exact ⟨Store.authority_delete_ne h, Store.tables_delete_ne h⟩
  keys := Store.keys_delete hs.keys

theorem Emptied.put {hello : Hello} (h : Emptied s s₁ hello.namespace) (hn : b.namespace = hello.namespace) (hj : b.Journal)
    (hreset : Reset b {}) (hphase : b.phase = .resyncing)
    (hidle : ∀ a, s.authority hello.namespace = some a → a.pendingRelease = none)
    (hreleased : ∀ st, s.snapshot hello.namespace = some st →
      ∃ o, b.pendingRelease = some o ∧ o.directive = st.releaseDirective hello.namespace)
    (hdisposition : hello.disposition = .fresh ∨ s.authority hello.namespace = none) :
    Ends ((s₁.deleteNamespaceState hello.namespace).putAuthority b) (fun s₂ => Founded s hello s₂ b) Fault.foreign := by
  unfold Store.putAuthority
  refine Ends.next hj.validated (Ends.pure ?_)
  have hfind : ∀ m, m ≠ hello.namespace →
      ((s₁.deleteNamespaceState hello.namespace).withAuthority b).authority m = s₁.authority m := by
    intro m hm
    refine (Keyed.find_put_ne ?_).trans (Store.authority_delete_ne hm)
    rw [hn]
    exact hm
  constructor
  case here =>
    rw [← hn]
    exact Keyed.find_put_self
  case rows => exact Store.tables_delete_self
  case reset => exact hreset
  case phase => exact hphase
  case idle => exact hidle
  case released => exact hreleased
  case others =>
    intro m hm hi
    unfold Store.snapshot
    rw [hfind m hm, Store.tables_withAuthority, Store.tables_delete_ne hm]
    exact h.others m hm hi
  case elsewhere =>
    intro m hi
    have hm : m ≠ hello.namespace := by
      rintro rfl
      exact hi rfl
    rw [hfind m hm, Store.tables_withAuthority, Store.tables_delete_ne hm]
    exact h.elsewhere m hi
  case keys => exact Keyed.keys_put (Store.keys_delete h.keys)
  case disposition => exact hdisposition

theorem namespace_ext {m : Namespace} (hi : m.connectIdentity = n.connectIdentity) : m = { n with hostEpoch := m.hostEpoch } := by
  obtain ⟨p, q, c, h, e⟩ := m
  simp only [Namespace.connectIdentity, Identity.mk.injEq] at hi
  obtain ⟨rfl, rfl, rfl, rfl⟩ := hi
  rfl

theorem emptied_other (hs : s.Sound) {plan : ConnectPlan} (hplan : plan.identity = n.connectIdentity)
    (hagreed : Agreed s plan) : Emptied s (deleteOtherEpoch s plan n) n := by
  have hone : ∀ m b, m ≠ n → m.connectIdentity = n.connectIdentity → s.authority m = some b →
      plan.durableHostEpoch = some m.hostEpoch ∧ m.hostEpoch ≠ n.hostEpoch := by
    intro m b hm hi hb
    refine ⟨(hagreed.found_of hb (hi.trans hplan.symm)).2.1, fun he => hm ?_⟩
    rw [namespace_ext hi, he]
  have hnone : (∀ m, plan.durableHostEpoch = some m → m = n.hostEpoch) → Emptied s s n := by
    intro hsame
    refine emptied_refl hs fun m hm hi => ?_
    cases hb : s.authority m with
    | none => rfl
    | some b =>
      obtain ⟨hd, hne⟩ := hone m b hm hi hb
      exact absurd (hsame _ hd) hne
  unfold deleteOtherEpoch
  split
  · rename_i epoch hepoch
    split
    · refine emptied_delete hs rfl fun m b hm hi hb => ?_
      have hd := (hone m b hm hi hb).1
      rw [hepoch] at hd
      rw [namespace_ext hi, Option.some.inj hd]
    · rename_i hsame
      refine hnone fun m hm => ?_
      rw [hepoch] at hm
      rw [← Option.some.inj hm, not_not.mp hsame]
  · rename_i hepoch
    exact hnone fun m hm => by
      rw [hepoch] at hm
      cases hm

theorem snapshot_deleteOtherEpoch (plan : ConnectPlan) : (deleteOtherEpoch s plan n).snapshot n = s.snapshot n := by
  unfold deleteOtherEpoch
  split
  · split
    · rename_i epoch _ hne
      unfold Store.snapshot
      rw [Store.tables_delete_ne]
      intro h
      exact hne (by rw [h])
    · rfl
  · rfl

theorem applyFreshHello_turns (hs : s.Sound) {plan : ConnectPlan} {hello : Hello} (hfresh : hello.disposition = .fresh)
    (hplan : plan.identity = hello.namespace.connectIdentity) (hagreed : Agreed s plan)
    (hidle : ∀ a, s.authority hello.namespace = some a → a.pendingRelease = none) :
    Turns C s (.hello plan hello) (applyFreshHello s plan (s.authority hello.namespace) hello) := by
  unfold applyFreshHello
  dsimp only
  refine Ends.ite (fun _ => applySameEpochWelcome_turns hs plan hello hidle) fun _ => ?_
  have hemptied := emptied_other hs hplan hagreed
  -- the staging of this epoch
  have hstaged : ((s.authority hello.namespace).bind fun a => (deleteOtherEpoch s plan hello.namespace).snapshot a.namespace) =
      s.snapshot hello.namespace := by
    cases ha : s.authority hello.namespace with
    | none => exact (hs.snapshot_none ha).symm
    | some a => rw [Option.bind_some, Store.namespace_of_authority ha, snapshot_deleteOtherEpoch]
  rw [hstaged]
  cases hst : s.snapshot hello.namespace with
  | none =>
    refine Ends.next rfl (Ends.bind (hemptied.put rfl (.idle rfl rfl) ⟨rfl, rfl, rfl, rfl, rfl, rfl⟩ rfl hidle ?_
      (.inl hfresh)) fun s₂ h₂ => ?_)
    · rw [hst]
      simp
    exact Ends.bind (resyncRequired_ends rfl (by simp)) fun _ _ => Ends.pure (.founded (.idle rfl rfl) h₂)
  | some st =>
    have hmade : (newAuthority hello.namespace hello.welcomeEventSeq).releaseStaged (some st) .fresh =
        .ok (some ⟨hello.namespace, st.snapshotRequestId, st.snapshotId, none, .fresh⟩) := by
      simp [Authority.releaseStaged, Authority.releaseObligation, newAuthority, StoredSnapshot.releaseDirective, check,
        Bind.bind, Except.bind, Pure.pure, Except.pure, Except.map]
    refine Ends.next hmade (Ends.bind (hemptied.put rfl (.restart rfl rfl rfl rfl rfl) ⟨rfl, rfl, rfl, rfl, rfl, rfl⟩ rfl
      hidle ?_ (.inl hfresh)) fun s₂ h₂ => ?_)
    · intro st' hst'
      obtain rfl := Option.some.inj (hst.symm.trans hst')
      exact ⟨_, rfl, rfl⟩
    exact Ends.bind (resyncRequired_ends rfl (by simp)) fun _ _ =>
      Ends.pure (.founded (.restart rfl rfl rfl rfl rfl) h₂)

theorem applyEpochChangedHello_turns (hs : s.Sound) {plan : ConnectPlan} {hello : Hello}
    (hchanged : hello.disposition = .hostEpochChanged) (hplan : plan.identity = hello.namespace.connectIdentity)
    (hresume : plan.resume = hello.resume) (hagreed : Agreed s plan) :
    Turns C s (.hello plan hello) (applyEpochChangedHello s hello) := by
  have hok := hello.ok
  rw [hchanged] at hok
  obtain ⟨c, hc, hne⟩ := (Option.any_eq_true _ _).mp hok
  have hne' : c.hostEpoch ≠ hello.namespace.hostEpoch := of_decide_eq_true hne
  -- the plan that resumes there names that epoch
  have hepoch : plan.recovery ≠ .empty → plan.durableHostEpoch = some c.hostEpoch := by
    intro _
    have hvalid := plan.ok
    simp only [PlanFields.valid, Bool.and_eq_true] at hvalid
    have hall := hvalid.1.1.1.1.1.1.1.2
    rw [hresume, hc] at hall
    exact of_decide_eq_true hall
  have hone : ∀ m b, m.connectIdentity = hello.namespace.connectIdentity → s.authority m = some b →
      m = { hello.namespace with hostEpoch := c.hostEpoch } := by
    intro m b hi hb
    obtain ⟨hsome, hd, -⟩ := hagreed.found_of hb (hi.trans hplan.symm)
    rw [hepoch hsome] at hd
    rw [namespace_ext hi, ← Option.some.inj hd]
  have hnone : s.authority hello.namespace = none := by
    cases hb : s.authority hello.namespace with
    | none => rfl
    | some b =>
      have := hone _ b rfl hb
      exact absurd (congrArg Namespace.hostEpoch this).symm hne'
  have hemptied : Emptied s (s.deleteNamespaceState { hello.namespace with hostEpoch := c.hostEpoch }) hello.namespace :=
    emptied_delete hs rfl fun m b _ hi hb => hone m b hi hb
  unfold applyEpochChangedHello
  rw [hc]
  refine Ends.next rfl (Ends.bind (hemptied.put rfl (.idle rfl rfl) ⟨rfl, rfl, rfl, rfl, rfl, rfl⟩ rfl ?_ ?_
    (.inr hnone)) fun s₂ h₂ => ?_)
  · rw [hnone]
    simp
  · rw [hs.snapshot_none hnone]
    simp
  exact Ends.bind (resyncRequired_ends rfl (by simp)) fun _ _ => Ends.pure (.founded (.idle rfl rfl) h₂)

/-- **A hello is a turn.** -/
theorem applyHello_turns (hs : s.Sound) (plan : ConnectPlan) (hello : Hello) :
    Turns C s (.hello plan hello) (applyHello C s plan hello) := by
  unfold applyHello
  dsimp only
  refine Ends.ite (fun _ => Ends.pure (.stays _)) fun _ => ?_
  refine Ends.bind (check_ends rfl) fun _ hcrossed => Ends.bind (validateConnectPlan_ends hs plan) fun _ hagreed => ?_
  simp only [Bool.and_eq_true, decide_eq_true_eq] at hcrossed
  refine Ends.ite (fun _ => Ends.pure (.stays _)) fun _ => ?_
  split
  · rename_i a o hfound
    obtain ⟨b, ha, hpend⟩ := Option.bind_eq_some_iff.mp hfound
    obtain ⟨o', ho, hpair⟩ := Option.map_eq_some_iff.mp hpend
    cases hpair
    exact applyPendingHello_turns hs ha ho
  · rename_i hfound
    have hidle : ∀ a, s.authority hello.namespace = some a → a.pendingRelease = none := by
      intro a ha
      rw [ha] at hfound
      simpa using hfound
    split
    · rename_i hfresh
      exact applyFreshHello_turns hs hfresh hcrossed.1 hagreed hidle
    · rename_i hchanged
      exact applyEpochChangedHello_turns hs hchanged hcrossed.1 hcrossed.2 hagreed
    · exact applySameEpochWelcome_turns hs plan hello hidle

end Sync
end TmuxWorktree
