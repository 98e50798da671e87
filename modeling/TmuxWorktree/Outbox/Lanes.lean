import TmuxWorktree.Outbox.Once
/-!
# Lanes — what the scan for a dispatch keeps in order

The scan goes by creation, and an entry blocks only the entries of its lane that were created after it.  An entry that
comes into a lane with an older creation than one in flight there, and a replacement, which gets a new creation, are out of
this order.
-/
namespace TmuxWorktree
namespace Outbox

variable {C : Core} {s : State} {a : Action} {e e' : Entry} {calls : List Call}

/-! ## What the user asked for -/

/-- What an intent is about, in every epoch: the session, or the kind of the creation. -/
abbrev Subject := String × String × String × String × Option String × Option Operation

def Entry.subject (e : Entry) : Subject :=
  (e.profileId, e.principalId, e.hostId, e.scopeId, e.sessionId, if e.sessionId.isNone then some e.operation else none)

def Draft.subject (d : Draft) : Subject :=
  (d.profileId, d.principalId, d.hostId, d.scopeId, d.sessionId,
    if d.sessionId.isNone then some d.arguments.operation else none)

theorem laneKey_eq_iff {x y : Entry} :
    x.laneKey = y.laneKey ↔ x.subject = y.subject ∧ x.expectedHostEpoch = y.expectedHostEpoch := by
  simp only [Entry.laneKey, Entry.subject, LaneKey.mk.injEq, Prod.mk.injEq]
  constructor
  · rintro ⟨h₁, h₂, h₃, h₄, h₅, h₆, h₇⟩
    exact ⟨⟨h₁, h₂, h₃, h₅, h₆, h₇⟩, h₄⟩
  · rintro ⟨⟨h₁, h₂, h₃, h₅, h₆, h₇⟩, h₄⟩
    exact ⟨h₁, h₂, h₃, h₄, h₅, h₆, h₇⟩

/-- `root` is the intent that `e` stands for now: itself, or what it was reissued from. -/
inductive Stems (es : List Entry) : Entry → Entry → Prop
  | root (e : Entry) (he : e ∈ es) (h : e.reissuedFromCommandId = none) : Stems es e e
  | reissue (root p c : Entry) (h : Stems es root p) (hp : p ∈ es) (hc : c ∈ es) (hlink : Links p c) : Stems es root c

/-- **One entry of a lane is in flight**, at most. -/
def Exclusive (s : State) : Prop :=
  ∀ x ∈ s.entries, ∀ y ∈ s.entries, queryable x.state = true → queryable y.state = true → x.laneKey = y.laneKey → x = y

instance : Decidable (Exclusive s) := by
  unfold Exclusive
  infer_instance

/-- **An action executes no intent before an older one about the same** that is queued, or whose replacement is. -/
def InOrder (C : Core) (s : State) (a : Action) : Prop :=
  ∀ command attempt delay, Effect.executeCommand command attempt delay ∈ (next C s a).2 →
    ∀ y ∈ s.entries, y.id = command.entryId → ∀ x ∈ s.entries, x.state = .queued → x.subject = y.subject →
      ∀ older newer, Stems s.entries older x → Stems s.entries newer y → ¬ older.createdOrder < newer.createdOrder

/-! ## The condition -/

def unresolved (t : StateTag) : Bool := t = .queued || queryable t

/-- An intent is enqueued only while the queued ones about the same are of its epoch, and an entry is reissued only while
no unresolved entry about the same was created after it. -/
def permitted (s : State) : Action → Bool
  | .enqueue d _ => s.entries.all fun e => e.state ≠ .queued || e.subject ≠ d.subject || e.expectedHostEpoch = d.expectedHostEpoch
  | .reconcileStatus v (.reissue ..) => (s.entry v.entryId).all fun e =>
      s.entries.all fun z => !unresolved z.state || z.subject ≠ e.subject || z.createdOrder ≤ e.createdOrder
  | _ => true

def orderly (C : Core) : Log → List Action → Bool
  | _, [] => true
  | l, a :: rest => permitted l.state a && orderly C (l.step C a) rest

/-! ## The scan -/

theorem eligibleFrom_first : ∀ {blocked : List LaneKey} {es : List Entry} {e : Entry}, e ∈ eligibleFrom blocked es →
    e.laneKey ∉ blocked ∧ ∃ before after, es = before ++ e :: after ∧
      ∀ x ∈ before, unresolved x.state = true → x.laneKey ≠ e.laneKey
  | _, [], _, h => by cases h
  | blocked, x :: rest, e, h => by
    -- an unresolved entry blocks its lane for the rest of the scan
    have hblock : unresolved x.state = true → e ∈ eligibleFrom (x.laneKey :: blocked) rest →
        e.laneKey ∉ blocked ∧ ∃ before after, x :: rest = before ++ e :: after ∧
          ∀ y ∈ before, unresolved y.state = true → y.laneKey ≠ e.laneKey := by
      intro _ hrest
      obtain ⟨hfree, before, after, heq, hbefore⟩ := eligibleFrom_first hrest
      rw [List.mem_cons, not_or] at hfree
      refine ⟨hfree.2, x :: before, after, by rw [heq, List.cons_append], ?_⟩
      intro y hy hun
      rcases List.mem_cons.mp hy with rfl | hy
      · exact fun heq => hfree.1 heq.symm
      · exact hbefore y hy hun
    -- a resolved one does not
    have hpass : unresolved x.state = false → e ∈ eligibleFrom blocked rest →
        e.laneKey ∉ blocked ∧ ∃ before after, x :: rest = before ++ e :: after ∧
          ∀ y ∈ before, unresolved y.state = true → y.laneKey ≠ e.laneKey := by
      intro hres hrest
      obtain ⟨hfree, before, after, heq, hbefore⟩ := eligibleFrom_first hrest
      refine ⟨hfree, x :: before, after, by rw [heq, List.cons_append], ?_⟩
      intro y hy hun
      rcases List.mem_cons.mp hy with rfl | hy
      · rw [hres] at hun
        cases hun
      · exact hbefore y hy hun
    unfold eligibleFrom at h
    split at h
    case h_5 hx =>
      split at h
      · rename_i hfree
        rw [Bool.and_eq_true, decide_eq_true_eq] at hfree
        rcases List.mem_cons.mp h with rfl | h
        · exact ⟨hfree.1, [], rest, rfl, by simp⟩
        · exact hblock (by simp [unresolved, hx]) h
      · exact hblock (by simp [unresolved, hx]) h
    all_goals
      rename_i hx
      first
        | exact hblock (by simp [unresolved, queryable, hx]) h
        | exact hpass (by simp [unresolved, queryable, hx]) h

/-- **An entry that a dispatch may send** is the first unresolved entry of its lane. -/
theorem eligible_first (hs : s.Sound C) (he : e ∈ dispatchEligibleEntries s) {x : Entry} (hx : x ∈ s.entries)
    (hun : unresolved x.state = true) (hlane : x.laneKey = e.laneKey) : e.createdOrder ≤ x.createdOrder := by
  obtain ⟨-, before, after, heq, hbefore⟩ := eligibleFrom_first he
  have hsorted := hs.sorted
  rw [heq, List.pairwise_append, List.pairwise_cons] at hsorted
  rw [heq, List.mem_append, List.mem_cons] at hx
  rcases hx with hx | rfl | hx
  · exact absurd hlane (hbefore x hx hun)
  · exact le_refl _
  · exact (hsorted.2.1.1 x hx).le

/-! ## One turn -/

def Action.epochAfter (a : Action) (e : Entry) : String :=
  match a with
  | .hostEpochChanged _ _ _ _ n _ _ => if a.moves e then n else e.expectedHostEpoch
  | _ => e.expectedHostEpoch

theorem epochAfter_of_not_moves (h : a.moves e = false) : a.epochAfter e = e.expectedHostEpoch := by
  unfold Action.epochAfter
  split
  · rw [h, if_neg (by simp)]
  · rfl

theorem epochAfter_congr {x y : Entry} (hx : x.state = .queued) (hy : y.state = .queued) (hs : x.subject = y.subject)
    (he : x.expectedHostEpoch = y.expectedHostEpoch) : a.epochAfter x = a.epochAfter y := by
  have hauth : x.queryAuthority = y.queryAuthority := by
    simp only [Entry.subject, Prod.mk.injEq] at hs
    simp only [Entry.queryAuthority, Prod.mk.injEq]
    exact ⟨hs.1, hs.2.1, hs.2.2.1, he⟩
  have hmoves : a.moves x = a.moves y := by
    unfold Action.moves
    split
    · rw [hx, hy, hauth]
    · rfl
  unfold Action.epochAfter
  split
  · rw [hmoves, he]
  · exact he

theorem Same.subject (h : Same e e') : e'.subject = e.subject := by
  have hkey := h.key
  simp only [Entry.key, Entry.lineageKey, Prod.mk.injEq] at hkey
  simp only [Entry.subject, hkey.1, hkey.2.1, hkey.2.2.1, h.scopeId, h.sessionId, h.operation]

theorem Turn.flight (h : Turn C s a e e' calls) (hf : queryable e'.state = true) :
    e'.expectedHostEpoch = e.expectedHostEpoch ∧ (queryable e.state = true ∨ e ∈ dispatchEligibleEntries s) := by
  cases h with
  | keep => exact ⟨rfl, .inl hf⟩
  | dispatch ids budget _ r hel => exact ⟨rfl, .inr hel⟩
  | query ids rs _ r hq => exact ⟨rfl, .inl hq⟩
  | interrupt i r _ hi => exact ⟨rfl, .inl (by revert hi; cases e.state <;> decide)⟩
  | settle v recovery _ t acc hi hopen hset => exact ⟨rfl, .inl (by revert hopen; cases e.state <;> decide)⟩
  | retry v r _ hd hv =>
    have hopen := hd.open_
    exact ⟨rfl, .inl (by revert hopen; cases e.state <;> decide)⟩
  | reissue v c w t _ hd hv => cases hf
  | move p q o n w u l _ hq =>
    have hstate : (e.moved C w u).state = .queued := hq
    rw [hstate] at hf
    cases hf
  | suspend p q o n w u l _ t hi ht => exact ⟨rfl, .inl (by revert hi; cases e.state <;> decide)⟩
  | confirm i o w sc se _ pending hq hr ht =>
    have hstate : (e.confirmed pending).state = .queued := hq
    rw [hstate] at hf
    cases hf

theorem Settles.ne_queued {t : StateTag} {acc : AcceptanceEvidence} (h : Settles e t acc) (hopen : settled e.state = false) :
    t ≠ .queued := by
  have hne : e.state ≠ .queued := by
    intro hq
    rw [hq] at hopen
    cases hopen
  cases h with
  | accepted =>
    by_cases hst : e.state = .sending
    · rw [if_pos hst]
      decide
    · rw [if_neg hst]
      exact hne
  | running => decide
  | succeeded => decide
  | failed => decide
  | inDoubt => decide
  | unknown => decide

theorem Turn.queued (h : Turn C s a e e' calls) (hq : e'.state = .queued) :
    e.state = .queued ∧ e'.expectedHostEpoch = a.epochAfter e := by
  cases h with
  | keep _ _ hm => exact ⟨hq, (epochAfter_of_not_moves hm).symm⟩
  | dispatch ids budget _ r hel => cases hq
  | query ids rs _ r hqu =>
    exfalso
    unfold Entry.queried Entry.appendRecoveryQueryAttempt Entry.appendAttempt at hq
    simp only at hq
    split at hq <;> cases hq
  | interrupt i r _ hi => cases hq
  | settle v recovery _ t acc hi hopen hset =>
    exact absurd hq (hset.ne_queued hopen)
  | retry v r _ hd hv => cases hq
  | reissue v c w t _ hd hv => cases hq
  | move p q o n w u l _ hq' ha =>
    refine ⟨hq', ?_⟩
    have hm : (Action.hostEpochChanged p q o n w u l).moves e = true := by
      simp only [Action.moves, Bool.and_eq_true, decide_eq_true_eq]
      exact ⟨hq', ha⟩
    simp only [Action.epochAfter, hm, if_true]
    rfl
  | suspend p q o n w u l _ t hi ht =>
    exfalso
    have hq : t = .queued := hq
    rcases ht with h | h <;> rw [h] at hq <;> cases hq
  | confirm i o w sc se _ pending hq' hr ht =>
    refine ⟨hq', ?_⟩
    rw [Entry.confirmed, ht]
    rfl

theorem unresolved_iff {t : StateTag} : unresolved t = true ↔ t = .queued ∨ queryable t = true := by
  cases t <;> decide

theorem Turn.unresolved (h : Turn C s a e e' calls) (hu : unresolved e'.state = true) : unresolved e.state = true := by
  rcases unresolved_iff.mp hu with hq | hf
  · exact unresolved_iff.mpr (.inl (h.queued hq).1)
  · rcases (h.flight hf).2 with hf | hel
    · exact unresolved_iff.mpr (.inr hf)
    · exact unresolved_iff.mpr (.inl (eligibleFrom_queued hel))

/-! ## The order -/

/-- **What the condition keeps.**  `place` gives each entry the creation of the intent it stands for. -/
structure Lanes (es : List Entry) (place : Nat → Nat) : Prop where
  alone : ∀ x ∈ es, ∀ y ∈ es, queryable x.state = true → queryable y.state = true → x.laneKey = y.laneKey → x = y
  behind : ∀ x ∈ es, ∀ y ∈ es, queryable x.state = true → y.state = .queued → x.subject = y.subject →
    x.createdOrder < y.createdOrder
  epoch : ∀ x ∈ es, ∀ y ∈ es, x.state = .queued → y.state = .queued → x.subject = y.subject →
    x.expectedHostEpoch = y.expectedHostEpoch
  order : ∀ x ∈ es, ∀ y ∈ es, unresolved x.state = true → unresolved y.state = true → x.subject = y.subject →
    x.createdOrder < y.createdOrder → place x.createdOrder < place y.createdOrder
  root : ∀ e ∈ es, e.reissuedFromCommandId = none → place e.createdOrder = e.createdOrder
  linked : ∀ p ∈ es, ∀ c ∈ es, Links p c → place c.createdOrder = place p.createdOrder
  bound : ∀ e ∈ es, place e.createdOrder ≤ e.createdOrder

variable {place : Nat → Nat} {es : List Entry}

theorem Lanes.stems (h : Lanes es place) {root x : Entry} (hx : Stems es root x) :
    place x.createdOrder = root.createdOrder := by
  induction hx with
  | root he hr => exact h.root root he hr
  | reissue p c _ hp hc hlink ih => rw [h.linked p hp c hc hlink, ih]

/-- **A dispatch takes the first of what is unresolved about a subject.** -/
theorem Lanes.eligible_first (h : Lanes s.entries place) (hs : s.Sound C) {x y : Entry} (hy : y ∈ dispatchEligibleEntries s)
    (hx : x ∈ s.entries) (hq : x.state = .queued) (hsub : x.subject = y.subject) : y.createdOrder ≤ x.createdOrder := by
  have hys := eligibleFrom_sublist.subset hy
  have hepoch := h.epoch x hx y hys hq (eligibleFrom_queued hy) hsub
  exact Outbox.eligible_first hs hy hx (unresolved_iff.mpr (.inl hq)) (laneKey_eq_iff.mpr ⟨hsub, hepoch⟩)

theorem Lanes.turned {g : Entry → Entry} (h : Lanes s.entries place) (hs : s.Sound C)
    (hturn : ∀ e ∈ s.entries, ∃ calls, Turn C s a e (g e) calls) : Lanes (s.entries.map g) place := by
  have hsame : ∀ e ∈ s.entries, Same e (g e) := fun e he => by
    obtain ⟨calls, ht⟩ := hturn e he
    exact ht.progress.toSame
  have hparent : ∀ e ∈ s.entries, (g e).reissuedFromCommandId = none → e.reissuedFromCommandId = none := by
    intro e he hnone
    have hk := (hsame e he).parentKey
    rw [Entry.parentKey, hnone, Option.map_none] at hk
    simpa [Entry.parentKey] using hk.symm
  refine ⟨?_, ?_, ?_, ?_, ?_, ?_, ?_⟩
  · intro x' hx' y' hy' hfx hfy hlane
    obtain ⟨x, hx, rfl⟩ := List.mem_map.mp hx'
    obtain ⟨y, hy, rfl⟩ := List.mem_map.mp hy'
    obtain ⟨_, htx⟩ := hturn x hx
    obtain ⟨_, hty⟩ := hturn y hy
    obtain ⟨hex, hwasx⟩ := htx.flight hfx
    obtain ⟨hey, hwasy⟩ := hty.flight hfy
    rw [laneKey_eq_iff, (hsame x hx).subject, (hsame y hy).subject, hex, hey] at hlane
    have hlane' : x.laneKey = y.laneKey := laneKey_eq_iff.mpr hlane
    have hxy : x = y := by
      rcases hwasx with hqx | helx <;> rcases hwasy with hqy | hely
      · exact h.alone x hx y hy hqx hqy hlane'
      · -- an older entry in flight blocks the lane
        have hlt := h.behind x hx y hy hqx (eligibleFrom_queued hely) hlane.1
        have hle := Outbox.eligible_first hs hely hx (unresolved_iff.mpr (.inr hqx)) hlane'
        omega
      · have hlt := h.behind y hy x hx hqy (eligibleFrom_queued helx) hlane.1.symm
        have hle := Outbox.eligible_first hs helx hy (unresolved_iff.mpr (.inr hqy)) hlane'.symm
        omega
      · have hxy := h.eligible_first hs hely hx (eligibleFrom_queued helx) hlane.1
        have hyx := h.eligible_first hs helx hy (eligibleFrom_queued hely) hlane.1.symm
        exact eq_of_map_nodup hs.entries.orders hx hy (by omega)
    rw [hxy]
  · intro x' hx' y' hy' hfx hqy hsub
    obtain ⟨x, hx, rfl⟩ := List.mem_map.mp hx'
    obtain ⟨y, hy, rfl⟩ := List.mem_map.mp hy'
    obtain ⟨_, htx⟩ := hturn x hx
    obtain ⟨_, hty⟩ := hturn y hy
    have hwasy := (hty.queued hqy).1
    rw [(hsame x hx).subject, (hsame y hy).subject] at hsub
    rw [(hsame x hx).order, (hsame y hy).order]
    rcases (htx.flight hfx).2 with hqx | helx
    · exact h.behind x hx y hy hqx hwasy hsub
    · have hle := h.eligible_first hs helx hy hwasy hsub.symm
      have hne : x.createdOrder ≠ y.createdOrder := by
        intro heq
        rw [eq_of_map_nodup hs.entries.orders hx hy heq, hqy] at hfx
        cases hfx
      omega
  · intro x' hx' y' hy' hqx hqy hsub
    obtain ⟨x, hx, rfl⟩ := List.mem_map.mp hx'
    obtain ⟨y, hy, rfl⟩ := List.mem_map.mp hy'
    obtain ⟨_, htx⟩ := hturn x hx
    obtain ⟨_, hty⟩ := hturn y hy
    obtain ⟨hwasx, hex⟩ := htx.queued hqx
    obtain ⟨hwasy, hey⟩ := hty.queued hqy
    rw [(hsame x hx).subject, (hsame y hy).subject] at hsub
    rw [hex, hey]
    exact epochAfter_congr hwasx hwasy hsub (h.epoch x hx y hy hwasx hwasy hsub)
  · intro x' hx' y' hy' hux huy hsub
    obtain ⟨x, hx, rfl⟩ := List.mem_map.mp hx'
    obtain ⟨y, hy, rfl⟩ := List.mem_map.mp hy'
    obtain ⟨_, htx⟩ := hturn x hx
    obtain ⟨_, hty⟩ := hturn y hy
    rw [(hsame x hx).subject, (hsame y hy).subject] at hsub
    rw [(hsame x hx).order, (hsame y hy).order]
    exact h.order x hx y hy (htx.unresolved hux) (hty.unresolved huy) hsub
  · intro x' hx' hnone
    obtain ⟨x, hx, rfl⟩ := List.mem_map.mp hx'
    rw [(hsame x hx).order]
    exact h.root x hx (hparent x hx hnone)
  · intro p' hp' c' hc' hlink
    obtain ⟨p, hp, rfl⟩ := List.mem_map.mp hp'
    obtain ⟨c, hc, rfl⟩ := List.mem_map.mp hc'
    rw [Links, (hsame p hp).key, (hsame c hc).parentKey] at hlink
    rw [(hsame p hp).order, (hsame c hc).order]
    exact h.linked p hp c hc hlink
  · intro x' hx'
    obtain ⟨x, hx, rfl⟩ := List.mem_map.mp hx'
    rw [(hsame x hx).order]
    exact h.bound x hx

/-- **A queued entry arrives** as the newest of its subject. -/
theorem Lanes.arrive {n : Entry} {next : Nat} (h : Lanes es place) {k : Nat} (hbelow : ∀ e ∈ es, e.createdOrder < next)
    (hn : n.createdOrder = next) (hq : n.state = .queued)
    (hepoch : ∀ x ∈ es, x.state = .queued → x.subject = n.subject → x.expectedHostEpoch = n.expectedHostEpoch)
    (horder : ∀ x ∈ es, unresolved x.state = true → x.subject = n.subject → place x.createdOrder < k)
    (hroot : n.reissuedFromCommandId = none → k = next) (hle : k ≤ next)
    (hlinked : ∀ p ∈ es, Links p n → k = place p.createdOrder) (hself : ¬ Links n n) (hchild : ∀ c ∈ es, ¬ Links n c) :
    Lanes (es ++ [n]) (Function.update place next k) := by
  have hold : ∀ e ∈ es, Function.update place next k e.createdOrder = place e.createdOrder := fun e he =>
    Function.update_of_ne (hbelow e he).ne _ _
  have hnew : Function.update place next k n.createdOrder = k := by rw [hn, Function.update_self]
  have hidle : ¬ queryable n.state = true := by
    rw [hq]
    decide
  have hcases : ∀ {x}, x ∈ es ++ [n] → x ∈ es ∨ x = n := fun hx => by
    rcases List.mem_append.mp hx with hx | hx
    · exact .inl hx
    · exact .inr (List.mem_singleton.mp hx)
  refine ⟨?_, ?_, ?_, ?_, ?_, ?_, ?_⟩
  · intro x hx' y hy' hfx hfy hlane
    rcases hcases hx' with hx | rfl
    · rcases hcases hy' with hy | rfl
      · exact h.alone x hx y hy hfx hfy hlane
      · exact absurd hfy hidle
    · exact absurd hfx hidle
  · intro x hx' y hy' hfx hqy hsub
    rcases hcases hx' with hx | rfl
    · rcases hcases hy' with hy | rfl
      · exact h.behind x hx y hy hfx hqy hsub
      · rw [hn]
        exact hbelow x hx
    · exact absurd hfx hidle
  · intro x hx' y hy' hqx hqy hsub
    rcases hcases hx' with hx | rfl <;> rcases hcases hy' with hy | rfl
    · exact h.epoch x hx y hy hqx hqy hsub
    · exact hepoch x hx hqx hsub
    · exact (hepoch y hy hqy hsub.symm).symm
    · rfl
  · intro x hx' y hy' hux huy hsub hlt
    rcases hcases hx' with hx | rfl <;> rcases hcases hy' with hy | rfl
    · rw [hold x hx, hold y hy]
      exact h.order x hx y hy hux huy hsub hlt
    · rw [hold x hx, hnew]
      exact horder x hx hux hsub
    · have := hbelow y hy
      omega
    · omega
  · intro x hx' hnone
    rcases hcases hx' with hx | rfl
    · rw [hold x hx]
      exact h.root x hx hnone
    · rw [hnew, hn]
      exact hroot hnone
  · intro p hp' c hc' hlink
    rcases hcases hp' with hp | rfl <;> rcases hcases hc' with hc | rfl
    · rw [hold p hp, hold c hc]
      exact h.linked p hp c hc hlink
    · rw [hold p hp, hnew]
      exact hlinked p hp hlink
    · exact absurd hlink (hchild c hc)
    · exact absurd hlink hself
  · intro x hx'
    rcases hcases hx' with hx | rfl
    · rw [hold x hx]
      exact h.bound x hx
    · rw [hnew, hn]
      exact hle

theorem Lanes.perm {es' : List Entry} (h : Lanes es place) (hp : es'.Perm es) : Lanes es' place where
  alone := fun x hx y hy => h.alone x (hp.mem_iff.mp hx) y (hp.mem_iff.mp hy)
  behind := fun x hx y hy => h.behind x (hp.mem_iff.mp hx) y (hp.mem_iff.mp hy)
  epoch := fun x hx y hy => h.epoch x (hp.mem_iff.mp hx) y (hp.mem_iff.mp hy)
  order := fun x hx y hy => h.order x (hp.mem_iff.mp hx) y (hp.mem_iff.mp hy)
  root := fun x hx => h.root x (hp.mem_iff.mp hx)
  linked := fun x hx y hy => h.linked x (hp.mem_iff.mp hx) y (hp.mem_iff.mp hy)
  bound := fun x hx => h.bound x (hp.mem_iff.mp hx)

theorem Changed.no_child {g : Entry → Entry} {new : List Entry} {s' : State} {effs : List Effect} (hs : s.Sound C)
    (h : Changed C s a g new s' effs) {n : Entry} (hn : n ∈ new) : ∀ c ∈ s.entries.map g, ¬ Links n c := by
  intro c' hc' hlink
  obtain ⟨c, hc, rfl⟩ := List.mem_map.mp hc'
  rw [Links, (h.turn c hc).progress.parentKey] at hlink
  obtain ⟨x, hx⟩ : ∃ x, c.reissuedFromCommandId = some x := by
    cases hx : c.reissuedFromCommandId with
    | none => simp [Entry.parentKey, hx] at hlink
    | some x => exact ⟨x, rfl⟩
  obtain ⟨q, hq, hrep⟩ := hs.entries.parent c hc x hx
  have hgq : g q ∈ s'.entries := h.mem.mpr (.inl ⟨q, hq, rfl⟩)
  have hkey : (g q).key = n.key := by
    rw [(h.turn q hq).progress.key]
    exact Option.some.inj (hrep.key.symm.trans hlink)
  have heq : g q = n := eq_of_map_nodup h.sound.entries.keys hgq (h.mem.mpr (.inr hn)) hkey
  have horder := (h.arrives.fresh n hn).1
  have hbelow := hs.entries.below q hq
  rw [← heq, (h.turn q hq).progress.order] at horder
  omega

theorem replacement_subject {c w : String} {o t : Nat} (hop : e.arguments.operation = e.operation) :
    (e.replacement C c w o t).subject = e.subject := by
  simp [Entry.subject, Entry.replacement, entryFromDraft, Entry.replacementDraft, hop]

theorem Entry.valid_operation (h : e.valid C = true) : e.arguments.operation = e.operation := by
  simp only [Entry.valid, Bool.and_eq_true, decide_eq_true_eq] at h
  exact h.1.1.1.1.1.1.1.1

theorem Log.step_lanes {l : Log} (hk : Kept C l) (h : Lanes l.state.entries place) (hp : permitted l.state a = true) :
    ∃ place, Lanes (l.step C a).state.entries place := by
  unfold Log.step
  rcases next_cases (a := a) hk.sound with hsame | ⟨g, new, hch⟩
  · rw [hsame]
    exact ⟨place, h⟩
  have hmap := h.turned hk.sound fun e he => ⟨_, hch.turn e he⟩
  have hbelow : ∀ e ∈ l.state.entries.map g, e.createdOrder < l.state.nextCreationOrder := by
    intro e' he'
    obtain ⟨e, he, rfl⟩ := List.mem_map.mp he'
    rw [(hch.turn e he).progress.order]
    exact hk.sound.entries.below e he
  have hchild : ∀ n ∈ new, ∀ c ∈ l.state.entries.map g, ¬ Links n c := fun n hn => hch.no_child hk.sound hn
  have hperm := hch.entries
  cases harr : hch.arrives with
  | nobody =>
    rw [List.append_nil] at hperm
    exact ⟨place, hmap.perm hperm⟩
  | enqueued d t =>
    refine ⟨_, (hmap.arrive (k := l.state.nextCreationOrder) hbelow rfl rfl ?_ ?_ (fun _ => rfl) (le_refl _) ?_ ?_
      (hchild _ (List.mem_singleton.mpr rfl))).perm hperm⟩
    · intro x' hx' hq hsub
      obtain ⟨x, hx, rfl⟩ := List.mem_map.mp hx'
      obtain ⟨hwas, hex⟩ := (hch.turn x hx).queued hq
      rw [(hch.turn x hx).progress.toSame.subject] at hsub
      have := List.all_eq_true.mp hp x hx
      simp only [hwas, ne_eq, not_true_eq_false, decide_false, Bool.false_or, Bool.or_eq_true, decide_eq_true_eq] at this
      rw [hex]
      rcases this with hne | heq
      · exact absurd hsub hne
      · exact heq
    · intro x hx _ _
      have := hmap.bound x hx
      have := hbelow x hx
      omega
    · intro p _ hlink
      cases hlink
    · intro hlink
      cases hlink
  | replacement v c w t e hentry hd hv hne =>
    have he := (State.entry_mem hentry).1
    have hsub : (e.replacement C c w l.state.nextCreationOrder t).subject = e.subject :=
      replacement_subject (e.valid_operation (hk.sound.entries.valid e he))
    have hopen : unresolved e.state = true := by
      have := hd.open_
      revert this
      cases e.state <;> decide
    have hflying : queryable e.state = true := by
      have := hd.open_
      revert this
      cases e.state <;> decide
    have hlast : ∀ z ∈ l.state.entries, unresolved z.state = true → z.subject = e.subject →
        z.createdOrder ≤ e.createdOrder := by
      intro z hz hun hzs
      simp only [permitted, hentry, Option.all_some] at hp
      have := List.all_eq_true.mp hp z hz
      simp only [hun, hzs, ne_eq, not_true_eq_false, decide_false, Bool.not_true, Bool.or_self, Bool.false_or,
        decide_eq_true_eq] at this
      exact this
    -- the original is reissued now
    have hreissued : (g e).state = .reissued := by
      have hmem : e.replacement C c w l.state.nextCreationOrder t ∈ (next C l.state _).1.entries :=
        hch.mem.mpr (.inr (List.mem_singleton.mpr rfl))
      obtain ⟨p, hp, hrep⟩ := hch.sound.entries.parent _ hmem e.commandId rfl
      have hkey : p.key = (g e).key := by
        rw [(hch.turn e he).progress.key]
        exact Option.some.inj hrep.key.symm
      rw [← eq_of_map_nodup hch.sound.entries.keys hp (hch.mem.mpr (.inl ⟨e, he, rfl⟩)) hkey]
      exact hrep.state
    refine ⟨_, (hmap.arrive (k := place e.createdOrder) hbelow rfl rfl ?_ ?_ ?_ ?_ ?_ ?_
      (hchild _ (List.mem_singleton.mpr rfl))).perm hperm⟩
    · -- nothing of the subject is queued
      intro x' hx' hq hxs
      exfalso
      obtain ⟨x, hx, rfl⟩ := List.mem_map.mp hx'
      have hwas := ((hch.turn x hx).queued hq).1
      rw [(hch.turn x hx).progress.toSame.subject, hsub] at hxs
      have hle := hlast x hx (unresolved_iff.mpr (.inl hwas)) hxs
      have hlt := h.behind e he x hx hflying hwas hxs.symm
      omega
    · intro x' hx' hun hxs
      obtain ⟨x, hx, rfl⟩ := List.mem_map.mp hx'
      have hwas := (hch.turn x hx).unresolved hun
      rw [(hch.turn x hx).progress.toSame.subject, hsub] at hxs
      rw [(hch.turn x hx).progress.order]
      have hle := hlast x hx hwas hxs
      have hne' : x.createdOrder ≠ e.createdOrder := by
        intro heq
        rw [eq_of_map_nodup hk.sound.entries.orders hx he heq, hreissued] at hun
        cases hun
      exact h.order x hx e he hwas hopen hxs (by omega)
    · intro hnone
      cases hnone
    · have := h.bound e he
      have := hk.sound.entries.below e he
      omega
    · intro p' hp' hlink
      obtain ⟨p, hpm, rfl⟩ := List.mem_map.mp hp'
      have hkey : p.key = e.key := by
        rw [← (hch.turn p hpm).progress.key]
        exact (Option.some.inj hlink).symm
      rw [(hch.turn p hpm).progress.order, eq_of_map_nodup hk.sound.entries.keys hpm he hkey]
    · intro hlink
      simp only [Links, Entry.parentKey, Entry.key, Entry.replacement, entryFromDraft, Entry.replacementDraft,
        Entry.lineageKey, Option.map_some, Option.some.injEq, Prod.mk.injEq, true_and] at hlink
      exact hne hlink.symm

/-! ## Runs in order -/

theorem Lanes.inOrder {l : Log} (hk : Kept C l) (h : Lanes l.state.entries place) : InOrder C l.state a := by
  intro command attempt delay hmem y hy hid x hx hq hsub older newer hox hny hlt
  rw [← h.stems hox, ← h.stems hny] at hlt
  rcases next_cases (a := a) hk.sound with hsame | ⟨g, new, hch⟩
  · rw [hsame] at hmem
    cases hmem
  have hcall : (attempt.requestId, AttemptKind.execute) ∈ callsMade l.state (next C l.state a).2 y.createdOrder := by
    refine List.mem_flatMap.mpr ⟨_, hmem, ?_⟩
    simp only [Effect.calls]
    rw [← hid, entry_any hk.sound hy, if_pos (decide_eq_true rfl)]
    exact List.mem_singleton.mpr rfl
  have hxu : unresolved x.state = true := unresolved_iff.mpr (.inl hq)
  -- the older intent stands first, as both are unresolved
  have hfirst : unresolved y.state = true → y.createdOrder ≤ x.createdOrder → False := by
    intro hyu hle
    rcases hle.lt_or_eq with hyx | heq
    · have := h.order y hy x hx hyu hxu hsub.symm hyx
      omega
    · rw [heq] at hlt
      omega
  have hturn := hch.turn y hy
  generalize callsMade l.state (next C l.state a).2 y.createdOrder = calls at hcall hturn
  generalize g y = y' at hturn
  cases hturn with
  | dispatch ids budget _ r hel =>
    exact hfirst (unresolved_iff.mpr (.inl (eligibleFrom_queued hel))) (h.eligible_first hk.sound hel hx hq hsub)
  | retry v r _ hd hv =>
    have hflying : queryable y.state = true := by
      have := hd.open_
      revert this
      cases y.state <;> decide
    exact hfirst (unresolved_iff.mpr (.inr hflying)) (h.behind y hy x hx hflying hq hsub.symm).le
  | query ids rs _ r hqu => cases List.mem_singleton.mp hcall
  | keep => cases hcall
  | interrupt => cases hcall
  | settle => cases hcall
  | reissue => cases hcall
  | move => cases hcall
  | suspend => cases hcall
  | confirm => cases hcall

theorem Lanes.nil : Lanes [] place := by
  refine ⟨?_, ?_, ?_, ?_, ?_, ?_, ?_⟩ <;> simp

theorem orderly_run {actions : List Action} {l : Log} (hk : Kept C l) (h : Lanes l.state.entries place)
    (ho : orderly C l actions = true) : ∀ past rest, actions = past ++ rest →
      Kept C (past.foldl (Log.step C) l) ∧ ∃ place, Lanes (past.foldl (Log.step C) l).state.entries place := by
  induction actions generalizing l place with
  | nil =>
    intro past rest heq
    obtain ⟨rfl, rfl⟩ := List.append_eq_nil_iff.mp heq.symm
    exact ⟨hk, place, h⟩
  | cons a actions ih =>
    intro past rest heq
    simp only [orderly, Bool.and_eq_true] at ho
    rcases past with _ | ⟨b, past⟩
    · exact ⟨hk, place, h⟩
    · simp only [List.cons_append, List.cons.injEq] at heq
      obtain ⟨rfl, heq⟩ := heq
      obtain ⟨place', h'⟩ := Log.step_lanes hk h ho.1
      exact ih (Log.step_kept hk a) h' ho.2 past rest heq

/-- **Lanes are exclusive and in order along every run whose actions meet the condition.** -/
theorem lanes_in_order_when (C : Core) (actions : List Action) (h : orderly C ⟨.empty, fun _ => []⟩ actions = true) :
    (∀ past rest, actions = past ++ rest → Exclusive (run C past).state) ∧
      ∀ past a rest, actions = past ++ a :: rest → InOrder C (run C past).state a := by
  have hstart : Kept C ⟨.empty, fun _ => []⟩ := run_kept (C := C) []
  have hlanes : Lanes (⟨.empty, fun _ => []⟩ : Log).state.entries id := Lanes.nil
  refine ⟨?_, ?_⟩
  · intro past rest heq
    obtain ⟨-, place, hl⟩ := orderly_run hstart hlanes h past rest heq
    exact hl.alone
  · intro past a rest heq
    obtain ⟨hk, place, hl⟩ := orderly_run hstart hlanes h past (a :: rest) heq
    exact hl.inOrder hk

/-! ### Sample runs -/

def sampleDigest (request : String) : String :=
  match request with
  | "\x7b\"arguments\":\x7b\"message\":\"go\",\"pane\":0,\"submit\":true\x7d,\"dedupeWindowId\":\"w1\",\"hostEpoch\":\"e1\",\"hostId\":\"h\",\"operation\":\"send_agent_message\",\"schemaVersion\":1,\"scopeId\":\"s\",\"sessionId\":\"t\"\x7d" =>
    "325c05521d28c383959731947f951b5574a1dd3233ab7b6e728239162b775775"
  | "\x7b\"arguments\":\x7b\"message\":\"go\",\"pane\":0,\"submit\":true\x7d,\"dedupeWindowId\":\"w2\",\"hostEpoch\":\"e2\",\"hostId\":\"h\",\"operation\":\"send_agent_message\",\"schemaVersion\":1,\"scopeId\":\"s\",\"sessionId\":\"t\"\x7d" =>
    "ed4fe9950aff958170328d9a637f437c9823d5fea5fc073aca30cf5e4d53112a"
  | "\x7b\"arguments\":\x7b\x7d,\"dedupeWindowId\":\"w2\",\"hostEpoch\":\"e2\",\"hostId\":\"h\",\"operation\":\"kill_session\",\"schemaVersion\":1,\"scopeId\":\"s\",\"sessionId\":\"t\"\x7d" =>
    "137f3f4edb79750ba333f4a42fa7bdfb21154997de57eadbe27daf1e55ba156e"
  | "\x7b\"arguments\":\x7b\"message\":\"go\",\"pane\":0,\"submit\":true\x7d,\"dedupeWindowId\":\"w2\",\"hostEpoch\":\"e1\",\"hostId\":\"h\",\"operation\":\"send_agent_message\",\"schemaVersion\":1,\"scopeId\":\"s\",\"sessionId\":\"t\"\x7d" =>
    "a41331ef26fc7283cceb03e62c8f28289615abe1de783f71723aa3d016853957"
  | _ => ""

def sampleCore : Core := { sha256Hex := sampleDigest }

def sampleId (epoch command : String) : EntryId := ⟨"p", "u", "h", epoch, command⟩

def sampleMessage (epoch window command : String) : Action :=
  .enqueue ⟨"p", "u", "h", epoch, window, command, "s", some "t", .sendAgentMessage 0 "go" true⟩ 0

def sampleKill (epoch window command : String) : Action :=
  .enqueue ⟨"p", "u", "h", epoch, window, command, "s", some "t", .killSession⟩ 0

def sampleSend (epoch command request : String) : Action := .dispatchEligible [(sampleId epoch command, request)] 1

/-- The host goes to its second epoch, and what was sent in the first can still be asked for. -/
def sampleEpoch : Action := .hostEpochChanged "p" "u" "h" "e1" "e2" "w2" .queryable

def sampleConfirm (command : String) : Action := .confirmQueuedTarget (sampleId "e2" command) "e2" "w2" "s" (some "t")

/-- The host answers that the window of the message is over. -/
def sampleExpired : Evidence :=
  { entryId := sampleId "e1" "c1", dedupeWindowId := "w1", hostEpoch := "e1", scopeId := "s", sessionId := some "t"
    operation := .sendAgentMessage, source := .executeResponse, attemptKind := some .execute, state := .notAccepted
    attemptRequestId := some "r1", reissueRequired := true, errorCode := some "COMMAND_WINDOW_EXPIRED"
    commandDisposition := some .notAccepted, detailsReissueRequired := some true }

/-- The message is reissued, moves to the second epoch, is confirmed there and is sent before the end of the session. -/
def sampleRun : List Action :=
  [sampleMessage "e1" "w1" "c1", sampleSend "e1" "c1" "r1", .reconcileStatus sampleExpired (.reissue "c2" "w2" 0),
    sampleEpoch, sampleKill "e2" "w2" "c3", sampleConfirm "c2", sampleSend "e2" "c2" "r2"]

theorem lanes_in_order_when_sample :
    (∀ past rest, sampleRun = past ++ rest → Exclusive (run sampleCore past).state) ∧
      ∀ past a rest, sampleRun = past ++ a :: rest → InOrder sampleCore (run sampleCore past).state a :=
  lanes_in_order_when sampleCore sampleRun (by decide +kernel)

/-- **Two entries of one lane are in flight.**  The message waits in the first epoch; the end of the session is enqueued in
the second and sent; the message follows into that epoch, is the older one there, and is sent as well. -/
def crossedRun : List Action :=
  [sampleMessage "e1" "w1" "c1", sampleKill "e2" "w2" "c2", sampleSend "e2" "c2" "r1", sampleEpoch, sampleConfirm "c1",
    sampleSend "e2" "c1" "r2"]

theorem lanes_not_exclusive : ¬ ∀ (C : Core) (actions : List Action),
    (∀ past rest, actions = past ++ rest → Exclusive (run C past).state) ∧
      ∀ past a rest, actions = past ++ a :: rest → InOrder C (run C past).state a := by
  intro h
  have hno : ¬ Exclusive (run sampleCore crossedRun).state := by decide +kernel
  exact hno ((h sampleCore crossedRun).1 crossedRun [] (by simp))

end Outbox
end TmuxWorktree
