import TmuxWorktree.Outbox.Change
/-!
# Once — no intent is executed again without proof

An entry forgets attempts when its list is full.  What it keeps is enough: its first attempt is an execute, and between
that and the next one it keeps nothing was executed.  So evidence about a kept attempt with no later execute in the list
is evidence about an attempt after which nothing was executed at all.
-/
namespace TmuxWorktree
namespace Outbox

variable {C : Core}

/-! ## Kept attempts -/

/-- The attempts that an entry keeps, among all that were made for it. -/
inductive Retains (made : List Call) : List Call → Prop
  | nothing (h : made = []) : Retains made []
  | since (x : Call) (rest old mid : List Call) (hx : x.2 = .execute) (h : made = old ++ x :: mid ++ rest)
    (hmid : ∀ c ∈ mid, c.2 ≠ .execute) : Retains made (x :: rest)

theorem Retains.append {made kept : List Call} {c : Call} (h : Retains made kept) (hc : kept = [] → c.2 = .execute) :
    Retains (made ++ [c]) (kept ++ [c]) := by
  cases h with
  | nothing h =>
    subst h
    exact .since c [] [] [] (hc rfl) rfl (by simp)
  | since x rest old mid hx h hmid =>
    exact .since x (rest ++ [c]) old mid hx (by rw [h, List.append_assoc]) hmid

theorem Retains.restart {made : List Call} {c : Call} (hc : c.2 = .execute) : Retains (made ++ [c]) [c] :=
  .since c [] made [] hc (by simp) (by simp)

/-- **The list is cut down to its newest execute.** -/
theorem Retains.cut {made before after : List Call} {y : Call} (h : Retains made (before ++ y :: after))
    (hy : y.2 = .execute) (hafter : ∀ c ∈ after, c.2 ≠ .execute) : Retains made [y] := by
  generalize hkept : before ++ y :: after = kept at h
  cases h with
  | nothing h => simp at hkept
  | since x rest old mid hx h hmid =>
    rcases before with _ | ⟨b, before⟩
    · simp only [List.nil_append, List.cons.injEq] at hkept
      obtain ⟨rfl, rfl⟩ := hkept
      refine .since y [] old (mid ++ after) hy (by simp [h]) ?_
      intro c hc
      rcases List.mem_append.mp hc with hc | hc
      · exact hmid c hc
      · exact hafter c hc
    · simp only [List.cons_append, List.cons.injEq] at hkept
      obtain ⟨rfl, rfl⟩ := hkept
      exact .since y [] (old ++ b :: mid ++ before) after hy (by simp [h]) hafter

/-- The evidence is about an attempt after which nothing was executed. -/
def Unexecuted (made : List Call) (v : Evidence) : Prop :=
  ∃ old call later, made = old ++ call :: later ∧ v.attemptRequestId = some call.1 ∧
    v.source.attemptKind = some call.2 ∧ ∀ c ∈ later, c.2 ≠ .execute

theorem Retains.unexecuted {made before after : List Call} {y : Call} (h : Retains made (before ++ y :: after))
    (hafter : ∀ c ∈ after, c.2 ≠ .execute) : ∃ old later, made = old ++ y :: later ∧ ∀ c ∈ later, c.2 ≠ .execute := by
  generalize hkept : before ++ y :: after = kept at h
  cases h with
  | nothing h => simp at hkept
  | since x rest old mid hx h hmid =>
    rcases before with _ | ⟨b, before⟩
    · simp only [List.nil_append, List.cons.injEq] at hkept
      obtain ⟨rfl, rfl⟩ := hkept
      refine ⟨old, mid ++ after, by simp [h], ?_⟩
      intro c hc
      rcases List.mem_append.mp hc with hc | hc
      · exact hmid c hc
      · exact hafter c hc
    · simp only [List.cons_append, List.cons.injEq] at hkept
      obtain ⟨rfl, rfl⟩ := hkept
      exact ⟨old ++ b :: mid ++ before, after, by simp [h], hafter⟩

/-! ## Attempts of an entry -/

def Entry.calls (e : Entry) : List Call := e.attempts.map Attempt.call

theorem ordinals_after {atts before after : List Attempt} {y : Attempt} (hord : atts.map Attempt.ordinal =
    List.range' 1 atts.length) (h : atts = before ++ y :: after) : ∀ a ∈ after, y.ordinal < a.ordinal := by
  have hsorted : (atts.map Attempt.ordinal).Pairwise (· < ·) := by
    rw [hord]
    exact List.pairwise_lt_range'
  rw [h, List.map_append, List.map_cons, List.pairwise_append, List.pairwise_cons] at hsorted
  intro a ha
  exact hsorted.2.1.1 a.ordinal (List.mem_map_of_mem ha)

theorem Disproved.unexecuted {e : Entry} {v : Evidence} {made : List Call} (hd : Disproved e v) (hv : e.valid C = true)
    (h : Retains made e.calls) : Unexecuted made v := by
  obtain ⟨proof, hmem, hkind, hreq, hlast⟩ := hd.proof
  obtain ⟨before, after, heq⟩ := List.append_of_mem hmem
  have hlater := ordinals_after (e.valid_ordinals hv) heq
  have hafter : ∀ c ∈ after.map Attempt.call, c.2 ≠ .execute := by
    intro c hc hexec
    obtain ⟨a, ha, rfl⟩ := List.mem_map.mp hc
    have hle := hlast a (by rw [heq]; exact List.mem_append_right _ (List.mem_cons_of_mem _ ha)) hexec
    have hlt := hlater a ha
    omega
  have hcalls : e.calls = before.map Attempt.call ++ proof.call :: after.map Attempt.call := by
    rw [Entry.calls, heq, List.map_append, List.map_cons]
  rw [hcalls] at h
  obtain ⟨old, later, hmade, hno⟩ := h.unexecuted hafter
  exact ⟨old, proof.call, later, hmade, hreq, hkind, hno⟩

theorem calls_appendAttempt {e : Entry} {kept : List Attempt} {r : String} {k : AttemptKind} {t : StateTag} :
    (e.appendAttempt kept r k t).calls = kept.map Attempt.call ++ [(r, k)] := by
  simp [Entry.calls, Entry.appendAttempt, Attempt.call]

theorem Retains.queried {e : Entry} {made : List Call} {r : String} {n : Nat} (h : Retains made e.calls)
    (hne : e.attempts ≠ []) : Retains (made ++ [(r, .query)]) (e.queried r n).calls := by
  have hcalls : e.calls ≠ [] := by simpa [Entry.calls] using hne
  unfold Entry.queried Entry.appendRecoveryQueryAttempt
  simp only
  rw [calls_appendAttempt]
  by_cases hfull : e.attempts.length < n
  · rw [if_pos hfull]
    exact h.append fun hnil => absurd hnil hcalls
  · rw [if_neg hfull]
    obtain ⟨y, hy⟩ : ∃ y, e.attempts.reverse.find? (fun a => decide (a.kind = .execute)) = some y := by
      rw [← Option.isSome_iff_exists, List.find?_isSome]
      -- the first kept attempt is an execute
      unfold Entry.calls at h
      rcases hatt : e.attempts with _ | ⟨a, atts⟩
      · exact absurd hatt hne
      · rw [hatt] at h
        cases h with
        | since x rest old mid hx => exact ⟨a, by simp, decide_eq_true hx⟩
    obtain ⟨hexec, as, bs, hrev, hnone⟩ := List.find?_eq_some_iff_append.mp hy
    have heq : e.attempts = bs.reverse ++ y :: as.reverse := by
      rw [← List.reverse_reverse e.attempts, hrev]
      simp
    have hcut : Retains made [y.call] := by
      unfold Entry.calls at h
      rw [heq, List.map_append, List.map_cons] at h
      refine h.cut (of_decide_eq_true hexec) ?_
      intro c hc hce
      obtain ⟨a, ha, rfl⟩ := List.mem_map.mp hc
      have := hnone a (List.mem_reverse.mp ha)
      simp only [Bool.not_eq_true', decide_eq_false_iff_not] at this
      exact this hce
    rw [hy]
    exact hcut.append fun hnil => by cases hnil

theorem Retains.retried {e : Entry} {made : List Call} {r : String} {n : Nat} (h : Retains made e.calls) :
    Retains (made ++ [(r, .execute)]) (e.appendRetryExecuteAttempt r n).calls := by
  unfold Entry.appendRetryExecuteAttempt
  rw [calls_appendAttempt]
  by_cases hfull : e.attempts.length < n
  · rw [if_pos hfull]
    exact h.append fun _ => rfl
  · rw [if_neg hfull]
    exact .restart rfl

/-! ## One turn -/

/-- What no turn changes. -/
structure Same (e e' : Entry) : Prop where
  order : e'.createdOrder = e.createdOrder
  key : e'.key = e.key
  parentKey : e'.parentKey = e.parentKey
  operation : e'.operation = e.operation
  arguments : e'.arguments = e.arguments
  scopeId : e'.scopeId = e.scopeId
  sessionId : e'.sessionId = e.sessionId

/-- **How an entry goes on**: acceptance stays, an end stays, and doubt ends only in a result. -/
structure Progress (e e' : Entry) : Prop extends Same e e' where
  acceptance : e.acceptanceEvidence = .durable → e'.acceptanceEvidence = .durable
  ended : e.state = .succeeded ∨ e.state = .failedFinal ∨ e.state = .reissued → e' = e
  ambiguous : e.state = .ambiguous → e'.state = .ambiguous ∨ e'.state = .succeeded ∨ e'.state = .failedFinal

theorem Progress.refl (e : Entry) : Progress e e :=
  ⟨⟨rfl, rfl, rfl, rfl, rfl, rfl, rfl⟩, id, fun _ => rfl, .inl⟩

variable {s : State} {a : Action} {e e' : Entry} {calls : List Call}

theorem Turn.progress (h : Turn C s a e e' calls) : Progress e e' := by
  cases h with
  | keep => exact .refl e
  | dispatch ids budget _ r hel =>
    have hq := eligibleFrom_queued hel
    refine ⟨⟨rfl, rfl, rfl, rfl, rfl, rfl, rfl⟩, id, ?_, ?_⟩ <;> simp [hq]
  | query ids rs _ r hq =>
    refine ⟨⟨rfl, rfl, rfl, rfl, rfl, rfl, rfl⟩, id, ?_, ?_⟩
    · intro hend
      rcases hend with hst | hst | hst <;> simp [queryable, hst] at hq
    · intro hst
      simp [Entry.queried, Entry.appendRecoveryQueryAttempt, Entry.appendAttempt, hst]
  | interrupt i r _ hi =>
    refine ⟨⟨rfl, rfl, rfl, rfl, rfl, rfl, rfl⟩, id, ?_, ?_⟩
    · intro hend
      rcases hend with hst | hst | hst <;> simp [interruptible, hst] at hi
    · intro hst
      simp [interruptible, hst] at hi
  | settle v recovery _ t acc hi hopen hset =>
    refine ⟨⟨rfl, rfl, rfl, rfl, rfl, rfl, rfl⟩, ?_, ?_, ?_⟩
    · intro hacc
      cases hset <;> first | rfl | exact hacc
    · intro hend
      rcases hend with hst | hst | hst <;> simp [settled, hst] at hopen
    · intro hst
      cases hset with
      | accepted hne => exact absurd hst hne
      | running hne => exact absurd hst hne
      | succeeded => exact .inr (.inl rfl)
      | failed => exact .inr (.inr rfl)
      | inDoubt => exact .inl rfl
      | unknown => exact .inl rfl
  | retry v r _ hd hv =>
    refine ⟨⟨rfl, rfl, rfl, rfl, rfl, rfl, rfl⟩, id, ?_, fun hst => absurd hst hd.unambiguous⟩
    intro hend
    have hopen := hd.open_
    rcases hend with hst | hst | hst <;> simp [settled, hst] at hopen
  | reissue v c w t _ hd hv =>
    refine ⟨⟨rfl, rfl, rfl, rfl, rfl, rfl, rfl⟩, id, ?_, fun hst => absurd hst hd.unambiguous⟩
    intro hend
    have hopen := hd.open_
    rcases hend with hst | hst | hst <;> simp [settled, hst] at hopen
  | move p q o n w u l _ hq =>
    refine ⟨⟨rfl, rfl, rfl, rfl, rfl, rfl, rfl⟩, id, ?_, ?_⟩ <;> simp [hq]
  | suspend p q o n w u l _ t hi ht =>
    refine ⟨⟨rfl, rfl, rfl, rfl, rfl, rfl, rfl⟩, id, ?_, ?_⟩
    · intro hend
      rcases hend with hst | hst | hst <;> simp [interruptible, hst] at hi
    · intro hst
      simp [interruptible, hst] at hi
  | confirm i o w sc se _ pending hq hr ht =>
    have hscope : (e.confirmed pending).scopeId = e.scopeId := by rw [Entry.confirmed, ht]; rfl
    have hsession : (e.confirmed pending).sessionId = e.sessionId := by rw [Entry.confirmed, ht]; rfl
    refine ⟨⟨rfl, rfl, rfl, rfl, rfl, hscope, hsession⟩, id, ?_, ?_⟩ <;> simp [hq]

theorem attempts_of_queryable (hv : e.valid C = true) (hq : queryable e.state = true) : e.attempts ≠ [] := by
  have hst := e.valid_state hv
  intro hnil
  unfold Entry.stateValid at hst
  cases hs : e.state <;> simp [hs, hnil, queryable] at hst hq

/-- **A turn keeps what is retained of all attempts.** -/
theorem Turn.retains {made : List Call} (h : Turn C s a e e' calls) (hv : e.valid C = true) (hr : Retains made e.calls) :
    Retains (made ++ calls) e'.calls := by
  cases h with
  | dispatch ids budget _ r hel =>
    have hnil := (e.valid_queued hv (eligibleFrom_queued hel)).1
    rw [calls_appendAttempt]
    exact hr.append fun _ => rfl
  | query ids rs _ r hq => exact hr.queried (attempts_of_queryable hv hq)
  | retry v r _ hd hv' => exact hr.retried
  | keep => rwa [List.append_nil]
  | interrupt => rwa [List.append_nil]
  | settle => rwa [List.append_nil]
  | reissue => rwa [List.append_nil]
  | move => rwa [List.append_nil]
  | suspend => rwa [List.append_nil]
  | confirm => rwa [List.append_nil]

/-! ## Runs -/

/-- What an action sends and the state after it; a rejection sends nothing and keeps the state. -/
def next (C : Core) (s : State) (a : Action) : State × List Effect :=
  match reduce C s a with
  | .applied s' effects => (s', effects)
  | _ => (s, [])

/-- The state, and the attempts made so far for each entry by its order of creation. -/
structure Log where
  state : State
  calls : Nat → List Call

def Log.step (C : Core) (l : Log) (a : Action) : Log :=
  ⟨(next C l.state a).1, fun o => l.calls o ++ callsMade l.state (next C l.state a).2 o⟩

/-- **A run** from the empty state. -/
def run (C : Core) (actions : List Action) : Log := actions.foldl (Log.step C) ⟨.empty, fun _ => []⟩

theorem next_cases (hs : s.Sound C) :
    next C s a = (s, []) ∨ ∃ g new, Changed C s a g new (next C s a).1 (next C s a).2 := by
  unfold next
  cases h : reduce C s a with
  | applied s' effs => exact .inr (reduce_changed hs h)
  | rejected r => exact .inl rfl
  | thrown => exact .inl rfl

theorem callsMade_old {effs : List Effect} {o : Nat} (h : ∀ e ∈ s.entries, e.createdOrder ≠ o) : callsMade s effs o = [] := by
  have hnone : ∀ i, ((s.entry i).any fun e => decide (e.createdOrder = o)) = false := by
    intro i
    cases he : s.entry i with
    | none => rfl
    | some e => simpa using h e (State.entry_mem he).1
  rw [callsMade, List.flatMap_eq_nil_iff]
  intro x _
  cases x with
  | executeCommand c at' d => simp [Effect.calls, hnone]
  | queryCommands au r items => simp [Effect.calls, hnone]
  | revalidateOpaqueTarget => rfl
  | confirmOldLineage => rfl
  | reissueCreated => rfl

/-- **What a run keeps.** -/
structure Kept (C : Core) (l : Log) : Prop where
  sound : l.state.Sound C
  retains : ∀ e ∈ l.state.entries, Retains (l.calls e.createdOrder) e.calls
  future : ∀ o, l.state.nextCreationOrder ≤ o → l.calls o = []
  ordered : ∀ p ∈ l.state.entries, ∀ c ∈ l.state.entries, c.parentKey = some p.key → p.createdOrder < c.createdOrder

theorem Arrives.fresh {new : List Entry} (h : Arrives C s a new) : ∀ n ∈ new,
    n.createdOrder = s.nextCreationOrder ∧ n.attempts = [] ∧ n.state = .queued := by
  cases h with
  | nobody => simp
  | enqueued d t => simp [entryFromDraft]
  | replacement v c w t e => simp [Entry.replacement, entryFromDraft]

theorem Changed.mem {g : Entry → Entry} {new : List Entry} {s' : State} {effs : List Effect}
    (h : Changed C s a g new s' effs) {x : Entry} :
    x ∈ s'.entries ↔ (∃ e ∈ s.entries, g e = x) ∨ x ∈ new := by
  rw [h.entries.mem_iff, List.mem_append, List.mem_map]

theorem Log.step_kept {l : Log} (h : Kept C l) (a : Action) : Kept C (l.step C a) := by
  unfold Log.step
  rcases next_cases (a := a) h.sound with hsame | ⟨g, new, hch⟩
  · rw [hsame]
    simp only [callsMade_nil, List.append_nil]
    exact h
  have hfuture : ∀ o, l.state.nextCreationOrder ≤ o →
      l.calls o ++ callsMade l.state (next C l.state a).2 o = [] := by
    intro o ho
    rw [h.future o ho, List.nil_append]
    refine callsMade_old ?_
    intro e he heo
    have := h.sound.entries.below e he
    omega
  refine ⟨hch.sound, ?_, ?_, ?_⟩
  · intro x hx
    rcases hch.mem.mp hx with ⟨e, he, rfl⟩ | hnew
    · have hturn := hch.turn e he
      have hkeep := hturn.retains (h.sound.entries.valid e he) (h.retains e he)
      simp only [hturn.progress.order]
      exact hkeep
    · obtain ⟨horder, hatt, -⟩ := hch.arrives.fresh x hnew
      have hcalls : x.calls = [] := by rw [Entry.calls, hatt]; rfl
      rw [hcalls]
      refine .nothing ?_
      simp only [horder]
      exact hfuture _ (le_refl _)
  · intro o ho
    rw [hch.next] at ho
    exact hfuture o (by omega)
  · intro p hp c hc hlink
    rcases hch.mem.mp hc with ⟨c₀, hc₀, rfl⟩ | hcnew
    · have hcs := (hch.turn c₀ hc₀).progress
      rw [hcs.parentKey] at hlink
      -- the parent that the child had before is the only entry with its key
      obtain ⟨pc, hpc⟩ : ∃ x, c₀.reissuedFromCommandId = some x := by
        cases hx : c₀.reissuedFromCommandId with
        | none => simp [Entry.parentKey, hx] at hlink
        | some x => exact ⟨x, rfl⟩
      obtain ⟨q, hq, hrep⟩ := h.sound.entries.parent c₀ hc₀ pc hpc
      have hqs := (hch.turn q hq).progress
      have hkey : p.key = (g q).key := by
        rw [hqs.key]
        exact Option.some.inj (hlink.symm.trans hrep.key)
      have hpq : p = g q := eq_of_map_nodup hch.sound.entries.keys hp (hch.mem.mpr (.inl ⟨q, hq, rfl⟩)) hkey
      rw [hpq, hqs.order, hcs.order]
      exact h.ordered q hq c₀ hc₀ hrep.key
    · have horder := (hch.arrives.fresh c hcnew).1
      rcases hch.mem.mp hp with ⟨p₀, hp₀, rfl⟩ | hpnew
      · rw [(hch.turn p₀ hp₀).progress.order, horder]
        exact h.sound.entries.below p₀ hp₀
      · -- only one entry arrives, and it does not replace itself
        exfalso
        cases hch.arrives with
        | nobody => cases hcnew
        | enqueued d t =>
          cases List.mem_singleton.mp hcnew
          simp [Entry.parentKey, entryFromDraft] at hlink
        | replacement v cid w t e he hd hv hne =>
          cases List.mem_singleton.mp hcnew
          cases List.mem_singleton.mp hpnew
          simp only [Entry.parentKey, Entry.key, Entry.replacement, entryFromDraft, Entry.replacementDraft,
            Entry.lineageKey, Option.map_some, Option.some.injEq, Prod.mk.injEq, true_and] at hlink
          exact hne hlink.symm

theorem run_kept (actions : List Action) : Kept C (run C actions) := by
  have hstart : Kept C ⟨.empty, fun _ => []⟩ :=
    ⟨State.empty_sound, by simp [State.empty], fun _ _ => rfl, by simp [State.empty]⟩
  unfold run
  generalize (⟨.empty, fun _ => []⟩ : Log) = l at hstart
  induction actions generalizing l with
  | nil => exact hstart
  | cons a rest ih => exact ih _ (Log.step_kept hstart a)

/-! ## Chains of reissues -/

/-- `child` was created to replace `parent`. -/
def Links (parent child : Entry) : Prop := child.parentKey = some parent.key

/-- Of two entries of a chain the earlier one is reissued, is older and asks for the same. -/
structure Precedes (p c : Entry) : Prop where
  reissued : p.state = .reissued
  older : p.createdOrder < c.createdOrder
  operation : p.operation = c.operation
  arguments : p.arguments = c.arguments
  scopeId : p.scopeId = c.scopeId
  sessionId : p.sessionId = c.sessionId

instance : Trans Precedes Precedes Precedes where
  trans h₁ h₂ := ⟨h₁.reissued, h₁.older.trans h₂.older, h₁.operation.trans h₂.operation, h₁.arguments.trans h₂.arguments,
    h₁.scopeId.trans h₂.scopeId, h₁.sessionId.trans h₂.sessionId⟩

/-- **The reissues of the entries**: who replaces has somebody to replace, who is reissued has one replacement, and along
every chain each entry precedes every later one. -/
structure Chains (es : List Entry) : Prop where
  parent : ∀ c ∈ es, c.reissuedFromCommandId.isSome = true → ∃ p ∈ es, Links p c
  child : ∀ p ∈ es, p.state = .reissued → ∃ c ∈ es, Links p c
  single : ∀ p, ∀ c ∈ es, ∀ c' ∈ es, Links p c → Links p c' → c = c'
  chain : ∀ chain : List Entry, (∀ e ∈ chain, e ∈ es) → chain.IsChain Links → chain.Pairwise Precedes

theorem eq_of_filterMap_nodup {α β : Type} {f : α → Option β} {l : List α} (h : (l.filterMap f).Nodup) {a b : α} {x : β}
    (ha : a ∈ l) (hb : b ∈ l) (hax : f a = some x) (hbx : f b = some x) : a = b := by
  induction l with
  | nil => cases ha
  | cons y l ih =>
    rw [List.filterMap_cons] at h
    rcases List.mem_cons.mp ha with rfl | ha'
    · rw [hax] at h
      simp only [List.nodup_cons] at h
      rcases List.mem_cons.mp hb with rfl | hb'
      · rfl
      · exact absurd (List.mem_filterMap.mpr ⟨b, hb', hbx⟩) h.1
    · rcases List.mem_cons.mp hb with rfl | hb'
      · rw [hbx] at h
        simp only [List.nodup_cons] at h
        exact absurd (List.mem_filterMap.mpr ⟨a, ha', hax⟩) h.1
      · refine ih ?_ ha' hb'
        split at h
        · exact h
        · exact (List.nodup_cons.mp h).2

theorem Replaces.precedes {p c : Entry} (h : Replaces C p c) (hc : c.valid C = true) (holder : p.createdOrder < c.createdOrder) :
    Precedes p c := by
  have hi := h.intent
  unfold Entry.hasSameReissueIntent at hi
  split at hi
  · cases hi
  simp only [Bool.and_eq_true, decide_eq_true_eq] at hi
  obtain ⟨⟨⟨⟨-, hop⟩, hargs⟩, -⟩, ⟨⟨⟨-, hscope⟩, hsession⟩, -⟩, hinit⟩ := hi
  obtain ⟨hcs, hcn⟩ := c.valid_provenance hc
  refine ⟨h.state, holder, hop, hargs, ?_, ?_⟩
  · rw [hcs, ← hinit, hscope]
  · rw [hcn, ← hinit, hsession]

theorem Kept.chains {l : Log} (h : Kept C l) : Chains l.state.entries := by
  have hparent : ∀ c ∈ l.state.entries, c.parentKey.isSome = true → ∃ p ∈ l.state.entries, Replaces C p c := by
    intro c hc hsome
    obtain ⟨x, hx⟩ : ∃ x, c.reissuedFromCommandId = some x := by
      cases hx : c.reissuedFromCommandId with
      | none => simp [Entry.parentKey, hx] at hsome
      | some x => exact ⟨x, rfl⟩
    exact h.sound.entries.parent c hc x hx
  have hlink : ∀ p ∈ l.state.entries, ∀ c ∈ l.state.entries, Links p c → Precedes p c := by
    intro p hp c hc hpc
    obtain ⟨q, hq, hrep⟩ := hparent c hc (by rw [hpc]; rfl)
    have hkey : q.key = p.key := Option.some.inj (hrep.key.symm.trans hpc)
    rw [eq_of_map_nodup h.sound.entries.keys hq hp hkey] at hrep
    exact hrep.precedes (h.sound.entries.valid c hc) (h.ordered p hp c hc hpc)
  refine ⟨?_, ?_, ?_, ?_⟩
  · intro c hc hsome
    obtain ⟨p, hp, hrep⟩ := hparent c hc (by rw [Entry.parentKey, Option.isSome_map]; exact hsome)
    exact ⟨p, hp, hrep.key⟩
  · intro p hp hst
    obtain ⟨c, hc, hrep⟩ := h.sound.entries.child p hp hst
    exact ⟨c, hc, hrep.key⟩
  · intro p c hc c' hc' hpc hpc'
    exact eq_of_filterMap_nodup h.sound.entries.parents hc hc' hpc hpc'
  · intro chain hmem hchain
    refine List.IsChain.pairwise ?_
    induction chain with
    | nil => exact .nil
    | cons a rest ih =>
      cases rest with
      | nil => exact .singleton a
      | cons b rest =>
        rw [List.isChain_cons_cons] at hchain ⊢
        refine ⟨hlink a (hmem a (by simp)) b (hmem b (by simp)) hchain.1, ?_⟩
        exact ih (fun e he => hmem e (List.mem_cons_of_mem a he)) hchain.2

/-! ## Proof -/

/-- The evidence says that nothing was accepted, and is about an attempt for the entry after which nothing was executed;
the entry has no evidence of acceptance and is not ambiguous. -/
structure Refuted (l : Log) (e : Entry) (v : Evidence) : Prop where
  identifies : v.identifies e = true
  state : v.state = .notAccepted
  disposition : v.commandDisposition = some .notAccepted
  unambiguous : e.state ≠ .ambiguous
  unaccepted : e.acceptanceEvidence = .none
  unexecuted : Unexecuted (l.calls e.createdOrder) v

/-- **What allows an execution.** -/
inductive Licensed (l : Log) (a : Action) (e : Entry) : Prop
  | first (hq : e.state = .queued) (ha : e.attempts = []) (hc : l.calls e.createdOrder = [])
  | retry (v : Evidence) (r : String) (ha : a = .reconcileStatus v (.retrySameCommand r)) (hr : Refuted l e v)
    (hv : v.retryable = true)

/-- **What allows a replacement**: the window of the command is over, and the entry was not replaced before. -/
structure Expired (l : Log) (a : Action) (e replacement : Entry) : Prop where
  link : Links e replacement
  command : replacement.commandId ≠ e.commandId
  evidence : ∃ v w t, a = .reconcileStatus v (.reissue replacement.commandId w t) ∧ Refuted l e v ∧
    v.errorCode = some "COMMAND_WINDOW_EXPIRED"
  first : e.state ≠ .reissued

theorem Disproved.refuted {l : Log} {v : Evidence} (hd : Disproved e v) (hk : Kept C l) (he : e ∈ l.state.entries)
    (hv : v.commandDisposition = some .notAccepted) : Refuted l e v :=
  ⟨hd.identifies, hd.state, hv, hd.unambiguous, hd.unaccepted,
    hd.unexecuted (hk.sound.entries.valid e he) (hk.retains e he)⟩

theorem Turn.licensed {l : Log} (hk : Kept C l) (he : e ∈ l.state.entries) (h : Turn C l.state a e e' calls) {r : String}
    (hr : (r, .execute) ∈ calls) : Licensed l a e ∧ calls = [(r, .execute)] := by
  cases h with
  | dispatch ids budget _ r' hel =>
    cases List.mem_singleton.mp hr
    have hq := eligibleFrom_queued hel
    have hatt := (e.valid_queued (hk.sound.entries.valid e he) hq).1
    have hret := hk.retains e he
    refine ⟨.first hq hatt ?_, rfl⟩
    rw [Entry.calls, hatt] at hret
    cases hret with
    | nothing h => exact h
  | retry v r' _ hd hv =>
    cases List.mem_singleton.mp hr
    simp only [Evidence.isRetryableNotAccepted, Bool.and_eq_true, decide_eq_true_eq] at hv
    exact ⟨.retry v r rfl (hd.refuted hk he hv.1.1.1.2) hv.1.1.1.1.1.1, rfl⟩
  | query ids rs _ r' hq => cases List.mem_singleton.mp hr
  | keep => cases hr
  | interrupt => cases hr
  | settle => cases hr
  | reissue => cases hr
  | move => cases hr
  | suspend => cases hr
  | confirm => cases hr

end Outbox
end TmuxWorktree
