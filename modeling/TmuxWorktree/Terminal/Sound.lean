import TmuxWorktree.Terminal.Producer
import TmuxWorktree.Terminal.Run
/-!
# Sound — the world of a section against the protocol

`Good` is what holds of the world at every instant of every run, crashes included: its ledger is one the protocol
reaches, its claims were issued, its inputs were written by their fence's producer, and its trace is clean unless the
section is one that may slip (`Watch.Excused`).  `Sound` adds that the registry of producers accounts for the state file.
This module shows that the primitive actions of a section keep them.
-/
namespace TmuxWorktree
namespace Terminal

open Effect

/-! ## Bounds on what the outside answers -/

/-- A lease of this length expires within `B`, whenever it is granted. -/
def Env.Grants (env : Env) (B : Bounds) (ttlMs : Int) : Prop := ∀ n, B.time (env.now n + ttlMs) = true

/-- **The answers of the outside are within `B`.** -/
structure Env.Within (env : Env) (B : Bounds) : Prop where
  placeholder : B.stored "-" 128 = true
  stored : ∀ s n, isStoredString s n = true → B.stored s n = true
  time : ∀ x, isCanonicalTimestamp x = true → B.time x = true
  uuid : ∀ n, B.stored (env.randomUUID n) 128 = true
  now : ∀ n, B.time (env.now n) = true
  lease : env.Grants B defaultLeaseTtlMs
  reservation : env.Grants B env.relayV2ExactTargetTtlMs
  digest : ∀ i, B.hash (env.digest i) = true
  position : ∀ n p, env.position n = .ok p → B.stored p.generation 128 = true ∧ B.cursor p.cursor = true
  resolved : ∀ n r, env.resolved n = .ok r → B.session r.managedSession = true ∧ B.stored r.tmuxInstanceId 128 = true

/-- The values that a request puts into a record are within `B`. -/
def Request.Within (env : Env) (B : Bounds) : Request → Prop
  | .leaseAcquire _ owner ttlMs => B.owner owner = true ∧ env.Grants B ttlMs
  | .leaseRenew _ ttlMs => env.Grants B ttlMs
  | .handoffBegin _ nextOwner _ => B.owner nextOwner = true
  | .handoffCommit _ _ drain ttlMs => B.drainProof drain = true ∧ env.Grants B ttlMs
  | .handoffForce _ _ nextOwner _ _ ttlMs => B.owner nextOwner = true ∧ env.Grants B ttlMs
  | .input lease operationId _ _ => B.stored operationId 192 = true ∧ B.owner lease.owner = true
  | .lifecycleKill lease operationId => B.stored operationId 192 = true ∧ B.owner lease.owner = true
  | _ => True

/-! ## The watch over a section -/

/-- What is watched while a section runs: where it started, the state file it found, the external operation it belongs
to, and the target it forces. -/
structure Watch where
  start : Nat
  disk : Option ControlState
  running : Running
  force : Option String
  careless : Prop

/-- The section found the target draining, under this owner and until this deadline. -/
def Watch.Deadline (c : Watch) (id : String) (o : Owner) (x : Int) : Prop :=
  ∃ d t f l h, c.disk = some d ∧ d.get? id = some t ∧ t.lifecycle = .active ∧ t.ownership = .draining f o l x h

/-- **The section may slip**: it forces a draining target past its deadline, or the deadline of a drain passes while the
section runs. -/
def Watch.Late (env : Env) (c : Watch) (tick : Nat) : Prop :=
  ∃ id o x, c.Deadline id o x ∧ ∃ j, c.start ≤ j ∧ j < tick ∧ x ≤ env.now j ∧
    ((c.force = some id ∧ o.kind ≠ .feishu) ∨ ∃ i, c.start ≤ i ∧ i < j ∧ env.now i < x)

def Watch.Excused (env : Env) (c : Watch) (tick : Nat) : Prop := c.careless ∨ c.Late env tick

theorem Watch.Excused.mono {env : Env} {c : Watch} {m n : Nat} (h : c.Excused env m) (hle : m ≤ n) : c.Excused env n := by
  rcases h with h | ⟨id, o, x, hd, j, h1, h2, h3, h4⟩
  · exact .inl h
  · exact .inr ⟨id, o, x, hd, j, h1, h2.trans_le hle, h3, h4⟩

/-! ## Good worlds -/

def World.ledger (w : World) : Ledger := ⟨w.disk, w.mem, w.trace⟩

@[simp] theorem World.ledger_disk (w : World) : w.ledger.disk = w.disk := rfl
@[simp] theorem World.ledger_mem (w : World) : w.ledger.mem = w.mem := rfl
@[simp] theorem World.ledger_trace (w : World) : w.ledger.trace = w.trace := rfl

/-- **What holds at every instant.** -/
structure Good (env : Env) (B : Bounds) (c : Watch) (w : World) : Prop where
  reach : w.ledger.Reachable B
  used : ∀ id, Event.created id ∈ w.trace → ∃ m, m < w.tick ∧ env.randomUUID m = id
  claims : ∀ r ∈ w.loc.claims ++ w.loc.unclaimed,
    Event.issued r.lease ∈ w.trace ∧ isInteractiveOwner r.lease.owner = true
  here : w.running = c.running
  running : c.running = .external → 0 < w.loc.relayV2ExternalOperations
  inputs : ProducerLog w.trace
  tidy : Clean w.trace ∨ c.Excused env w.tick

/-- `Good`, and the registry accounts for the state file, except for the target `ex`. -/
structure Sound (env : Env) (B : Bounds) (c : Watch) (ex : Option String) (w : World) : Prop
    extends Good env B c w where
  producers : Producers w.disk w.loc.interactiveOwners ex w.trace

variable {env : Env} {B : Bounds} {c : Watch} {ex : Option String} {w : World}

theorem Good.wellFormed (hE : env.Within B) (h : Good env B c w) : w.ledger.WellFormed B :=
  h.reach.wellFormed hE.placeholder

theorem Good.shape (hE : env.Within B) (h : Good env B c w) {id : String} {t : TargetRecord}
    (hget : w.mem.get? id = some t) : Shape t :=
  (h.wellFormed hE).mem.shape t (ControlState.get?_mem hget).1

theorem Good.bounds (hE : env.Within B) (h : Good env B c w) {id : String} {t : TargetRecord}
    (hget : w.mem.get? id = some t) : B.target t = true :=
  (h.wellFormed hE).mem.bounds t (ControlState.get?_mem hget).1

/-- The process memory that `Good` and `Sound` look at. -/
structure SameLocal (l l' : Local) : Prop where
  owners : l'.interactiveOwners = l.interactiveOwners
  claims : l'.claims = l.claims
  unclaimed : l'.unclaimed = l.unclaimed
  operations : l'.relayV2ExternalOperations = l.relayV2ExternalOperations

theorem Good.step (h : Good env B c w) {w' : World} (hs : LedgerStep B w.ledger w'.ledger) (hloc : w'.loc = w.loc)
    (hrun : w'.running = w.running) {n : Nat} (htick : w'.tick = w.tick + n) {k : List Event}
    (htr : w'.trace = k ++ w.trace)
    (hnew : ∀ id, Event.created id ∈ k → ∃ m, m < w'.tick ∧ env.randomUUID m = id)
    (hprod : ∀ e ∈ k, ∀ id f a, e.produces id f a = false)
    (htidy : Clean w.trace → Clean w'.trace ∨ c.Excused env w'.tick) : Good env B c w' where
  reach := h.reach.tail hs
  used id hid := by
    rw [htr] at hid
    rcases List.mem_append.1 hid with hid | hid
    · exact hnew id hid
    · obtain ⟨m, hm, he⟩ := h.used id hid
      exact ⟨m, by omega, he⟩
  claims r hr := by
    rw [hloc] at hr
    rw [htr]
    exact ⟨List.mem_append_right _ (h.claims r hr).1, (h.claims r hr).2⟩
  here := hrun.trans h.here
  running hr := by rw [hloc]; exact h.running hr
  inputs := by rw [htr]; exact h.inputs.append hprod
  tidy := h.tidy.elim htidy (fun hx => .inr (hx.mono (by omega)))

theorem Good.ticks (h : Good env B c w) (n : Nat) : Good env B c { w with tick := w.tick + n } :=
  ⟨h.reach, fun id hid => (h.used id hid).imp (fun _ hm => ⟨Nat.lt_add_right n hm.1, hm.2⟩), h.claims, h.here, h.running,
    h.inputs, h.tidy.imp_right (fun hx => hx.mono (Nat.le_add_right _ _))⟩

theorem Good.withLocal (h : Good env B c w) {l : Local}
    (hclaims : ∀ r ∈ l.claims ++ l.unclaimed, Event.issued r.lease ∈ w.trace ∧ isInteractiveOwner r.lease.owner = true)
    (hrun : c.running = .external → 0 < l.relayV2ExternalOperations) : Good env B c { w with loc := l } :=
  ⟨h.reach, h.used, hclaims, h.here, hrun, h.inputs, h.tidy⟩

theorem Sound.ticks (h : Sound env B c ex w) (n : Nat) : Sound env B c ex { w with tick := w.tick + n } :=
  ⟨h.toGood.ticks n, h.producers⟩

theorem Good.sameLocal (h : Good env B c w) {l : Local} (hl : SameLocal w.loc l) : Good env B c { w with loc := l } :=
  h.withLocal (by rw [hl.claims, hl.unclaimed]; exact h.claims) (by rw [hl.operations]; exact h.running)

theorem Sound.sameLocal (h : Sound env B c ex w) {l : Local} (hl : SameLocal w.loc l) :
    Sound env B c ex { w with loc := l } :=
  ⟨h.toGood.sameLocal hl, by
    have := h.producers
    rwa [← hl.owners] at this⟩

/-! ## Questions to the outside -/

/-- What an `await` leaves alone: the state file and the section; the trace only gains what other calls were given. -/
structure After (w w' : World) : Prop where
  disk : w'.disk = w.disk
  mem : w'.mem = w.mem
  running : w'.running = w.running
  tick : w.tick ≤ w'.tick
  trace : ∃ events, w'.trace = events ++ w.trace ∧
    ∀ e ∈ events, (∃ lease, e = .issued lease) ∨ ∃ id owner, e = .rebound id owner
  registry : w.running = .external → w'.loc.interactiveOwners = w.loc.interactiveOwners

theorem After.refl (w : World) : After w w :=
  ⟨rfl, rfl, rfl, le_rfl, ⟨[], rfl, fun _ he => by cases he⟩, fun _ => rfl⟩

theorem After.trans {w₁ w₂ w₃ : World} (h : After w₁ w₂) (h' : After w₂ w₃) : After w₁ w₃ := by
  obtain ⟨es, he, hes⟩ := h.trace
  obtain ⟨es', he', hes'⟩ := h'.trace
  refine ⟨h'.disk.trans h.disk, h'.mem.trans h.mem, h'.running.trans h.running, h.tick.trans h'.tick,
    ⟨es' ++ es, by rw [he', he, List.append_assoc], fun e hm => ?_⟩, fun hr => ?_⟩
  · rcases List.mem_append.1 hm with hm | hm
    · exact hes' e hm
    · exact hes e hm
  · exact (h'.registry (h.running ▸ hr)).trans (h.registry hr)

theorem After.ticks (w : World) (n : Nat) : After w { w with tick := w.tick + n } :=
  ⟨rfl, rfl, rfl, Nat.le_add_right _ _, ⟨[], rfl, fun _ he => by cases he⟩, fun _ => rfl⟩

theorem After.local (w : World) {l : Local} (hl : l.interactiveOwners = w.loc.interactiveOwners) :
    After w { w with loc := l } :=
  ⟨rfl, rfl, rfl, le_rfl, ⟨[], rfl, fun _ he => by cases he⟩, fun _ => hl⟩

/-- What the other calls of an `await` do to the claims. -/
structure CallStep (running : Running) (l : Local) (r : Local × List Event) : Prop where
  claims : ∀ x ∈ r.1.claims ++ r.1.unclaimed, ∃ y ∈ l.claims ++ l.unclaimed, x.lease = y.lease
  operations : running = .external → 0 < l.relayV2ExternalOperations → 0 < r.1.relayV2ExternalOperations
  /-- nothing, or a claim is consumed while no external operation is open -/
  effect : (r.2 = [] ∧ r.1.interactiveOwners = l.interactiveOwners) ∨
    (l.relayV2ExternalOperations = 0 ∧ ∃ x ∈ l.claims, ∃ owner, isInteractiveOwner owner = true ∧
      r.2 = [.issued { x.lease with owner := owner }, .rebound x.lease.controlTargetId owner] ∧
      r.1.interactiveOwners = Function.update l.interactiveOwners x.lease.controlTargetId (some owner))

theorem CallStep.still {running : Running} {l l' : Local} (hc : ∀ x ∈ l'.claims ++ l'.unclaimed,
    ∃ y ∈ l.claims ++ l.unclaimed, x.lease = y.lease)
    (ho : running = .external → 0 < l.relayV2ExternalOperations → 0 < l'.relayV2ExternalOperations)
    (hi : l'.interactiveOwners = l.interactiveOwners) : CallStep running l (l', []) := ⟨hc, ho, .inl ⟨rfl, hi⟩⟩

theorem CallStep.refl (running : Running) (l : Local) : CallStep running l (l, []) :=
  .still (fun x hx => ⟨x, hx, rfl⟩) (fun _ h => h) rfl

theorem withdrawClaims_lease {l : Local} {only : Option String} {x : ClaimRecord}
    (h : x ∈ (l.withdrawClaims only).claims ++ (l.withdrawClaims only).unclaimed) :
    ∃ y ∈ l.claims ++ l.unclaimed, x.lease = y.lease := by
  rcases List.mem_append.1 h with h | h
  · obtain ⟨y, hy, rfl⟩ := List.mem_map.1 h
    exact ⟨y, List.mem_append_left _ hy, by split <;> rfl⟩
  · exact ⟨x, List.mem_append_right _ h, rfl⟩

theorem setClaim_lease {l : Local} {claim : Nat} {r r' : ClaimRecord} (hr : l.claims[claim]? = some r)
    {x : ClaimRecord} (h : x ∈ (l.setClaim claim r').claims ++ (l.setClaim claim r').unclaimed)
    (hl : r'.lease = r.lease) :
    ∃ y ∈ l.claims ++ l.unclaimed, x.lease = y.lease := by
  rcases List.mem_append.1 h with h | h
  · rcases List.mem_or_eq_of_mem_set h with h | rfl
    · exact ⟨x, List.mem_append_left _ h, rfl⟩
    · exact ⟨r, List.mem_append_left _ (List.mem_of_getElem? hr), hl⟩
  · exact ⟨x, List.mem_append_right _ h, rfl⟩

theorem claimCurrent_idle {l : Local} {r : ClaimRecord} {nowMs : Int} (h : l.claimCurrent r nowMs = true) :
    l.relayV2ExternalOperations = 0 := by
  simp only [Local.claimCurrent, Bool.and_eq_true, decide_eq_true_eq] at h
  exact h.1.1.1.1.2

theorem interactive_of_consumer {value owner : Owner} (h : ownerRelayV2ExactConsumer value = .ok owner) :
    isInteractiveOwner owner = true := by
  unfold ownerRelayV2ExactConsumer at h
  split at h
  · cases h
  · cases hi : relayV2ExactBoundedId value.instanceId 256 with
    | error e => simp [hi, bind, Except.bind] at h
    | ok s =>
      obtain rfl : _ = owner := by simpa [hi, bind, Except.bind] using h
      rfl

/-- **One synchronous call.** -/
theorem Sync.run_callStep (ttlMs nowMs : Int) (running : Running) (l : Local) (call : Sync) :
    CallStep running l (call.run ttlMs nowMs running l) := by
  cases call with
  | externalBegin => exact .still (fun x hx => withdrawClaims_lease hx) (fun _ _ => Nat.succ_pos _) rfl
  | externalEnd =>
    simp only [Sync.run]
    split
    · exact .refl _ _
    · rename_i hlt
      refine .still (fun x hx => ⟨x, hx, rfl⟩) (fun hr _ => ?_) rfl
      rw [hr] at hlt
      simp only [Running.held] at hlt
      dsimp only
      omega
  | targetExternalBegin id => exact .still (fun x hx => withdrawClaims_lease hx) (fun _ h => h) rfl
  | targetExternalEnd id =>
    simp only [Sync.run]
    split
    · exact .refl _ _
    · split
      · exact .refl _ _
      · exact .still (fun x hx => ⟨x, hx, rfl⟩) (fun _ h => h) rfl
  | registerClaim =>
    simp only [Sync.run]
    split
    · exact .refl _ _
    · rename_i record rest heq
      refine .still (fun x hx => ?_) (fun _ h => h) rfl
      simp only [List.append_assoc, List.mem_append, List.mem_singleton] at hx
      rcases hx with hx | hx | hx
      · exact ⟨x, List.mem_append_left _ hx, rfl⟩
      · refine ⟨record, List.mem_append_right _ (by rw [heq]; exact List.mem_cons_self), ?_⟩
        rw [hx]
        split <;> rfl
      · exact ⟨x, List.mem_append_right _ (by rw [heq]; exact List.mem_cons_of_mem _ hx), rfl⟩
  | fenceClaim claim input =>
    simp only [Sync.run]
    split
    · rename_i hr
      split
      · exact .still (fun x hx => setClaim_lease hr hx rfl) (fun _ h => h) rfl
      · exact .refl _ _
    · exact .refl _ _
  | consumeClaim claim input consumerOwner =>
    simp only [Sync.run]
    split
    · rename_i owner record hinput howner hr
      split
      · rename_i hcur
        simp only [Bool.and_eq_true, decide_eq_true_eq] at hcur
        refine ⟨fun x hx => setClaim_lease hr hx rfl, fun _ h => h, .inr ⟨claimCurrent_idle hcur.2, record,
          List.mem_of_getElem? hr, owner, interactive_of_consumer howner, rfl, rfl⟩⟩
      · exact .refl _ _
    · exact .refl _ _
  | burnClaim claim input identity =>
    simp only [Sync.run]
    split
    · rename_i hr
      split
      · exact .still (fun x hx => setClaim_lease hr hx rfl) (fun _ h => h) rfl
      · exact .refl _ _
    · exact .refl _ _
  | revokeClaim claim =>
    simp only [Sync.run]
    split
    · rename_i hr
      split
      · exact .still (fun x hx => setClaim_lease hr hx rfl) (fun _ h => h) rfl
      · exact .refl _ _
    · exact .refl _ _
  | retireObservation observation => exact .still (fun x hx => ⟨x, hx, rfl⟩) (fun _ h => h) rfl
  | closeAuthority =>
    simp only [Sync.run]
    split
    · exact .refl _ _
    · exact .still (fun x hx => withdrawClaims_lease hx) (fun _ h => h) rfl

theorem Sound.still (h : Sound env B c ex w) {l : Local} (hs : CallStep w.running w.loc (l, []))
    (hi : l.interactiveOwners = w.loc.interactiveOwners) : Sound env B c ex { w with loc := l } := by
  refine ⟨h.toGood.withLocal (fun r hr => ?_) (fun hr => hs.operations (h.here.trans hr) (h.running hr)), ?_⟩
  · obtain ⟨y, hy, hl⟩ := hs.claims r hr
    rw [hl]
    exact h.claims y hy
  · have := h.producers
    rwa [← hi] at this

theorem Sound.consume (h : Sound env B c ex w) {l : Local} {x : ClaimRecord} {owner : Owner} (hx : x ∈ w.loc.claims)
    (ho : isInteractiveOwner owner = true)
    (hs : CallStep w.running w.loc
      (l, [.issued { x.lease with owner := owner }, .rebound x.lease.controlTargetId owner]))
    (hi : l.interactiveOwners = Function.update w.loc.interactiveOwners x.lease.controlTargetId (some owner)) :
    Sound env B c ex { w with
      loc := l
      trace := .issued { x.lease with owner := owner } :: .rebound x.lease.controlTargetId owner :: w.trace } := by
  obtain ⟨hissued, hint⟩ := h.claims x (List.mem_append_left _ hx)
  have hrebound : LedgerStep B w.ledger { w.ledger with trace := .rebound x.lease.controlTargetId owner :: w.trace } :=
    .note (.rebound x.lease.controlTargetId owner) ⟨x.lease, hissued, rfl⟩
  have hstep : LedgerStep B { w.ledger with trace := .rebound x.lease.controlTargetId owner :: w.trace }
      { w.ledger with
        trace := .issued { x.lease with owner := owner } :: .rebound x.lease.controlTargetId owner :: w.trace } :=
    .note (.issued { x.lease with owner := owner })
      (.inr ⟨x.lease, List.mem_cons_of_mem _ hissued, rfl, hint, ho⟩)
  refine ⟨⟨(h.reach.tail hrebound).tail hstep, fun id hid => h.used id (by simpa using hid), fun r hr => ?_,
    h.here, fun hr => hs.operations (h.here.trans hr) (h.running hr), ?_, ?_⟩, ?_⟩
  · obtain ⟨y, hy, hl⟩ := hs.claims r hr
    rw [hl]
    exact ⟨List.mem_cons_of_mem _ (List.mem_cons_of_mem _ (h.claims y hy).1), (h.claims y hy).2⟩
  · exact ⟨⟨h.inputs, fun _ _ _ hp => by cases hp⟩, fun _ _ _ hp => by cases hp⟩
  · exact h.tidy.imp_left (fun hc => (hc.cons_quiet rfl).cons_quiet rfl)
  · intro d hd t ht hex
    refine Producing.cons ?_ (fun a ha => by cases ha)
    show Producing _ _ (l.interactiveOwners _) _
    rw [hi]
    by_cases hid : t.controlTargetId = x.lease.controlTargetId
    · rw [hid, Function.update_self]
      exact Producing.rebind owner
    · rw [Function.update_of_ne hid]
      exact (h.producers d hd t ht hex).cons (fun a ha => by cases ha)

/-- **The calls of an `await`.** -/
theorem Sound.interleave {ttlMs : Int} : ∀ {l : List (Sync × Int)} {w : World}, Sound env B c ex w →
    Sound env B c ex (w.interleave ttlMs l) ∧ After w (w.interleave ttlMs l)
  | [], w, h => ⟨h, .refl w⟩
  | (call, nowMs) :: rest, w, h => by
    have hs := Sync.run_callStep ttlMs nowMs w.running w.loc call
    have hone : Sound env B c ex { w with
          loc := (call.run ttlMs nowMs w.running w.loc).1
          trace := (call.run ttlMs nowMs w.running w.loc).2 ++ w.trace } ∧
        After w { w with
          loc := (call.run ttlMs nowMs w.running w.loc).1
          trace := (call.run ttlMs nowMs w.running w.loc).2 ++ w.trace } := by
      generalize call.run ttlMs nowMs w.running w.loc = r at hs
      obtain ⟨l, events⟩ := r
      rcases hs.effect with ⟨he, hi⟩ | ⟨hidle, x, hx, owner, ho, he, hi⟩
      · obtain rfl : events = [] := he
        exact ⟨h.still hs hi, .local w hi⟩
      · obtain rfl : events = _ := he
        refine ⟨h.consume hx ho hs hi, rfl, rfl, rfl, le_rfl, ⟨_, rfl, ?_⟩, fun hr => ?_⟩
        · intro e hm
          simp only [List.mem_cons, List.not_mem_nil, or_false] at hm
          rcases hm with rfl | rfl
          · exact .inl ⟨_, rfl⟩
          · exact .inr ⟨_, _, rfl⟩
        · exact absurd hidle (h.running (h.here.symm.trans hr)).ne'
    obtain ⟨h1, h2⟩ := Sound.interleave (l := rest) hone.1
    exact ⟨h1, hone.2.trans h2⟩

end Terminal
end TmuxWorktree
