import TmuxWorktree.Terminal.Observers
/-!
# Claims — an exact claim and the polls of other targets

A claim is stamped with the epoch of its target's entry in `relayV2TargetExternalStates`, and a target without an entry
reads as epoch 0.  A poll of any target drops the entries that were last touched more than a claim's lifetime ago.  Such a
sweep never brings a stale claim back; but the claim of a target whose entry it drops is lost with the entry.
-/
namespace TmuxWorktree
namespace Terminal

open Effect

/-! ## The clock -/

/-- **The clock never goes back**: what is read later, by the section or by a call at one of its awaits, is not less. -/
class Env.Forward (env : Env) : Prop where
  now : ∀ n, env.now n ≤ env.now (n + 1)
  calls : ∀ n, (env.interleaved n).Pairwise (fun a b => a.2 ≤ b.2)
  within : ∀ n, ∀ c ∈ env.interleaved n, env.now n ≤ c.2 ∧ c.2 ≤ env.now (n + 1)

variable {env : Env}

theorem Env.Forward.mono [h : env.Forward] {a b : Nat} (hab : a ≤ b) : env.now a ≤ env.now b :=
  monotone_nat_of_le_succ h.now hab

/-! ## Stamps -/

/-- What a claim says about its target: its id, the epoch that was read, and the end of the lease. -/
structure Stamp where
  target : String
  epoch : Nat
  expiresAt : Int

def ClaimRecord.stamp (c : ClaimRecord) : Stamp := ⟨c.identity.controlTargetId, c.targetExternalEpoch, c.lease.expiresAt⟩

def Local.stamps (l : Local) : List Stamp := (l.claims ++ l.unclaimed).map (·.stamp)

/-- **An entry that does not agree with a claim was touched at most a lease before the claim ends.**  `nowMs` bounds the
readings of the clock so far. -/
structure Local.Stamped (ttlMs nowMs : Int) (l : Local) : Prop where
  entered : ∀ id s, l.targetExternalStates id = some s → 1 ≤ s.epoch
  lease : ∀ c ∈ l.stamps, c.expiresAt ≤ nowMs + ttlMs
  touched : ∀ c ∈ l.stamps, ∀ s, l.targetExternalStates c.target = some s → s.epoch ≠ c.epoch ∨ s.operations ≠ 0 →
    c.expiresAt ≤ s.lastTouchedMs + ttlMs

variable {ttlMs nowMs : Int} {l l' : Local}

theorem Local.Stamped.fresh : Local.fresh.Stamped ttlMs nowMs :=
  ⟨fun _ _ h => (by cases h), fun _ h => (by cases h), fun _ h => (by cases h)⟩

theorem Local.Stamped.mono {laterMs : Int} (h : l.Stamped ttlMs nowMs) (hle : nowMs ≤ laterMs) :
    l.Stamped ttlMs laterMs :=
  ⟨h.entered, fun c hc => (h.lease c hc).trans (Int.add_le_add_right hle ttlMs), h.touched⟩

theorem Local.Stamped.fewer (h : l.Stamped ttlMs nowMs) (hc : ∀ c ∈ l'.stamps, c ∈ l.stamps)
    (hs : ∀ id s, l'.targetExternalStates id = some s → l.targetExternalStates id = some s) : l'.Stamped ttlMs nowMs :=
  ⟨fun id s he => h.entered id s (hs id s he), fun c hc' => h.lease c (hc c hc'),
    fun c hc' s he => h.touched c (hc c hc') s (hs _ s he)⟩

theorem Local.Stamped.same (h : l.Stamped ttlMs nowMs) (hc : l'.stamps = l.stamps)
    (hs : l'.targetExternalStates = l.targetExternalStates) : l'.Stamped ttlMs nowMs :=
  h.fewer (fun c hc' => hc ▸ hc') (fun id s he => by rw [← hs]; exact he)

/-! ## What a synchronous call does to the stamps -/

theorem Local.stamps_withdrawClaims (l : Local) (only : Option String) : (l.withdrawClaims only).stamps = l.stamps := by
  unfold Local.stamps Local.withdrawClaims
  simp only [List.map_append, List.map_map]
  congr 1
  refine List.map_congr_left (fun c _ => ?_)
  simp only [Function.comp_apply]
  split <;> rfl

theorem Local.stamps_setClaim {claim : Nat} {record record' : ClaimRecord} (h : l.claims[claim]? = some record)
    (hs : record'.stamp = record.stamp) : (l.setClaim claim record').stamps = l.stamps := by
  unfold Local.stamps Local.setClaim
  simp only [List.map_append, List.map_set]
  congr 1
  rw [hs]
  refine List.ext_getElem? (fun i => ?_)
  rw [List.getElem?_set]
  split_ifs with hi hlt
  · rw [← hi, List.getElem?_map, h]
    rfl
  · rw [← hi, List.getElem?_eq_none (not_lt.1 hlt)]
  · rfl

theorem Sync.run_stamps (running : Running) (l : Local) (call : Sync) :
    (call.run ttlMs nowMs running l).1.stamps = l.stamps := by
  cases call with
  | externalBegin => exact l.stamps_withdrawClaims none
  | externalEnd => simp only [Sync.run]; split <;> rfl
  | targetExternalBegin id => exact (l.sweepTargetExternalStates nowMs ttlMs).stamps_withdrawClaims (some id)
  | targetExternalEnd id => simp only [Sync.run]; (repeat' split) <;> rfl
  | registerClaim =>
    simp only [Sync.run]
    split
    · rfl
    next record rest hun =>
      unfold Local.stamps
      rw [hun]
      split <;> simp [ClaimRecord.stamp]
  | fenceClaim claim input =>
    simp only [Sync.run]
    split
    next hin hrec =>
      split
      · exact Local.stamps_setClaim hrec rfl
      · rfl
    · rfl
  | consumeClaim claim input owner =>
    simp only [Sync.run]
    split
    next hin how hrec =>
      split
      · exact Local.stamps_setClaim hrec rfl
      · rfl
    · rfl
  | burnClaim claim input identity =>
    simp only [Sync.run]
    split
    next hin hid hrec =>
      split
      · exact Local.stamps_setClaim hrec rfl
      · rfl
    · rfl
  | revokeClaim claim =>
    simp only [Sync.run]
    split
    next hrec =>
      split
      · exact Local.stamps_setClaim hrec rfl
      · rfl
    · rfl
  | retireObservation o => rfl
  | closeAuthority =>
    simp only [Sync.run]
    split
    · rfl
    · exact l.stamps_withdrawClaims none

/-- **A poll touches its own entry, and drops old ones.** -/
theorem Sync.run_entry {running : Running} {l : Local} {call : Sync} {id : String} {s : TargetExternalState}
    (h : (call.run ttlMs nowMs running l).1.targetExternalStates id = some s) :
    l.targetExternalStates id = some s ∨
    (call = .targetExternalBegin id ∧ 1 ≤ s.epoch ∧ s.lastTouchedMs = nowMs) ∨
    ∃ s', l.targetExternalStates id = some s' ∧ s = { s' with epoch := s'.epoch + 1, operations := s'.operations - 1 } ∧
      s'.operations ≠ 0 := by
  cases call with
  | targetExternalBegin id' =>
    simp only [Sync.run] at h
    by_cases hid : id = id'
    · subst hid
      rw [Function.update_self] at h
      obtain rfl := Option.some.inj h
      exact .inr (.inl ⟨rfl, Nat.le_add_left _ _, rfl⟩)
    · rw [Function.update_of_ne hid] at h
      exact .inl (Option.filter_eq_some_iff.1 h).1
  | targetExternalEnd id' =>
    simp only [Sync.run] at h
    split at h
    · exact .inl h
    next s' hs' =>
      split at h
      · exact .inl h
      next hops =>
        dsimp only at h
        by_cases hid : id = id'
        · subst hid
          rw [Function.update_self] at h
          exact .inr (.inr ⟨s', hs', (Option.some.inj h).symm, fun h0 => hops (by rw [h0]; exact Nat.zero_le _)⟩)
        · rw [Function.update_of_ne hid] at h
          exact .inl h
  | _ =>
    left
    simp only [Sync.run] at h
    (repeat' split at h) <;> exact h

/-- **A synchronous call keeps the claims stamped.** -/
theorem Local.Stamped.sync (h : l.Stamped ttlMs nowMs) (running : Running) (call : Sync) :
    (call.run ttlMs nowMs running l).1.Stamped ttlMs nowMs := by
  have hst : (call.run ttlMs nowMs running l).1.stamps = l.stamps := Sync.run_stamps running l call
  refine ⟨fun id s he => ?_, fun c hc => h.lease c (hst ▸ hc), fun c hc s he hne => ?_⟩
  · rcases Sync.run_entry he with hs | ⟨-, hs, -⟩ | ⟨s', -, rfl, -⟩
    · exact h.entered id s hs
    · exact hs
    · exact Nat.le_add_left _ _
  · rw [hst] at hc
    rcases Sync.run_entry he with hs | ⟨-, -, hs⟩ | ⟨s', hs, rfl, hops⟩
    · exact h.touched c hc s hs hne
    · rw [hs]
      exact h.lease c hc
    · exact h.touched c hc s' hs (.inr hops)

/-- **The calls at an await keep the claims stamped.** -/
theorem interleave_stamped (ttlMs : Int) {afterMs : Int} : ∀ (calls : List (Sync × Int)) (w : World) (nowMs : Int),
    calls.Pairwise (fun a b => a.2 ≤ b.2) → (∀ c ∈ calls, nowMs ≤ c.2 ∧ c.2 ≤ afterMs) → nowMs ≤ afterMs →
    w.loc.Stamped ttlMs nowMs → (w.interleave ttlMs calls).loc.Stamped ttlMs afterMs
  | [], _, _, _, _, hle, h => h.mono hle
  | (call, t) :: rest, w, nowMs, hsorted, hwithin, _, h => by
    obtain ⟨hhead, htail⟩ := List.pairwise_cons.1 hsorted
    have ht := hwithin (call, t) List.mem_cons_self
    exact interleave_stamped ttlMs rest _ t htail
      (fun c hc => ⟨hhead c hc, (hwithin c (List.mem_cons_of_mem _ hc)).2⟩) ht.2 ((h.mono ht.1).sync w.running call)

/-! ## Programs -/

/-- The world is later, and its claims are still stamped. -/
structure KeepsStamps (env : Env) (w w' : World) : Prop where
  later : w.tick ≤ w'.tick
  stamped : w.loc.Stamped env.relayV2ExactTargetTtlMs (env.now w.tick) →
    w'.loc.Stamped env.relayV2ExactTargetTtlMs (env.now w'.tick)

instance : Std.Refl (KeepsStamps env) := ⟨fun _ => ⟨le_rfl, id⟩⟩

instance : IsTrans World (KeepsStamps env) :=
  ⟨fun _ _ _ h h' => ⟨h.later.trans h'.later, fun hs => h'.stamped (h.stamped hs)⟩⟩

theorem KeepsStamps.of_same [env.Forward] {w w' : World} (hle : w.tick ≤ w'.tick) (hc : w'.loc.stamps = w.loc.stamps)
    (hs : w'.loc.targetExternalStates = w.loc.targetExternalStates) : KeepsStamps env w w' :=
  ⟨hle, fun h => (h.mono (Env.Forward.mono hle)).same hc hs⟩

instance [env.Forward] : Ambient (KeepsStamps env) where
  tick _ := .of_same (Nat.le_succ _) rfl rfl
  mem _ _ := .of_same le_rfl rfl rfl
  persist _ _ := .of_same le_rfl rfl rfl
  log _ _ := .of_same le_rfl rfl rfl
  owners _ _ := .of_same le_rfl rfl rfl

instance [h : env.Forward] : Suspends env (KeepsStamps env) where
  suspend w := by
    have htick := interleave_tick env.relayV2ExactTargetTtlMs (env.interleaved w.tick) { w with tick := w.tick + 1 }
    refine ⟨by rw [htick]; exact Nat.le_succ _, fun hs => ?_⟩
    rw [htick]
    exact interleave_stamped _ _ { w with tick := w.tick + 1 } (env.now w.tick) (h.calls _) (h.within _) (h.now _) hs

instance [env.Forward] : Prunes (KeepsStamps env) where
  prune epoch ts w := by
    have hkept : ∀ (ts : List TargetRecord) (l : Local),
        (ts.foldl (fun l t => l.pruneStaleObservers epoch t) l).stamps = l.stamps ∧
        (ts.foldl (fun l t => l.pruneStaleObservers epoch t) l).targetExternalStates = l.targetExternalStates := by
      intro ts
      induction ts with
      | nil => exact fun l => ⟨rfl, rfl⟩
      | cons t ts ih => exact fun l => ih (l.pruneStaleObservers epoch t)
    exact .of_same le_rfl (hkept ts w.loc).1 (hkept ts w.loc).2

/-! ## The reservation -/

/-- The section's state stays, and so do the claims and the entries of the process. -/
structure Stays (w w' : World) : Prop where
  later : w.tick ≤ w'.tick
  mem : w'.mem = w.mem
  stamps : w'.loc.stamps = w.loc.stamps
  entries : w'.loc.targetExternalStates = w.loc.targetExternalStates

instance : Std.Refl Stays := ⟨fun _ => ⟨le_rfl, rfl, rfl, rfl⟩⟩

instance : IsTrans World Stays := ⟨fun _ _ _ h h' =>
  ⟨h.later.trans h'.later, h'.mem.trans h.mem, h'.stamps.trans h.stamps, h'.entries.trans h.entries⟩⟩

instance : Along Stays nextTick := ⟨fun _ => ⟨Nat.le_succ _, rfl, rfl, rfl⟩⟩

instance (e : Event) : Along Stays (logEvent e) := Along.modify (fun _ => ⟨le_rfl, rfl, rfl, rfl⟩)

instance (s : ControlState) (answer : SaveAnswer) : Along Stays (commitSave s answer) := by
  have hp : Along Stays (Eff.modify (·.persist s) : M Unit) := Along.modify (fun _ => ⟨le_rfl, rfl, rfl, rfl⟩)
  unfold commitSave
  cases answer <;> infer_instance

instance : Along Stays (saveTerminalControlState env) := by
  unfold saveTerminalControlState
  refine Along.bind (q := fun w => ?_)
  split
  · infer_instance
  · split <;> infer_instance

instance (id : String) (owner : Owner) : Along Stays (registerInteractiveOwner id owner) := by
  have hs : Along Stays (modifyLocal (·.setInteractiveOwner id owner)) := Along.modify (fun _ => ⟨le_rfl, rfl, rfl, rfl⟩)
  unfold registerInteractiveOwner
  refine Along.bind (q := fun w => Along.ite (q := ?_))
  split <;> infer_instance

/-- **From the grant to the claim**: no call runs, so the entries and the claims are those the epoch was read from, and
the record holds the lease that was granted. -/
structure Reserving (id : String) (expiresAt : Int) (w w' : World) : Prop where
  later : w.tick ≤ w'.tick
  stamps : w'.loc.stamps = w.loc.stamps
  entries : w'.loc.targetExternalStates = w.loc.targetExternalStates
  held : ∀ t, w'.mem.get? id = some t → ∃ fence owner leaseId, t.ownership = .held fence owner leaseId expiresAt

variable {id : String} {expires : Int} {w w₁ w₂ : World}

theorem Reserving.keeps [env.Forward] (h : Reserving id expires w w₁) : KeepsStamps env w w₁ :=
  .of_same h.later h.stamps h.entries

theorem Reserving.stays (h : Reserving id expires w w₁) (hs : Stays w₁ w₂) : Reserving id expires w w₂ :=
  ⟨h.later.trans hs.later, hs.stamps.trans h.stamps, hs.entries.trans h.entries, fun t ht => h.held t (hs.mem ▸ ht)⟩

theorem grantOwnership_reserving (env : Env) (id : String) (owner : Owner) (ttlMs : Int) (w : World) :
    ∃ w', grantOwnership env id owner ttlMs w = (.ok (), w') ∧ w'.tick = w.tick + 3 ∧
      Reserving id (env.now (w.tick + 1) + ttlMs) w w' := by
  refine ⟨_, rfl, rfl, ⟨Nat.le_add_right w.tick 3, rfl, rfl, fun t ht => ?_⟩⟩
  obtain ⟨hmem, hid⟩ := ControlState.get?_mem ht
  rcases ControlState.mem_update hmem with ⟨u, -, -, rfl⟩ | ⟨-, hne⟩
  · exact ⟨_, _, _, rfl⟩
  · exact absurd hid hne

theorem leaseForOwner_expiresAt {epoch : String} {t : TargetRecord} {owner o : Owner} {fence : Nat} {leaseId : String}
    {lease : Lease} (ht : t.ownership = .held fence o leaseId expires) (h : t.leaseForOwner epoch owner = .ok lease) :
    lease.expiresAt = expires := by
  unfold TargetRecord.leaseForOwner TargetRecord.leaseFromTarget at h
  rw [ht] at h
  simp only [bind, Except.bind] at h
  (repeat' split at h) <;> cases h <;> rfl

theorem Local.Stamped.claim (h : l.Stamped ttlMs nowMs) {c : ClaimRecord}
    (hepoch : c.targetExternalEpoch = l.targetExternalEpoch c.identity.controlTargetId)
    (hops : l.targetExternalOperations c.identity.controlTargetId = 0) (hlease : c.lease.expiresAt ≤ nowMs + ttlMs) :
    ({ l with unclaimed := l.unclaimed ++ [c] } : Local).Stamped ttlMs nowMs := by
  have hnew : ∀ st ∈ ({ l with unclaimed := l.unclaimed ++ [c] } : Local).stamps, st ∈ l.stamps ∨ st = c.stamp := by
    intro st hst
    simp only [Local.stamps, ← List.append_assoc, List.map_append, List.map_cons, List.map_nil] at hst
    rcases List.mem_append.1 hst with hst | hst
    · exact .inl (by rwa [Local.stamps, List.map_append])
    · exact .inr (List.mem_singleton.1 hst)
  refine ⟨h.entered, fun st hst => ?_, fun st hst s hs hne => ?_⟩
  · rcases hnew st hst with hold | rfl
    · exact h.lease st hold
    · exact hlease
  · rcases hnew st hst with hold | rfl
    · exact h.touched st hold s hs hne
    · have hs' : l.targetExternalStates c.identity.controlTargetId = some s := hs
      simp only [Local.targetExternalEpoch, Local.targetExternalOperations, hs', Option.map_some, Option.getD_some] at hepoch hops
      rcases hne with hne | hne
      · exact absurd hepoch.symm hne
      · exact absurd hops hne

/-- **A reservation keeps the claims stamped**: the epoch is read after the last await before the lease is granted. -/
instance [env.Forward] (input : ExactInput) (externalEpoch : Nat) (id paneIdentity : String) :
    Along (KeepsStamps env) (reserveExact env input externalEpoch id paneIdentity) := by
  unfold reserveExact
  refine Along.bind (q := fun _ => Along.bind (q := fun _ => Along.bind (q := fun _ => Along.of_sat (fun w => ?_))))
  have hrefl : KeepsStamps env w w := Std.Refl.refl w
  refine Sat.next (x := Eff.get) rfl (Sat.step (P := fun _ w' => w = w' ∧ w.loc.targetExternalOperations id = 0)
    (Sat.require (fun h => ⟨rfl, by simpa using h⟩) (fun _ => hrefl)) ?_)
  rintro - _ ⟨rfl, hops⟩
  refine Sat.targetById (fun _ => hrefl) (fun t hget => ?_)
  refine Sat.step (P := fun _ w' => w = w') (Sat.require (fun _ => rfl) (fun _ => hrefl)) ?_
  rintro - _ rfl
  obtain ⟨w₁, heq, htick, h₁⟩ := grantOwnership_reserving env id input.owner env.relayV2ExactTargetTtlMs w
  refine Sat.next heq (Sat.next (x := resetInteractiveOwners id) rfl ?_)
  have hreset : Stays w₁ { w₁ with loc := w₁.loc.resetInteractiveOwners id } := ⟨le_rfl, rfl, rfl, rfl⟩
  have h₁' := h₁.stays hreset
  refine Sat.step (P := fun _ w' => Reserving id (env.now (w.tick + 1) + env.relayV2ExactTargetTtlMs) w w' ∧
    w.tick + 3 ≤ w'.tick)
    (Sat.of_along (R := Stays) (fun _ hs => (h₁'.stays hs).keeps) (fun _ _ hs => ⟨h₁'.stays hs, htick ▸ hs.later⟩)
      (fun _ _ hs => (h₁'.stays hs).keeps)) ?_
  rintro - w₂ ⟨h₂, hle₂⟩
  refine Sat.step (P := fun _ w' => Reserving id (env.now (w.tick + 1) + env.relayV2ExactTargetTtlMs) w w' ∧
    w.tick + 3 ≤ w'.tick)
    (Sat.of_along (R := Stays) (fun _ hs => (h₂.stays hs).keeps) (fun _ _ hs => ⟨h₂.stays hs, hle₂.trans hs.later⟩)
      (fun _ _ hs => (h₂.stays hs).keeps)) ?_
  rintro - w₃ ⟨h₃, hle₃⟩
  refine Sat.next (x := controlEpoch) rfl (Sat.targetById (fun _ => h₃.keeps) (fun t₃ hget₃ => ?_))
  obtain ⟨fence, owner, leaseId, hown⟩ := h₃.held t₃ hget₃
  -- the lease of the claim ends when the record that was just granted says
  refine Sat.step (P := fun lease w' => w' = w₃.log (.issued lease) ∧
    lease.expiresAt = env.now (w.tick + 1) + env.relayV2ExactTargetTtlMs)
    (Sat.next (x := controlEpoch) rfl (Sat.next (targetById_eq hget₃) (Sat.step
      (P := fun lease w' => w₃ = w' ∧ t₃.leaseForOwner w₃.mem.controlEpoch input.owner = .ok lease)
      (Sat.ofExcept (fun lease hl => ⟨rfl, hl⟩) (fun _ _ => h₃.keeps)) ?_))) ?_
  · rintro lease _ ⟨rfl, hl⟩
    exact ⟨rfl, leaseForOwner_expiresAt hown hl⟩
  · rintro lease _ ⟨rfl, hlease⟩
    refine Sat.next (x := randomUUID env) rfl ⟨h₃.later.trans (Nat.le_succ _), fun hs => ?_⟩
    have hs₃ := h₃.keeps.stamped hs
    refine (hs₃.mono (Env.Forward.mono (Nat.le_succ _))).claim ?_ ?_ ?_
    · simp only [Local.targetExternalEpoch, h₃.entries]
    · simp only [Local.targetExternalOperations, h₃.entries]
      exact hops
    · rw [hlease]
      have hle : w.tick + 1 ≤ w₃.tick + 1 := by omega
      exact Int.add_le_add_right (Env.Forward.mono hle) _

-- the instance of a section is a tree over its twenty binds
set_option synthInstance.maxSize 200000

instance [env.Forward] (id : String) (record : ClaimRecord) (output : Position) :
    Along (KeepsStamps env) (publishObservation env id record output) := by
  have hl : ∀ o, Along (KeepsStamps env) (modifyLocal (fun l => { l with observations := l.observations ++ [o] })) :=
    fun o => Along.modify (fun _ => .of_same le_rfl rfl rfl)
  unfold publishObservation; infer_instance

/-! ## Runs -/

theorem runSection_keepsStamps [env.Forward] (w : World) (s : Section) : KeepsStamps env w (runSection env w s) := by
  unfold runSection
  split
  · have h := Along.along (R := KeepsStamps env) (x := s.program env w.loc) { w with running := s.running }
    split <;> rename_i hr <;> rw [hr] at h
    · exact ⟨h.later, fun _ => .fresh⟩
    · exact ⟨h.later, h.stamped⟩
  · exact Std.Refl.refl w

theorem runStep_keepsStamps [h : env.Forward] (w : World) (step : Step) : KeepsStamps env w (runStep env w step) := by
  cases step with
  | sync call =>
    refine ⟨(Nat.le_succ _).trans (interleave_tick _ [_] { w with tick := w.tick + 1 }).ge, fun hs => ?_⟩
    exact (hs.sync w.running call).mono (h.now w.tick)
  | locked s => exact runSection_keepsStamps w s
  | die => exact ⟨le_rfl, fun _ => .fresh⟩

theorem runFrom_keepsStamps [env.Forward] (steps : List Step) (w : World) : KeepsStamps env w (runFrom env w steps) := by
  induction steps generalizing w with
  | nil => exact Std.Refl.refl w
  | cons step steps ih => exact IsTrans.trans _ _ _ (runStep_keepsStamps w step) (ih (runStep env w step))

/-- **The claims of a run are stamped.** -/
theorem run_stamped [env.Forward] (steps : List Step) :
    (run env steps).loc.Stamped env.relayV2ExactTargetTtlMs (env.now (run env steps).tick) :=
  (runFrom_keepsStamps steps World.init).stamped .fresh

/-! ## Polls of other targets -/

/-- The beginning or the end of an `ownership.status` of a target other than `id`. -/
def Sync.IsOtherPoll (id : String) : Sync → Prop
  | targetExternalBegin id' => id' ≠ id
  | targetExternalEnd id' => id' ≠ id
  | _ => False

/-- A step of an `ownership.status` of a target other than `id`. -/
def Step.IsOtherPoll (id : String) : Step → Prop
  | sync call => call.IsOtherPoll id
  | locked (.handle (.ownershipStatus id')) => id' ≠ id
  | _ => False

/-- **The claims of `id` are as they were**, and so is what `relayV2ExactClaimCurrent` asks of the process, but for the
entry of `id`: a sweep may have dropped it. -/
structure ClaimsKept (id : String) (ttlMs nowMs : Int) (l l' : Local) : Prop where
  closed : l'.relayV2ExactClosed = l.relayV2ExactClosed
  operations : l'.relayV2ExternalOperations = l.relayV2ExternalOperations
  epoch : l'.relayV2ExternalEpoch = l.relayV2ExternalEpoch
  claims : ∀ (i : Nat) (c : ClaimRecord), l.claims[i]? = some c → c.identity.controlTargetId = id → l'.claims[i]? = some c
  entry : l'.targetExternalStates id = l.targetExternalStates id ∨
    ∃ s, l.targetExternalStates id = some s ∧ s.operations = 0 ∧ s.lastTouchedMs < nowMs - ttlMs ∧
      l'.targetExternalStates id = none

theorem ClaimsKept.refl (id : String) (ttlMs nowMs : Int) (l : Local) : ClaimsKept id ttlMs nowMs l l :=
  ⟨rfl, rfl, rfl, fun _ _ h _ => h, .inl rfl⟩

theorem ClaimsKept.trans {l l₁ l₂ : Local} {laterMs : Int} (h : ClaimsKept id ttlMs nowMs l l₁) (h' : ClaimsKept id ttlMs laterMs l₁ l₂)
    (hle : nowMs ≤ laterMs) : ClaimsKept id ttlMs laterMs l l₂ := by
  refine ⟨h'.closed.trans h.closed, h'.operations.trans h.operations, h'.epoch.trans h.epoch,
    fun i c hc hid => h'.claims i c (h.claims i c hc hid) hid, ?_⟩
  rcases h.entry with he | ⟨s, hs, hops, hold, hnone⟩
  · rcases h'.entry with he' | ⟨s, hs, hold⟩
    · exact .inl (he'.trans he)
    · exact .inr ⟨s, he ▸ hs, hold⟩
  · refine .inr ⟨s, hs, hops, hold.trans_le (Int.sub_le_sub_right hle ttlMs), ?_⟩
    rcases h'.entry with he' | ⟨s', hs', -⟩
    · exact he'.trans hnone
    · rw [hnone] at hs'
      cases hs'

/-- **A sweep drops an idle entry that was last touched long ago**, and keeps every other. -/
theorem Local.sweep_entry (l : Local) (id : String) (nowMs ttlMs : Int) :
    (l.sweepTargetExternalStates nowMs ttlMs).targetExternalStates id = l.targetExternalStates id ∨
    ∃ s, l.targetExternalStates id = some s ∧ s.operations = 0 ∧ s.lastTouchedMs < nowMs - ttlMs ∧
      (l.sweepTargetExternalStates nowMs ttlMs).targetExternalStates id = none := by
  simp only [Local.sweepTargetExternalStates]
  cases hs : l.targetExternalStates id with
  | none => exact .inl rfl
  | some s =>
    by_cases hold : s.operations = 0 ∧ s.lastTouchedMs < nowMs - ttlMs
    · exact .inr ⟨s, rfl, hold.1, hold.2, Option.filter_some_neg (by simpa using hold)⟩
    · refine .inl (Option.filter_some_pos ?_)
      simpa using not_and_or.1 hold

theorem Local.sweep_kept (l : Local) (id : String) (nowMs ttlMs : Int) :
    ClaimsKept id ttlMs nowMs l (l.sweepTargetExternalStates nowMs ttlMs) :=
  ⟨rfl, rfl, rfl, fun _ _ h _ => h, l.sweep_entry id nowMs ttlMs⟩

/-- **A poll of another target.** -/
theorem Sync.run_kept {call : Sync} (h : call.IsOtherPoll id) (running : Running) (l : Local) :
    ClaimsKept id ttlMs nowMs l (call.run ttlMs nowMs running l).1 := by
  cases call with
  | targetExternalBegin id' =>
    have hentry := l.sweep_entry id nowMs ttlMs
    refine ⟨rfl, rfl, rfl, fun i c hc hid => ?_, ?_⟩
    · simp only [Sync.run, Local.withdrawClaims, Local.sweepTargetExternalStates, List.getElem?_map, hc, Option.map_some,
        Option.all_some, hid]
      rw [if_neg (by simpa using fun _ => Ne.symm h)]
    · simp only [Sync.run, Function.update_of_ne (Ne.symm h)]
      exact hentry
  | targetExternalEnd id' =>
    simp only [Sync.run]
    split
    · exact ClaimsKept.refl ..
    · split
      · exact ClaimsKept.refl ..
      · exact ⟨rfl, rfl, rfl, fun _ _ hc _ => hc, .inl (Function.update_of_ne (Ne.symm h) _ _)⟩
  | _ => exact h.elim

theorem interleave_kept (ttlMs : Int) {afterMs : Int} : ∀ (calls : List (Sync × Int)) (w : World),
    (∀ c ∈ calls, c.1.IsOtherPoll id ∧ c.2 ≤ afterMs) → ClaimsKept id ttlMs afterMs w.loc (w.interleave ttlMs calls).loc
  | [], w, _ => ClaimsKept.refl ..
  | (call, t) :: rest, w, h => by
    obtain ⟨hcall, ht⟩ := h (call, t) List.mem_cons_self
    have hrest := interleave_kept ttlMs rest
      { w with loc := (call.run ttlMs t w.running w.loc).1, trace := (call.run ttlMs t w.running w.loc).2 ++ w.trace }
      (fun c hc => h c (List.mem_cons_of_mem _ hc))
    exact ((Sync.run_kept hcall w.running w.loc).trans hrest ht)

def World.restarts (w : World) : Nat := w.trace.count .restarted

/-- The calls at the awaits between two worlds are polls of targets other than `id`. -/
def OtherPolls (env : Env) (id : String) (w w' : World) : Prop :=
  ∀ n, w.tick ≤ n → n < w'.tick → ∀ c ∈ env.interleaved n, c.1.IsOtherPoll id

/-- **What a poll of another target does to the claims of `id`**, while the process lives. -/
structure Polls (env : Env) (id : String) (w w' : World) : Prop where
  later : w.tick ≤ w'.tick
  restarts : w.restarts ≤ w'.restarts
  kept : OtherPolls env id w w' → w'.restarts = w.restarts →
    ClaimsKept id env.relayV2ExactTargetTtlMs (env.now w'.tick) w.loc w'.loc

instance : Std.Refl (Polls env id) := ⟨fun _ => ⟨le_rfl, le_rfl, fun _ _ => ClaimsKept.refl ..⟩⟩

instance [env.Forward] : IsTrans World (Polls env id) := ⟨fun w w₁ w₂ h h' => by
  refine ⟨h.later.trans h'.later, h.restarts.trans h'.restarts, fun hp hr => ?_⟩
  have hsame : w₁.restarts = w.restarts := le_antisymm (hr ▸ h'.restarts) h.restarts
  have hfirst := h.kept (fun n hn hlt => hp n hn (hlt.trans_le h'.later)) hsame
  have hlast := h'.kept (fun n hn hlt => hp n (h.later.trans hn) hlt) (hr.trans hsame.symm)
  exact hfirst.trans hlast (Env.Forward.mono h'.later)⟩

theorem Polls.of_loc {w w' : World} (hle : w.tick ≤ w'.tick) (hr : w.restarts ≤ w'.restarts)
    (h : ClaimsKept id env.relayV2ExactTargetTtlMs (env.now w'.tick) w.loc w'.loc) : Polls env id w w' := ⟨hle, hr, fun _ _ => h⟩

instance : Ambient (Polls env id) where
  tick _ := .of_loc (Nat.le_succ _) le_rfl (ClaimsKept.refl ..)
  mem _ _ := .of_loc le_rfl le_rfl (ClaimsKept.refl ..)
  persist _ _ := .of_loc le_rfl (List.Sublist.count_le _ (List.sublist_cons_self _ _)) (ClaimsKept.refl ..)
  log _ _ := .of_loc le_rfl (List.Sublist.count_le _ (List.sublist_append_right _ _)) (ClaimsKept.refl ..)
  owners _ _ := .of_loc le_rfl le_rfl ⟨rfl, rfl, rfl, fun _ _ h _ => h, .inl rfl⟩

theorem interleave_restarts (ttlMs : Int) : ∀ (calls : List (Sync × Int)) (w : World),
    w.restarts ≤ (w.interleave ttlMs calls).restarts
  | [], _ => le_rfl
  | (call, t) :: rest, w =>
    (List.Sublist.count_le _ (List.sublist_append_right _ _)).trans (interleave_restarts ttlMs rest
      { w with loc := (call.run ttlMs t w.running w.loc).1, trace := (call.run ttlMs t w.running w.loc).2 ++ w.trace })

instance [h : env.Forward] : Suspends env (Polls env id) where
  suspend w := by
    have htick := interleave_tick env.relayV2ExactTargetTtlMs (env.interleaved w.tick) { w with tick := w.tick + 1 }
    refine ⟨by rw [htick]; exact Nat.le_succ _, interleave_restarts _ _ { w with tick := w.tick + 1 }, fun hp _ => ?_⟩
    rw [htick]
    have hcalls := hp w.tick le_rfl (by rw [htick]; exact Nat.lt_succ_self _)
    exact interleave_kept _ _ { w with tick := w.tick + 1 }
      (fun c hc => ⟨hcalls c hc, (h.within w.tick c hc).2⟩)

theorem runStep_polls [h : env.Forward] {step : Step} (hs : step.IsOtherPoll id) (w : World) :
    Polls env id w (runStep env w step) := by
  cases step with
  | sync call =>
    have htick := interleave_tick env.relayV2ExactTargetTtlMs [(call, env.now w.tick)] { w with tick := w.tick + 1 }
    refine ⟨htick ▸ Nat.le_succ _, interleave_restarts _ [_] { w with tick := w.tick + 1 }, fun _ _ => ?_⟩
    refine interleave_kept _ [_] { w with tick := w.tick + 1 } (fun c hc => ?_)
    rw [List.mem_singleton.1 hc]
    exact ⟨hs, Env.Forward.mono (htick ▸ Nat.le_succ _)⟩
  | locked s =>
    unfold runStep runSection
    dsimp only
    split
    · have hstatus : Along (Polls env id) (s.program env w.loc) := by
        unfold Step.IsOtherPoll at hs
        split at hs
        · rename_i heq
          cases heq
        · rename_i heq
          cases heq
          unfold Section.program handleV1
          infer_instance
        · exact hs.elim
      have hrun := hstatus.along { w with running := s.running }
      split <;> rename_i hr <;> rw [hr] at hrun
      · -- the process died: it is not the one that holds the claims
        have hgrown : ∀ v : World, v.restart.restarts = v.restarts + 1 := fun v => List.count_cons_self
        refine ⟨hrun.later, (hrun.restarts.trans (Nat.le_succ _)).trans (hgrown _).ge, fun _ hsame => ?_⟩
        rw [hgrown] at hsame
        exact absurd (hsame ▸ hrun.restarts) (Nat.not_succ_le_self _)
      · exact ⟨hrun.later, hrun.restarts, hrun.kept⟩
    · exact Std.Refl.refl w
  | die => exact hs.elim

/-- **Polls of other targets.** -/
theorem runFrom_polls [env.Forward] {steps : List Step} (hs : ∀ step ∈ steps, step.IsOtherPoll id) (w : World) :
    Polls env id w (runFrom env w steps) := by
  induction steps generalizing w with
  | nil => exact Std.Refl.refl w
  | cons step steps ih =>
    exact IsTrans.trans _ _ _ (runStep_polls (hs step List.mem_cons_self) w)
      (ih (fun step hstep => hs step (List.mem_cons_of_mem _ hstep)) (runStep env w step))

/-! ## What a claim is worth -/

theorem claimCurrent_iff {c : ClaimRecord} (hlive : nowMs < c.lease.expiresAt) :
    l.claimCurrent c nowMs = true ↔
      (l.relayV2ExactClosed = false ∧ l.relayV2ExternalOperations = 0 ∧ l.relayV2ExternalEpoch = c.externalEpoch) ∧
      l.targetExternalOperations c.identity.controlTargetId = 0 ∧
      l.targetExternalEpoch c.identity.controlTargetId = c.targetExternalEpoch := by
  simp only [Local.claimCurrent, Bool.and_eq_true, Bool.not_eq_true', decide_eq_true_eq, hlive, and_true]
  tauto

/-- **A claim is not current once the entry of its target is dropped**: the epoch reads 0, which no entry has had, and a
claim with that stamp would have ended before the entry was old. -/
theorem Local.Stamped.not_current (h : l.Stamped ttlMs nowMs) {c : ClaimRecord} (hc : c ∈ l.claims ++ l.unclaimed)
    {s : TargetExternalState} (hs : l.targetExternalStates c.identity.controlTargetId = some s) {laterMs : Int}
    (hold : s.lastTouchedMs < laterMs - ttlMs) (hlive : laterMs ≤ c.lease.expiresAt) {readMs : Int}
    (hnone : l'.targetExternalStates c.identity.controlTargetId = none) : l'.claimCurrent c readMs = false := by
  by_contra hcur
  simp only [Local.claimCurrent, Local.targetExternalEpoch, hnone, Option.map_none, Option.getD_none, Bool.not_eq_false,
    Bool.and_eq_true, decide_eq_true_eq] at hcur
  have hepoch : s.epoch ≠ c.targetExternalEpoch := by
    have := h.entered _ s hs
    omega
  have htouched : c.lease.expiresAt ≤ s.lastTouchedMs + ttlMs :=
    h.touched c.stamp (List.mem_map_of_mem hc) s hs (.inl hepoch)
  omega

/-- **The value of a claim over polls of other targets.** -/
theorem ClaimsKept.current_eq_iff {c : ClaimRecord} {beforeMs afterMs : Int}
    (h : ClaimsKept c.identity.controlTargetId ttlMs afterMs l l') (hst : l.Stamped ttlMs beforeMs)
    (hc : c ∈ l.claims ++ l.unclaimed) (hle : beforeMs ≤ afterMs) (hlive : afterMs < c.lease.expiresAt) :
    l'.claimCurrent c afterMs = l.claimCurrent c beforeMs ↔
      ¬ (l.claimCurrent c beforeMs = true ∧ (l.targetExternalStates c.identity.controlTargetId).isSome ∧
        l'.targetExternalStates c.identity.controlTargetId = none) := by
  rcases h.entry with he | ⟨s, hs, -, hold, hnone⟩
  · -- the entry stays
    have hsame : l'.claimCurrent c afterMs = l.claimCurrent c beforeMs := by
      rw [Bool.eq_iff_iff, claimCurrent_iff hlive, claimCurrent_iff (hle.trans_lt hlive)]
      simp only [Local.targetExternalOperations, Local.targetExternalEpoch, he, h.closed, h.operations, h.epoch]
    refine iff_of_true hsame (fun hlost => ?_)
    rw [he] at hlost
    rw [hlost.2.2] at hlost
    cases hlost.2.1
  · have hlost : l'.claimCurrent c afterMs = false := hst.not_current hc hs hold hlive.le hnone
    rw [hlost, hs, hnone]
    cases l.claimCurrent c beforeMs <;> simp

/-- The clock of a run: 0 at first, 900 from tick 35 on, and `lateMs` from tick 45 on. -/
def clockUntil (lateMs : Int) (n : Nat) : Int := if n < 35 then 0 else if n < 45 then 900 else lateMs

/-- `observedEnv` with a second session, and saves that succeed. -/
def polledEnv (lateMs : Int) : Env :=
  { observedEnv with
    now := clockUntil lateMs
    save := fun _ => .done
    resolved := fun _ => .ok ⟨⟨"other", .worktree, 0⟩, "tmux-2"⟩ }

theorem polledEnv_forward {lateMs : Int} (h : 900 ≤ lateMs) : (polledEnv lateMs).Forward where
  now n := by
    show clockUntil lateMs n ≤ clockUntil lateMs (n + 1)
    unfold clockUntil
    split_ifs <;> omega
  calls _ := List.Pairwise.nil
  within _ c hc := by cases hc

/-- `other` is resolved, and `work` prepared, given back and polled at time 0; at time 900 it is prepared again. -/
def preparedSteps : List Step :=
  [.sync .externalBegin, .locked (.handle (.targetResolve "other")), .sync .externalEnd,
    .locked (.prepare observedInput (some ⟨.localProcess, "local"⟩)), .sync .registerClaim, .sync (.revokeClaim 0),
    .locked (.rollback 0), .sync (.targetExternalBegin (sampleEnv.randomUUID 13)),
    .locked (.handle (.ownershipStatus (sampleEnv.randomUUID 13))), .sync (.targetExternalEnd (sampleEnv.randomUUID 13)),
    .locked (.prepare observedInput (some ⟨.localProcess, "local"⟩)), .sync .registerClaim]

/-- An `ownership.status` of `other`. -/
def otherPoll : List Step :=
  [.sync (.targetExternalBegin (sampleEnv.randomUUID 4)),
    .locked (.handle (.ownershipStatus (sampleEnv.randomUUID 4))), .sync (.targetExternalEnd (sampleEnv.randomUUID 4))]

/-- The claim that `preparedSteps` leaves. -/
def preparedClaim : ClaimRecord :=
  { input := observedInput
    preparationId := sampleEnv.randomUUID 43
    identity := ⟨sampleEnv.randomUUID 13, sampleEnv.randomUUID 2, "twct2." ++ String.ofList (List.replicate 64 '0')⟩
    lease := ⟨sampleEnv.randomUUID 13, sampleEnv.randomUUID 2, sampleEnv.randomUUID 39, 3, ⟨.relayV2, "relay"⟩, 1900⟩
    externalEpoch := 2
    targetExternalEpoch := 2
    state := .prepared
    registered := true
    observing := false }

theorem otherPoll_isOther : ∀ step ∈ otherPoll, step.IsOtherPoll preparedClaim.identity.controlTargetId := by
  have hne : sampleEnv.randomUUID 4 ≠ preparedClaim.identity.controlTargetId := by decide +kernel
  intro step hstep
  simp only [otherPoll, List.mem_cons, List.not_mem_nil, or_false] at hstep
  rcases hstep with rfl | rfl | rfl <;> exact hne

theorem preparedSteps_run : ∀ p ∈ [1000, 1100], (run (polledEnv p) preparedSteps).loc.claims[1]? = some preparedClaim ∧
    (run (polledEnv p) preparedSteps).loc.claimCurrent preparedClaim p = true ∧
    (run (polledEnv p) preparedSteps).loc.targetExternalStates preparedClaim.identity.controlTargetId = some ⟨2, 0, 0⟩ ∧
    (run (polledEnv p) preparedSteps).tick = 45 ∧
    (runFrom (polledEnv p) (run (polledEnv p) preparedSteps) otherPoll).restarts =
      (run (polledEnv p) preparedSteps).restarts ∧
    (runFrom (polledEnv p) (run (polledEnv p) preparedSteps) otherPoll).tick = 52 ∧
    (runFrom (polledEnv p) (run (polledEnv p) preparedSteps) otherPoll).loc.claimCurrent preparedClaim p =
      decide (p < 1100) := by
  decide +kernel

end Terminal
end TmuxWorktree
