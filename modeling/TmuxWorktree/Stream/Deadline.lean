import TmuxWorktree.Stream.Delivery
/-!
# Deadline — the maintenance timer and the sweep it fires (`terminalManager.ts`)

`refreshMaintenanceTimer` schedules one sweep, for the earliest time at which something the manager keeps runs out.  The
two case lists, of deadlines and of what a sweep reaps, are written separately; they agree.  While nothing is due a sweep
leaves alone all that time takes away.  It still asks whether the leases of live streams are held, and it still paces the
backends, and these two may change a stream at any time.  And after a sweep that went through nothing is due.
-/
namespace TmuxWorktree
namespace Stream

open Effect

/-! ## Deadlines -/

/-- Whether an open or a close record still names the stream. -/
def Manager.pinned (m : Manager) (s : TerminalStream) : Bool :=
  m.openRecords.any (fun r => r.streamKey = s.key) || m.closeRecords.any (fun r => r.streamKey = s.key)

def TerminalStream.deadlines (now : Nat) (s : TerminalStream) : List Nat :=
  (if s.status = .live ∧ s.control.producerLease.isSome then
    [if s.control.renewLeaseAfter = 0 then now else s.control.renewLeaseAfter] else []) ++
  (if s.status = .detached then s.detachedUntil.toList else []) ++
  (if s.status = .closed ∧ s.ringRetained then (s.close.map Condition.ringExpiresAt).toList else [])

/-- What `refreshMaintenanceTimer` takes the minimum of. -/
def Manager.deadlines (m : Manager) (now : Nat) : List Nat :=
  if m.stopping then []
  else
    m.streams.flatMap (fun s => s.deadlines now ++
      if (s.status = .lost ∨ s.status = .closed) ∧ !m.pinned s then [s.retainedUntil] else []) ++
    m.quarantinedBackends ++
    (m.openRecords.filter fun r => !m.holdsOpenRecord r).map OpenRecord.expiresAt ++
    m.closeRecords.map CloseRecord.expiresAt

/-- The deadline that `refreshMaintenanceTimer` computes; none is `Number.POSITIVE_INFINITY`. -/
def Manager.deadline (m : Manager) (now : Nat) : Option Nat := (m.deadlines now).min?

def Manager.Due (m : Manager) (t : Nat) : Prop := ∃ d, m.deadline t = some d ∧ d ≤ t

def TerminalStream.Lapses (t : Nat) (s : TerminalStream) : Prop :=
  s.status = .live ∧ s.control.producerLease.isSome ∧ s.control.renewLeaseAfter ≤ t

/-- The time of a detached stream, or of the ring of a closed one, has run out. -/
def TerminalStream.Expires (t : Nat) (s : TerminalStream) : Prop :=
  (s.status = .detached ∧ s.detachedUntil.any (· ≤ t)) ∨
    (s.status = .closed ∧ s.close.any (fun c => c.ringExpiresAt ≤ t) ∧ s.ringRetained)

variable {t : Nat} {m m' m'' : Manager} {s s' : TerminalStream} {key : StreamKey}

theorem exists_due_append {l l' : List Nat} : (∃ d ∈ l ++ l', d ≤ t) ↔ (∃ d ∈ l, d ≤ t) ∨ ∃ d ∈ l', d ≤ t := by
  simp only [List.mem_append, or_and_right, exists_or]

theorem TerminalStream.deadlines_due : (∃ d ∈ s.deadlines t, d ≤ t) ↔ s.Lapses t ∨ s.Expires t := by
  have hlease : (∃ d ∈ (if s.status = .live ∧ s.control.producerLease.isSome then
      [if s.control.renewLeaseAfter = 0 then t else s.control.renewLeaseAfter] else []), d ≤ t) ↔ s.Lapses t := by
    unfold TerminalStream.Lapses
    split
    · next h =>
      rw [← and_assoc, and_iff_right h]
      split
      · next hz => simp [hz]
      · simp
    · next h =>
      rw [← and_assoc]
      simp [h]
  have hdetached : (∃ d ∈ (if s.status = .detached then s.detachedUntil.toList else []), d ≤ t) ↔
      s.status = .detached ∧ s.detachedUntil.any (· ≤ t) := by
    split
    · next h => cases s.detachedUntil <;> simp [h]
    · next h => simp [h]
  have hring : (∃ d ∈ (if s.status = .closed ∧ s.ringRetained then (s.close.map Condition.ringExpiresAt).toList else []),
      d ≤ t) ↔ s.status = .closed ∧ s.close.any (fun c => c.ringExpiresAt ≤ t) ∧ s.ringRetained := by
    split
    · next h => cases s.close <;> simp [h]
    · next h =>
      refine iff_of_false (by simp) fun ⟨hst, _, hr⟩ => h ⟨hst, hr⟩
  unfold TerminalStream.deadlines TerminalStream.Expires
  rw [exists_due_append, exists_due_append, hlease, hdetached, hring, or_assoc]

theorem due_iff_mem : m.Due t ↔ ∃ d ∈ m.deadlines t, d ≤ t := by
  unfold Manager.Due Manager.deadline
  constructor
  · rintro ⟨d, hd, hle⟩
    exact ⟨d, (List.min?_eq_some_iff.mp hd).1, hle⟩
  · rintro ⟨d, hd, hle⟩
    cases hmin : (m.deadlines t).min? with
    | none => rw [List.min?_eq_none_iff.mp hmin] at hd; cases hd
    | some d₀ => exact ⟨d₀, rfl, Nat.le_trans ((List.min?_eq_some_iff.mp hmin).2 d hd) hle⟩

/-- **What is due**: the five kinds of things that a sweep reaps. -/
structure Due (t : Nat) (m : Manager) : Prop where
  running : m.stopping = false
  some_ : (∃ s ∈ m.streams, s.Lapses t ∨ s.Expires t) ∨ (∃ s ∈ m.streams, m.forgettable t s) ∨
    (∃ q ∈ m.quarantinedBackends, q ≤ t) ∨ (∃ r ∈ m.openRecords, m.holdsOpenRecord r = false ∧ r.expiresAt ≤ t) ∨
    ∃ r ∈ m.closeRecords, r.expiresAt ≤ t

theorem forgettable_iff : m.forgettable t s = true ↔
    ((s.status = .lost ∨ s.status = .closed) ∧ (!m.pinned s) = true) ∧ s.retainedUntil ≤ t := by
  unfold Manager.forgettable Manager.pinned
  simp only [Bool.and_eq_true, Bool.or_eq_true, decide_eq_true_eq, Bool.not_or]
  constructor
  · rintro ⟨⟨⟨hst, hr⟩, ho⟩, hc⟩
    exact ⟨⟨hst.symm, ho, hc⟩, hr⟩
  · rintro ⟨⟨hst, ho, hc⟩, hr⟩
    exact ⟨⟨⟨hst.symm, hr⟩, ho⟩, hc⟩

theorem due_iff : m.Due t ↔ Due t m := by
  rw [due_iff_mem]
  unfold Manager.deadlines
  by_cases hstop : m.stopping = true
  · rw [if_pos hstop]
    exact iff_of_false (by simp) fun h => by rw [h.running] at hstop; cases hstop
  · rw [if_neg hstop]
    have hstream : ∀ s : TerminalStream, (∃ d ∈ s.deadlines t ++
        (if (s.status = .lost ∨ s.status = .closed) ∧ !m.pinned s then [s.retainedUntil] else []), d ≤ t) ↔
        (s.Lapses t ∨ s.Expires t) ∨ m.forgettable t s = true := by
      intro s
      rw [exists_due_append, TerminalStream.deadlines_due, forgettable_iff]
      split
      · next h => simp only [List.mem_singleton, exists_eq_left, h, true_and]
      · next h => simp only [List.not_mem_nil, false_and, exists_false, h]
    have hall : (∃ d ∈ m.streams.flatMap (fun s => s.deadlines t ++
        if (s.status = .lost ∨ s.status = .closed) ∧ !m.pinned s then [s.retainedUntil] else []), d ≤ t) ↔
        (∃ s ∈ m.streams, s.Lapses t ∨ s.Expires t) ∨ ∃ s ∈ m.streams, m.forgettable t s = true := by
      rw [← exists_or]
      constructor
      · rintro ⟨d, hd, hle⟩
        obtain ⟨s, hs, hd⟩ := List.mem_flatMap.mp hd
        exact ⟨s, ((hstream s).mp ⟨d, hd, hle⟩).imp (⟨hs, ·⟩) (⟨hs, ·⟩)⟩
      · rintro ⟨s, h⟩
        obtain ⟨hs, hdue⟩ : s ∈ m.streams ∧ ((s.Lapses t ∨ s.Expires t) ∨ m.forgettable t s = true) := by
          rcases h with ⟨hs, h⟩ | ⟨hs, h⟩
          · exact ⟨hs, .inl h⟩
          · exact ⟨hs, .inr h⟩
        obtain ⟨d, hd, hle⟩ := (hstream s).mpr hdue
        exact ⟨d, List.mem_flatMap.mpr ⟨s, hs, hd⟩, hle⟩
    have hopen : (∃ d ∈ (m.openRecords.filter fun r => !m.holdsOpenRecord r).map OpenRecord.expiresAt, d ≤ t) ↔
        ∃ r ∈ m.openRecords, m.holdsOpenRecord r = false ∧ r.expiresAt ≤ t := by
      simp only [List.mem_map, List.mem_filter, Bool.not_eq_true']
      constructor
      · rintro ⟨d, ⟨r, ⟨hr, hh⟩, rfl⟩, hle⟩
        exact ⟨r, hr, hh, hle⟩
      · rintro ⟨r, hr, hh, hle⟩
        exact ⟨_, ⟨r, ⟨hr, hh⟩, rfl⟩, hle⟩
    have hclose : (∃ d ∈ m.closeRecords.map CloseRecord.expiresAt, d ≤ t) ↔ ∃ r ∈ m.closeRecords, r.expiresAt ≤ t := by
      simp
    rw [exists_due_append, exists_due_append, exists_due_append, hall, hopen, hclose]
    constructor
    · intro h
      refine ⟨by simpa using hstop, ?_⟩
      rcases h with ((h | h) | h) | h
      · rcases h with h | h
        · exact .inl h
        · exact .inr (.inl h)
      · exact .inr (.inr (.inl h))
      · exact .inr (.inr (.inr (.inl h)))
      · exact .inr (.inr (.inr (.inr h)))
    · rintro ⟨_, h | h | h | h | h⟩
      · exact .inl (.inl (.inl (.inl h)))
      · exact .inl (.inl (.inl (.inr h)))
      · exact .inl (.inl (.inr h))
      · exact .inl (.inr h)
      · exact .inr h

/-! ## What a program leaves alone -/

/-- **Records, attachments and `g` of every stream are as they were.** -/
structure Touches {α : Type} (g : TerminalStream → α) (m m' : Manager) : Prop where
  streams : m'.streams.map g = m.streams.map g
  openRecords : m'.openRecords = m.openRecords
  closeRecords : m'.closeRecords = m.closeRecords
  quarantined : m'.quarantinedBackends = m.quarantinedBackends
  stopping : m'.stopping = m.stopping
  answers : m'.answers = m.answers
  tick : m.tick ≤ m'.tick

section
variable {α β γ : Type} {g : TerminalStream → α}

theorem Touches.refl (g : TerminalStream → α) (m : Manager) : Touches g m m := ⟨rfl, rfl, rfl, rfl, rfl, rfl, le_rfl⟩

theorem Touches.trans (h : Touches g m m') (h' : Touches g m' m'') : Touches g m m'' :=
  ⟨h'.streams.trans h.streams, h'.openRecords.trans h.openRecords, h'.closeRecords.trans h.closeRecords,
    h'.quarantined.trans h.quarantined, h'.stopping.trans h.stopping, h'.answers.trans h.answers, h.tick.trans h'.tick⟩

instance (g : TerminalStream → α) : Std.Refl (Touches g) := ⟨Touches.refl g⟩
instance (g : TerminalStream → α) : IsTrans Manager (Touches g) := ⟨fun _ _ _ => Touches.trans⟩

theorem Touches.coarser {f : TerminalStream → β} (h : Touches g m m')
    (hf : ∀ s ∈ m.streams, ∀ s' ∈ m'.streams, g s' = g s → f s' = f s) : Touches f m m' := by
  refine ⟨?_, h.openRecords, h.closeRecords, h.quarantined, h.stopping, h.answers, h.tick⟩
  have hmap := h.streams
  clear h
  generalize m.streams = l at hf hmap
  generalize m'.streams = l' at hf hmap
  induction l generalizing l' with
  | nil =>
    rw [List.map_nil, List.map_eq_nil_iff] at hmap
    rw [hmap]
  | cons s l ih =>
    obtain ⟨s', l', rfl, hs, hmap⟩ := List.map_eq_cons_iff.mp hmap
    rw [List.map_cons, List.map_cons, hf s List.mem_cons_self s' List.mem_cons_self hs]
    exact congrArg _ (ih l' (fun x hx x' hx' => hf x (List.mem_cons_of_mem _ hx) x' (List.mem_cons_of_mem _ hx')) hmap)

theorem Touches.mem (h : Touches g m m') (hs : s' ∈ m'.streams) : ∃ s ∈ m.streams, g s' = g s := by
  have hmem : g s' ∈ m.streams.map g := h.streams ▸ List.mem_map_of_mem hs
  obtain ⟨s, hs, heq⟩ := List.mem_map.mp hmem
  exact ⟨s, hs, heq.symm⟩

theorem Touches.keys (h : Touches g m m') (hg : ∀ s s', g s' = g s → s'.key = s.key) :
    m'.streams.map TerminalStream.key = m.streams.map TerminalStream.key :=
  (h.coarser (f := TerminalStream.key) fun s _ s' _ => hg s s').streams

theorem touches_tick (g : TerminalStream → α) (m : Manager) : Touches g m { m with tick := m.tick + 1 } :=
  ⟨rfl, rfl, rfl, rfl, rfl, rfl, Nat.le_succ _⟩

instance ask_touches : Along (Touches g) ask := ⟨fun m => by
  unfold ask
  dsimp only
  split <;> exact touches_tick g m⟩

instance now_touches : Along (Touches g) now := ⟨fun m => touches_tick g m⟩

instance streamAt_touches (key : StreamKey) : Along (Touches g) (streamAt key) := ⟨fun m => .refl g m⟩

instance streamKeys_touches : Along (Touches g) streamKeys := ⟨fun m => .refl g m⟩

theorem touches_update {f : TerminalStream → TerminalStream} (hf : ∀ s, s.key = key → g (f s) = g s) (m : Manager) :
    Touches g m (m.update key f) := by
  refine ⟨?_, rfl, rfl, rfl, rfl, rfl, le_rfl⟩
  show (m.streams.map _).map g = m.streams.map g
  rw [List.map_map]
  refine List.map_congr_left fun s _ => ?_
  simp only [Function.comp]
  split
  · next hk => exact hf s hk
  · rfl

theorem update_touches {f : TerminalStream → TerminalStream} (hf : ∀ s, s.key = key → g (f s) = g s) :
    Along (Touches g) (update key f) := .modify fun m => touches_update hf m

end

/-! ## The lease programs -/

/-- All of a stream but the control plane of the one at `key`. -/
def TerminalStream.ungoverned (key : StreamKey) (s : TerminalStream) : TerminalStream :=
  if s.key = key then { s with control := {} } else s

section
variable {γ : Type}

instance updateControl_touches (key : StreamKey) (f : Control → Control) :
    Along (Touches (TerminalStream.ungoverned key)) (updateControl key f) :=
  update_touches fun s hk => by simp only [TerminalStream.ungoverned, hk, if_pos]

instance clearControlWindows_touches (key : StreamKey) :
    Along (Touches (TerminalStream.ungoverned key)) (clearControlWindows key) := updateControl_touches key _

instance setInDoubt_touches (key : StreamKey) (e : StructuredError) :
    Along (Touches (TerminalStream.ungoverned key)) (setInDoubt key e) := updateControl_touches key _

instance dropProducerLease_touches (key : StreamKey) :
    Along (Touches (TerminalStream.ungoverned key)) (dropProducerLease key) := updateControl_touches key _

instance setRetiringLease_touches (key : StreamKey) (lease : Option Lease) :
    Along (Touches (TerminalStream.ungoverned key)) (setRetiringLease key lease) := updateControl_touches key _

instance settleRelease_touches (key : StreamKey) (lease : Lease) (a : Answer) :
    Along (Touches (TerminalStream.ungoverned key)) (settleRelease key lease a) := by
  unfold settleRelease
  split
  · infer_instance
  · split <;> infer_instance

instance releaseProducerLease_touches (key : StreamKey) :
    Along (Touches (TerminalStream.ungoverned key)) (releaseProducerLease key) := by
  unfold releaseProducerLease
  refine Along.seq inferInstance fun s => Along.seq inferInstance fun _ => ?_
  split
  · infer_instance
  · split
    · infer_instance
    · split <;> infer_instance

instance clearAfterRelease_touches (key : StreamKey) (result : ReleaseResult) :
    Along (Touches (TerminalStream.ungoverned key)) (clearAfterRelease key result) := by
  unfold clearAfterRelease
  refine Along.seq inferInstance fun _ => ?_
  split <;> infer_instance

instance setProducerLease_touches (key : StreamKey) (lease : Lease) :
    Along (Touches (TerminalStream.ungoverned key)) (setProducerLease key lease) := by
  unfold setProducerLease
  infer_instance

instance takeLease_touches (key : StreamKey) (expiresAt : Nat) :
    Along (Touches (TerminalStream.ungoverned key)) (takeLease key expiresAt) := by
  unfold takeLease
  infer_instance

instance acquireProducerLease_touches (key : StreamKey) :
    Along (Touches (TerminalStream.ungoverned key)) (acquireProducerLease key) := by
  unfold acquireProducerLease
  refine Along.seq inferInstance fun a => ?_
  split <;> infer_instance

instance settleProducerLeaseFailure_touches (key : StreamKey) (failure : LeaseResult) :
    Along (Touches (TerminalStream.ungoverned key)) (settleProducerLeaseFailure key failure) := by
  unfold settleProducerLeaseFailure
  refine Along.seq inferInstance fun result => Along.seq inferInstance fun _ => ?_
  split <;> infer_instance

instance failedLeaseCall_touches (key : StreamKey) (a : Answer) :
    Along (Touches (TerminalStream.ungoverned key)) (failedLeaseCall key a) := by
  unfold failedLeaseCall
  infer_instance

instance replaceExpiredLease_touches (key : StreamKey) :
    Along (Touches (TerminalStream.ungoverned key)) (replaceExpiredLease key) := by
  unfold replaceExpiredLease
  refine Along.seq inferInstance fun result => Along.seq inferInstance fun _ => ?_
  split <;> infer_instance

instance renewProducerLease_touches (key : StreamKey) :
    Along (Touches (TerminalStream.ungoverned key)) (renewProducerLease key) := by
  unfold renewProducerLease
  refine Along.seq inferInstance fun a => ?_
  split
  · split <;> infer_instance
  · infer_instance

instance keepProducerLease_touches (key : StreamKey) (c : Control) (lease : Lease) :
    Along (Touches (TerminalStream.ungoverned key)) (keepProducerLease key c lease) := by
  unfold keepProducerLease
  infer_instance

instance ensureProducerLease_touches (key : StreamKey) :
    Along (Touches (TerminalStream.ungoverned key)) (ensureProducerLease key) := by
  unfold ensureProducerLease
  refine Along.seq inferInstance fun s => ?_
  split <;> infer_instance

instance maintainLease_touches (key : StreamKey) (lease : Lease) (t : Nat) :
    Along (Touches (TerminalStream.ungoverned key)) (maintainLease key lease t) := by
  unfold maintainLease
  split
  · infer_instance
  · refine Along.seq inferInstance fun result => ?_
    split <;> infer_instance

end

/-! ## A sweep while nothing is due -/

/-- A stream but for what back-pressure did to its backend. -/
def TerminalStream.unpaced (s : TerminalStream) : TerminalStream := { s with backendPaused := false, pauseFailed := false }

/-- **What only time takes away**: all of a stream but the pace of its backend and, while it is live, its control plane. -/
def TerminalStream.lasting (s : TerminalStream) : TerminalStream :=
  { s.unpaced with control := if s.status = .live then {} else s.control }

instance refreshStream_touches (L : Limits) (key : StreamKey) :
    Along (Touches TerminalStream.unpaced) (refreshStream L key) := by
  have hpause : Along (Touches TerminalStream.unpaced) (pauseBackend key) := by
    unfold pauseBackend
    refine Along.seq inferInstance fun a => ?_
    split <;> exact update_touches fun _ _ => rfl
  have hresume : Along (Touches TerminalStream.unpaced) (resumeBackend key) := by
    unfold resumeBackend
    refine Along.seq inferInstance fun a => ?_
    split <;> exact update_touches fun _ _ => rfl
  unfold refreshStream
  refine Along.seq inferInstance fun m => ?_
  split
  · infer_instance
  · infer_instance

instance refreshBackpressure_touches (L : Limits) : Along (Touches TerminalStream.unpaced) (refreshBackpressure L) := by
  have hpressure : Along (Touches TerminalStream.unpaced) (Eff.modify (Manager.refreshHostPressure L) : Act Unit) :=
    .modify fun m => by
      unfold Manager.refreshHostPressure
      split
      · exact ⟨rfl, rfl, rfl, rfl, rfl, rfl, le_rfl⟩
      · split <;> exact ⟨rfl, rfl, rfl, rfl, rfl, rfl, le_rfl⟩
  unfold refreshBackpressure
  infer_instance

theorem lasting_unpaced (s : TerminalStream) : s.unpaced.lasting = s.lasting := rfl

theorem Touches.lasting_of_unpaced (h : Touches TerminalStream.unpaced m m') : Touches TerminalStream.lasting m m' :=
  h.coarser fun s _ s' _ heq => by rw [← lasting_unpaced s', heq, lasting_unpaced]

theorem ungoverned_rest (key : StreamKey) (s : TerminalStream) : (s.ungoverned key).key = s.key ∧
    (s.ungoverned key).status = s.status ∧ (s.key ≠ key → s.ungoverned key = s) := by
  unfold TerminalStream.ungoverned
  split
  · next hk => exact ⟨rfl, rfl, fun h => absurd hk h⟩
  · exact ⟨rfl, rfl, fun _ => rfl⟩

theorem lasting_ungoverned (live : s.key = key → s.status = .live) : (s.ungoverned key).lasting = s.lasting := by
  unfold TerminalStream.ungoverned
  split
  · next hk => simp only [TerminalStream.lasting, TerminalStream.unpaced, live hk, if_pos]
  · rfl

theorem Touches.lasting_of_ungoverned (h : Touches (TerminalStream.ungoverned key) m m')
    (live : ∀ s ∈ m.streams, s.key = key → s.status = .live) : Touches TerminalStream.lasting m m' := by
  refine h.coarser fun s hs s' _ heq => ?_
  have hkey : s'.key = s.key := by rw [← (ungoverned_rest key s').1, heq, (ungoverned_rest key s).1]
  have hst : s'.status = s.status := by rw [← (ungoverned_rest key s').2.1, heq, (ungoverned_rest key s).2.1]
  rw [← @lasting_ungoverned s' key fun hk => hst.trans (live s hs (hkey.symm.trans hk)), heq,
    lasting_ungoverned (live s hs)]

theorem stream_of_mem (keys : (m.streams.map TerminalStream.key).Nodup) (hs : s ∈ m.streams) : m.stream s.key = some s :=
  Keyed.find_of_mem keys hs

theorem mem_of_stream (hs : m.stream key = some s) : s ∈ m.streams := Keyed.mem_of_find hs

theorem lasting_reads (h : s'.lasting = s.lasting) : s'.key = s.key ∧ s'.status = s.status ∧
    s'.retainedUntil = s.retainedUntil ∧ s'.generation = s.generation ∧ (s'.Expires t ↔ s.Expires t) := by
  have hkey : s'.key = s.key := by have := congrArg TerminalStream.key h; exact this
  have hst : s'.status = s.status := by have := congrArg TerminalStream.status h; exact this
  have hr : s'.retainedUntil = s.retainedUntil := by have := congrArg TerminalStream.retainedUntil h; exact this
  have hg : s'.generation = s.generation := by have := congrArg TerminalStream.generation h; exact this
  have hd : s'.detachedUntil = s.detachedUntil := by have := congrArg TerminalStream.detachedUntil h; exact this
  have hc : s'.close = s.close := by have := congrArg TerminalStream.close h; exact this
  have hring : s'.ringRetained = s.ringRetained := by have := congrArg TerminalStream.ringRetained h; exact this
  unfold TerminalStream.Expires
  rw [hst, hd, hc, hring]
  exact ⟨hkey, rfl, hr, hg, Iff.rfl⟩

/-- **Nothing has run out**, leases apart. -/
structure Idle (t : Nat) (m : Manager) : Prop where
  keys : (m.streams.map TerminalStream.key).Nodup
  streams : ∀ s ∈ m.streams, ¬ s.Expires t ∧ m.forgettable t s = false
  quarantined : ∀ q ∈ m.quarantinedBackends, t < q
  openRecords : ∀ r ∈ m.openRecords, m.holdsOpenRecord r = true ∨ t < r.expiresAt
  closeRecords : ∀ r ∈ m.closeRecords, t < r.expiresAt

theorem idle_of_not_due (keys : (m.streams.map TerminalStream.key).Nodup) (running : m.stopping = false) (h : ¬ m.Due t) :
    Idle t m := by
  rw [due_iff] at h
  refine ⟨keys, fun s hs => ⟨fun he => h ⟨running, .inl ⟨s, hs, .inr he⟩⟩, ?_⟩, fun q hq => ?_, fun r hr => ?_, fun r hr => ?_⟩
  · by_contra hf
    exact h ⟨running, .inr (.inl ⟨s, hs, by simpa using hf⟩)⟩
  · by_contra hq'
    exact h ⟨running, .inr (.inr (.inl ⟨q, hq, Nat.not_lt.mp hq'⟩))⟩
  · by_contra hr'
    rw [not_or, Bool.not_eq_true] at hr'
    exact h ⟨running, .inr (.inr (.inr (.inl ⟨r, hr, hr'.1, Nat.not_lt.mp hr'.2⟩)))⟩
  · by_contra hr'
    exact h ⟨running, .inr (.inr (.inr (.inr ⟨r, hr, Nat.not_lt.mp hr'⟩)))⟩

theorem Touches.holds (h : Touches TerminalStream.lasting m m') (keys : (m.streams.map TerminalStream.key).Nodup)
    (r : OpenRecord) : m'.holdsOpenRecord r = m.holdsOpenRecord r := by
  have keys' : (m'.streams.map TerminalStream.key).Nodup := by
    rw [h.keys fun _ _ heq => (lasting_reads (t := 0) heq).1]
    exact keys
  have hfind : ∀ k, (m'.stream k).map TerminalStream.lasting = (m.stream k).map TerminalStream.lasting := by
    intro k
    have hmap : ∀ l : List TerminalStream, (Keyed.find TerminalStream.key k l).map TerminalStream.lasting =
        Keyed.find TerminalStream.key k (l.map TerminalStream.lasting) := fun l => (Keyed.find_map (g := TerminalStream.lasting) fun _ => rfl).symm
    unfold Manager.stream
    rw [hmap, hmap, h.streams]
  unfold Manager.holdsOpenRecord
  split
  · next generation _ _ _ =>
    have hk := hfind r.streamKey
    cases hs : m.stream r.streamKey with
    | none =>
      rw [hs, Option.map_none, Option.map_eq_none_iff] at hk
      rw [hk]
    | some s =>
      rw [hs, Option.map_some, Option.map_eq_some_iff] at hk
      obtain ⟨s', hs', heq⟩ := hk
      obtain ⟨_, hst, _, hg, _⟩ := lasting_reads (t := 0) heq
      rw [hs', Option.any_some, Option.any_some, hg]
      unfold TerminalStream.producing
      rw [hst]
  · rfl

theorem Idle.touches (h : Idle t m) (ht : Touches TerminalStream.lasting m m') : Idle t m' where
  keys := by
    rw [ht.keys fun _ _ heq => (lasting_reads (t := t) heq).1]
    exact h.keys
  streams := fun s' hs' => by
    obtain ⟨s, hs, heq⟩ := ht.mem hs'
    obtain ⟨hkey, hst, hr, _, hexp⟩ := lasting_reads (t := t) heq
    refine ⟨fun he => (h.streams s hs).1 (hexp.mp he), ?_⟩
    rw [← (h.streams s hs).2]
    unfold Manager.forgettable
    rw [hst, hr, hkey, ht.openRecords, ht.closeRecords]
  quarantined := ht.quarantined ▸ h.quarantined
  openRecords := fun r hr => by
    rw [ht.holds h.keys]
    exact h.openRecords r (ht.openRecords ▸ hr)
  closeRecords := ht.closeRecords ▸ h.closeRecords

theorem expireStream_eq (L : Limits) : expireStream L key t m = (match m.stream key with
    | none => pure ()
    | some s =>
      if s.status = .detached ∧ s.detachedUntil.any (· ≤ t) then expireDetached L key t
      else if s.status = .closed ∧ s.close.any (fun c => c.ringExpiresAt ≤ t) ∧ s.ringRetained then removeRing key false
      else pure () : Act Unit) m := rfl

theorem expireStream_idle (L : Limits) (h : Idle t m) : expireStream L key t m = (.ok (), m) := by
  rw [expireStream_eq]
  cases hs : m.stream key with
  | none => rfl
  | some s =>
    have hno := (h.streams s (mem_of_stream hs)).1
    unfold TerminalStream.Expires at hno
    rw [not_or] at hno
    dsimp only
    rw [if_neg hno.1, if_neg hno.2]
    rfl

theorem sweepStream_idle (L : Limits) (maintain : Bool) (key : StreamKey) (h : Idle t m) :
    Sat (Touches TerminalStream.lasting m) (sweepStream L maintain t key) m (fun _ => Touches TerminalStream.lasting m)
      fun _ => Touches TerminalStream.lasting m := by
  have hexpire : ∀ m', Touches TerminalStream.lasting m m' → Sat (Touches TerminalStream.lasting m)
      (expireStream L key t) m' (fun _ => Touches TerminalStream.lasting m) fun _ => Touches TerminalStream.lasting m := by
    intro m' hm'
    unfold Sat
    rw [expireStream_idle L (h.touches hm')]
    exact hm'
  unfold sweepStream
  refine Sat.next rfl ?_
  split
  · exact hexpire m (.refl _ m)
  · next lease hlease =>
    obtain ⟨s, hs, hmaintained⟩ := Option.bind_eq_some_iff.mp hlease
    have live : ∀ x ∈ m.streams, x.key = key → x.status = .live := by
      intro x hx hk
      have : m.stream key = some x := hk ▸ stream_of_mem h.keys hx
      obtain rfl := Option.some.inj (hs.symm.trans this)
      split at hmaintained
      · unfold TerminalStream.maintained at hmaintained
        split at hmaintained
        · assumption
        · cases hmaintained
      · cases hmaintained
    refine Sat.step (P := fun _ => Touches TerminalStream.lasting m) ?_ fun go m' hm' => ?_
    · exact Sat.of_along (R := Touches (TerminalStream.ungoverned key)) (fun _ h => h.lasting_of_ungoverned live)
        (fun _ _ h => h.lasting_of_ungoverned live) fun _ _ h => h.lasting_of_ungoverned live
    · split
      · exact hexpire m' hm'
      · exact hm'

/-- **While nothing is due a sweep takes nothing away.** -/
theorem sweepInternal_idle (L : Limits) (maintain : Bool) (ht : (m.answers m.tick).time = t) (h : Idle t m) :
    Touches TerminalStream.lasting m (sweepInternal L maintain m).2 := by
  suffices hsat : Sat (Touches TerminalStream.lasting m) (sweepInternal L maintain) m (fun _ => Touches TerminalStream.lasting m)
      fun _ => Touches TerminalStream.lasting m by
    unfold Sat at hsat
    rcases hx : sweepInternal L maintain m with ⟨a | e | _, w⟩ <;> rw [hx] at hsat <;> exact hsat
  subst ht
  have hnow : Touches TerminalStream.lasting m { m with tick := m.tick + 1 } := touches_tick _ m
  unfold sweepInternal
  refine Sat.next rfl (Sat.step (P := fun _ => Touches TerminalStream.lasting m) ?_ fun _ m₁ h₁ => ?_)
  · have hkept : m.quarantinedBackends.filter ((m.answers m.tick).time < ·) = m.quarantinedBackends :=
      List.filter_eq_self.mpr fun q hq => by simpa using h.quarantined q hq
    have hgone : m.quarantinedBackends.filter (· ≤ (m.answers m.tick).time) = [] :=
      List.filter_eq_nil_iff.mpr fun q hq => by simpa using h.quarantined q hq
    unfold sweepQuarantined
    refine Sat.next rfl (Sat.next rfl ?_)
    rw [show ({ m with tick := m.tick + 1 } : Manager).quarantinedBackends = m.quarantinedBackends from rfl, hgone]
    exact ⟨rfl, rfl, rfl, hkept, rfl, rfl, Nat.le_succ _⟩
  · refine Sat.next rfl (Sat.step (P := fun _ => Touches TerminalStream.lasting m) ?_ fun _ m₂ h₂ => ?_)
    · refine Sat.forEach h₁ fun key _ w hw => ?_
      exact (sweepStream_idle L maintain key (h.touches hw)).imp (fun _ h => hw.trans h) (fun _ _ h => hw.trans h)
        fun _ _ h => hw.trans h
    · have hrecords : Touches TerminalStream.lasting m₂ (m₂.sweepRecords (m.answers m.tick).time) := by
        have hi := h.touches h₂
        refine ⟨rfl, ?_, ?_, rfl, rfl, rfl, le_rfl⟩
        · exact List.filter_eq_self.mpr fun r hr => by simpa [or_comm] using hi.openRecords r hr
        · exact List.filter_eq_self.mpr fun r hr => by simpa using hi.closeRecords r hr
      refine Sat.next rfl (Sat.next rfl (Sat.step (P := fun _ => Touches TerminalStream.lasting m) ?_ fun _ m₃ h₃ => ?_))
      · refine Sat.forEach (h₂.trans hrecords) fun key _ w hw => ?_
        unfold forgetStream
        refine Sat.next rfl ?_
        have hno : (w.stream key).any (w.forgettable (m.answers m.tick).time) = false := by
          cases hs : w.stream key with
          | none => rfl
          | some s => exact ((h.touches hw).streams s (mem_of_stream hs)).2
        rw [hno]
        exact hw
      · exact Sat.of_along (R := Touches TerminalStream.unpaced) (fun _ h => h₃.trans h.lasting_of_unpaced)
          (fun _ _ h => h₃.trans h.lasting_of_unpaced) fun _ _ h => h₃.trans h.lasting_of_unpaced

/-! ## Leases that are confirmed -/

/-- From here on the clock reads `t`, and every call of the authority resolves and confirms. -/
def Confirms (t : Nat) (m : Manager) : Prop := ∀ i, m.tick ≤ i →
  (m.answers i).cut = false ∧ (m.answers i).resolves = true ∧ (m.answers i).flag = true ∧ (m.answers i).time = t

theorem Confirms.touches {α : Type} {g : TerminalStream → α} (h : Confirms t m) (ht : Touches g m m') : Confirms t m' :=
  fun i hi => by
    rw [ht.answers]
    exact h i (ht.tick.trans hi)

def Fresh (t : Nat) (m : Manager) : Prop := ∀ s ∈ m.streams, ¬ s.Lapses t ∧ ∀ lease, s.maintained = some lease → t < lease.expiresAt

theorem ask_confirmed (h : Confirms t m) : ∃ a : Answer, a.resolves = true ∧ a.flag = true ∧ ask m = (.ok a, m.ticked) := by
  obtain ⟨hcut, hres, hflag, _⟩ := h m.tick le_rfl
  exact ⟨m.answers m.tick, hres, hflag, by simp [ask, hcut, Manager.ticked]⟩

theorem now_confirmed (h : Confirms t m) : now m = (.ok t, m.ticked) := by
  rw [← (h m.tick le_rfl).2.2.2]
  rfl

theorem Confirms.ticked (h : Confirms t m) : Confirms t m.ticked := h.touches (touches_tick (fun s => s) m)

/-- **A lease that is confirmed before its half-life stays as it is.** -/
theorem maintainLease_confirmed (h : Confirms t m) (hs : m.stream key = some s) {lease : Lease}
    (held : s.control.producerLease = some lease) (unexpired : t < lease.expiresAt) (fresh : t < s.control.renewLeaseAfter) :
    maintainLease key lease t m = (.ok true, m.ticked.ticked.ticked) := by
  obtain ⟨a, hres, hflag, hask⟩ := ask_confirmed h.ticked
  unfold maintainLease
  rw [if_neg (Nat.not_le.mpr unexpired)]
  have hkeep : keepProducerLease key s.control lease m.ticked = (.ok (.accepted lease), m.ticked.ticked.ticked) := by
    unfold keepProducerLease
    rw [Eff.bind_run hask, if_pos hres, if_pos hflag, Eff.bind_run (now_confirmed h.ticked.ticked), if_pos fresh]
    rfl
  have hensure : ensureProducerLease key m = (.ok (.accepted lease), m.ticked.ticked.ticked) := by
    unfold ensureProducerLease
    rw [Eff.bind_run (show streamAt key m = (.ok (some s), m) from by rw [← hs]; rfl)]
    simp only [Option.bind_some, held, Option.map_some]
    rw [Eff.bind_run (now_confirmed h), if_neg (Nat.not_le.mpr unexpired), hkeep]
  rw [Eff.bind_run hensure]
  rfl

theorem sweepStream_confirmed (L : Limits) (key : StreamKey) (h : Idle t m) (hf : Fresh t m) (hc : Confirms t m) :
    Sat (Touches TerminalStream.unpaced m) (sweepStream L true t key) m (fun _ => Touches TerminalStream.unpaced m)
      fun _ => Touches TerminalStream.unpaced m := by
  unfold sweepStream
  refine Sat.next rfl ?_
  split
  · unfold Sat
    rw [expireStream_idle L h]
    exact .refl _ m
  · next lease hlease =>
    obtain ⟨s, hs, hmaintained⟩ := Option.bind_eq_some_iff.mp hlease
    rw [if_pos rfl] at hmaintained
    obtain ⟨hno, hunexpired⟩ := hf s (mem_of_stream hs)
    have hheld : s.status = .live ∧ s.control.producerLease = some lease := by
      unfold TerminalStream.maintained at hmaintained
      split at hmaintained
      · next hlive => exact ⟨hlive, hmaintained⟩
      · cases hmaintained
    have hfresh : t < s.control.renewLeaseAfter := by
      by_contra hle
      exact hno ⟨hheld.1, by rw [hheld.2]; rfl, Nat.not_lt.mp hle⟩
    refine Sat.next (maintainLease_confirmed hc hs hheld.2 (hunexpired lease hmaintained) hfresh) ?_
    have hticks : Touches TerminalStream.unpaced m m.ticked.ticked.ticked :=
      ((touches_tick _ m).trans (touches_tick _ _)).trans (touches_tick _ _)
    unfold Sat
    rw [if_pos rfl, expireStream_idle L (h.touches hticks.lasting_of_unpaced)]
    exact hticks

theorem Fresh.touches (h : Fresh t m) (ht : Touches TerminalStream.unpaced m m') : Fresh t m' := by
  intro s' hs'
  obtain ⟨s, hs, heq⟩ := ht.mem hs'
  have hst : s'.status = s.status := by have := congrArg TerminalStream.status heq; exact this
  have hc : s'.control = s.control := by have := congrArg TerminalStream.control heq; exact this
  obtain ⟨hno, hun⟩ := h s hs
  unfold TerminalStream.Lapses TerminalStream.maintained at *
  rw [hst, hc]
  exact ⟨hno, hun⟩

/-- **While nothing is due and all leases are confirmed, a sweep only paces backends.** -/
theorem sweepInternal_confirmed (L : Limits) (h : Idle t m) (hf : Fresh t m) (hc : Confirms t m) :
    Touches TerminalStream.unpaced m (sweepInternal L true m).2 := by
  suffices hsat : Sat (Touches TerminalStream.unpaced m) (sweepInternal L true) m (fun _ => Touches TerminalStream.unpaced m)
      fun _ => Touches TerminalStream.unpaced m by
    unfold Sat at hsat
    rcases hx : sweepInternal L true m with ⟨a | e | _, w⟩ <;> rw [hx] at hsat <;> exact hsat
  unfold sweepInternal
  refine Sat.next (now_confirmed hc) (Sat.step (P := fun _ => Touches TerminalStream.unpaced m) ?_ fun _ m₁ h₁ => ?_)
  · have hkept : m.quarantinedBackends.filter (t < ·) = m.quarantinedBackends :=
      List.filter_eq_self.mpr fun q hq => by simpa using h.quarantined q hq
    have hgone : m.quarantinedBackends.filter (· ≤ t) = [] :=
      List.filter_eq_nil_iff.mpr fun q hq => by simpa using h.quarantined q hq
    unfold sweepQuarantined
    refine Sat.next rfl (Sat.next rfl ?_)
    rw [show m.ticked.quarantinedBackends = m.quarantinedBackends from rfl, hgone]
    exact ⟨rfl, rfl, rfl, hkept, rfl, rfl, Nat.le_succ _⟩
  · refine Sat.next rfl (Sat.step (P := fun _ => Touches TerminalStream.unpaced m) ?_ fun _ m₂ h₂ => ?_)
    · refine Sat.forEach h₁ fun key _ w hw => ?_
      exact (sweepStream_confirmed L key (h.touches hw.lasting_of_unpaced) (hf.touches hw) (hc.touches hw)).imp
        (fun _ h => hw.trans h) (fun _ _ h => hw.trans h) fun _ _ h => hw.trans h
    · have hrecords : Touches TerminalStream.unpaced m₂ (m₂.sweepRecords t) := by
        have hi := h.touches h₂.lasting_of_unpaced
        refine ⟨rfl, ?_, ?_, rfl, rfl, rfl, le_rfl⟩
        · exact List.filter_eq_self.mpr fun r hr => by simpa [or_comm] using hi.openRecords r hr
        · exact List.filter_eq_self.mpr fun r hr => by simpa using hi.closeRecords r hr
      refine Sat.next rfl (Sat.next rfl (Sat.step (P := fun _ => Touches TerminalStream.unpaced m) ?_ fun _ m₃ h₃ => ?_))
      · refine Sat.forEach (h₂.trans hrecords) fun key _ w hw => ?_
        unfold forgetStream
        refine Sat.next rfl ?_
        have hno : (w.stream key).any (w.forgettable t) = false := by
          cases hs : w.stream key with
          | none => rfl
          | some s => exact ((h.touches hw.lasting_of_unpaced).streams s (mem_of_stream hs)).2
        rw [hno]
        exact hw
      · exact Sat.of_along (R := Touches TerminalStream.unpaced) (fun _ h => h₃.trans h) (fun _ _ h => h₃.trans h)
          fun _ _ h => h₃.trans h

/-! ## The leases after a sweep -/

/-- No time that comes up from here on is before `t`. -/
def Clocked (t : Nat) (m : Manager) : Prop := ∀ i, m.tick ≤ i → t ≤ (m.answers i).time

theorem Clocked.touches {α : Type} {g : TerminalStream → α} (h : Clocked t m) (ht : Touches g m m') : Clocked t m' :=
  fun i hi => by
    rw [ht.answers]
    exact h i (ht.tick.trans hi)

/-- The lease of the stream, if it has one, is before its half-life. -/
def Held (t : Nat) (key : StreamKey) (m : Manager) : Prop :=
  ∀ s, m.stream key = some s → s.control.producerLease.isSome → t < s.control.renewLeaseAfter

/-- A later state, in which the lease is before its half-life if it was. -/
def Upholds (t : Nat) (key : StreamKey) (m m' : Manager) : Prop :=
  (Clocked t m → Clocked t m') ∧ (Held t key m → Held t key m')

section
variable {γ : Type}

instance (t : Nat) (key : StreamKey) : Std.Refl (Upholds t key) := ⟨fun _ => ⟨id, id⟩⟩
instance (t : Nat) (key : StreamKey) : IsTrans Manager (Upholds t key) := ⟨fun _ _ _ h h' => ⟨h'.1 ∘ h.1, h'.2 ∘ h.2⟩⟩

theorem updateControl_upholds {f : Control → Control} (t : Nat) (key : StreamKey)
    (hf : ∀ c, (f c).producerLease = c.producerLease ∧ (f c).renewLeaseAfter = c.renewLeaseAfter) :
    Along (Upholds t key) (updateControl key f) := .modify fun m => by
  refine ⟨id, fun h s hs hl => ?_⟩
  obtain ⟨s₀, hs₀, rfl⟩ := of_stream_update hs fun _ => rfl
  rw [(hf s₀.control).1] at hl
  rw [(hf s₀.control).2]
  exact h s₀ hs₀ hl

instance clearControlWindows_upholds (t : Nat) (key : StreamKey) : Along (Upholds t key) (clearControlWindows key) :=
  updateControl_upholds t key fun _ => ⟨rfl, rfl⟩

instance setInDoubt_upholds (t : Nat) (key : StreamKey) (e : StructuredError) : Along (Upholds t key) (setInDoubt key e) :=
  updateControl_upholds t key fun _ => ⟨rfl, rfl⟩

instance setRetiringLease_upholds (t : Nat) (key : StreamKey) (lease : Option Lease) :
    Along (Upholds t key) (setRetiringLease key lease) := updateControl_upholds t key fun _ => ⟨rfl, rfl⟩

instance settleRelease_upholds (t : Nat) (key : StreamKey) (lease : Lease) (a : Answer) :
    Along (Upholds t key) (settleRelease key lease a) := by
  unfold settleRelease
  split
  · infer_instance
  · split <;> infer_instance

instance clearAfterRelease_upholds (t : Nat) (key : StreamKey) (result : ReleaseResult) :
    Along (Upholds t key) (clearAfterRelease key result) := by
  unfold clearAfterRelease
  refine Along.seq inferInstance fun _ => ?_
  split <;> infer_instance

/-- **`x` ends, if with a value, with a lease before its half-life.** -/
def Lasts (t : Nat) (key : StreamKey) (x : Act γ) (m : Manager) : Prop :=
  Sat (fun _ => True) x m (fun _ w => Clocked t w ∧ Held t key w) fun _ _ => True

theorem Lasts.of_upholds {x : Act γ} [Along (Upholds t key) x] (hc : Clocked t m) (hh : Held t key m) : Lasts t key x m :=
  Sat.of_along (R := Upholds t key) (fun _ _ => trivial) (fun _ _ h => ⟨h.1 hc, h.2 hh⟩) fun _ _ _ => trivial

theorem Lasts.seq {β : Type} {x : Act γ} {f : γ → Act β} (h : Lasts t key x m)
    (hf : ∀ a w, Clocked t w → Held t key w → Lasts t key (f a) w) : Lasts t key (x >>= f) m :=
  Sat.step h fun a w hw => hf a w hw.1 hw.2

theorem sat_ask {f : Answer → Act γ} {Q : γ → Manager → Prop} {E : Fault → Manager → Prop}
    (hf : Sat (fun _ => True) (f (m.answers m.tick)) m.ticked Q E) : Sat (fun _ => True) (ask >>= f) m Q E := by
  by_cases hcut : (m.answers m.tick).cut = true
  · have hrun : ask m = (.crash, m.ticked) := by simp [ask, hcut, Manager.ticked]
    simp only [Sat, Bind.bind, hrun]
  · have hrun : ask m = (.ok (m.answers m.tick), m.ticked) := by simp [ask, hcut, Manager.ticked]
    exact Sat.next hrun hf

theorem Lasts.ask {f : Answer → Act γ} (hc : Clocked t m)
    (hf : ∀ w, Clocked t w → w.streams = m.streams → Lasts t key (f (m.answers m.tick)) w) :
    Lasts t key (Stream.ask >>= f) m := sat_ask (hf _ (hc.touches (touches_tick (fun s => s) m)) rfl)

theorem Held.of_streams (h : Held t key m) (hs : m'.streams = m.streams) : Held t key m' := by
  unfold Held Manager.stream at *
  rw [hs]
  exact h

theorem releaseProducerLease_lasts (hc : Clocked t m) : Lasts t key (releaseProducerLease key) m := by
  unfold releaseProducerLease
  have hdrop : dropProducerLease key m = (.ok (), m.update key fun s => { s with
      control := { s.control with producerLease := none, renewLeaseAfter := 0 } }) := rfl
  refine Sat.next rfl (Sat.next hdrop ?_)
  have hheld : Held t key (m.update key fun s => { s with
      control := { s.control with producerLease := none, renewLeaseAfter := 0 } }) := by
    intro s hs hl
    obtain ⟨s₀, _, rfl⟩ := of_stream_update hs fun _ => rfl
    cases hl
  have hclock : Clocked t (m.update key fun s => { s with
      control := { s.control with producerLease := none, renewLeaseAfter := 0 } }) := hc
  split
  · exact ⟨hclock, hheld⟩
  · split
    · exact Lasts.ask hclock fun w hw hs => .of_upholds hw (hheld.of_streams hs)
    · split <;> exact ⟨hclock, hheld⟩

theorem setProducerLease_lasts (hc : Clocked t m) (lease : Lease) : Lasts t key (setProducerLease key lease) m := by
  unfold setProducerLease
  have hc₁ : Clocked t m.ticked := hc.touches (touches_tick (fun s => s) m)
  refine Sat.next rfl ⟨hc₁, ?_⟩
  intro s hs _
  obtain ⟨s₀, _, rfl⟩ := of_stream_update hs fun _ => rfl
  have hle := hc m.tick le_rfl
  show t < (m.answers m.tick).time + max 1 ((lease.expiresAt - (m.answers m.tick).time) / 2)
  omega

theorem takeLease_lasts (hc : Clocked t m) (hh : Held t key m) (expiresAt : Nat) : Lasts t key (takeLease key expiresAt) m := by
  unfold takeLease
  refine Sat.next rfl ?_
  have hc₁ : Clocked t m.ticked := hc.touches (touches_tick (fun s => s) m)
  have hh₁ : Held t key m.ticked := hh
  split
  · exact Lasts.seq (.of_upholds hc₁ hh₁) fun _ _ hc hh => ⟨hc, hh⟩
  · exact Lasts.seq (setProducerLease_lasts hc₁ _) fun _ _ hc hh => ⟨hc, hh⟩

theorem acquireProducerLease_lasts (hc : Clocked t m) (hh : Held t key m) : Lasts t key (acquireProducerLease key) m := by
  unfold acquireProducerLease
  refine Lasts.ask hc fun w hw hs => ?_
  have hheld : Held t key w := hh.of_streams hs
  split
  · exact takeLease_lasts hw hheld _
  · exact ⟨hw, hheld⟩
  · exact Lasts.seq (.of_upholds hw hheld) fun _ _ hc hh => ⟨hc, hh⟩

theorem settleProducerLeaseFailure_lasts (hc : Clocked t m) (failure : LeaseResult) :
    Lasts t key (settleProducerLeaseFailure key failure) m := by
  unfold settleProducerLeaseFailure
  refine Lasts.seq (releaseProducerLease_lasts hc) fun result w hc hh => ?_
  refine Lasts.seq (.of_upholds hc hh) fun _ w' hc hh => ?_
  split <;> exact ⟨hc, hh⟩

theorem failedLeaseCall_lasts (hc : Clocked t m) (a : Answer) : Lasts t key (failedLeaseCall key a) m := by
  unfold failedLeaseCall
  split
  · refine Lasts.seq (releaseProducerLease_lasts hc) fun result w hc hh => ?_
    refine Lasts.seq (.of_upholds hc hh) fun _ w' hc hh => ?_
    exact trivial
  · exact settleProducerLeaseFailure_lasts hc _

theorem renewProducerLease_lasts (hc : Clocked t m) : Lasts t key (renewProducerLease key) m := by
  unfold renewProducerLease
  refine Lasts.ask hc fun w hw _ => ?_
  split
  · split
    · exact Lasts.seq (setProducerLease_lasts hw _) fun _ _ hc hh => ⟨hc, hh⟩
    · exact settleProducerLeaseFailure_lasts hw _
    · exact settleProducerLeaseFailure_lasts hw _
  · exact failedLeaseCall_lasts hw _

theorem keepProducerLease_lasts (hc : Clocked t m) (hs : m.stream key = some s) (lease : Lease) :
    Lasts t key (keepProducerLease key s.control lease) m := by
  unfold keepProducerLease
  refine Lasts.ask hc fun w hw hstreams => ?_
  have hs' : w.stream key = some s := by
    unfold Manager.stream at *
    rw [hstreams]
    exact hs
  split
  · split
    · refine Sat.next rfl ?_
      have hw₁ : Clocked t w.ticked := hw.touches (touches_tick (fun s => s) w)
      split
      · next hlt =>
        refine ⟨hw₁, fun x hx _ => ?_⟩
        have hx' : w.stream key = some x := hx
        obtain rfl := Option.some.inj (hs'.symm.trans hx')
        exact Nat.lt_of_le_of_lt (hw w.tick le_rfl) hlt
      · exact renewProducerLease_lasts hw₁
    · exact settleProducerLeaseFailure_lasts hw _
  · exact failedLeaseCall_lasts hw _

theorem replaceExpiredLease_lasts (hc : Clocked t m) : Lasts t key (replaceExpiredLease key) m := by
  unfold replaceExpiredLease
  refine Lasts.seq (releaseProducerLease_lasts hc) fun result w hc hh => ?_
  refine Lasts.seq (.of_upholds hc hh) fun _ w' hc hh => ?_
  split
  · exact ⟨hc, hh⟩
  · exact acquireProducerLease_lasts hc hh

theorem ensureProducerLease_lasts (hc : Clocked t m) : Lasts t key (ensureProducerLease key) m := by
  unfold ensureProducerLease
  refine Sat.next rfl ?_
  split
  · next hnone =>
    refine acquireProducerLease_lasts hc fun s hs hl => ?_
    rw [hs, Option.bind_some, Option.map_eq_none_iff] at hnone
    rw [hnone] at hl
    cases hl
  · next c lease hsome =>
    obtain ⟨s, hs, hmap⟩ := Option.bind_eq_some_iff.mp hsome
    obtain ⟨lease', _, heq⟩ := Option.map_eq_some_iff.mp hmap
    obtain ⟨rfl, rfl⟩ := Prod.mk.inj heq
    refine Sat.next rfl ?_
    have hc₁ : Clocked t m.ticked := hc.touches (touches_tick (fun s => s) m)
    split
    · exact replaceExpiredLease_lasts hc₁
    · exact keepProducerLease_lasts hc₁ (show m.ticked.stream key = some s from hs) _

/-- **A sweep leaves the lease of a live stream before its half-life, or gone.** -/
theorem maintainLease_lasts (hc : Clocked t m) (lease : Lease) : Lasts t key (maintainLease key lease t) m := by
  unfold maintainLease
  split
  · refine Lasts.seq (releaseProducerLease_lasts hc) fun result w hc hh => ?_
    exact Lasts.seq (.of_upholds hc hh) fun _ _ hc hh => ⟨hc, hh⟩
  · refine Lasts.seq (ensureProducerLease_lasts hc) fun result w hc hh => ?_
    split
    · exact ⟨hc, hh⟩
    · refine Lasts.seq (.of_upholds hc hh) fun _ w' hc hh => ?_
      split
      · exact trivial
      · exact ⟨hc, hh⟩
    · refine Lasts.seq (.of_upholds hc hh) fun _ w' hc hh => ?_
      split
      · exact trivial
      · exact ⟨hc, hh⟩

end

/-! ## The streams after a sweep -/

/-- All streams but the one at `key`, and all keys. -/
def TerminalStream.elsewhere (key : StreamKey) (s : TerminalStream) : StreamKey × Option TerminalStream :=
  (s.key, if s.key = key then none else some s)

theorem Touches.elsewhere (h : Touches (TerminalStream.ungoverned key) m m') : Touches (TerminalStream.elsewhere key) m m' :=
  h.coarser fun s _ s' _ heq => by
    have hkey : s'.key = s.key := by rw [← (ungoverned_rest key s').1, heq, (ungoverned_rest key s).1]
    unfold TerminalStream.elsewhere
    rw [hkey]
    split
    · rfl
    · next hne =>
      rw [← (ungoverned_rest key s').2.2 (hkey ▸ hne), heq, (ungoverned_rest key s).2.2 hne]

theorem elsewhere_key {s s' : TerminalStream} (h : s'.elsewhere key = s.elsewhere key) : s'.key = s.key :=
  congrArg Prod.fst h

/-- Neither the stream's lease nor its time has run out. -/
def TerminalStream.Calm (t : Nat) (s : TerminalStream) : Prop := ¬ s.Lapses t ∧ ¬ s.Expires t

/-- **`x` ends, if with a value, with the stream at `key` calm, and touches no other.** -/
def Settles (t : Nat) (key : StreamKey) (x : Act Unit) (m : Manager) : Prop :=
  Sat (fun _ => True) x m (fun _ w => Touches (TerminalStream.elsewhere key) m w ∧ ∀ s, w.stream key = some s → s.Calm t)
    fun _ _ => True

theorem Touches.status (h : Touches (TerminalStream.ungoverned key) m m') {st : Status}
    (hst : ∀ s, m.stream key = some s → s.status = st) (keys : (m.streams.map TerminalStream.key).Nodup) :
    ∀ s, m'.stream key = some s → s.status = st := by
  intro s' hs'
  obtain ⟨s, hs, heq⟩ := h.mem (mem_of_stream hs')
  have hkey : s'.key = s.key := by rw [← (ungoverned_rest key s').1, heq, (ungoverned_rest key s).1]
  rw [← (ungoverned_rest key s').2.1, heq, (ungoverned_rest key s).2.1]
  exact hst s (by rw [← key_of_stream hs', hkey]; exact stream_of_mem keys hs)

/-- The keys are different, and the stream at `key` is lost. -/
def Lost (key : StreamKey) (m : Manager) : Prop :=
  (m.streams.map TerminalStream.key).Nodup ∧ ∀ s, m.stream key = some s → s.status = .lost

theorem Lost.update (h : Lost key m) {f : TerminalStream → TerminalStream}
    (hf : ∀ s, (f s).key = s.key ∧ (f s).status = s.status) : Lost key (m.update key f) := by
  refine ⟨?_, fun s hs => ?_⟩
  · rw [show (m.update key f).streams.map TerminalStream.key = m.streams.map TerminalStream.key from
      Keyed.keys_update fun s hk => (hf s).1.trans hk]
    exact h.1
  · obtain ⟨s₀, hs₀, rfl⟩ := of_stream_update hs fun s => (hf s).1
    rw [(hf s₀).2]
    exact h.2 s₀ hs₀

theorem touches_clearRing (key : StreamKey) (retained : Bool) (m : Manager) :
    Touches (TerminalStream.elsewhere key) m (m.clearRing key retained) := by
  unfold Manager.clearRing
  split
  · exact .refl _ m
  · next s _ =>
    have h : Touches (TerminalStream.elsewhere key) m
        (m.update key fun s => { s with ring := s.ring.clear.2, ringRetained := retained }) :=
      touches_update (fun s hk => by simp only [TerminalStream.elsewhere, hk, if_pos]) m
    exact ⟨h.streams, rfl, rfl, rfl, rfl, rfl, le_rfl⟩

theorem Lost.clearRing (h : Lost key m) (retained : Bool) : Lost key (m.clearRing key retained) := by
  unfold Manager.clearRing
  split
  · exact h
  · exact h.update (f := fun s => { s with ring := s.ring.clear.2, ringRetained := retained }) fun _ => ⟨rfl, rfl⟩

theorem expireDetached_settles (L : Limits) (keys : (m.streams.map TerminalStream.key).Nodup) :
    Settles t key (expireDetached L key t) m := by
  -- a lost stream is calm
  have hend : ∀ w : Manager, Touches (TerminalStream.elsewhere key) m w → Lost key w →
      Touches (TerminalStream.elsewhere key) m w ∧ ∀ s, w.stream key = some s → s.Calm t := by
    intro w hw hl
    refine ⟨hw, fun s hs => ?_⟩
    have hst := hl.2 s hs
    refine ⟨fun h => ?_, fun h => ?_⟩
    · have hlive := hst.symm.trans h.1
      cases hlive
    · rcases h with h | h <;> (have hst' := hst.symm.trans h.1; cases hst')
  obtain ⟨m₁, hm₁⟩ : ∃ m₁, m₁ = m.update key fun s =>
    { s with status := .lost, retainedUntil := t + L.controlRetentionMs } := ⟨_, rfl⟩
  have htouch₁ : Touches (TerminalStream.elsewhere key) m m₁ := by
    rw [hm₁]
    exact touches_update (fun s hk => by simp only [TerminalStream.elsewhere, hk, if_pos]) m
  have hlost₁ : Lost key m₁ := by
    refine ⟨by rw [htouch₁.keys fun _ _ h => elsewhere_key h]; exact keys, fun s hs => ?_⟩
    rw [hm₁] at hs
    obtain ⟨s₀, _, rfl⟩ := of_stream_update hs fun _ => rfl
    rfl
  have hgovern : ∀ w w', Touches (TerminalStream.ungoverned key) w w' → Touches (TerminalStream.elsewhere key) m w →
      Lost key w → Touches (TerminalStream.elsewhere key) m w' ∧ Lost key w' := by
    intro w w' h hw hl
    refine ⟨hw.trans h.elsewhere, ?_, h.status hl.2 hl.1⟩
    rw [h.elsewhere.keys fun _ _ h => elsewhere_key h]
    exact hl.1
  unfold Settles expireDetached
  refine Sat.next_modify ?_
  rw [← hm₁]
  refine Sat.step (P := fun _ w => Touches (TerminalStream.elsewhere key) m w ∧ Lost key w) ?_ fun _ m₂ ⟨h₂, hl₂⟩ => ?_
  · exact Sat.of_along (R := Touches (TerminalStream.ungoverned key)) (fun _ _ => trivial)
      (fun _ w h => hgovern m₁ w h htouch₁ hlost₁) fun _ _ _ => trivial
  refine Sat.step (P := fun _ w => Touches (TerminalStream.elsewhere key) m w ∧ Lost key w) ?_ fun _ m₃ ⟨h₃, hl₃⟩ => ?_
  · exact Sat.of_along (R := Touches (TerminalStream.ungoverned key)) (fun _ _ => trivial)
      (fun _ w h => hgovern m₂ w h h₂ hl₂) fun _ _ _ => trivial
  refine Sat.step (P := fun _ w => Touches (TerminalStream.elsewhere key) m w ∧ Lost key w) ?_ fun _ m₄ ⟨h₄, hl₄⟩ => ?_
  · unfold removeRing checkRingBytes
    refine Sat.next rfl (Sat.next rfl ?_)
    split
    · exact trivial
    · exact ⟨h₃.trans (touches_clearRing key false m₃), hl₃.clearRing false⟩
  · unfold disposeBackend
    refine Sat.next rfl ?_
    split
    · refine Sat.next rfl ?_
      have hl₅ : Lost key (m₄.update key fun s => { s with backend := false, backendPaused := false }) :=
        hl₄.update fun _ => ⟨rfl, rfl⟩
      have h₅ : Touches (TerminalStream.elsewhere key) m
          (m₄.update key fun s => { s with backend := false, backendPaused := false }) :=
        h₄.trans (touches_update (fun s hk => by simp only [TerminalStream.elsewhere, hk, if_pos]) m₄)
      exact sat_ask (hend _ (h₅.trans (touches_tick _ _)) hl₅)
    · exact hend m₄ h₄ hl₄

theorem removeRing_settles (keys : (m.streams.map TerminalStream.key).Nodup) (hs : m.stream key = some s)
    (hst : s.status = .closed) : Settles t key (removeRing key false) m := by
  unfold Settles removeRing checkRingBytes
  refine Sat.next rfl (Sat.next rfl ?_)
  split
  · exact trivial
  · refine ⟨touches_clearRing key false m, fun s' hs' => ?_⟩
    have hself : (m.clearRing key false).stream key =
        some { s with ring := s.ring.clear.2, ringRetained := false } := by
      unfold Manager.clearRing
      rw [hs]
      exact stream_updated hs fun _ => rfl
    obtain rfl := Option.some.inj (hself.symm.trans hs')
    refine ⟨fun h => ?_, fun h => ?_⟩
    · have hlive := hst.symm.trans h.1
      cases hlive
    · rcases h with h | h
      · have hdetached := hst.symm.trans h.1
        cases hdetached
      · exact absurd h.2.2 (by simp)

/-- **The second part of a visit retires what has run out.** -/
theorem expireStream_settles (L : Limits) (keys : (m.streams.map TerminalStream.key).Nodup)
    (hlease : ∀ s, m.stream key = some s → ¬ s.Lapses t) : Settles t key (expireStream L key t) m := by
  unfold expireStream
  refine Sat.next rfl ?_
  split
  · next hnone => exact ⟨.refl _ m, fun s hs => by rw [hnone] at hs; cases hs⟩
  · next s hs =>
    split
    · exact expireDetached_settles L keys
    · next hdetached =>
      split
      · next hring => exact removeRing_settles keys hs hring.1
      · next hring =>
        refine ⟨.refl _ m, fun s' hs' => ?_⟩
        obtain rfl := Option.some.inj (hs.symm.trans hs')
        exact ⟨hlease s hs, fun h => h.elim hdetached hring⟩

/-- **A visit leaves its stream calm.** -/
theorem sweepStream_settles (L : Limits) (key : StreamKey) (keys : (m.streams.map TerminalStream.key).Nodup)
    (hc : Clocked t m) : Settles t key (sweepStream L true t key) m := by
  unfold sweepStream
  refine Sat.next rfl ?_
  split
  · next hnone =>
    refine expireStream_settles L keys fun s hs hl => ?_
    rw [hs, Option.bind_some, if_pos rfl] at hnone
    unfold TerminalStream.maintained at hnone
    rw [if_pos hl.1] at hnone
    have hsome := hl.2.1
    rw [hnone] at hsome
    cases hsome
  · next lease hlease =>
    obtain ⟨s, hs, hmaintained⟩ := Option.bind_eq_some_iff.mp hlease
    have hlive : s.status = .live := by
      rw [if_pos rfl] at hmaintained
      unfold TerminalStream.maintained at hmaintained
      split at hmaintained
      · assumption
      · cases hmaintained
    refine Sat.step (P := fun _ w => Touches (TerminalStream.ungoverned key) m w ∧ Held t key w) ?_ fun go m' hm => ?_
    · have h₁ : Sat (fun _ => True) (maintainLease key lease t) m (fun _ => Touches (TerminalStream.ungoverned key) m)
          fun _ _ => True :=
        Sat.of_along (R := Touches (TerminalStream.ungoverned key)) (fun _ _ => trivial) (fun _ _ h => h) fun _ _ _ => trivial
      exact (h₁.and (maintainLease_lasts hc lease)).imp (fun _ _ => trivial) (fun _ _ h => ⟨h.1, h.2.2⟩) fun _ _ _ => trivial
    · obtain ⟨ht, hh⟩ := hm
      have keys' : (m'.streams.map TerminalStream.key).Nodup := by
        rw [ht.elsewhere.keys fun _ _ h => elsewhere_key h]
        exact keys
      have hlease' : ∀ s, m'.stream key = some s → ¬ s.Lapses t := fun s hs hl =>
        absurd (hh s hs hl.2.1) (Nat.not_lt.mpr hl.2.2)
      split
      · exact (expireStream_settles L keys' hlease').imp (fun _ _ => trivial) (fun _ _ h => ⟨ht.elsewhere.trans h.1, h.2⟩)
          fun _ _ _ => trivial
      · refine ⟨ht.elsewhere, fun s' hs' => ⟨hlease' s' hs', fun he => ?_⟩⟩
        have hst : s'.status = .live := ht.status
          (fun x hx => by obtain rfl := Option.some.inj (hs.symm.trans hx); exact hlive) keys s' hs'
        rcases he with h | h <;> (have hst' := hst.symm.trans h.1; cases hst')

/-- **The walk of a sweep leaves all streams calm.** -/
theorem sweepStreams_settle (L : Limits) (l : List StreamKey) (keys : (m.streams.map TerminalStream.key).Nodup)
    (hc : Clocked t m) (hrest : ∀ s ∈ m.streams, s.key ∉ l → s.Calm t) :
    Sat (fun _ => True) (Eff.forEach (sweepStream L true t) l) m
      (fun _ w => Touches TerminalStream.key m w ∧ ∀ s ∈ w.streams, s.Calm t) fun _ _ => True := by
  induction l generalizing m with
  | nil => exact ⟨.refl _ m, fun s hs => hrest s hs List.not_mem_nil⟩
  | cons key l ih =>
    refine Sat.step (sweepStream_settles L key keys hc) fun _ w ⟨hw, hcalm⟩ => ?_
    have hkey : Touches TerminalStream.key m w := hw.coarser fun _ _ _ _ h => elsewhere_key h
    have keys' : (w.streams.map TerminalStream.key).Nodup := by
      rw [hkey.streams]
      exact keys
    refine (ih keys' (hc.touches hw) fun s hs hl => ?_).imp (fun _ _ => trivial) (fun _ _ h => ⟨hkey.trans h.1, h.2⟩)
      fun _ _ _ => trivial
    by_cases hk : s.key = key
    · exact hcalm s (hk ▸ stream_of_mem keys' hs)
    · obtain ⟨s₀, hs₀, heq⟩ := hw.mem hs
      have hkey₀ := elsewhere_key heq
      have hsame : s = s₀ := by
        have h2 := congrArg Prod.snd heq
        simp only [TerminalStream.elsewhere, if_neg hk, if_neg (hkey₀ ▸ hk)] at h2
        exact Option.some.inj h2
      rw [hsame]
      exact hrest s₀ hs₀ (by rw [← hsame]; exact fun h => (List.mem_cons.mp h).elim hk hl)

/-! ## The streams that are forgotten -/

/-- **Streams may have gone, none of them one that produces.** -/
structure Pruned (m m' : Manager) : Prop where
  streams : ∀ s ∈ m'.streams, s ∈ m.streams
  producing : ∀ s ∈ m.streams, s.producing = true → s ∈ m'.streams
  keys : (m'.streams.map TerminalStream.key).Nodup
  openRecords : m'.openRecords = m.openRecords
  closeRecords : m'.closeRecords = m.closeRecords
  quarantined : m'.quarantinedBackends = m.quarantinedBackends

theorem Pruned.refl (keys : (m.streams.map TerminalStream.key).Nodup) : Pruned m m :=
  ⟨fun _ h => h, fun _ h _ => h, keys, rfl, rfl, rfl⟩

theorem Pruned.trans (h : Pruned m m') (h' : Pruned m' m'') : Pruned m m'' :=
  ⟨fun s hs => h.streams s (h'.streams s hs), fun s hs hp => h'.producing s (h.producing s hs hp) hp, h'.keys,
    h'.openRecords.trans h.openRecords, h'.closeRecords.trans h.closeRecords, h'.quarantined.trans h.quarantined⟩

theorem Pruned.forgettable (h : Pruned m m') (s : TerminalStream) : m'.forgettable t s = m.forgettable t s := by
  unfold Manager.forgettable
  rw [h.openRecords, h.closeRecords]

theorem Pruned.holds (h : Pruned m m') {r : OpenRecord} (hr : m.holdsOpenRecord r = true) : m'.holdsOpenRecord r = true := by
  unfold Manager.holdsOpenRecord at *
  split at hr
  · next generation _ _ _ =>
    obtain ⟨s, hs, hp⟩ := (Option.any_eq_true _ _).mp hr
    rw [Bool.and_eq_true] at hp
    have hmem := h.producing s (mem_of_stream hs) hp.1
    have hof : m'.stream r.streamKey = some s := by
      rw [← key_of_stream hs]
      exact stream_of_mem h.keys hmem
    rw [hof, Option.any_some, Bool.and_eq_true]
    exact hp
  · cases hr

theorem pruned_delete (keys : (m.streams.map TerminalStream.key).Nodup) (hs : m.stream key = some s)
    (hno : s.producing = false) : Pruned m ((m.ticked.clearRing key false).delete key) := by
  have htouch := touches_clearRing key false m.ticked
  have hmem : ∀ x, x ∈ ((m.ticked.clearRing key false).delete key).streams ↔ x ∈ m.streams ∧ x.key ≠ key := by
    intro x
    refine Keyed.mem_erase_iff.trans ⟨fun ⟨hx, hk⟩ => ⟨?_, hk⟩, fun ⟨hx, hk⟩ => ⟨?_, hk⟩⟩
    · obtain ⟨x₀, hx₀, heq⟩ := htouch.mem hx
      have h2 := congrArg Prod.snd heq
      simp only [TerminalStream.elsewhere, if_neg hk, if_neg (elsewhere_key heq ▸ hk)] at h2
      rw [Option.some.inj h2]
      exact hx₀
    · have hin : x.elsewhere key ∈ (m.ticked.clearRing key false).streams.map (TerminalStream.elsewhere key) := by
        rw [htouch.streams]
        exact List.mem_map_of_mem hx
      obtain ⟨x₀, hx₀, heq⟩ := List.mem_map.mp hin
      have h2 := congrArg Prod.snd heq
      simp only [TerminalStream.elsewhere, if_neg hk, if_neg (elsewhere_key heq ▸ hk)] at h2
      rw [← Option.some.inj h2]
      exact hx₀
  refine ⟨fun x hx => ((hmem x).mp hx).1, fun x hx hp => (hmem x).mpr ⟨hx, fun hk => ?_⟩, ?_, htouch.openRecords,
    htouch.closeRecords, htouch.quarantined⟩
  · have hof : m.stream key = some x := hk ▸ stream_of_mem keys hx
    obtain rfl := Option.some.inj (hs.symm.trans hof)
    rw [hno] at hp
    cases hp
  · refine Keyed.keys_erase ?_
    rw [htouch.keys fun _ _ h => elsewhere_key h]
    exact keys

theorem producing_of_forgettable (h : m.forgettable t s = true) : s.producing = false := by
  have hst := (forgettable_iff.mp h).1.1
  unfold TerminalStream.producing
  rcases hst with hst | hst <;> rw [hst] <;> rfl

theorem forgetStream_prunes (key : StreamKey) (keys : (m.streams.map TerminalStream.key).Nodup) :
    Sat (fun _ => True) (forgetStream t key) m
      (fun _ w => Pruned m w ∧ ∀ s ∈ w.streams, s.key = key → m.forgettable t s = false) fun _ _ => True := by
  unfold forgetStream
  refine Sat.next rfl ?_
  split
  · next hany =>
    obtain ⟨s, hs, hf⟩ := (Option.any_eq_true _ _).mp hany
    have hpruned := pruned_delete keys hs (producing_of_forgettable hf)
    unfold await
    rw [bind_assoc]
    refine sat_ask ?_
    split
    · unfold removeRing checkRingBytes deleteStream
      rw [bind_assoc]
      refine Sat.next rfl (Sat.next rfl ?_)
      refine Sat.step (P := fun _ w => w = m.ticked.clearRing key false) ?_ fun _ w hw => ?_
      · refine Sat.next rfl ?_
        split
        · exact trivial
        · rfl
      · subst hw
        refine ⟨hpruned, fun x hx hk => ?_⟩
        exact absurd hk (Keyed.mem_erase_iff.mp hx).2
    · exact trivial
  · next hany =>
    refine ⟨.refl keys, fun x hx hk => ?_⟩
    have hof : m.stream key = some x := hk ▸ stream_of_mem keys hx
    rw [hof, Option.any_some, Bool.not_eq_true] at hany
    exact hany

/-- **The last walk of a sweep forgets what may be forgotten.** -/
theorem forgetStreams_prune (l : List StreamKey) (keys : (m.streams.map TerminalStream.key).Nodup)
    (hrest : ∀ s ∈ m.streams, s.key ∉ l → m.forgettable t s = false) :
    Sat (fun _ => True) (Eff.forEach (forgetStream t) l) m
      (fun _ w => Pruned m w ∧ ∀ s ∈ w.streams, m.forgettable t s = false) fun _ _ => True := by
  induction l generalizing m with
  | nil => exact ⟨.refl keys, fun s hs => hrest s hs List.not_mem_nil⟩
  | cons key l ih =>
    refine Sat.step (forgetStream_prunes key keys) fun _ w ⟨hw, hgone⟩ => ?_
    refine (ih hw.keys fun s hs hl => ?_).imp (fun _ _ => trivial) (fun _ _ h => ⟨hw.trans h.1, fun s hs => ?_⟩)
      fun _ _ _ => trivial
    · rw [hw.forgettable]
      by_cases hk : s.key = key
      · exact hgone s hs hk
      · exact hrest s (hw.streams s hs) fun h => (List.mem_cons.mp h).elim hk hl
    · rw [← hw.forgettable]
      exact h.2 s hs

/-! ## After a sweep -/

/-- **After a sweep that went through nothing is due.** -/
theorem sweepInternal_settles (L : Limits) (keys : (m.streams.map TerminalStream.key).Nodup)
    (ht : (m.answers m.tick).time = t) (hc : Clocked t m) (hrun : sweepInternal L true m = (.ok (), m')) : ¬ m'.Due t := by
  suffices hsat : Sat (fun _ => True) (sweepInternal L true) m (fun _ w => ¬ Due t w) fun _ _ => True by
    unfold Sat at hsat
    rw [hrun] at hsat
    rw [due_iff]
    exact hsat
  subst ht
  generalize htime : (m.answers m.tick).time = t at hc
  have hnow : now m = (.ok t, m.ticked) := by
    rw [← htime]
    rfl
  unfold sweepInternal
  -- the attachments in quarantine
  refine Sat.next hnow (Sat.step (P := fun _ w => w.streams = m.streams ∧ Clocked t w ∧ ∀ q ∈ w.quarantinedBackends, t < q) ?_
    fun _ m₁ ⟨hs₁, hc₁, hq₁⟩ => ?_)
  · unfold sweepQuarantined
    refine Sat.next rfl (Sat.next_modify ?_)
    refine Sat.forEach (I := fun w => w.streams = m.streams ∧ Clocked t w ∧ ∀ q ∈ w.quarantinedBackends, t < q)
      ?_ fun _ _ w hw => ?_
    · have hc' : Clocked t m.ticked := hc.touches (touches_tick (fun s => s) m)
      refine ⟨rfl, hc', fun q hq => ?_⟩
      simpa using (List.mem_filter.mp hq).2
    · exact sat_ask ⟨hw.1, hw.2.1.touches (touches_tick (fun s => s) w), hw.2.2⟩
  -- the streams
  have keys₁ : (m₁.streams.map TerminalStream.key).Nodup := by rw [hs₁]; exact keys
  refine Sat.next rfl (Sat.step (sweepStreams_settle L _ keys₁ hc₁ fun s hs hl => absurd (List.mem_map_of_mem hs) hl)
    fun _ m₂ ⟨h₂, hcalm₂⟩ => ?_)
  have keys₂ : (m₂.streams.map TerminalStream.key).Nodup := by rw [h₂.streams]; exact keys₁
  -- the records
  refine Sat.next_modify (Sat.next rfl ?_)
  have hopen : ∀ r ∈ (m₂.sweepRecords t).openRecords, (m₂.sweepRecords t).holdsOpenRecord r = true ∨ t < r.expiresAt := by
    intro r hr
    have hkept := (List.mem_filter.mp hr).2
    rw [Bool.or_eq_true, decide_eq_true_eq] at hkept
    exact hkept.symm
  have hclose : ∀ r ∈ (m₂.sweepRecords t).closeRecords, t < r.expiresAt := fun r hr => by
    simpa using (List.mem_filter.mp hr).2
  refine Sat.step (forgetStreams_prune _ keys₂ fun s hs hl => absurd (List.mem_map_of_mem hs) hl) fun _ m₃ ⟨h₃, hforgot⟩ => ?_
  -- the pace of the backends
  refine Sat.of_along (R := Touches TerminalStream.unpaced) (fun _ _ => trivial) (fun _ m₄ h₄ => ?_) fun _ _ _ => trivial
  have hlast := h₄.lasting_of_unpaced
  rintro ⟨_, ⟨s, hs, hdue⟩ | ⟨s, hs, hdue⟩ | ⟨q, hq, hdue⟩ | ⟨r, hr, hh, hdue⟩ | ⟨r, hr, hdue⟩⟩
  · obtain ⟨s₀, hs₀, heq⟩ := h₄.mem hs
    obtain ⟨hl, he⟩ := hcalm₂ s₀ (h₃.streams s₀ hs₀)
    have hst : s.status = s₀.status := by have := congrArg TerminalStream.status heq; exact this
    have hctl : s.control = s₀.control := by have := congrArg TerminalStream.control heq; exact this
    rcases hdue with hdue | hdue
    · unfold TerminalStream.Lapses at hdue hl
      rw [hst, hctl] at hdue
      exact hl hdue
    · have hlasting : s.lasting = s₀.lasting := by rw [← lasting_unpaced s, heq, lasting_unpaced]
      exact he ((lasting_reads hlasting).2.2.2.2.mp hdue)
  · obtain ⟨s₀, hs₀, heq⟩ := hlast.mem hs
    obtain ⟨hkey, hst, hr, _, _⟩ := lasting_reads (t := t) heq
    have hno := hforgot s₀ hs₀
    rw [← h₃.forgettable] at hno
    unfold Manager.forgettable at hdue hno
    rw [hst, hr, hkey, hlast.openRecords, hlast.closeRecords, hno] at hdue
    cases hdue
  · rw [hlast.quarantined, h₃.quarantined] at hq
    have hlt := hq₁ q (h₂.quarantined ▸ hq)
    omega
  · rw [hlast.holds h₃.keys] at hh
    rw [hlast.openRecords, h₃.openRecords] at hr
    rcases hopen r hr with hyes | hlt
    · rw [h₃.holds hyes] at hh
      cases hh
    · omega
  · rw [hlast.closeRecords, h₃.closeRecords] at hr
    have hlt := hclose r hr
    omega

/-- **How the timer and a sweep go together**, with the clock at `t`. -/
structure Mirrors (L : Limits) (t : Nat) (m : Manager) : Prop where
  /-- While nothing is due, a sweep takes nothing away that time takes away. -/
  spares : m.stopping = false → ¬ m.Due t → Touches TerminalStream.lasting m (sweepInternal L true m).2
  /-- Nor does it touch a lease, if the leases are not over and the authority confirms them. -/
  confirmed : m.stopping = false → ¬ m.Due t → Confirms t m →
    (∀ s ∈ m.streams, ∀ lease, s.maintained = some lease → t < lease.expiresAt) →
      Touches TerminalStream.unpaced m (sweepInternal L true m).2
  /-- After a sweep that went through all deadlines are later. -/
  settles : Clocked t m → ∀ m', sweepInternal L true m = (.ok (), m') → ∀ d, m'.deadline t = some d → t < d

/-- **The maintenance timer and the sweep agree.** -/
theorem maintenance_timer_mirrors_sweep (L : Limits) (m : Manager) (keys : (m.streams.map TerminalStream.key).Nodup) :
    Mirrors L (m.answers m.tick).time m where
  spares running hno := sweepInternal_idle L true rfl (idle_of_not_due keys running hno)
  confirmed running hno hc hun := by
    refine sweepInternal_confirmed L (idle_of_not_due keys running hno) (fun s hs => ⟨fun hl => ?_, hun s hs⟩) hc
    exact hno (due_iff.mpr ⟨running, .inl ⟨s, hs, .inl hl⟩⟩)
  settles hc m' hrun d hd := by
    by_contra hle
    exact sweepInternal_settles L keys rfl hc hrun ⟨d, hd, Nat.not_lt.mp hle⟩

/-- A live stream, bound to nobody, with a lease until 100 that is to be renewed from 50 on. -/
def leasedStream : TerminalStream where
  key := sampleKey
  target := 4
  pane := 6
  canonicalBinding := 0
  generation := 0
  resumeTokenHash := 0
  status := .live
  ring := .new 8
  ringRetained := true
  backend := true
  backendPaused := false
  pauseFailed := false
  control := { producerLease := some ⟨100⟩, renewLeaseAfter := 50 }
  binding := none
  detachedUntil := none
  retainedUntil := 0
  close := none
  pendingCloseResponses := []
  closeId := none
  reservedCloseRecord := true
  lastUsedAt := 0

/-- It is time 10, and the authority says of a lease whether it is held. -/
def leasedManager (held : Bool) : Manager :=
  { streams := [leasedStream], answers := fun _ => { time := 10, flag := held } }

theorem maintenance_timer_mirrors_sweep_leased : Mirrors narrowLimits 10 (leasedManager true) :=
  maintenance_timer_mirrors_sweep narrowLimits (leasedManager true) (by decide)

/-- **A sweep that finds a lease lost changes its stream, although nothing is due.** -/
theorem maintenance_timer_misses_lost_lease :
    ¬ ∀ (L : Limits) (m : Manager), (m.streams.map TerminalStream.key).Nodup → m.stopping = false →
      (sweepInternal L true m).2.streams ≠ m.streams → m.Due (m.answers m.tick).time := by
  intro hclaim
  have hchanged : (sweepInternal narrowLimits true (leasedManager false)).2.streams ≠ (leasedManager false).streams := by
    decide +kernel
  obtain ⟨d, hd, hle⟩ := hclaim narrowLimits (leasedManager false) (by decide) rfl hchanged
  obtain rfl := Option.some.inj ((show (leasedManager false).deadline 10 = some 50 from by decide).symm.trans hd)
  exact absurd hle (by decide)

end Stream
end TmuxWorktree
