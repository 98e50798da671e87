import TmuxWorktree.Stream.Fresh
/-!
# Walk — the programs of the manager make moves

Each program of the manager is walked once.  Most of them are walked by instance: the rules of `Along` follow the
program's text.  The ones that use something they read before an await carry it along by `Calm`.
-/
namespace TmuxWorktree
namespace Stream

open Effect

/-! ## Stretches of moves -/

def Change (C : Config) (m m' : Manager) : Prop := Move C m m' ∨ Loss m m'

def TerminalStream.Clear (s : TerminalStream) : Prop :=
  s.status = .lost → ∀ kind, (s.control.window kind).retained = [] ∧
    (s.control.window kind).floor = (s.control.window kind).acked

def ClearAt (key : StreamKey) (m : Manager) : Prop := ∀ s, m.stream key = some s → s.Clear

def Halts (m : Manager) : Prop := ∃ n < m.tick, (m.answers n).cut = true

structure Later (m m' : Manager) : Prop where
  answers : m'.answers = m.answers
  tick : m.tick ≤ m'.tick

/-- What a program that is not cut off keeps: the count of the rings, and the empty windows of lost streams. -/
structure Tidy (m m' : Manager) : Prop where
  later : Later m m'
  funded : Funded m → Funded m'
  clear : ∀ key, Funded m → ClearAt key m → ClearAt key m' ∨ Halts m'

/-- **Any number of changes**, after which every loss has been seen through. -/
structure Moves (C : Config) (m m' : Manager) : Prop where
  path : Relation.ReflTransGen (Change C) m m'
  tidy : Tidy m m'

def Calm (m m' : Manager) : Prop :=
  ∀ key, (m'.stream key).map TerminalStream.face = (m.stream key).map TerminalStream.face

def Still (C : Config) (m m' : Manager) : Prop := Moves C m m' ∧ Calm m m'

theorem Calm.rfl {m : Manager} : Calm m m := fun _ => Eq.refl _

theorem Calm.trans {m m' m'' : Manager} (h : Calm m m') (h' : Calm m' m'') : Calm m m'' :=
  fun key => (h' key).trans (h key)

theorem Calm.stream {m m' : Manager} {key : StreamKey} {s : TerminalStream} (h : Calm m m') (hs : m.stream key = some s) :
    ∃ s', m'.stream key = some s' ∧ s'.face = s.face := by
  have hk := h key
  rw [hs, Option.map_some, Option.map_eq_some_iff] at hk
  exact hk

theorem Later.rfl {m : Manager} : Later m m := ⟨Eq.refl _, le_rfl⟩

theorem Later.trans {m m' m'' : Manager} (h : Later m m') (h' : Later m' m'') : Later m m'' :=
  ⟨h'.answers.trans h.answers, h.tick.trans h'.tick⟩

theorem Later.halts {m m' : Manager} (h : Later m m') : Halts m → Halts m' := by
  rintro ⟨n, hn, hcut⟩
  exact ⟨n, hn.trans_le h.tick, by rw [h.answers]; exact hcut⟩

theorem Tidy.rfl {m : Manager} : Tidy m m := ⟨Later.rfl, id, fun _ _ h => .inl h⟩

theorem Tidy.trans {m m' m'' : Manager} (h : Tidy m m') (h' : Tidy m' m'') : Tidy m m'' := by
  refine ⟨h.later.trans h'.later, h'.funded ∘ h.funded, fun key hf hc => ?_⟩
  rcases h.clear key hf hc with hc' | hh
  · exact h'.clear key (h.funded hf) hc'
  · exact .inr (h'.later.halts hh)

variable {C : Config} {α : Type}

theorem Move.later {m m' : Manager} (h : Move C m m') : Later m m' := by
  cases h with
  | quiet hq => exact ⟨hq.answers, hq.tick⟩
  | clear => unfold Manager.clearRing; split <;> exact ⟨rfl, le_rfl⟩
  | acknowledge => unfold Manager.acknowledge; split <;> exact ⟨rfl, le_rfl⟩
  | write => unfold Manager.wrote; split <;> exact ⟨rfl, le_rfl⟩
  | issue | store | stream | say | abandon | output | bind | drop => exact ⟨rfl, le_rfl⟩

theorem ControlMove.clear {s s' : TerminalStream} (hst : s'.status = s.status) (hc : ControlMove s.control s'.control)
    (h : s.Clear) : s'.Clear := by
  intro hlost kind
  obtain ⟨hret, hfloor⟩ := h (hst ▸ hlost) kind
  obtain ⟨hacked, ⟨hret', hfloor'⟩ | ⟨hret', hfloor'⟩⟩ := hc kind
  · exact ⟨hret'.trans hret, by rw [hfloor', hacked]; exact hfloor⟩
  · exact ⟨hret', by rw [hfloor', hacked]⟩

theorem StreamMove.clear {s s' : TerminalStream} (h : StreamMove s s') (hc : s.Clear) : s'.Clear := by
  cases h with
  | stay _ status _ _ control => exact ControlMove.clear status control hc
  | rephase _ status _ _ control | unbind _ status _ _ control =>
    intro hlost
    rw [control]
    exact hc (status ▸ hlost)
  | detach _ _ status =>
    intro hlost
    rw [status] at hlost
    cases hlost
  | restore _ _ status =>
    intro hlost
    rw [status] at hlost
    split at hlost <;> cases hlost
  | commit _ _ _ status =>
    intro hlost
    rw [status] at hlost
    cases hlost

theorem ClearAt.update {m : Manager} {key key' : StreamKey} {f : TerminalStream → TerminalStream} (h : ClearAt key m)
    (hf : ∀ s, (f s).key = s.key) (hclear : ∀ s, m.stream key' = some s → s.Clear → (f s).Clear) :
    ClearAt key (m.update key' f) := by
  intro s hs
  rcases stream_update_cases hs hf with ⟨_, hs⟩ | ⟨rfl, s₀, hs₀, rfl⟩
  · exact h s hs
  · exact hclear s₀ hs₀ (h s₀ hs₀)

theorem Move.clearAt {m m' : Manager} (h : Move C m m') {key : StreamKey} (hc : ClearAt key m) : ClearAt key m' := by
  cases h with
  | quiet hq =>
    unfold ClearAt Manager.stream at *
    rw [hq.streams]
    exact hc
  | issue | store | say => exact hc
  | stream hf hmove => exact hc.update hf fun s hs => (hmove s hs).clear
  | @clear key' retained _ =>
    intro s hs
    rw [stream_clearRing] at hs
    rcases stream_update_cases hs fun _ => rfl with ⟨_, hs⟩ | ⟨rfl, s₀, hs₀, rfl⟩
    · exact hc s hs
    · exact hc s₀ hs₀
  | abandon | output | bind =>
    intro s hs
    rcases stream_update_cases hs fun _ => rfl with ⟨_, hs⟩ | ⟨rfl, s₀, hs₀, rfl⟩
    · exact hc s hs
    · exact hc s₀ hs₀
  | acknowledge =>
    intro s hs
    rw [stream_acknowledge] at hs
    rcases stream_update_cases hs fun _ => rfl with ⟨_, hs⟩ | ⟨rfl, s₀, hs₀, rfl⟩
    · exact hc s hs
    · exact hc s₀ hs₀
  | drop => exact fun s hs => hc s (stream_of_delete hs).2
  | @write kind f s verdict hs _ hlive _ =>
    intro s' hs' hlost
    obtain ⟨s₀, hs₀, c, rfl⟩ := stream_wrote hs'
    by_cases hk : key = f.key
    · subst hk
      cases hs.symm.trans hs₀
      exact absurd hlost hlive
    · have hsame : m.stream key = some { s₀ with control := c } := by
        unfold Manager.wrote at hs'
        cases verdict with
        | accepted =>
          rcases stream_update_cases hs' fun _ => rfl with ⟨_, hs'⟩ | ⟨hk', _⟩
          · exact hs'
          · exact absurd hk' hk
        | rejected e => exact hs'
        | uncertain e => exact hs'
      exact hc _ hsame hlost

theorem Move.tidy {m m' : Manager} (h : Move C m m') : Tidy m m' :=
  ⟨h.later, fun hf => hf.move h, fun _ _ hc => .inl (h.clearAt hc)⟩

namespace Moves

theorem refl {m : Manager} : Moves C m m := ⟨.refl, Tidy.rfl⟩

theorem single {m m' : Manager} (h : Move C m m') : Moves C m m' := ⟨.single (.inl h), h.tidy⟩

theorem trans {m m' m'' : Manager} (h : Moves C m m') (h' : Moves C m' m'') : Moves C m m'' :=
  ⟨h.path.trans h'.path, h.tidy.trans h'.tidy⟩

end Moves

instance (C : Config) : Std.Refl (Moves C) := ⟨fun _ => .refl⟩
instance (C : Config) : IsTrans Manager (Moves C) := ⟨fun _ _ _ => Moves.trans⟩
instance (C : Config) : Std.Refl (Still C) := ⟨fun _ => ⟨.refl, Calm.rfl⟩⟩
instance (C : Config) : IsTrans Manager (Still C) := ⟨fun _ _ _ h h' => ⟨h.1.trans h'.1, h.2.trans h'.2⟩⟩

instance still_moves {x : Act α} [h : Along (Still C) x] : Along (Moves C) x := h.mono fun _ _ h => h.1

theorem still_of_move {m m' : Manager} (h : Move C m m') (hc : Calm m m') : Still C m m' := ⟨.single h, hc⟩

theorem Quiet.calm {m m' : Manager} (h : Quiet m m') : Calm m m' := by
  intro key
  unfold Manager.stream
  rw [h.streams]

theorem Quiet.still {m m' : Manager} (h : Quiet m m') : Still C m m' := still_of_move (.quiet h) h.calm

theorem quiet_tick (m : Manager) : Quiet m { m with tick := m.tick + 1 } :=
  ⟨rfl, rfl, rfl, rfl, rfl, rfl, rfl, rfl, Nat.le_succ _, fun _ h => .inl h⟩

theorem calm_update {m : Manager} {key : StreamKey} {f : TerminalStream → TerminalStream}
    (hf : ∀ s, (f s).key = s.key) (hface : ∀ s, m.stream key = some s → (f s).face = s.face) : Calm m (m.update key f) := by
  intro key'
  by_cases h : key' = key
  · subst h
    rw [stream_update_self hf]
    cases hs : m.stream key' with
    | none => rfl
    | some s => simp [hface s hs]
  · rw [stream_update_ne hf h]

/-! ## The primitives -/

instance ask_still : Along (Still C) ask := ⟨fun m => by
  unfold ask
  dsimp only
  split <;> exact (quiet_tick m).still⟩

instance await_still : Along (Still C) await := by
  unfold await
  infer_instance

instance now_still : Along (Still C) now := ⟨fun m => (quiet_tick m).still⟩

instance streamAt_still (key : StreamKey) : Along (Still C) (streamAt key) := ⟨fun m => Std.Refl.refl m⟩

instance streamKeys_still : Along (Still C) streamKeys := ⟨fun m => Std.Refl.refl m⟩

instance fail_still (code : ErrorCode) (message : String) : Along (Still C) (fail code message : Act α) :=
  inferInstanceAs (Along (Still C) (throw _ : Act α))

theorem quiet_still {f : Manager → Manager} (h : ∀ m, Quiet m (f m)) : Along (Still C) (Eff.modify f : Act Unit) :=
  .modify fun m => (h m).still

theorem update_moves {key : StreamKey} {f : TerminalStream → TerminalStream} (hf : ∀ s, (f s).key = s.key)
    (h : ∀ s, StreamMove s (f s)) : Along (Moves C) (update key f) :=
  .modify fun _ => .single (.stream hf fun s _ => h s)

theorem control_face {s : TerminalStream} {c : Control} (h : ControlMove s.control c) :
    ({ s with control := c } : TerminalStream).face = s.face := by
  unfold TerminalStream.face
  congr 1
  funext kind
  exact (h kind).1

theorem update_still {key : StreamKey} {f : TerminalStream → TerminalStream} (hf : ∀ s, (f s).key = s.key)
    (h : ∀ s, (f s).face = s.face) (hc : ∀ s, (f s).control = s.control) : Along (Still C) (update key f) := by
  refine .modify fun m => still_of_move (.stream hf fun s _ => ?_) (calm_update hf fun s _ => h s)
  have hface := h s
  unfold TerminalStream.face at hface
  injection hface with hg hst hr hrr hcl hb _
  exact .stay ⟨hf s, hg, hr, hrr⟩ hst hcl hb (by rw [hc]; exact fun _ => ⟨rfl, .inl ⟨rfl, rfl⟩⟩)

theorem updateControl_still {key : StreamKey} {f : Control → Control} (h : ∀ c, ControlMove c (f c)) :
    Along (Still C) (updateControl key f) := by
  refine .modify fun m => still_of_move (.stream (fun _ => rfl) fun s _ => ?_) (calm_update (fun _ => rfl) fun s _ => ?_)
  · exact .stay ⟨rfl, rfl, rfl, rfl⟩ rfl rfl rfl (h s.control)
  · exact control_face (h s.control)

theorem sendFrame_still {e : Event} (h : ∀ m, Says m e) : Along (Still C) (sendFrame e) :=
  .seq await_still fun _ => .modify fun m => still_of_move (.say (h m)) fun _ => rfl

/-! ## The control plane -/

theorem controlMove_rfl (c : Control) : ControlMove c c := fun _ => ⟨rfl, .inl ⟨rfl, rfl⟩⟩

theorem clearWindows_move (c : Control) : ControlMove c c.clearWindows := by
  intro kind
  cases kind <;> exact ⟨rfl, .inr ⟨rfl, rfl⟩⟩

theorem setWindow_move {c : Control} {kind : Kind} {w : Window} (h : WindowMove (c.window kind) w) :
    ControlMove c (c.setWindow kind w) := by
  intro k
  cases kind <;> cases k
  · exact h
  · exact ⟨rfl, .inl ⟨rfl, rfl⟩⟩
  · exact ⟨rfl, .inl ⟨rfl, rfl⟩⟩
  · exact h

instance clearControlWindows_still (key : StreamKey) : Along (Still C) (clearControlWindows key) :=
  updateControl_still clearWindows_move

instance setInDoubt_still (key : StreamKey) (e : StructuredError) : Along (Still C) (setInDoubt key e) :=
  updateControl_still controlMove_rfl

instance dropProducerLease_still (key : StreamKey) : Along (Still C) (dropProducerLease key) :=
  updateControl_still controlMove_rfl

instance setRetiringLease_still (key : StreamKey) (lease : Option Lease) :
    Along (Still C) (setRetiringLease key lease) := updateControl_still controlMove_rfl

instance settleRetired_still (key : StreamKey) : Along (Still C) (settleRetired key) :=
  updateControl_still controlMove_rfl

instance settleRelease_still (key : StreamKey) (lease : Lease) (a : Answer) :
    Along (Still C) (settleRelease key lease a) := by
  unfold settleRelease
  split
  · infer_instance
  · split <;> infer_instance

instance releaseProducerLease_still (key : StreamKey) : Along (Still C) (releaseProducerLease key) := by
  refine .seq inferInstance fun s => .seq inferInstance fun _ => ?_
  cases s with
  | none => infer_instance
  | some s =>
    dsimp only
    split
    · infer_instance
    · split <;> infer_instance

instance clearAfterRelease_still (key : StreamKey) (result : ReleaseResult) :
    Along (Still C) (clearAfterRelease key result) := by
  refine .seq inferInstance fun _ => ?_
  cases result <;> infer_instance

instance endRouteControl_still (key : StreamKey) : Along (Still C) (endRouteControl key) := by
  unfold endRouteControl
  infer_instance

instance setProducerLease_still (key : StreamKey) (lease : Lease) : Along (Still C) (setProducerLease key lease) :=
  .seq inferInstance fun _ => updateControl_still controlMove_rfl

instance takeLease_still (key : StreamKey) (expiresAt : Nat) : Along (Still C) (takeLease key expiresAt) := by
  unfold takeLease
  infer_instance

instance acquireProducerLease_still (key : StreamKey) : Along (Still C) (acquireProducerLease key) := by
  refine .seq inferInstance fun a => ?_
  split <;> infer_instance

instance settleProducerLeaseFailure_still (key : StreamKey) (failure : LeaseResult) :
    Along (Still C) (settleProducerLeaseFailure key failure) := by
  refine .seq inferInstance fun _ => .seq inferInstance fun _ => ?_
  split <;> infer_instance

instance failedLeaseCall_still (key : StreamKey) (a : Answer) : Along (Still C) (failedLeaseCall key a) := by
  unfold failedLeaseCall
  infer_instance

instance replaceExpiredLease_still (key : StreamKey) : Along (Still C) (replaceExpiredLease key) := by
  refine .seq inferInstance fun _ => .seq inferInstance fun _ => ?_
  split <;> infer_instance

instance renewProducerLease_still (key : StreamKey) : Along (Still C) (renewProducerLease key) := by
  refine .seq inferInstance fun a => ?_
  split
  · split <;> infer_instance
  · infer_instance

instance keepProducerLease_still (key : StreamKey) (c : Control) (lease : Lease) :
    Along (Still C) (keepProducerLease key c lease) := by
  unfold keepProducerLease
  infer_instance

instance ensureProducerLease_still (key : StreamKey) : Along (Still C) (ensureProducerLease key) := by
  refine .seq inferInstance fun s => ?_
  split <;> infer_instance

instance failedReconcile_still (key : StreamKey) (a : Answer) : Along (Still C) (failedReconcile key a) := by
  unfold failedReconcile
  split <;> infer_instance

instance reconcileRetiringLease_still (key : StreamKey) : Along (Still C) (reconcileRetiringLease key) := by
  refine .seq inferInstance fun s => ?_
  split <;> infer_instance

/-! ## Walks that carry facts -/

/-- **`x`, run from `m`, makes moves** and ends in `Q` with a value and in `E` with an error. -/
def Walks (C : Config) (x : Act α) (m : Manager) (Q : α → Manager → Prop) (E : Manager → Prop) : Prop :=
  Goes (Moves C) x m Q E

def Manager.ticked (m : Manager) : Manager := { m with tick := m.tick + 1 }

@[simp] theorem stream_ticked (m : Manager) (key : StreamKey) : m.ticked.stream key = m.stream key := rfl

section
variable {β : Type} {x : Act α} {f : α → Act β} {m : Manager} {P : α → Manager → Prop} {Q : β → Manager → Prop}
  {E : Manager → Prop}

theorem Walks.seq (h : Walks C x m P E) (hf : ∀ a m', Moves C m m' → P a m' → Walks C (f a) m' Q E) :
    Walks C (x >>= f) m Q E := Goes.seq h hf

theorem Walks.next {a : α} {m' : Manager} (hx : x m = (.ok a, m')) (hm : Moves C m m')
    (hf : Walks C (f a) m' Q E) : Walks C (x >>= f) m Q E := Goes.next hx hm hf

theorem Walks.get {f : Manager → Act β} (hf : Walks C (f m) m Q E) : Walks C (Eff.get >>= f) m Q E := Goes.get hf

theorem Walks.modify {g : Manager → Manager} {f : Unit → Act β} (h : Moves C m (g m)) (hf : Walks C (f ()) (g m) Q E) :
    Walks C (Eff.modify g >>= f) m Q E := Goes.modify h hf

theorem Walks.pure {a : α} {Q : α → Manager → Prop} (h : Q a m) : Walks C (Pure.pure a : Act α) m Q E := Goes.pure h

theorem Walks.throw {e : Fault} {Q : α → Manager → Prop} (h : E m) : Walks C (MonadExcept.throw e : Act α) m Q E :=
  Goes.throw h

theorem Walks.mono {P Q : α → Manager → Prop} {E' : Manager → Prop} (h : Walks C x m P E')
    (hQ : ∀ a m', P a m' → Q a m') (hE : ∀ m', E' m' → E m') : Walks C x m Q E := Goes.mono h hQ hE

theorem Walks.attempt {Q : Except Fault α → Manager → Prop}
    (h : Walks C x m (fun a => Q (.ok a)) (fun m' => ∀ e, Q (.error e) m')) : Walks C (Eff.attempt x) m Q E :=
  Goes.attempt h

theorem Walks.streamAt {key : StreamKey} {f : Option TerminalStream → Act β} (hf : Walks C (f (m.stream key)) m Q E) :
    Walks C (streamAt key >>= f) m Q E := .next rfl .refl hf

theorem ticked_moves (m : Manager) : Moves C m m.ticked := .single (.quiet (quiet_tick m))

theorem Walks.now {f : Nat → Act β} (hf : ∀ t, Walks C (f t) m.ticked Q E) : Walks C (now >>= f) m Q E :=
  .next rfl (ticked_moves m) (hf _)

theorem Walks.ask {f : Answer → Act β} (hf : ∀ a, Walks C (f a) m.ticked Q E) : Walks C (ask >>= f) m Q E := by
  by_cases hc : (m.answers m.tick).cut = true
  · have : Stream.ask m = (.crash, m.ticked) := by simp [Stream.ask, hc, Manager.ticked]
    simp only [Walks, Goes, Sat, Bind.bind, this]
    exact ticked_moves m
  · have : Stream.ask m = (.ok (m.answers m.tick), m.ticked) := by simp [Stream.ask, hc, Manager.ticked]
    exact .next this (ticked_moves m) (hf _)

theorem await_walks : Walks C await m (fun _ m' => m' = m.ticked) (fun m' => m' = m.ticked) := by
  refine .ask fun a => ?_
  split
  · exact .pure rfl
  · exact .throw rfl

theorem Walks.await {f : Answer → Act β} (hE : E m.ticked) (hf : ∀ a, Walks C (f a) m.ticked Q E) :
    Walks C (await >>= f) m Q E :=
  (await_walks.mono (fun _ _ h => h) fun _ h => h ▸ hE).seq fun a _ _ h => h ▸ hf a

theorem Walks.of_along {Q : α → Manager → Prop} [Along (Moves C) x] (hQ : ∀ a m', Moves C m m' → Q a m')
    (hE : ∀ m', Moves C m m' → E m') : Walks C x m Q E := Goes.of_along hQ hE

theorem Walks.of_still {Q : α → Manager → Prop} [Along (Still C) x] (hQ : ∀ a m', Calm m m' → Q a m')
    (hE : ∀ m', Calm m m' → E m') : Walks C x m Q E :=
  Sat.of_along (R := Still C) (fun _ h => h.1) (fun a _ h => ⟨h.1, hQ a _ h.2⟩) (fun _ _ h => ⟨h.1, hE _ h.2⟩)

theorem Walks.rest [Along (Moves C) x] : Walks C x m (fun _ _ => True) (fun _ => True) :=
  .of_along (fun _ _ _ => trivial) fun _ _ => trivial

theorem along_of_walks (h : ∀ m, Walks C x m (fun _ _ => True) (fun _ => True)) : Along (Moves C) x :=
  Goes.along h

end

/-! ## Backends, rings and resets -/

instance pauseBackend_still (key : StreamKey) : Along (Still C) (pauseBackend key) := by
  refine .seq inferInstance fun a => ?_
  split <;> exact update_still (fun _ => rfl) (fun _ => rfl) (fun _ => rfl)

instance resumeBackend_still (key : StreamKey) : Along (Still C) (resumeBackend key) := by
  refine .seq inferInstance fun a => ?_
  split <;> exact update_still (fun _ => rfl) (fun _ => rfl) (fun _ => rfl)

instance refreshStream_still (L : Limits) (key : StreamKey) : Along (Still C) (refreshStream L key) := by
  refine .seq inferInstance fun m => ?_
  split <;> infer_instance

theorem quiet_refreshHostPressure (L : Limits) (m : Manager) : Quiet m (m.refreshHostPressure L) := by
  unfold Manager.refreshHostPressure
  split
  · exact ⟨rfl, rfl, rfl, rfl, rfl, rfl, rfl, rfl, le_rfl, fun _ h => .inl h⟩
  · split <;> exact ⟨rfl, rfl, rfl, rfl, rfl, rfl, rfl, rfl, le_rfl, fun _ h => .inl h⟩

instance refreshBackpressure_still (L : Limits) : Along (Still C) (refreshBackpressure L) :=
  .seq (quiet_still (quiet_refreshHostPressure L)) fun _ => inferInstance

instance disposeBackend_still (key : StreamKey) : Along (Still C) (disposeBackend key) := by
  refine .seq inferInstance fun s => ?_
  split
  · exact .seq (update_still (fun _ => rfl) (fun _ => rfl) (fun _ => rfl)) fun _ => inferInstance
  · infer_instance

instance checkRingBytes_still : Along (Still C) checkRingBytes := by
  unfold checkRingBytes
  infer_instance

instance holdOpenRecords_still (key : StreamKey) (t : Nat) : Along (Still C) (holdOpenRecords key t) :=
  quiet_still fun _ => ⟨rfl, rfl, rfl, rfl, rfl, rfl, rfl, rfl, le_rfl, fun _ h => .inl h⟩

/-- The stream at `key`, if there is one, is lost. -/
def Dead (key : StreamKey) (m : Manager) : Prop := ∀ s, m.stream key = some s → s.status = .lost

theorem Dead.calm {key : StreamKey} {m m' : Manager} (h : Dead key m) (hc : Calm m m') : Dead key m' := by
  intro s' hs'
  have hk := hc key
  rw [hs', Option.map_some] at hk
  obtain ⟨s, hs, hface⟩ := Option.map_eq_some_iff.mp hk.symm
  rw [show s'.status = s.status from (congrArg Face.status hface).symm]
  exact h s hs

theorem removeRing_walks {m : Manager} {key : StreamKey} {retained : Bool}
    (h : ∀ s, m.stream key = some s →
      (s.status = .detached ∧ retained = true) ∨ (s.status = .closed ∨ s.status = .lost)) :
    Walks C (removeRing key retained) m (fun _ m' => Calm (m.clearRing key retained) m')
      (fun m' => Calm (m.clearRing key retained) m') :=
  .modify (.single (.clear h)) (.of_still (fun _ _ h => h) fun _ h => h)

theorem Dead.clearRing {key : StreamKey} {m : Manager} {retained : Bool} (h : Dead key m) :
    Dead key (m.clearRing key retained) := by
  intro s hs
  rw [stream_clearRing] at hs
  obtain ⟨s₀, hs₀, rfl⟩ := of_stream_update hs fun _ => rfl
  exact h s₀ hs₀

theorem removeRing_dead {m : Manager} {key : StreamKey} {retained : Bool} (h : Dead key m) :
    Walks C (removeRing key retained) m (fun _ => Dead key) (Dead key) :=
  (removeRing_walks fun s hs => .inr (.inr (h s hs))).mono (fun _ _ hc => h.clearRing.calm hc)
    fun _ hc => h.clearRing.calm hc

theorem still_dead {x : Act α} {m : Manager} {key : StreamKey} [Along (Still C) x] (h : Dead key m) :
    Walks C x m (fun _ => Dead key) (Dead key) := .of_still (fun _ _ hc => h.calm hc) fun _ hc => h.calm hc

theorem sendAsyncReset_walks {m : Manager} {key : StreamKey} {reason : ResetReason} {origin : ResetOrigin}
    (hpump : ∀ s b, m.stream key = some s → s.binding = some b → origin = .pump →
      s.pumpThrough b > b.sentThroughOffset ∧ (b.sentThroughOffset < s.ring.start ∨ s.ringRetained = false ∨
        0 < b.credit C.limits ∧ s.ring.read b.sentThroughOffset (min (b.credit C.limits) C.limits.maxFrameBytes)
          (s.pumpThrough b) = [])) :
    Walks C (sendAsyncReset key reason origin) m (fun _ _ => True) (fun _ => True) := by
  refine .streamAt ?_
  cases hs : m.stream key with
  | none => exact .pure trivial
  | some s =>
    cases hb : s.binding with
    | none =>
      simp only [Option.bind_some, hb, Option.map_none]
      exact .pure trivial
    | some b =>
      simp only [Option.bind_some, hb, Option.map_some]
      refine .modify (.single (.abandon hs hb (hpump s b hs hb))) ?_
      have hgone : Says (m.abandon key s b reason origin).ticked (.reset b.id key s.generation reason) := by
        show wasAbandoned (.abandoned b.id key s.generation reason origin s.status :: m.trace) b.id = true
        simp [wasAbandoned]
      exact .await trivial fun _ => ⟨.single (.say hgone), trivial⟩

/-! ## Losing a stream -/

theorem noteLost_walks {m : Manager} {E : Manager → Prop} (key : StreamKey) (reason : ResetReason) :
    Walks C (noteLost key reason) m (fun _ _ => True) E := by
  refine .streamAt ?_
  cases m.stream key with
  | none => exact .pure trivial
  | some s => exact ⟨.single (.say trivial), trivial⟩

instance notifyLost_moves (key : StreamKey) (reason : ResetReason) (notify : Bool) :
    Along (Moves C) (notifyLost key reason notify) := by
  unfold notifyLost
  have : Along (Moves C) (sendAsyncReset key reason .loseStream) :=
    along_of_walks fun m => sendAsyncReset_walks fun _ _ _ _ h => nomatch h
  infer_instance

theorem removeRing_run {m : Manager} {key : StreamKey} {retained : Bool} (h : Funded m) :
    removeRing key retained m = (.ok (), m.clearRing key retained) := by
  have hbytes := Funded.bytes (m := m.clearRing key retained) h.clear
  have hpos : ¬ (m.clearRing key retained).ringBytes < 0 := by omega
  simp only [removeRing, checkRingBytes, Eff.modify, Eff.get, Bind.bind, if_neg hpos]
  rfl

/-- Changes after which at most the stream at `key` is lost with its windows in disorder. -/
structure Adrift (C : Config) (key : StreamKey) (m m' : Manager) : Prop where
  path : Relation.ReflTransGen (Change C) m m'
  later : Later m m'
  funded : Funded m → Funded m'
  others : ∀ k, k ≠ key → Funded m → ClearAt k m → ClearAt k m' ∨ Halts m'

theorem adrift_of_loss {m m' : Manager} {key : StreamKey} (h : Loss m m')
    (hothers : ∀ k, k ≠ key → m'.stream k = m.stream k) : Adrift C key m m' := by
  refine ⟨.single (.inr h), ?_, fun hf => hf.loss h, fun k hk _ hc => .inl ?_⟩
  · cases h
    exact ⟨rfl, le_rfl⟩
  · intro s hs
    rw [hothers k hk] at hs
    exact hc s hs

theorem Adrift.trans {m m' m'' : Manager} {key : StreamKey} (h : Adrift C key m m') (h' : Moves C m' m'') :
    Adrift C key m m'' := by
  refine ⟨h.path.trans h'.path, h.later.trans h'.tidy.later, h'.tidy.funded ∘ h.funded, fun k hk hf hc => ?_⟩
  rcases h.others k hk hf hc with hc' | hh
  · exact h'.tidy.clear k (h.funded hf) hc'
  · exact .inr (h'.tidy.later.halts hh)

theorem Adrift.moves {m m' : Manager} {key : StreamKey} (h : Adrift C key m m')
    (hclear : Funded m → ClearAt key m' ∨ Halts m') : Moves C m m' := by
  refine ⟨h.path, h.later, h.funded, fun k hf hc => ?_⟩
  by_cases hk : k = key
  · exact hk ▸ hclear hf
  · exact h.others k hk hf hc

theorem Walks.after {x : Act α} {m m' : Manager} {Q : α → Manager → Prop} {E : Manager → Prop} (h : Walks C x m' Q E)
    (hm : Moves C m m') :
    Sat (Moves C m) x m' (fun a w => Moves C m w ∧ Q a w) (fun _ w => Moves C m w ∧ E w) :=
  Sat.imp h (fun _ h => hm.trans h) (fun _ _ h => ⟨hm.trans h.1, h.2⟩) fun _ _ h => ⟨hm.trans h.1, h.2⟩

theorem Adrift.clearing {m m₁ : Manager} {key : StreamKey} {f : Unit → Act α} {Q : α → Manager → Prop}
    {E : Fault → Manager → Prop} (h : Adrift C key m m₁) (hd : Dead key m₁)
    (hf : ∀ m', Moves C m m' → Dead key m' → Sat (Moves C m) (f ()) m' Q E) :
    Sat (Moves C m) (clearControlWindows key >>= f) m₁ Q E := by
  have hstill := (clearControlWindows_still (C := C) key).along m₁
  refine Sat.next rfl (hf _ ((h.trans hstill.1).moves fun _ => .inl fun s hs _ kind => ?_) (hd.calm hstill.2))
  obtain ⟨s₀, _, rfl⟩ := of_stream_update hs fun _ => rfl
  cases kind <;> exact ⟨rfl, rfl⟩

theorem releaseProducerLease_ends (m : Manager) (key : StreamKey) :
    Sat Halts (releaseProducerLease key) m (fun _ _ => True) (fun _ _ => False) := by
  have hask : ∀ (w : Manager) (f : Answer → Act ReleaseResult),
      (∀ a w', Sat Halts (f a) w' (fun _ _ => True) (fun _ _ => False)) →
      Sat Halts (ask >>= f) w (fun _ _ => True) (fun _ _ => False) := by
    intro w f hf
    by_cases hc : (w.answers w.tick).cut = true
    · have hrun : ask w = (.crash, w.ticked) := by simp [ask, hc, Manager.ticked]
      simp only [Sat, Bind.bind, hrun]
      exact ⟨w.tick, Nat.lt_succ_self _, hc⟩
    · have hrun : ask w = (.ok (w.answers w.tick), w.ticked) := by simp [ask, hc, Manager.ticked]
      exact Sat.next hrun (hf _ _)
  refine Sat.next rfl (Sat.next rfl ?_)
  cases m.stream key with
  | none => exact trivial
  | some s =>
    dsimp only
    split
    · refine hask _ _ fun a w' => ?_
      unfold settleRelease
      split
      · exact trivial
      · split <;> exact trivial
    · split <;> exact trivial

theorem Adrift.releasing {m m₁ : Manager} {key : StreamKey} {f : Unit → Act α} {Q : α → Manager → Prop}
    {E : Fault → Manager → Prop} (h : Adrift C key m m₁) (hd : Dead key m₁)
    (hf : ∀ m', Moves C m m' → Dead key m' → Sat (Moves C m) (f ()) m' Q E) :
    Sat (Moves C m) (releaseProducerLease key >>= fun _ => clearControlWindows key >>= f) m₁ Q E := by
  have hstill := (releaseProducerLease_still (C := C) key).along m₁
  have hends := releaseProducerLease_ends m₁ key
  unfold Sat at hends
  simp only [Sat, Bind.bind]
  rcases hrun : releaseProducerLease key m₁ with ⟨a | e | _, w⟩ <;> rw [hrun] at hends hstill
  · exact (h.trans hstill.1).clearing (hd.calm hstill.2) hf
  · exact hends.elim
  · exact (h.trans hstill.1).moves fun _ => .inr hends

theorem Adrift.retiring {m m₁ : Manager} {key : StreamKey} (h : Adrift C key m m₁) (hd : Dead key m₁) (until_ : Nat) :
    Sat (Moves C m) (do
      removeRing key false
      let _ ← releaseProducerLease key
      clearControlWindows key
      holdOpenRecords key until_
      disposeBackend key) m₁ (fun _ w => Moves C m w ∧ Dead key w) (fun _ w => Moves C m w ∧ Dead key w) := by
  have hrest : ∀ m', Dead key m' → Walks C (do
      holdOpenRecords key until_
      disposeBackend key) m' (fun _ => Dead key) (Dead key) := fun m' hd =>
    Walks.seq (still_dead hd) fun _ _ _ hd => still_dead hd
  by_cases hfunded : Funded m
  · have hclear : Moves C m₁ (m₁.clearRing key false) := .single (.clear fun s hs => .inr (.inr (hd s hs)))
    refine Sat.next (removeRing_run (h.funded hfunded)) ?_
    exact (h.trans hclear).releasing hd.clearRing fun m' hm' hd' => (hrest m' hd').after hm'
  · have hm₁ : Moves C m m₁ := h.moves fun hf => absurd hf hfunded
    exact (Walks.seq (removeRing_dead hd) fun _ _ _ hd => Walks.seq (still_dead hd) fun _ _ _ hd =>
      Walks.seq (still_dead hd) fun _ m' _ hd => hrest m' hd).after hm₁

theorem retireStream_walks {m : Manager} (L : Limits) (key : StreamKey) :
    Walks C (retireStream L key) m (fun _ => Dead key) (Dead key) := by
  refine .now fun t => Sat.next rfl ?_
  have hloss : Loss m.ticked (m.ticked.update key fun s => { s with
      status := .lost, detachedUntil := none, retainedUntil := t + L.controlRetentionMs
      control := { s.control with
        input := { s.control.input with retained := [], pending := none }
        resize := { s.control.resize with retained := [], pending := none } } }) := by
    refine .lose (fun _ => rfl) fun s _ => ⟨⟨rfl, rfl, rfl, rfl⟩, rfl, rfl, .inl rfl, fun kind => ?_⟩
    cases kind <;> exact ⟨rfl, rfl, .inr rfl⟩
  have hadrift := adrift_of_loss (C := C) hloss fun _ hk => stream_update_ne (fun _ => rfl) hk
  refine hadrift.retiring (fun s hs => ?_) _
  obtain ⟨s₀, _, rfl⟩ := of_stream_update hs fun _ => rfl
  rfl

theorem loseStream_walks {m : Manager} (L : Limits) (key : StreamKey) (reason : ResetReason) (notify : Bool) :
    Walks C (loseStream L key reason notify) m (fun _ => Dead key) (Dead key) := by
  refine .seq (noteLost_walks key reason) fun _ m₁ _ _ => ?_
  refine .seq (.attempt (Q := fun _ _ => True) (.of_along (fun _ _ _ => trivial) fun _ _ _ => trivial))
    fun sent m₂ _ _ => ?_
  refine .seq (.attempt (Q := fun _ => Dead key) ((retireStream_walks L key).mono (fun _ _ h => h) fun _ h _ => h))
    fun retired m₃ _ hd => ?_
  have : Along (Still C) (rethrow sent retired) := by
    unfold rethrow
    infer_instance
  exact still_dead hd

instance loseStream_moves (L : Limits) (key : StreamKey) (reason : ResetReason) (notify : Bool) :
    Along (Moves C) (loseStream L key reason notify) :=
  along_of_walks fun _ => (loseStream_walks L key reason notify).mono (fun _ _ _ => trivial) fun _ _ => trivial

instance deleteStream_moves (key : StreamKey) : Along (Moves C) (deleteStream key) :=
  .modify fun _ => .single (.drop (.inl rfl))

instance evictStaleLocalStream_moves (L : Limits) (key : StreamKey) : Along (Moves C) (evictStaleLocalStream L key) := by
  unfold evictStaleLocalStream
  infer_instance

/-! ## The pump -/

theorem mapBinding_moves {key : StreamKey} {g : Binding → Binding} (h : ∀ b, SameCursor b (g b)) :
    Along (Moves C) (mapBinding key g) := by
  refine update_moves (fun _ => rfl) fun s => .rephase ⟨rfl, rfl, rfl, rfl⟩ rfl rfl (fun b' hb' => ?_) rfl
  obtain ⟨b, hb, rfl⟩ := Option.map_eq_some_iff.mp hb'
  exact ⟨b, hb, h b⟩

theorem enterLive_sameCursor (b : Binding) : SameCursor b b.enterLive := by
  unfold Binding.enterLive
  split <;> exact ⟨rfl, rfl, rfl, rfl⟩

theorem pumpHead_walks (m : Manager) (key : StreamKey) :
    Walks C (pumpHead key) m (fun r m' => ∀ s b, r = some (s, b) → m'.stream key = some s ∧ s.binding = some b)
      (fun _ => True) := by
  have hm : Along (Moves C) (mapBinding key Binding.enterLive) := mapBinding_moves enterLive_sameCursor
  refine .seq .rest fun _ m₁ _ _ => .streamAt (.pure ?_)
  intro s b h
  obtain ⟨s', hs', hb'⟩ := Option.bind_eq_some_iff.mp h
  obtain ⟨b', hb, heq⟩ := Option.map_eq_some_iff.mp hb'
  cases heq
  exact ⟨hs', hb⟩

theorem sendOutput_walks {m : Manager} {key : StreamKey} {s : TerminalStream} {b : Binding} {data : Bytes}
    (hs : m.stream key = some s) (hb : s.binding = some b) (hthrough : b.sentThroughOffset < s.pumpThrough b)
    (hdata : data = s.ring.read b.sentThroughOffset (min (b.credit C.limits) C.limits.maxFrameBytes) (s.pumpThrough b))
    (hne : data ≠ []) : Walks C (sendOutput key b s.generation data) m (fun _ _ => True) (fun _ => True) := by
  refine .await trivial fun a => .modify (.single (.output (m := m.ticked) hs hb hthrough hdata hne)) (.now fun t => ?_)
  have : Along (Still C) (update key fun s => { s with lastUsedAt := t }) :=
    update_still (fun _ => rfl) (fun _ => rfl) (fun _ => rfl)
  exact .rest

theorem pumpStep_walks {m : Manager} {key : StreamKey} {s : TerminalStream} {b : Binding}
    (hs : m.stream key = some s) (hb : s.binding = some b) :
    Walks C (pumpStep C.limits key s b) m (fun _ _ => True) (fun _ => True) := by
  -- a reset from here is asked for on the stream and binding that were read
  have hreset : (b.sentThroughOffset < s.pumpThrough b ∧ (b.sentThroughOffset < s.ring.start ∨ s.ringRetained = false ∨
      0 < b.credit C.limits ∧ s.ring.read b.sentThroughOffset (min (b.credit C.limits) C.limits.maxFrameBytes)
        (s.pumpThrough b) = [])) →
      Walks C (sendAsyncReset key .slowConsumer .pump) m (fun _ _ => True) (fun _ => True) := by
    intro h
    refine sendAsyncReset_walks fun s' b' hs' hb' _ => ?_
    cases hs.symm.trans hs'
    cases hb.symm.trans hb'
    exact h
  unfold pumpStep
  dsimp only
  split
  · exact .pure trivial
  · rename_i hmore
    have hthrough : b.sentThroughOffset < s.pumpThrough b := Nat.lt_of_not_le hmore
    split
    · rename_i hgap
      exact .seq (hreset ⟨hthrough, hgap.imp_right .inl⟩) fun _ _ _ _ => .pure trivial
    · split
      · exact .pure trivial
      · rename_i hcredit
        split
        · rename_i hempty
          refine .seq (hreset ⟨hthrough, .inr (.inr ⟨Nat.pos_of_ne_zero hcredit, ?_⟩)⟩) fun _ _ _ _ => .pure trivial
          exact List.eq_nil_of_length_eq_zero hempty
        · rename_i hdata
          refine .seq (sendOutput_walks hs hb hthrough rfl ?_) fun _ _ _ _ => .pure trivial
          exact fun h => hdata (by rw [h]; rfl)

instance pumpLoop_moves (key : StreamKey) (fuel : Nat) : Along (Moves C) (pumpLoop C.limits key fuel) := by
  induction fuel with
  | zero => exact inferInstanceAs (Along (Moves C) (pure true : Act Bool))
  | succ fuel ih =>
    refine along_of_walks fun m => .seq (pumpHead_walks m key) fun r m₁ _ hr => ?_
    cases r with
    | none => exact .pure trivial
    | some sb =>
      obtain ⟨hs, hb⟩ := hr sb.1 sb.2 rfl
      refine .seq (pumpStep_walks hs hb) fun next m₂ _ _ => ?_
      rcases next with _ | _ | _
      · exact .pure trivial
      · exact .pure trivial
      · exact .rest

/-- A stream is closed and everything up to its final offset is sent. -/
def Drained (m : Manager) (key : StreamKey) (generation : Nat) (b : Binding) (c : Condition) : Prop :=
  ∃ s, m.stream key = some s ∧ s.generation = generation ∧ s.binding = some b ∧ s.close = some c ∧
    b.sentThroughOffset = c.finalOffset

theorem Drained.calm {m m' : Manager} {key : StreamKey} {generation : Nat} {b : Binding} {c : Condition}
    (h : Drained m key generation b c) (hc : Calm m m') : Drained m' key generation b c := by
  obtain ⟨s, hs, hg, hb, hcl, hsent⟩ := h
  obtain ⟨s', hs', hface⟩ := hc.stream hs
  exact ⟨s', hs', (congrArg Face.generation hface).trans hg, (congrArg Face.binding hface).trans hb,
    (congrArg Face.close hface).trans hcl, hsent⟩

theorem sendPendingClose_walks {m : Manager} {key : StreamKey} {generation : Nat} {b : Binding} {c : Condition}
    (h : Drained m key generation b c) (p : PendingCloseResponse) :
    Walks C (sendPendingClose key b p) m (fun _ m' => Drained m' key generation b c) (fun _ => True) := by
  refine .get ?_
  split
  · exact .pure h
  · rename_i record hrec
    split
    · exact .pure h
    · obtain ⟨s, hs, hg, hb, hcl, hsent⟩ := h
      have htells : Says m.ticked (.closed b.id record.streamKey record.generation record.finalOffset) :=
        ⟨key, s, b, c, hs, hb, rfl, hcl, hsent, .inr ⟨record, Keyed.mem_of_find hrec, rfl, rfl, rfl⟩⟩
      refine .seq (P := fun _ m' => Drained m' key generation b c) ?_ fun _ m₁ _ hd => ?_
      · exact .await trivial fun _ => ⟨.single (.say htells), s, hs, hg, hb, hcl, hsent⟩
      · have : Along (Still C) (update key fun s => { s with
            pendingCloseResponses := Keyed.erase PendingCloseResponse.key p.key s.pendingCloseResponses }) :=
          update_still (fun _ => rfl) (fun _ => rfl) (fun _ => rfl)
        exact .of_still (fun _ _ hc => hd.calm hc) fun _ _ => trivial

theorem sendClosedEvent_walks {m : Manager} {key : StreamKey} {generation : Nat} {b : Binding} {c : Condition}
    (h : Drained m key generation b c) :
    Walks C (sendClosedEvent key generation b c) m (fun _ _ => True) (fun _ => True) := by
  unfold sendClosedEvent
  split
  · obtain ⟨s, hs, hg, hb, hcl, hsent⟩ := h
    have htells : Says m.ticked (.closed b.id key generation c.finalOffset) :=
      ⟨key, s, b, c, hs, hb, rfl, hcl, hsent, .inl ⟨rfl, hg.symm, rfl⟩⟩
    have hmap : Along (Moves C) (mapBinding key fun b => { b with closeNotified := true }) :=
      mapBinding_moves fun _ => ⟨rfl, rfl, rfl, rfl⟩
    refine .seq (P := fun _ _ => True) ?_ fun _ _ _ _ => .rest
    exact .await trivial fun _ => ⟨.single (.say htells), trivial⟩
  · exact .pure trivial

instance pumpClosed_moves (key : StreamKey) : Along (Moves C) (pumpClosed key) := by
  refine along_of_walks fun m => .streamAt ?_
  split
  · exact .pure trivial
  · rename_i s b c heq
    obtain ⟨s', hs, h⟩ := Option.bind_eq_some_iff.mp heq
    obtain ⟨b', hb, h⟩ := Option.bind_eq_some_iff.mp h
    obtain ⟨c', hcl, h⟩ := Option.map_eq_some_iff.mp h
    cases h
    split
    · exact .pure trivial
    · rename_i hsent
      have hd : Drained m key s.generation b c := ⟨s, hs, rfl, hb, hcl, not_not.mp hsent⟩
      refine .seq (P := fun _ m' => Drained m' key s.generation b c) ?_ fun _ _ _ hd => sendClosedEvent_walks hd
      refine (Sat.forEach (I := fun m' => Moves C m m' ∧ Drained m' key s.generation b c) ⟨.refl, hd⟩ ?_).mono
        (fun _ _ h => h) fun _ _ h => ⟨h, trivial⟩
      intro p _ m' ⟨hm, hd⟩
      exact (sendPendingClose_walks hd p).imp (fun _ h => hm.trans h) (fun _ _ h => ⟨hm.trans h.1, h.2⟩)
        (fun _ _ h => hm.trans h.1)

instance pump_moves (key : StreamKey) : Along (Moves C) (pump C.limits key) := by
  unfold pump
  infer_instance

end Stream
end TmuxWorktree
