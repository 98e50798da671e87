import TmuxWorktree.Terminal.Safety
/-!
# Episode — a fenced target keeps its record

A recovery plans the output generation that it asks for from the record of the target in the state file, so an interrupted
recovery asks for the same generation again only as long as that record stays what it is.  The programs of the authority
are walked from a section that finds the target fenced: each one leaves the record alone, or saves a state in which the
target is not fenced any more.
-/
namespace TmuxWorktree
namespace Terminal

open Effect

/-! ## Records that are fenced -/

/-- The state has this record of its target, which is fenced, and no other. -/
structure Fenced (t₀ : TargetRecord) (s : ControlState) : Prop where
  mem : t₀ ∈ s.targets
  only : ∀ t ∈ s.targets, t.controlTargetId = t₀.controlTargetId → t = t₀
  shape : Shape t₀
  lifecycle : t₀.lifecycle = .recoveryRequired

def Unfenced (id : String) (s : ControlState) : Prop :=
  ∀ t ∈ s.targets, t.controlTargetId = id → t.lifecycle ≠ .recoveryRequired

/-- **The target is freed**: one of the states that were saved does not have it fenced. -/
def Freed (id : String) (events : List Event) : Prop := ∃ s, Event.saved s ∈ events ∧ Unfenced id s

variable {env : Env} {id id' : String} {t₀ : TargetRecord} {s : ControlState} {n : Nat} {w₀ w w' : World} {α β : Type}

theorem Fenced.get (h : Fenced t₀ s) : s.get? t₀.controlTargetId = some t₀ := by
  cases hget : s.get? t₀.controlTargetId with
  | none => simpa using List.find?_eq_none.1 hget t₀ h.mem
  | some t =>
    obtain ⟨ht, hid⟩ := ControlState.get?_mem hget
    rw [h.only t ht hid]

theorem Fenced.of_get (hu : s.UniqueIds) (hs : ∀ t ∈ s.targets, Shape t) (h : s.get? id = some t₀)
    (hl : t₀.lifecycle = .recoveryRequired) : Fenced t₀ s := by
  obtain ⟨hmem, hid⟩ := ControlState.get?_mem h
  refine ⟨hmem, fun t ht hidt => ?_, hs t₀ hmem, hl⟩
  have hget := ControlState.get?_eq_of_mem hu ht
  rw [hidt, hid, h] at hget
  exact (Option.some.inj hget).symm

theorem Fenced.compact (h : Fenced t₀ s) : Fenced t₀ (compact s) := by
  refine ⟨mem_compact_of_not_gone h.mem (by rw [h.lifecycle]; decide), fun t ht hid => ?_, h.shape, h.lifecycle⟩
  obtain ⟨u, hu, ⟨-, rfl⟩ | ⟨hg, rfl⟩⟩ := mem_compact ht
  · exact h.only _ hu hid
  · rw [h.only u hu hid, h.lifecycle] at hg
    cases hg

theorem Unfenced.compact (h : Unfenced id s) : Unfenced id (compact s) := by
  intro t ht hidt
  obtain ⟨u, hu, ⟨-, rfl⟩ | ⟨-, rfl⟩⟩ := mem_compact ht
  · exact h _ hu hidt
  · exact h u hu hidt

theorem Fenced.update (h : Fenced t₀ s) (hne : id ≠ t₀.controlTargetId) (f : TargetRecord → TargetRecord)
    [hf : KeepsId f] : Fenced t₀ (s.update id f) := by
  refine ⟨?_, fun t ht hidt => ?_, h.shape, h.lifecycle⟩
  · simp only [ControlState.update, List.mem_map]
    exact ⟨t₀, h.mem, if_neg (fun he => hne he.symm)⟩
  · rcases ControlState.mem_update ht with ⟨u, hu, hidu, rfl⟩ | ⟨hts, -⟩
    · exact absurd (hidu.symm.trans ((hf.keeps u).symm.trans hidt)) hne
    · exact h.only t hts hidt

theorem Unfenced.update (h : Unfenced id s) (hne : id' ≠ id) (f : TargetRecord → TargetRecord) [hf : KeepsId f] :
    Unfenced id (s.update id' f) := by
  intro t ht hidt
  rcases ControlState.mem_update ht with ⟨u, hu, hidu, rfl⟩ | ⟨hts, -⟩
  · exact absurd (hidu.symm.trans ((hf.keeps u).symm.trans hidt)) hne
  · exact h t hts hidt

theorem Fenced.push (h : Fenced t₀ s) {t : TargetRecord} (hne : t.controlTargetId ≠ t₀.controlTargetId) :
    Fenced t₀ (s.push t) := by
  refine ⟨List.mem_append_left _ h.mem, fun u hu hid => ?_, h.shape, h.lifecycle⟩
  rcases List.mem_append.1 hu with hu | hu
  · exact h.only u hu hid
  · rw [List.mem_singleton.1 hu] at hid
    exact absurd hid hne

theorem Unfenced.push (h : Unfenced id s) {t : TargetRecord} (hne : t.controlTargetId ≠ id) : Unfenced id (s.push t) := by
  intro u hu hid
  rcases List.mem_append.1 hu with hu | hu
  · exact h u hu hid
  · rw [List.mem_singleton.1 hu] at hid
    exact absurd hid hne

theorem Unfenced.assign (s : ControlState) {f : TargetRecord → TargetRecord}
    (hf : ∀ t, (f t).lifecycle ≠ .recoveryRequired) : Unfenced id (s.update id f) := by
  intro t ht hidt
  rcases ControlState.mem_update ht with ⟨u, -, -, rfl⟩ | ⟨-, hne⟩
  · exact hf u
  · exact absurd hidt hne

/-! ## What a section may do to the target -/

def OnFile (t₀ : TargetRecord) (w : World) : Prop := ∃ d, w.disk = some d ∧ Fenced t₀ d

/-- **How far a section has come that found the target fenced**: its copy of the state still has the record, or does not
have the target fenced any more, and the state file is as it was. -/
structure Standing (t₀ : TargetRecord) (p : ControlState → Prop) (w : World) : Prop where
  file : OnFile t₀ w
  mem : p w.mem

def Onward (w w' : World) : Prop := w.tick ≤ w'.tick ∧ ∃ events, w'.trace = events ++ w.trace

instance : Std.Refl Onward := ⟨fun w => ⟨le_rfl, [], rfl⟩⟩

instance : IsTrans World Onward := ⟨fun _ _ _ ⟨h, es, he⟩ ⟨h', es', he'⟩ =>
  ⟨h.trans h', es' ++ es, by rw [he', he, List.append_assoc]⟩⟩

instance : Ambient Onward where
  tick _ := ⟨Nat.le_succ _, [], rfl⟩
  mem _ _ := ⟨le_rfl, [], rfl⟩
  persist s _ := ⟨le_rfl, [.saved s], rfl⟩
  log es _ := ⟨le_rfl, es, rfl⟩
  owners _ _ := ⟨le_rfl, [], rfl⟩

theorem interleave_onward (ttlMs : Int) : ∀ (calls : List (Sync × Int)) (w : World), Onward w (w.interleave ttlMs calls)
  | [], w => Std.Refl.refl w
  | (call, nowMs) :: rest, w => by
    have h : Onward w { w with
        loc := (call.run ttlMs nowMs w.running w.loc).1
        trace := (call.run ttlMs nowMs w.running w.loc).2 ++ w.trace } := ⟨le_rfl, _, rfl⟩
    exact IsTrans.trans _ _ _ h (interleave_onward ttlMs rest _)

instance : Suspends env Onward where
  suspend w := IsTrans.trans _ _ _ (⟨Nat.le_succ _, [], rfl⟩ : Onward w { w with tick := w.tick + 1 })
    (interleave_onward _ _ _)

-- the instance of a section is a tree over its twenty binds
set_option synthInstance.maxSize 200000

instance : Prunes Onward := ⟨fun _ _ _ => ⟨le_rfl, [], rfl⟩⟩

instance (input : ExactInput) (externalEpoch : Nat) (id paneIdentity : String) :
    Along Onward (reserveExact env input externalEpoch id paneIdentity) := by
  have hl : ∀ f, Along Onward (modifyLocal f) := fun f => Along.modify (fun _ => ⟨le_rfl, [], rfl⟩)
  unfold reserveExact; dsimp only; infer_instance

instance (id : String) (record : ClaimRecord) (output : Position) :
    Along Onward (publishObservation env id record output) := by
  have hl : ∀ f, Along Onward (modifyLocal f) := fun f => Along.modify (fun _ => ⟨le_rfl, [], rfl⟩)
  unfold publishObservation; infer_instance

/-- The target was freed since `w₀`, or the questions go beyond the `n`th. -/
def Slipped (id : String) (n : Nat) (w₀ w : World) : Prop :=
  n < w.tick ∨ ∃ events, w.trace = events ++ w₀.trace ∧ Freed id events

theorem Slipped.onward (h : Slipped id n w₀ w) (ho : Onward w w') : Slipped id n w₀ w' := by
  obtain ⟨ht, es, he⟩ := ho
  rcases h with h | ⟨es', he', s, hs, hu⟩
  · exact .inl (h.trans_le ht)
  · exact .inr ⟨es ++ es', by rw [he, he', List.append_assoc], s, List.mem_append_right _ hs, hu⟩

/-- **The target is left alone** unless it is freed: what holds of it before holds of it after. -/
def Leaves (t₀ : TargetRecord) (n : Nat) (p : ControlState → Prop) (w w' : World) : Prop :=
  Onward w w' ∧ (Slipped t₀.controlTargetId n w w' ∨ (Standing t₀ p w → Standing t₀ p w'))

variable {p : ControlState → Prop}

instance : Std.Refl (Leaves t₀ n p) := ⟨fun w => ⟨Std.Refl.refl w, .inr fun h => h⟩⟩

instance : IsTrans World (Leaves t₀ n p) := ⟨fun a b c ⟨ho, h⟩ ⟨ho', h'⟩ => by
  refine ⟨IsTrans.trans _ _ _ ho ho', ?_⟩
  rcases h with h | h
  · exact .inl (h.onward ho')
  · rcases h' with (h' | ⟨es', he', s, hs, hu⟩) | h'
    · exact .inl (.inl h')
    · obtain ⟨-, es, he⟩ := ho
      exact .inl (.inr ⟨es' ++ es, by rw [he', he, List.append_assoc], s, List.mem_append_left _ hs, hu⟩)
    · exact .inr (fun hh => h' (h hh))⟩

theorem Leaves.same (hd : w'.disk = w.disk) (hm : w'.mem = w.mem) (ho : Onward w w') : Leaves t₀ n p w w' :=
  ⟨ho, .inr fun ⟨⟨d, hdk, hf⟩, hp⟩ => ⟨⟨d, hd.trans hdk, hf⟩, hm ▸ hp⟩⟩

instance : Ambience (Leaves t₀ n p) where
  tick _ := .same rfl rfl ⟨Nat.le_succ _, [], rfl⟩
  log es _ := .same rfl rfl ⟨le_rfl, es, rfl⟩
  owners _ _ := .same rfl rfl ⟨le_rfl, [], rfl⟩

theorem interleave_states (ttlMs : Int) : ∀ (calls : List (Sync × Int)) (w : World),
    (w.interleave ttlMs calls).disk = w.disk ∧ (w.interleave ttlMs calls).mem = w.mem
  | [], _ => ⟨rfl, rfl⟩
  | _ :: rest, _ => interleave_states ttlMs rest _

instance : Suspends env (Leaves t₀ n p) where
  suspend w := by
    have h := interleave_states env.relayV2ExactTargetTtlMs (env.interleaved w.tick) { w with tick := w.tick + 1 }
    exact .same h.1 h.2 (Suspends.suspend w)

instance : Prunes (Leaves t₀ n p) := ⟨fun _ _ _ => .same rfl rfl ⟨le_rfl, [], rfl⟩⟩

theorem assigns_leaves (hp : ∀ s f [KeepsId f], p s → p (s.update id f)) : Assigns (Leaves t₀ n p) id :=
  ⟨fun f _ _ => ⟨⟨le_rfl, [], rfl⟩, .inr fun h => ⟨h.file, hp _ f h.mem⟩⟩⟩

theorem loads_leaves : Loads env (Leaves t₀ n (Fenced t₀)) := by
  refine ⟨⟨fun w => ?_⟩⟩
  unfold loadTerminalControlState
  simp only [Bind.bind, Eff.get]
  cases hd : w.disk with
  | none => exact ⟨⟨Nat.le_succ _, [], rfl⟩, .inr fun h => (by obtain ⟨d, hd', -⟩ := h.file; rw [hd] at hd'; cases hd')⟩
  | some d =>
    dsimp only
    cases h1 : parseTerminalControlState d with
    | error e => exact Std.Refl.refl w
    | ok state =>
      obtain rfl := parse_ok h1
      refine ⟨⟨le_rfl, [], rfl⟩, .inr fun h => ⟨h.file, ?_⟩⟩
      obtain ⟨d', hd', hf⟩ := h.file
      rw [hd] at hd'
      exact Option.some.inj hd' ▸ hf

def Saveable (t₀ : TargetRecord) (p : ControlState → Prop) : Prop :=
  ∀ s, p s → Fenced t₀ (compact s) ∨ Unfenced t₀.controlTargetId (compact s)

theorem Leaves.persist (hp : Saveable t₀ p) (w : World) : Leaves t₀ n p w (w.persist (compact w.mem)) := by
  refine ⟨⟨le_rfl, [.saved (compact w.mem)], rfl⟩, ?_⟩
  by_cases hm : p w.mem
  · rcases hp _ hm with h | h
    · exact .inr (fun _ => ⟨⟨_, rfl, h⟩, hm⟩)
    · exact .inl (.inr ⟨[.saved (compact w.mem)], rfl, _, List.mem_cons_self, h⟩)
  · exact .inr (fun hs => absurd hs.mem hm)

theorem saves_leaves (hp : Saveable t₀ p) : Saves env (Leaves t₀ n p) := by
  refine ⟨⟨fun w => ?_⟩⟩
  have hnote : ∀ es (v : World), Leaves t₀ n p v { v with trace := es ++ v.trace } := Ambience.log
  unfold saveTerminalControlState
  simp only [Bind.bind, Eff.get]
  cases h1 : parseTerminalControlState w.mem with
  | error e => exact hnote [_] w
  | ok validated =>
    obtain rfl := parse_ok h1
    dsimp only
    cases h2 : parseTerminalControlState (compact w.mem) with
    | error e => exact hnote [_] w
    | ok compacted =>
      obtain rfl := parse_ok h2
      have htick : Leaves t₀ n p w { w with tick := w.tick + 1 } := Ambience.tick w
      have hsave : Leaves t₀ n p w (({ w with tick := w.tick + 1 } : World).persist (compact w.mem)) :=
        IsTrans.trans _ _ _ htick (Leaves.persist hp { w with tick := w.tick + 1 })
      dsimp only [nextTick]
      cases env.save w.tick with
      | done => exact hsave
      | failedBeforeRename e => exact IsTrans.trans _ _ _ htick (hnote [.saveFailed] _)
      | failedAfterRename e => exact IsTrans.trans _ _ _ hsave (hnote [.saveFailed] _)
      | diedBeforeRename => exact htick
      | diedAfterRename => exact hsave

/-! ## Sections that find the target fenced -/

/-- **How a section may end**: the target was freed, or the state file has the record. -/
def Closed (t₀ : TargetRecord) (n : Nat) (w₀ w : World) : Prop :=
  Slipped t₀.controlTargetId n w₀ w ∨ (Onward w₀ w ∧ OnFile t₀ w)

/-- How far a section has come that started at `w₀`. -/
structure Held (t₀ : TargetRecord) (w₀ : World) (p : ControlState → Prop) (w : World) : Prop where
  since : Onward w₀ w
  standing : Standing t₀ p w

/-- **`x`, run from `w`, guards the record**: it ends as a section may, and in `Q` with a value unless the target was freed. -/
def Guards (t₀ : TargetRecord) (n : Nat) (w₀ : World) (x : M α) (w : World) (Q : α → World → Prop) : Prop :=
  Sat (Closed t₀ n w₀) x w (fun a v => Slipped t₀.controlTargetId n w₀ v ∨ Q a v) (fun _ => Closed t₀ n w₀)

section
variable {x : M α} {f : α → M β} {P : α → World → Prop} {Q : β → World → Prop}

theorem Held.closed (h : Held t₀ w₀ p w) : Closed t₀ n w₀ w := .inr ⟨h.since, h.standing.file⟩

theorem Held.weaken {q : ControlState → Prop} (h : Held t₀ w₀ p w) (hq : ∀ s, p s → q s) : Held t₀ w₀ q w :=
  ⟨h.since, h.standing.file, hq _ h.standing.mem⟩

theorem Guards.slipped [Along Onward x] (h : Slipped t₀.controlTargetId n w₀ w) : Guards t₀ n w₀ x w P :=
  Sat.of_along (R := Onward) (fun _ ho => .inl (h.onward ho)) (fun _ _ ho => .inl (h.onward ho))
    (fun _ _ ho => .inl (h.onward ho))

theorem Guards.bind [o : ∀ a, Along Onward (f a)] (h : Guards t₀ n w₀ x w P) (hf : ∀ a v, P a v → Guards t₀ n w₀ (f a) v Q) :
    Guards t₀ n w₀ (x >>= f) w Q :=
  Sat.step h fun a v hp => hp.elim (fun hs => Guards.slipped hs) (hf a v)

theorem Guards.next {a : α} (hx : x w = (.ok a, w')) (hf : Guards t₀ n w₀ (f a) w' Q) : Guards t₀ n w₀ (x >>= f) w Q :=
  Sat.next hx hf

theorem Guards.pure {a : α} (h : P a w) : Guards t₀ n w₀ (Pure.pure a) w P := Sat.pure (.inr h)

theorem Guards.throw {e : ControlError} (h : Held t₀ w₀ p w) : Guards t₀ n w₀ (MonadExcept.throw e : M α) w P :=
  Sat.throw h.closed

theorem Guards.mono {P' : α → World → Prop} (h : Guards t₀ n w₀ x w P) (hP : ∀ a v, P a v → P' a v) :
    Guards t₀ n w₀ x w P' := Sat.mono h (fun a v hv => hv.imp_right (hP a v)) (fun _ _ he => he)

theorem Guards.ite {c : Prop} [Decidable c] {y : M α} (ht : c → Guards t₀ n w₀ x w P) (hf : ¬ c → Guards t₀ n w₀ y w P) :
    Guards t₀ n w₀ (if c then x else y) w P := Sat.ite ht hf

theorem Held.leaves (h : Held t₀ w₀ p w) (hl : Leaves t₀ n p w w') :
    Slipped t₀.controlTargetId n w₀ w' ∨ Held t₀ w₀ p w' := by
  obtain ⟨ho, hl⟩ := hl
  obtain ⟨-, es, he⟩ := h.since
  rcases hl with (hl | ⟨es', he', s, hs, hu⟩) | hl
  · exact .inl (.inl hl)
  · exact .inl (.inr ⟨es' ++ es, by rw [he', he, List.append_assoc], s, List.mem_append_left _ hs, hu⟩)
  · exact .inr ⟨IsTrans.trans _ _ _ h.since ho, hl h.standing⟩

theorem Guards.leaves [Along (Leaves t₀ n p) x] (h : Held t₀ w₀ p w) (hP : ∀ a v, Held t₀ w₀ p v → P a v) :
    Guards t₀ n w₀ x w P :=
  Sat.of_along (R := Leaves t₀ n p) (fun _ hl => (h.leaves hl).imp_right Held.closed |>.elim .inl id)
    (fun a v hl => (h.leaves hl).imp_right (hP a v)) (fun _ _ hl => (h.leaves hl).elim .inl Held.closed)

theorem Guards.step [Along (Leaves t₀ n p) x] [o : ∀ a, Along Onward (f a)] (h : Held t₀ w₀ p w)
    (hf : ∀ a v, Held t₀ w₀ p v → Guards t₀ n w₀ (f a) v Q) : Guards t₀ n w₀ (x >>= f) w Q :=
  Guards.bind (Guards.leaves (P := fun _ v => Held t₀ w₀ p v) h fun _ _ hv => hv) hf

theorem Guards.tryCatch {g : ControlError → M α} [Along (Leaves t₀ n p) x] [∀ e, Along Onward (g e)] (h : Held t₀ w₀ p w)
    (hP : ∀ a v, Held t₀ w₀ p v → P a v) (hg : ∀ e v, Held t₀ w₀ p v → Guards t₀ n w₀ (g e) v P) :
    Guards t₀ n w₀ (MonadExcept.tryCatch x g) w P := by
  refine Sat.tryCatch (F := fun _ v => Slipped t₀.controlTargetId n w₀ v ∨ Held t₀ w₀ p v) ?_ fun e v hv =>
    hv.elim (fun hs => Guards.slipped hs) (hg e v)
  exact Sat.of_along (R := Leaves t₀ n p) (fun _ hl => (h.leaves hl).elim .inl Held.closed)
    (fun a v hl => (h.leaves hl).imp_right (hP a v)) (fun _ _ hl => h.leaves hl)

theorem Guards.targetById {f : TargetRecord → M β} (h : Held t₀ w₀ (Fenced t₀) w) (hf : Guards t₀ n w₀ (f t₀) w Q) :
    Guards t₀ n w₀ (targetById t₀.controlTargetId >>= f) w Q :=
  Guards.next (targetById_eq h.standing.mem.get) hf

theorem Guards.get {f : World → M β} (hf : Guards t₀ n w₀ (f w) w Q) : Guards t₀ n w₀ (Eff.get >>= f) w Q :=
  Guards.next rfl hf

end

/-! ## The programs of the fenced target -/

/-- **What is done to other targets** keeps what a section holds of its copy of the state. -/
class Apart (t₀ : TargetRecord) (p : ControlState → Prop) : Prop where
  update : ∀ {s : ControlState} {id : String} (f : TargetRecord → TargetRecord) [KeepsId f], id ≠ t₀.controlTargetId →
    p s → p (s.update id f)
  push : ∀ {s : ControlState} {t : TargetRecord}, t.controlTargetId ≠ t₀.controlTargetId → p s → p (s.push t)
  save : Saveable t₀ p

instance : Apart t₀ (Fenced t₀) := ⟨fun f _ hne h => h.update hne f, fun hne h => h.push hne, fun _ h => .inl h.compact⟩

instance : Apart t₀ (Unfenced t₀.controlTargetId) :=
  ⟨fun f _ hne h => h.update hne f, fun hne h => h.push hne, fun _ h => .inr h.compact⟩

instance [Apart t₀ p] : Saves env (Leaves t₀ n p) := saves_leaves Apart.save

theorem Apart.assigns [Apart t₀ p] (hne : id ≠ t₀.controlTargetId) : Assigns (Leaves t₀ n p) id :=
  assigns_leaves fun _ f _ h => Apart.update f hne h

instance : Loads env (Leaves t₀ n (Fenced t₀)) := loads_leaves

section
variable {P : α → World → Prop}

/-- **A save frees a target that is not fenced any more.** -/
theorem saves_free (h : Held t₀ w₀ (Unfenced t₀.controlTargetId) w) :
    Guards t₀ n w₀ (saveTerminalControlState env) w (fun _ _ => False) := by
  have hsaved : ∀ es k, Slipped t₀.controlTargetId n w₀
      { w with disk := some (compact w.mem), tick := k, trace := es ++ .saved (compact w.mem) :: w.trace } := fun es k => by
    obtain ⟨-, es₀, he⟩ := h.since
    exact .inr ⟨es ++ .saved (compact w.mem) :: es₀, by rw [he, List.append_assoc, List.cons_append], _,
      List.mem_append_right _ List.mem_cons_self, h.standing.mem.compact⟩
  have hnote : ∀ es k, w.tick ≤ k → Closed t₀ n w₀ { w with tick := k, trace := es ++ w.trace } := fun es k hk =>
    .inr ⟨IsTrans.trans _ _ _ h.since ⟨hk, es, rfl⟩, h.standing.file⟩
  unfold Guards Sat saveTerminalControlState
  simp only [Bind.bind, Eff.get]
  cases h1 : parseTerminalControlState w.mem with
  | error e => exact hnote [_] _ le_rfl
  | ok validated =>
    obtain rfl := parse_ok h1
    dsimp only
    cases h2 : parseTerminalControlState (compact w.mem) with
    | error e => exact hnote [_] _ le_rfl
    | ok compacted =>
      obtain rfl := parse_ok h2
      dsimp only [nextTick]
      cases env.save w.tick with
      | done => exact .inl (hsaved [] _)
      | failedBeforeRename e => exact hnote [.saveFailed] _ (Nat.le_succ _)
      | failedAfterRename e => exact .inl (hsaved [.saveFailed] _)
      | diedBeforeRename => exact hnote [] _ (Nat.le_succ _)
      | diedAfterRename => exact .inl (hsaved [] _)

theorem Held.assigned (h : Held t₀ w₀ p w) {f : TargetRecord → TargetRecord} (hf : ∀ t, (f t).lifecycle ≠ .recoveryRequired) :
    Held t₀ w₀ (Unfenced t₀.controlTargetId) { w with mem := w.mem.update t₀.controlTargetId f } :=
  ⟨IsTrans.trans _ _ _ h.since ⟨le_rfl, [], rfl⟩, h.standing.file, Unfenced.assign _ hf⟩

theorem assign_unfences (h : Held t₀ w₀ p w) {f : TargetRecord → TargetRecord} [KeepsId f]
    (hf : ∀ t, (f t).lifecycle ≠ .recoveryRequired) :
    Guards t₀ n w₀ (assign env t₀.controlTargetId f) w (fun _ v => Held t₀ w₀ (Unfenced t₀.controlTargetId) v) :=
  Guards.step h fun _ _ hv => Sat.modify (.inr (hv.assigned hf))

theorem invalidateTarget_unfences (h : Held t₀ w₀ p w) :
    Guards t₀ n w₀ (invalidateTarget env t₀.controlTargetId) w
      (fun _ v => Held t₀ w₀ (Unfenced t₀.controlTargetId) v) :=
  Guards.step h fun _ _ hv => Guards.step hv fun _ _ hv => Sat.modify (.inr (hv.assigned fun _ hl => by cases hl))

theorem retireAndThrow_guards (h : Held t₀ w₀ p w) (message : String) :
    Guards t₀ n w₀ (retireAndThrow env t₀.controlTargetId message) w P :=
  Guards.bind (invalidateTarget_unfences h) fun _ _ hv => Guards.bind (saves_free hv) fun _ _ hf => hf.elim

theorem activation_frees {f : TargetRecord → TargetRecord} [KeepsId f] (h : Held t₀ w₀ p w)
    (hf : ∀ t, (f t).lifecycle ≠ .recoveryRequired) {g : Unit → M α} [∀ a, Along Onward (g a)] :
    Guards t₀ n w₀ (assign env t₀.controlTargetId f >>= fun _ => saveTerminalControlState env >>= g) w P :=
  Guards.bind (assign_unfences h hf) fun _ _ hv => Guards.bind (saves_free hv) fun _ _ hx => hx.elim

theorem reconcileIdentity_guards (h : Held t₀ w₀ (Fenced t₀) w) :
    Guards t₀ n w₀ (reconcileIdentity env t₀.controlTargetId) w (fun _ v => Held t₀ w₀ (Fenced t₀) v) := by
  unfold reconcileIdentity
  exact Guards.tryCatch h (fun _ _ hv => hv) fun e v hv =>
    Guards.ite (fun _ => retireAndThrow_guards hv _) (fun _ => Guards.pure hv)

theorem setOutputGeneration_holds (h : Held t₀ w₀ p w) (generation : String) :
    Held t₀ w₀ (fun _ => True)
      { w with mem := w.mem.update t₀.controlTargetId (fun t => { t with outputGeneration := generation }) } :=
  ⟨IsTrans.trans _ _ _ h.since ⟨le_rfl, [], rfl⟩, h.standing.file, trivial⟩

theorem reconcileOutput_guards (h : Held t₀ w₀ (Fenced t₀) w) :
    Guards t₀ n w₀ (reconcileOutput env t₀.controlTargetId) w
      (fun b v => Held t₀ w₀ (fun _ => True) v ∧ (b = false → Held t₀ w₀ (Fenced t₀) v)) := by
  unfold reconcileOutput
  refine Sat.tryCatch (F := fun _ v => Slipped t₀.controlTargetId n w₀ v ∨ Held t₀ w₀ (Fenced t₀) v) ?_ fun e v hv =>
    hv.imp_right fun hv => ⟨hv.weaken fun _ _ => trivial, fun _ => hv⟩
  refine Sat.step (P := fun _ v => Slipped t₀.controlTargetId n w₀ v ∨ Held t₀ w₀ (Fenced t₀) v) ?_ fun a v hv => ?_
  · exact Sat.of_along (R := Leaves t₀ n (Fenced t₀)) (fun _ hl => (h.leaves hl).elim .inl Held.closed)
      (fun _ _ hl => h.leaves hl) (fun _ _ hl => h.leaves hl)
  · refine Sat.next (x := setOutputGeneration t₀.controlTargetId a.generation) rfl (Sat.pure ?_)
    exact hv.imp (fun hs => hs.onward ⟨le_rfl, [], rfl⟩) fun hv => ⟨setOutputGeneration_holds hv _, fun hb => by cases hb⟩

theorem recoverOutput_guards (h : Held t₀ w₀ (Fenced t₀) w) :
    Guards t₀ n w₀ (recoverOutput env t₀.controlTargetId) w (fun _ v => Held t₀ w₀ (fun _ => True) v) := by
  unfold recoverOutput
  refine Sat.tryCatch (F := fun _ => Closed t₀ n w₀) ?_ fun e v hv => Sat.throw hv
  refine Guards.targetById h (Guards.step h fun _ v hv => Guards.step hv fun output v hv => ?_)
  exact Sat.next (x := setOutputGeneration t₀.controlTargetId output.generation) rfl
    (Sat.pure (.inr (setOutputGeneration_holds hv _)))

theorem reconcileFenced_guards (h : Held t₀ w₀ (Fenced t₀) w) :
    Guards t₀ n w₀ (reconcileFenced env t₀.controlTargetId) w (fun b v => b = false ∧ Held t₀ w₀ (Fenced t₀) v) := by
  unfold reconcileFenced
  refine Guards.targetById h (Guards.ite (fun _ => Guards.pure ⟨rfl, h⟩) fun _ => ?_)
  refine Guards.bind (reconcileIdentity_guards h) fun current v hv => Guards.ite (fun _ => Guards.pure ⟨rfl, hv⟩) fun _ => ?_
  refine Guards.bind (reconcileOutput_guards hv) fun reset v hv => Guards.ite (fun hr => Guards.pure ⟨rfl, hv.2 ?_⟩) fun _ => ?_
  · simpa using hr
  · refine Guards.step hv.1 fun _ v hv => Guards.step hv fun _ v hv => ?_
    exact activation_frees hv (fun _ hl => by cases hl)

theorem reconcileAbandonedOwnership_guards (h : Held t₀ w₀ (Fenced t₀) w) :
    Guards t₀ n w₀ (reconcileAbandonedOwnership env t₀.controlTargetId) w
      (fun b v => b = false ∧ Held t₀ w₀ (Fenced t₀) v) := by
  unfold reconcileAbandonedOwnership
  refine Guards.targetById h (Guards.step h fun nowMs v hv => Guards.ite (fun ha => ?_) fun _ => reconcileFenced_guards hv)
  simp [h.standing.mem.lifecycle] at ha

theorem ensureOperable_guards (h : Held t₀ w₀ (Fenced t₀) w) {P : Unit → World → Prop} :
    Guards t₀ n w₀ (ensureOperable t₀.controlTargetId) w P := by
  unfold ensureOperable
  refine Guards.targetById h (Sat.ofExcept (fun _ hok => ?_) fun _ _ => h.closed)
  exact absurd h.standing.mem.lifecycle (ensureOperable_ok hok).2.1

theorem assertTargetCurrent_guards (h : Held t₀ w₀ (Fenced t₀) w) {P : Unit → World → Prop} :
    Guards t₀ n w₀ (assertTargetCurrent env t₀.controlTargetId) w P := by
  unfold assertTargetCurrent
  refine Guards.bind (reconcileAbandonedOwnership_guards h) fun _ v hv => ?_
  exact Guards.bind (P := fun _ _ => False) (ensureOperable_guards hv.2) fun _ _ hf => hf.elim

theorem enter_guards (h : Held t₀ w₀ (Fenced t₀) w) {f : Unit → M α} (hf : ∀ a, Along Onward (f a)) :
    Guards t₀ n w₀ (assertTargetCurrent env t₀.controlTargetId >>= f) w P :=
  Guards.bind (P := fun _ _ => False) (assertTargetCurrent_guards h) fun _ _ hx => hx.elim

theorem fenceInFlight_guards (h : Held t₀ w₀ (Fenced t₀) w) :
    Guards t₀ n w₀ (fenceInFlight env t₀.controlTargetId) w (fun b v => b = false ∧ Held t₀ w₀ (Fenced t₀) v) := by
  unfold fenceInFlight
  refine Guards.targetById h (Guards.ite (fun ha => ?_) fun _ => Guards.pure ⟨rfl, h⟩)
  simp [h.standing.mem.lifecycle] at ha

theorem outputCursorOf_guards (h : Held t₀ w₀ (Fenced t₀) w) :
    Guards t₀ n w₀ (outputCursorOf env t₀.controlTargetId) w (fun _ v => Held t₀ w₀ (Fenced t₀) v) := by
  unfold outputCursorOf
  refine Guards.targetById h (Guards.ite (fun ha => ?_) fun _ => Guards.pure h)
  simp [h.standing.mem.lifecycle] at ha

theorem validateLease_guards (h : Held t₀ w₀ (Fenced t₀) w) (lease : Lease) (allowDraining : Bool)
    {P : Unit → World → Prop} : Guards t₀ n w₀ (validateLease t₀.controlTargetId lease allowDraining) w P := by
  unfold validateLease
  refine Guards.step h fun epoch v hv => Guards.targetById hv (Guards.step hv fun _ v hv => ?_)
  refine Sat.ofExcept (fun _ hok => ?_) fun _ _ => hv.closed
  exact absurd hv.standing.mem.lifecycle (ensureOperable_ok (operable_of_validateLease hok)).2.1

end

/-! ## The section's copy of the state -/

theorem load_fences (h : Held t₀ w₀ (fun _ => True) w) :
    Guards t₀ n w₀ (loadTerminalControlState env) w (fun _ v => Held t₀ w₀ (Fenced t₀) v) := by
  obtain ⟨d, hd, hf⟩ := h.standing.file
  unfold Guards Sat loadTerminalControlState
  simp only [Bind.bind, Eff.get, hd]
  cases h1 : parseTerminalControlState d with
  | error e => exact h.closed
  | ok state =>
    obtain rfl := parse_ok h1
    exact .inr ⟨IsTrans.trans _ _ _ h.since ⟨le_rfl, [], rfl⟩, h.standing.file, hf⟩

theorem Guards.locked {x : M α} [Along Onward x] {P : α → World → Prop} (h : Held t₀ w₀ (fun _ => True) w)
    (hx : ∀ v, Held t₀ w₀ (Fenced t₀) v → Guards t₀ n w₀ x v P) : Guards t₀ n w₀ (locked env x) w P := by
  unfold Terminal.locked
  exact Guards.step h fun _ v hv => Guards.bind (load_fences hv) fun _ v hv => hx v hv

/-- **A section starts anew**: before it reads its copy of the state it has one of the state file. -/
def Anew (x : M α) : Prop :=
  ∀ w d, w.disk = some d → x w = x { w with mem := d } ∨
    ((∀ a, (x w).1 ≠ .ok a) ∧ Onward w (x w).2 ∧ (x w).2.disk = w.disk)

theorem interleave_mem (ttlMs : Int) (m : ControlState) : ∀ (calls : List (Sync × Int)) (w : World),
    World.interleave ttlMs { w with mem := m } calls = { w.interleave ttlMs calls with mem := m }
  | [], _ => rfl
  | (call, nowMs) :: rest, w => interleave_mem ttlMs m rest
    { w with
      loc := (call.run ttlMs nowMs w.running w.loc).1
      trace := (call.run ttlMs nowMs w.running w.loc).2 ++ w.trace }

theorem locked_anew (x : M α) : Anew (locked env x) := by
  intro w d hd
  -- the world in which the lock is taken
  have hstates := interleave_states env.relayV2ExactTargetTtlMs (env.interleaved w.tick) { w with tick := w.tick + 1 }
  have hon : Onward w (({ w with tick := w.tick + 1 } : World).interleave env.relayV2ExactTargetTtlMs
    (env.interleaved w.tick)) := Suspends.suspend w
  have hmem := interleave_mem env.relayV2ExactTargetTtlMs d (env.interleaved w.tick) { w with tick := w.tick + 1 }
  unfold locked await
  simp only [Bind.bind, nextTick, Eff.modify, Eff.crashIf, Eff.ofExcept] at hmem ⊢
  rw [hmem]
  generalize ({ w with tick := w.tick + 1 } : World).interleave env.relayV2ExactTargetTtlMs (env.interleaved w.tick) = v
    at hstates hon
  have hd' : v.disk = some d := hstates.1.trans hd
  cases env.dies w.tick with
  | true => exact .inr ⟨fun _ h => (by cases h), hon, hstates.1⟩
  | false =>
    simp only [Bool.false_eq_true, if_false]
    cases env.lock w.tick with
    | error e => exact .inr ⟨fun _ h => (by cases h), hon, hstates.1⟩
    | ok _ =>
      unfold loadTerminalControlState
      simp only [Bind.bind, Eff.get, hd']
      cases parseTerminalControlState d with
      | error e => exact .inr ⟨fun _ h => (by cases h), hon, hstates.1⟩
      | ok s => exact .inl (by simp only [Eff.modify, hd'])

theorem Anew.require {x : M α} (hx : Anew x) (c : Bool) (e : ControlError) : Anew (Eff.require c e >>= fun _ => x) := by
  cases c with
  | true => exact hx
  | false => exact fun w d _ => .inr ⟨fun _ h => (by cases h), Std.Refl.refl w, rfl⟩

/-- **A section of another target** leaves this one alone. -/
theorem Anew.guards {x : M α} (hx : Anew x) [Along (Leaves t₀ n (Fenced t₀)) x] (h : Held t₀ w₀ (fun _ => True) w) :
    Guards t₀ n w₀ x w (fun _ v => Held t₀ w₀ (fun _ => True) v) := by
  obtain ⟨d, hd, hf⟩ := h.standing.file
  rcases hx w d hd with he | ⟨hn, ho, hdk⟩
  · have hw : Held t₀ w₀ (Fenced t₀) { w with mem := d } :=
      ⟨IsTrans.trans _ _ _ h.since ⟨le_rfl, [], rfl⟩, h.standing.file, hf⟩
    have hg := Guards.leaves (x := x) (P := fun _ v => Held t₀ w₀ (fun _ => True) v) (n := n) hw
      fun _ _ hv => hv.weaken fun _ _ => trivial
    unfold Guards Sat at hg ⊢
    rwa [he]
  · have hclosed : Closed t₀ n w₀ (x w).2 := .inr ⟨IsTrans.trans _ _ _ h.since ho, d, hdk.trans hd, hf⟩
    unfold Guards Sat
    rcases hr : x w with ⟨a | e | _, v⟩ <;> rw [hr] at hn hclosed
    · exact absurd rfl (hn a)
    · exact hclosed
    · exact hclosed

end Terminal
end TmuxWorktree
