import TmuxWorktree.Stream.Runs
/-!
# Sequence — control frames are applied once and in order

The trace alone says what was accepted (`accepted`).  A window agrees with it: it acknowledges as many frames as were
accepted and retains the fingerprints above its floor.  Every call of the authority, every acknowledgement and every
error fits what came before it (`Ordered`).
-/
namespace TmuxWorktree
namespace Stream

open Effect

variable {C : Config}

/-! ## Windows -/

/-- What a window retains of `l`, the fingerprints of all accepted frames: those above its floor. -/
structure Window.Retains (w : Window) (l : List (Nat × Fingerprint)) : Prop where
  floor : w.floor ≤ l.length
  retained : w.retained = l.drop w.floor

theorem drop_numbers {β : Type} {l : List (Nat × β)} (hl : l.map Prod.fst = List.range' 1 l.length) {n : Nat}
    {e : Nat × β} (he : e ∈ l.drop n) : n < e.1 ∧ e.1 ≤ l.length := by
  have hmem : e.1 ∈ (l.map Prod.fst).drop n := by
    rw [← List.map_drop]
    exact List.mem_map_of_mem he
  rw [hl, List.drop_range', List.mem_range'_1] at hmem
  omega

theorem Window.Retains.pass {w : Window} {l : List (Nat × Fingerprint)} (h : w.Retains l)
    (hl : l.map Prod.fst = List.range' 1 l.length) (hlen : 0 < w.retained.length) :
    Window.Retains { w with retained := w.retained.filter (fun e => e.1 ≠ w.floor + 1), floor := w.floor + 1 } l := by
  have hlt : w.floor < l.length := by
    rw [h.retained, List.length_drop] at hlen
    omega
  refine ⟨hlt, ?_⟩
  show w.retained.filter _ = l.drop (w.floor + 1)
  have hhead : (l.get ⟨w.floor, hlt⟩).1 = w.floor + 1 := by
    have hget : (l.map Prod.fst).get ⟨w.floor, by simpa using hlt⟩ = (l.get ⟨w.floor, hlt⟩).1 := by simp
    rw [← hget]
    simp only [hl, List.get_eq_getElem, List.getElem_range']
    omega
  rw [h.retained, List.drop_eq_getElem_cons hlt, List.filter_cons]
  have hout : ¬ decide ((l[w.floor]).1 ≠ w.floor + 1) = true := by simpa using hhead
  rw [if_neg hout, List.filter_eq_self]
  intro e he
  have := (drop_numbers hl he).1
  simp only [ne_eq, decide_not, Bool.not_eq_eq_eq_not, Bool.not_true, decide_eq_false_iff_not]
  omega

theorem Window.Retains.trimLoop {l : List (Nat × Fingerprint)} (hl : l.map Prod.fst = List.range' 1 l.length)
    (limit fuel : Nat) {w : Window} (h : w.Retains l) : (w.trimLoop limit fuel).Retains l := by
  induction fuel generalizing w with
  | zero => exact h
  | succ fuel ih =>
    unfold Window.trimLoop
    split
    · exact ih (h.pass hl (by omega))
    · exact h

theorem trimLoop_acked (limit fuel : Nat) (w : Window) : (w.trimLoop limit fuel).acked = w.acked := by
  induction fuel generalizing w with
  | zero => rfl
  | succ fuel ih =>
    unfold Window.trimLoop
    split
    · exact ih _
    · rfl

theorem accept_acked (limit seq : Nat) (fp : Fingerprint) (w : Window) : (w.accept limit seq fp).acked = seq :=
  trimLoop_acked ..

theorem Window.Retains.accept {w : Window} {l : List (Nat × Fingerprint)} (h : w.Retains l) {seq : Nat}
    {fp : Fingerprint} (limit : Nat) (hl : (l ++ [(seq, fp)]).map Prod.fst = List.range' 1 (l ++ [(seq, fp)]).length) :
    (w.accept limit seq fp).Retains (l ++ [(seq, fp)]) := by
  refine Window.Retains.trimLoop hl limit _ ⟨?_, ?_⟩
  · show w.floor ≤ _
    rw [List.length_append]
    exact h.floor.trans (Nat.le_add_right _ _)
  · show w.retained ++ [(seq, fp)] = _
    rw [h.retained]
    exact (List.drop_append_of_le_length h.floor).symm

theorem Window.Retains.windowMove {w w' : Window} {l : List (Nat × Fingerprint)} (h : w.Retains l)
    (hacked : w.acked = l.length) (hm : WindowMove w w') : w'.Retains l := by
  obtain ⟨_, ⟨hret, hfloor⟩ | ⟨hret, hfloor⟩⟩ := hm
  · exact ⟨hfloor ▸ h.floor, by rw [hret, hfloor]; exact h.retained⟩
  · exact ⟨by omega, by rw [hret, hfloor, hacked, List.drop_length]⟩

/-! ## The invariant -/

/-- The fingerprints of the accepted frames of a generation. -/
def Config.fingerprints (C : Config) (trace : List Event) (kind : Kind) (key : StreamKey) (generation : Nat) :
    List (Nat × Fingerprint) :=
  (accepted trace kind key generation).map fun e => (e.1, C.fingerprint e.2)

def FitsControl (C : Config) : Event → List Event → Prop
  | .wrote kind key generation seq operation _ _, past =>
    seq = (accepted past kind key generation).length + 1 ∧
      operation = ⟨C.hostInstanceId, key.streamId, generation, kind, seq⟩
  | .controlAck kind key generation _ acked, past | .controlError kind key generation _ acked _, past =>
    acked = (accepted past kind key generation).length
  | _, _ => True

/-- Every control event of a trace fits what came before it. -/
def Ordered (C : Config) : List Event → Prop
  | [] => True
  | e :: past => FitsControl C e past ∧ Ordered C past

theorem accepted_cons (e : Event) (past : List Event) (kind : Kind) (key : StreamKey) (generation : Nat) :
    accepted (e :: past) kind key generation = accepted past kind key generation ∨
      ∃ seq operation payload, e = .wrote kind key generation seq operation payload .accepted ∧
        accepted (e :: past) kind key generation = accepted past kind key generation ++ [(seq, payload)] := by
  cases e with
  | wrote k key' g seq operation payload verdict =>
    cases verdict with
    | rejected error => exact .inl rfl
    | uncertain error => exact .inl rfl
    | accepted =>
      by_cases h : k = kind ∧ key' = key ∧ g = generation
      · obtain ⟨rfl, rfl, rfl⟩ := h
        exact .inr ⟨seq, operation, payload, rfl, by simp [accepted]⟩
      · exact .inl (by simp only [accepted, if_neg h])
  | _ => exact .inl rfl

theorem Ordered.numbers {trace : List Event} (h : Ordered C trace) (kind : Kind) (key : StreamKey) (generation : Nat) :
    (accepted trace kind key generation).map Prod.fst =
      List.range' 1 (accepted trace kind key generation).length := by
  induction trace with
  | nil => rfl
  | cons e past ih =>
    have hpast := ih h.2
    rcases accepted_cons e past kind key generation with hsame | ⟨seq, operation, payload, rfl, hadd⟩
    · rw [hsame]
      exact hpast
    · have hseq : seq = (accepted past kind key generation).length + 1 := h.1.1
      rw [hadd, List.map_append, hpast, List.length_append, List.map_singleton, List.length_singleton,
        List.range'_1_concat, hseq, Nat.add_comm 1]

theorem length_fingerprints (trace : List Event) (kind : Kind) (key : StreamKey) (generation : Nat) :
    (C.fingerprints trace kind key generation).length = (accepted trace kind key generation).length := List.length_map _

theorem Ordered.fingerprints {trace : List Event} (h : Ordered C trace) (kind : Kind) (key : StreamKey)
    (generation : Nat) : (C.fingerprints trace kind key generation).map Prod.fst =
      List.range' 1 (C.fingerprints trace kind key generation).length := by
  rw [length_fingerprints, ← h.numbers]
  unfold Config.fingerprints
  rw [List.map_map]
  rfl

/-- **A stream's window agrees with the trace.**  The fingerprints of a lost stream may be gone. -/
structure WindowOk (C : Config) (trace : List Event) (kind : Kind) (key : StreamKey) (s : TerminalStream) : Prop where
  acked : (s.control.window kind).acked = (C.fingerprints trace kind key s.generation).length
  floor : (s.control.window kind).floor ≤ (C.fingerprints trace kind key s.generation).length
  retained : (s.control.window kind).Retains (C.fingerprints trace kind key s.generation) ∨
    s.status = .lost ∧ (s.control.window kind).retained = []

structure Sequenced (C : Config) (m : Manager) : Prop where
  windows : ∀ key s, m.stream key = some s → ∀ kind, WindowOk C m.trace kind key s
  ordered : Ordered C m.trace

theorem WindowOk.same {trace trace' : List Event} {kind : Kind} {key : StreamKey} {s s' : TerminalStream}
    (h : WindowOk C trace kind key s) (hg : s'.generation = s.generation) (hst : s'.status = s.status)
    (hc : s'.control = s.control)
    (ht : accepted trace' kind key s.generation = accepted trace kind key s.generation) :
    WindowOk C trace' kind key s' := by
  have hl : C.fingerprints trace' kind key s'.generation = C.fingerprints trace kind key s.generation := by
    unfold Config.fingerprints
    rw [hg, ht]
  refine ⟨?_, ?_, ?_⟩
  · rw [hc, hl]
    exact h.acked
  · rw [hc, hl]
    exact h.floor
  · rw [hc, hl, hst]
    exact h.retained

theorem WindowOk.streamMove {trace : List Event} {kind : Kind} {key : StreamKey} {s s' : TerminalStream}
    (h : WindowOk C trace kind key s) (hm : StreamMove s s') : WindowOk C trace kind key s' := by
  -- a stream that is not lost keeps its fingerprints through a change of its status
  have halive : s.status ≠ .lost → s'.generation = s.generation → s'.control = s.control →
      WindowOk C trace kind key s' := by
    intro hlost hg hc
    have hret := h.retained.resolve_right fun hr => hlost hr.1
    exact ⟨by rw [hc, hg]; exact h.acked, by rw [hc, hg]; exact h.floor, .inl (by rw [hc, hg]; exact hret)⟩
  cases hm with
  | stay keeps status _ _ control =>
    have hl : C.fingerprints trace kind key s'.generation = C.fingerprints trace kind key s.generation := by
      rw [keeps.generation]
    have hmove := control kind
    refine ⟨by rw [hl, hmove.1]; exact h.acked, ?_, ?_⟩
    · rw [hl]
      obtain ⟨_, ⟨_, hfloor⟩ | ⟨_, hfloor⟩⟩ := hmove
      · exact hfloor ▸ h.floor
      · exact hfloor ▸ h.acked.le
    · rw [hl, status]
      rcases h.retained with hret | ⟨hlost, hnil⟩
      · exact .inl (hret.windowMove h.acked hmove)
      · obtain ⟨_, ⟨hsame, _⟩ | ⟨hempty, _⟩⟩ := hmove
        · exact .inr ⟨hlost, hsame.trans hnil⟩
        · exact .inr ⟨hlost, hempty⟩
  | rephase keeps status _ _ control | unbind keeps status _ _ control => exact h.same keeps.generation status control rfl
  | detach keeps was _ _ _ _ control => exact halive (by rw [was]; decide) keeps.generation control
  | restore keeps was _ _ _ control => exact halive was keeps.generation control
  | commit keeps alive _ _ _ _ control => exact halive alive keeps.generation control

theorem WindowOk.loses {trace : List Event} {kind : Kind} {key : StreamKey} {s s' : TerminalStream}
    (h : WindowOk C trace kind key s) (hl : Loses s s') : WindowOk C trace kind key s' := by
  obtain ⟨hacked, hfloor, hret⟩ := hl.control kind
  have hg := hl.keeps.generation
  refine ⟨by rw [hacked, hg]; exact h.acked, by rw [hfloor, hg]; exact h.floor, ?_⟩
  rw [hg]
  rcases hret with hsame | hempty
  · rcases h.retained with hr | ⟨_, hnil⟩
    · exact .inl ⟨hfloor ▸ hr.floor, by rw [hsame, hfloor]; exact hr.retained⟩
    · exact .inr ⟨hl.status, hsame.trans hnil⟩
  · exact .inr ⟨hl.status, hempty⟩

/-! ## Steps -/

theorem Sequenced.update {m m' : Manager} {key : StreamKey} {f : TerminalStream → TerminalStream} (h : Sequenced C m)
    (hs : ∀ k, m'.stream k = (m.update key f).stream k) (hf : ∀ s, (f s).key = s.key)
    (ht : ∀ kind k g, accepted m'.trace kind k g = accepted m.trace kind k g) (ho : Ordered C m'.trace)
    (hok : ∀ s, m.stream key = some s → ∀ kind, WindowOk C m.trace kind key s → WindowOk C m.trace kind key (f s)) :
    Sequenced C m' := by
  refine ⟨fun k s' hs' kind => ?_, ho⟩
  rw [hs] at hs'
  rcases stream_update_cases hs' hf with ⟨_, hs'⟩ | ⟨rfl, s, hs₀, rfl⟩
  · exact (h.windows k s' hs' kind).same rfl rfl rfl (ht _ _ _)
  · exact (hok s hs₀ kind (h.windows k s hs₀ kind)).same rfl rfl rfl (ht _ _ _)

theorem Sequenced.of_streams {m m' : Manager} (h : Sequenced C m)
    (hs : ∀ k s', m'.stream k = some s' →
      ∃ s, m.stream k = some s ∧ s'.generation = s.generation ∧ s'.status = s.status ∧ s'.control = s.control)
    (ht : ∀ kind k g, accepted m'.trace kind k g = accepted m.trace kind k g) (ho : Ordered C m'.trace) :
    Sequenced C m' := by
  refine ⟨fun k s' hs' kind => ?_, ho⟩
  obtain ⟨s, hs₀, hg, hst, hc⟩ := hs k s' hs'
  exact (h.windows k s hs₀ kind).same hg hst hc (ht _ _ _)

theorem Sequenced.tells {m : Manager} (h : Sequenced C m) {e : Event} (htells : Says m e) :
    FitsControl C e m.trace ∧ ∀ kind k g, accepted (e :: m.trace) kind k g = accepted m.trace kind k g := by
  cases e with
  | controlAck kind key generation seq acked | controlError kind key generation seq acked code =>
    obtain ⟨s, hs, rfl, rfl⟩ := htells
    refine ⟨?_, fun _ _ _ => rfl⟩
    show (s.control.window kind).acked = _
    rw [(h.windows key s hs kind).acked, length_fingerprints]
  | wrote | delivered | bound | output | abandoned => exact htells.elim
  | _ => exact ⟨trivial, fun _ _ _ => rfl⟩

theorem window_setWindow (c : Control) (kind : Kind) (w : Window) (kind' : Kind) :
    (c.setWindow kind w).window kind' = if kind' = kind then w else c.window kind' := by
  cases kind <;> cases kind' <;> rfl

theorem Sequenced.acceptWrite {m : Manager} (h : Sequenced C m) {kind : Kind} {f : Frame} {s : TerminalStream}
    (hs : m.stream f.key = some s) (hg : s.generation = f.generation) (hlive : s.status ≠ .lost)
    (hseq : f.seq = (s.control.window kind).acked + 1) : Sequenced C (m.wrote C kind f .accepted) := by
  have hwin := h.windows f.key s hs kind
  have hfit : FitsControl C (.wrote kind f.key f.generation f.seq (operationId C kind f) f.payload .accepted) m.trace :=
    ⟨by rw [hseq, hwin.acked, length_fingerprints, hg], rfl⟩
  have hordered : Ordered C (m.wrote C kind f .accepted).trace := ⟨hfit, h.ordered⟩
  have hother : ∀ kind' k g, ¬ (kind = kind' ∧ f.key = k ∧ f.generation = g) →
      accepted (m.wrote C kind f .accepted).trace kind' k g = accepted m.trace kind' k g := fun kind' k g hne =>
    if_neg hne
  have hthis : C.fingerprints (m.wrote C kind f .accepted).trace kind f.key f.generation =
      C.fingerprints m.trace kind f.key f.generation ++ [(f.seq, C.fingerprint f.payload)] := by
    have hacc : accepted (m.wrote C kind f .accepted).trace kind f.key f.generation =
        accepted m.trace kind f.key f.generation ++ [(f.seq, f.payload)] := if_pos ⟨rfl, rfl, rfl⟩
    unfold Config.fingerprints
    rw [hacc, List.map_append]
    rfl
  refine ⟨fun k s' hs' kind' => ?_, hordered⟩
  rcases stream_update_cases (show (m.update f.key _).stream k = some s' from hs') fun _ => rfl with
    ⟨hk, hs'⟩ | ⟨rfl, s₀, hs₀, rfl⟩
  · exact (h.windows k s' hs' kind').same rfl rfl rfl (hother _ _ _ fun hne => hk hne.2.1.symm)
  · cases hs.symm.trans hs₀
    by_cases hkind : kind' = kind
    · subst hkind
      have hnumbers := hordered.fingerprints kind' f.key f.generation
      rw [hthis] at hnumbers
      have hret : (s.control.window kind').Retains (C.fingerprints m.trace kind' f.key f.generation) :=
        hg ▸ hwin.retained.resolve_right fun hr => hlive hr.1
      have hnew := hret.accept (C.dedupeEntries kind') hnumbers
      have hgen : ∀ c, ({ s with control := c } : TerminalStream).generation = f.generation := fun _ => hg
      refine ⟨?_, ?_, .inl ?_⟩
      · rw [hgen, hthis, window_setWindow, if_pos rfl, accept_acked, hseq, hwin.acked, hg, List.length_append]
        rfl
      · rw [hgen, hthis, window_setWindow, if_pos rfl]
        exact hnew.floor
      · rw [hgen, hthis, window_setWindow, if_pos rfl]
        exact hnew
    · have hsame := h.windows f.key s hs kind'
      have hacc := hother kind' f.key s.generation fun hne => hkind hne.1.symm
      have hl : C.fingerprints (m.wrote C kind f .accepted).trace kind' f.key s.generation =
          C.fingerprints m.trace kind' f.key s.generation := by
        unfold Config.fingerprints
        rw [hacc]
      refine ⟨?_, ?_, ?_⟩ <;> rw [window_setWindow, if_neg hkind]
      · exact hl ▸ hsame.acked
      · exact hl ▸ hsame.floor
      · exact hl ▸ hsame.retained

theorem Sequenced.move {m m' : Manager} (h : Sequenced C m) (hm : Move C m m') : Sequenced C m' := by
  cases hm with
  | quiet hq =>
    refine h.of_streams (fun k s' hs' => ⟨s', ?_, rfl, rfl, rfl⟩) (fun _ _ _ => by rw [hq.trace]) (hq.trace ▸ h.ordered)
    unfold Manager.stream at hs' ⊢
    rw [← hq.streams]
    exact hs'
  | issue | store => exact ⟨h.windows, h.ordered⟩
  | stream hf hmove => exact h.update (fun _ => rfl) hf (fun _ _ _ => rfl) h.ordered fun s hs _ hw => hw.streamMove (hmove s hs)
  | say htells =>
    obtain ⟨hfit, hacc⟩ := h.tells htells
    exact h.of_streams (fun _ s' hs' => ⟨s', hs', rfl, rfl, rfl⟩) hacc ⟨hfit, h.ordered⟩
  | @clear key retained _ =>
    have htrace : (m.clearRing key retained).trace = m.trace := by unfold Manager.clearRing; split <;> rfl
    refine h.update (fun _ => stream_clearRing _) (fun _ => rfl) (fun _ _ _ => by rw [htrace]) (htrace ▸ h.ordered) ?_
    exact fun _ _ _ hw => hw.same rfl rfl rfl rfl
  | abandon =>
    refine h.update (fun _ => rfl) (fun _ => rfl) (fun _ _ _ => rfl) ⟨trivial, h.ordered⟩ ?_
    exact fun _ _ _ hw => hw.same rfl rfl rfl rfl
  | output =>
    refine h.update (fun _ => rfl) (fun _ => rfl) (fun _ _ _ => rfl) ⟨trivial, h.ordered⟩ ?_
    exact fun _ _ _ hw => hw.same rfl rfl rfl rfl
  | bind =>
    refine h.update (fun _ => rfl) (fun _ => rfl) (fun _ _ _ => rfl) ⟨trivial, h.ordered⟩ ?_
    exact fun _ _ _ hw => hw.same rfl rfl rfl rfl
  | @acknowledge key s b next _ _ _ _ =>
    have htrace : (m.acknowledge key next).trace = m.trace := by unfold Manager.acknowledge; split <;> rfl
    refine h.update (fun _ => stream_acknowledge _) (fun _ => rfl) (fun _ _ _ => by rw [htrace]) (htrace ▸ h.ordered) ?_
    exact fun _ _ _ hw => hw.same rfl rfl rfl rfl
  | drop => exact h.of_streams (fun _ s' hs' => ⟨s', (stream_of_delete hs').2, rfl, rfl, rfl⟩) (fun _ _ _ => rfl) h.ordered
  | @write kind f s verdict hs hg hlive hseq =>
    have hwin := h.windows f.key s hs kind
    have hfit : FitsControl C (.wrote kind f.key f.generation f.seq (operationId C kind f) f.payload verdict) m.trace :=
      ⟨by rw [hseq, hwin.acked, length_fingerprints, hg], rfl⟩
    cases verdict with
    | accepted => exact h.acceptWrite hs hg hlive hseq
    | rejected e => exact h.of_streams (fun _ s' hs' => ⟨s', hs', rfl, rfl, rfl⟩) (fun _ _ _ => rfl) ⟨hfit, h.ordered⟩
    | uncertain e => exact h.of_streams (fun _ s' hs' => ⟨s', hs', rfl, rfl, rfl⟩) (fun _ _ _ => rfl) ⟨hfit, h.ordered⟩

theorem Sequenced.step {m m' : Manager} (h : Sequenced C m) (hstep : Step C m m') : Sequenced C m' := by
  rcases hstep with (hmove | hloss) | hbirth | hintake
  · exact h.move hmove
  · cases hloss with
    | lose hf hloses =>
      exact h.update (fun _ => rfl) hf (fun _ _ _ => rfl) h.ordered fun s hs _ hw => hw.loses (hloses s hs)
  · cases hbirth with
    | @publish r generation canonicalBinding tokenHash t _ hfresh =>
      refine ⟨fun k s hs kind => ?_, h.ordered⟩
      by_cases hk : k = r.key
      · cases hk
        cases (stream_put_self (newStream C r generation canonicalBinding tokenHash t)).symm.trans hs
        have hnone : C.fingerprints m.trace kind r.key generation = [] := by
          unfold Config.fingerprints
          rw [hfresh.accepted]
          rfl
        refine ⟨?_, ?_, .inl ⟨?_, ?_⟩⟩ <;> cases kind <;>
          first
          | exact Nat.zero_le _
          | exact (congrArg List.length hnone).symm
          | exact (congrArg (List.drop 0) hnone).symm
      · exact h.windows k s ((stream_put_ne hk).symm.trans hs) kind
  · cases hintake with
    | deliver => exact h.of_streams (fun _ s' hs' => ⟨s', hs', rfl, rfl, rfl⟩) (fun _ _ _ => rfl) ⟨trivial, h.ordered⟩
    | @append key s data rest _ _ _ _ =>
      have htrace : (m.appendRing key data).trace = m.trace := by unfold Manager.appendRing; split <;> rfl
      refine h.update (fun _ => stream_appendRing _) (fun _ => rfl) (fun _ _ _ => by rw [htrace]) (htrace ▸ h.ordered) ?_
      exact fun _ _ _ hw => hw.same rfl rfl rfl rfl
    | settle => exact ⟨h.windows, h.ordered⟩

theorem sequenced_run (generations : Nat) (closes : List CloseRecord) (answers : Nat → Answer) (ops : List Op) :
    Sequenced C (run C ops (Manager.start generations closes answers)) :=
  run_keeps (fun _ _ _ h hstep => h.step hstep) ⟨(fun _ _ hs => nomatch hs), trivial⟩ ops

/-! ## Conflicts -/

theorem Sequenced.moves {m m' : Manager} (h : Sequenced C m) (hm : Moves C m m') : Sequenced C m' := by
  obtain ⟨hpath, -⟩ := hm
  induction hpath with
  | refl => exact h
  | tail _ hchange ih => exact ih.step (.inl hchange)

theorem Window.Retains.fingerprintAt {w : Window} {l : List (Nat × Fingerprint)} (h : w.Retains l)
    (hl : l.map Prod.fst = List.range' 1 l.length) {seq : Nat} {fp : Fingerprint} (hmem : (seq, fp) ∈ l)
    (hfloor : w.floor < seq) : w.fingerprintAt seq = some fp := by
  have hdrop : (seq, fp) ∈ l.drop w.floor := by
    rw [← List.take_append_drop w.floor l] at hmem
    refine (List.mem_append.mp hmem).resolve_left fun htake => ?_
    have hnum : seq ∈ (l.map Prod.fst).take w.floor := by
      rw [← List.map_take]
      exact List.mem_map_of_mem htake
    rw [hl, List.take_range'_of_length_ge h.floor, List.mem_range'_1] at hnum
    omega
  have hnodup : (l.map Prod.fst).Nodup := by
    rw [hl]
    exact List.nodup_range'
  unfold Window.fingerprintAt
  rw [h.retained]
  cases hfind : (l.drop w.floor).find? fun e => decide (e.1 = seq) with
  | none => exact absurd (List.find?_eq_none.mp hfind _ hdrop) (by simp)
  | some e =>
    have hkey : e.1 = seq := by simpa using List.find?_some hfind
    have hin : e ∈ l := List.mem_of_mem_drop (List.mem_of_find?_eq_some hfind)
    have heq : e = (seq, fp) := List.inj_on_of_nodup_map hnodup hin hmem hkey
    rw [heq]
    rfl

/-- A frame of a live stream's own route that carries a retained number with something else. -/
structure Conflicts (C : Config) (kind : Kind) (f : Frame) (s : TerminalStream) (m : Manager) : Prop where
  stream : m.stream f.key = some s
  route : (s.binding.any fun b => b.route = f.route) = true
  generation : s.generation = f.generation
  status : s.status ≠ .lost ∧ s.status ≠ .closed
  payload : checkPayload C f.payload m = (.ok (), m)
  seq : f.seq ≤ maxCounter
  floor : (s.control.window kind).floor < f.seq
  other : ∃ payload, (f.seq, payload) ∈ accepted m.trace kind f.key f.generation ∧
    C.fingerprint payload ≠ C.fingerprint f.payload

theorem Conflicts.known {kind : Kind} {f : Frame} {s : TerminalStream} {m : Manager} (h : Conflicts C kind f s m)
    (hseq : Sequenced C m) : (s.control.window kind).known f.seq (C.fingerprint f.payload) = some false := by
  have hwin := hseq.windows f.key s h.stream kind
  obtain ⟨payload, hmem, hne⟩ := h.other
  have hfp : (f.seq, C.fingerprint payload) ∈ C.fingerprints m.trace kind f.key s.generation := by
    rw [h.generation]
    exact List.mem_map.mpr ⟨(f.seq, payload), hmem, rfl⟩
  have hnum := hseq.ordered.fingerprints kind f.key s.generation
  have hat := (hwin.retained.resolve_right fun hr => h.status.1 hr.1).fingerprintAt hnum hfp h.floor
  have hle : f.seq ≤ (s.control.window kind).acked := by
    rw [hwin.acked]
    have hin : f.seq ∈ (C.fingerprints m.trace kind f.key s.generation).map Prod.fst := List.mem_map_of_mem hfp
    rw [hnum, List.mem_range'_1] at hin
    omega
  unfold Window.known
  rw [if_neg (Nat.not_le.mpr h.floor), if_pos hle, hat]
  simp [hne]

/-- **A conflicting frame is answered with the conflict**, and with nothing else. -/
theorem Conflicts.answered {kind : Kind} {f : Frame} {s : TerminalStream} {m m₁ : Manager} (h : Conflicts C kind f s m₁)
    (hseq : Sequenced C m₁) (hsweep : sweepInternal C.limits false m = (.ok (), m₁)) :
    ∃ m₂, m₂.trace = m₁.trace ∧ controlInternal C kind f m = sendFrame (.controlError kind f.key f.generation f.seq
      (s.control.window kind).acked (conflictCode kind)) m₂ := by
  have hbound : requireBoundStream f.key f.route f.generation m₁ = (.ok s, m₁) := by
    unfold requireBoundStream
    rw [Eff.bind_run (a := some s) (v := m₁) (by unfold streamAt; rw [h.stream])]
    dsimp only
    rw [if_neg h.status.1, h.route, if_neg (by decide), if_neg (not_not.mpr h.generation.symm)]
    rfl
  have hparse : parsePositiveCounter f.seq (seqLabel kind) m₁ = (.ok f.seq, m₁) := by
    have hpos : ¬ f.seq = 0 := by have := h.floor; omega
    have hcounter : parseCounter f.seq (seqLabel kind) m₁ = (.ok f.seq, m₁) := by
      unfold parseCounter
      rw [if_neg (Nat.not_lt.mpr h.seq)]
      rfl
    unfold parsePositiveCounter
    rw [Eff.bind_run hcounter, if_neg hpos]
    rfl
  let g : TerminalStream → TerminalStream := fun s => { s with
    control := s.control.setWindow kind (Window.cancelRetryOf f.seq (s.control.window kind)) }
  have hupdated : (m₁.update f.key g).stream f.key = some (g s) := stream_updated h.stream fun _ => rfl
  have hacked : ((g s).control.window kind).acked = (s.control.window kind).acked := by
    show ((s.control.setWindow kind _).window kind).acked = _
    rw [window_setWindow, if_pos rfl]
    unfold Window.cancelRetryOf
    split <;> rfl
  have hbinding : (g s).binding.isSome = true := by
    obtain ⟨b, hb, _⟩ := (Option.any_eq_true _ _).mp h.route
    show s.binding.isSome = true
    rw [hb]
    rfl
  have hgen : (g s).generation = f.generation := h.generation
  refine ⟨m₁.update f.key g, rfl, ?_⟩
  unfold controlInternal
  rw [Eff.bind_run hsweep, Eff.bind_run hbound, if_neg h.status.2, Eff.bind_run h.payload, Eff.bind_run hparse]
  unfold handleFrame
  rw [h.known hseq]
  show answerKnown kind f false m₁ = _
  unfold answerKnown
  rw [Eff.bind_run (show updateWindow f.key kind (Window.cancelRetryOf f.seq) m₁ = (.ok (), m₁.update f.key g) from rfl),
    if_neg (by decide)]
  unfold sendControlError
  rw [Eff.bind_run (a := some (g s)) (v := m₁.update f.key g) (by unfold streamAt; rw [hupdated])]
  dsimp only
  rw [if_pos hbinding, hgen, hacked]

/-! ## The two control sequences -/

theorem Ordered.fits {l past : List Event} {e : Event} (h : Ordered C (l ++ e :: past)) : FitsControl C e past := by
  induction l with
  | nil => exact h.1
  | cons _ l ih => exact ih h.2

theorem accepted_grow (later past : List Event) (kind : Kind) (key : StreamKey) (generation : Nat) :
    (accepted past kind key generation).length ≤ (accepted (later ++ past) kind key generation).length := by
  induction later with
  | nil => exact le_rfl
  | cons e later ih =>
    rw [List.cons_append]
    rcases accepted_cons e (later ++ past) kind key generation with hsame | ⟨_, _, _, _, hadd⟩
    · rw [hsame]
      exact ih
    · rw [hadd, List.length_append]
      omega

/-- **Frames of one kind are applied once and in order**, as the trace and the state of a manager show it. -/
structure AppliedInOrder (C : Config) (kind : Kind) (m : Manager) : Prop where
  /-- The accepted calls of a generation are numbered 1, 2, 3 and so on, in this order. -/
  numbers : ∀ key generation, (accepted m.trace kind key generation).map Prod.fst =
    List.range' 1 (accepted m.trace kind key generation).length
  /-- A stream acknowledges exactly the accepted calls. -/
  acked : ∀ key s, m.stream key = some s →
    (s.control.window kind).acked = (accepted m.trace kind key s.generation).length
  /-- An acknowledgement reports the number acknowledged at that moment. -/
  acks : ∀ later key generation seq n past, m.trace = later ++ .controlAck kind key generation seq n :: past →
    n = (accepted past kind key generation).length
  acksGrow : ∀ later key generation seq' n' between seq n past,
    m.trace = later ++ .controlAck kind key generation seq' n' :: (between ++ .controlAck kind key generation seq n :: past) →
    n ≤ n'
  /-- A call is of the next number, so no number is written again once it was accepted. -/
  writes : ∀ later key generation seq operation payload verdict past,
    m.trace = later ++ .wrote kind key generation seq operation payload verdict :: past →
    seq = (accepted past kind key generation).length + 1
  operations : ∀ key generation seq operation operation' payload payload' verdict verdict',
    .wrote kind key generation seq operation payload verdict ∈ m.trace →
    .wrote kind key generation seq operation' payload' verdict' ∈ m.trace → operation = operation'
  /-- The retained fingerprints are those above the floor.  A stream that is being lost has dropped them; between
  operations there is no such stream. -/
  retained : ∀ key s, m.stream key = some s → (s.status ≠ .lost ∨ ∀ n, (m.answers n).cut = false) →
    (s.control.window kind).retained =
      (C.fingerprints m.trace kind key s.generation).drop (s.control.window kind).floor
  /-- A retained number with something else is answered with the conflict, and nothing is written. -/
  conflicts : ∀ m₁ f s, sweepInternal C.limits false m = (.ok (), m₁) → Conflicts C kind f s m₁ →
    ∃ m₂, m₂.trace = m₁.trace ∧ controlInternal C kind f m = sendFrame (.controlError kind f.key f.generation f.seq
      (s.control.window kind).acked (conflictCode kind)) m₂

theorem operation_of_mem {trace : List Event} (h : Ordered C trace) {kind : Kind} {key : StreamKey} {generation seq : Nat}
    {operation : OperationId} {payload : Payload} {verdict : Verdict}
    (hmem : .wrote kind key generation seq operation payload verdict ∈ trace) :
    operation = ⟨C.hostInstanceId, key.streamId, generation, kind, seq⟩ := by
  obtain ⟨later, past, rfl⟩ := List.append_of_mem hmem
  exact h.fits.2

theorem Sequenced.retained {m : Manager} (h : Sequenced C m) {kind : Kind} {key : StreamKey} {s : TerminalStream}
    (hs : m.stream key = some s) (hclear : s.status ≠ .lost ∨ s.Clear) :
    (s.control.window kind).retained =
      (C.fingerprints m.trace kind key s.generation).drop (s.control.window kind).floor := by
  have hwin := h.windows key s hs kind
  rcases hwin.retained with hret | ⟨hlost, hnil⟩
  · exact hret.retained
  · obtain ⟨_, hfloor⟩ := (hclear.resolve_left fun hne => hne hlost) hlost kind
    rw [hnil, hfloor, hwin.acked, List.drop_length]

/-- **Terminal input and resize are applied once and in order**, in every run. -/
theorem control_applied_in_order (C : Config) (generations : Nat) (closes : List CloseRecord) (answers : Nat → Answer)
    (ops : List Op) (kind : Kind) :
    AppliedInOrder C kind (run C ops (Manager.start generations closes answers)) := by
  have hseq := sequenced_run (C := C) generations closes answers ops
  have hanswers : (run C ops (Manager.start generations closes answers)).answers = answers :=
    (run_steps ops (sane_start generations closes answers) rfl).tidy.later.answers
  refine ⟨hseq.ordered.numbers kind, fun key s hs => ?_, fun later key generation seq n past htrace => ?_,
    fun later key generation seq' n' between seq n past htrace => ?_,
    fun later key generation seq operation payload verdict past htrace => ?_,
    fun key generation seq operation operation' payload payload' verdict verdict' hmem hmem' => ?_,
    fun key s hs halive => ?_, fun m₁ f s hsweep hconflict => ?_⟩
  · rw [(hseq.windows key s hs kind).acked, length_fingerprints]
  · exact Ordered.fits (e := .controlAck kind key generation seq n) (htrace ▸ hseq.ordered)
  · have hord : Ordered C _ := htrace ▸ hseq.ordered
    have hn' : n' = (accepted (between ++ .controlAck kind key generation seq n :: past) kind key generation).length :=
      hord.fits
    have hn : n = (accepted past kind key generation).length := by
      refine Ordered.fits (C := C) (l := later ++ .controlAck kind key generation seq' n' :: between)
        (e := .controlAck kind key generation seq n) ?_
      rw [List.append_assoc, List.cons_append]
      exact hord
    rw [hn', hn]
    exact (accepted_grow [_] past kind key generation).trans (accepted_grow between _ kind key generation)
  · exact (Ordered.fits (e := .wrote kind key generation seq operation payload verdict) (htrace ▸ hseq.ordered)).1
  · rw [operation_of_mem hseq.ordered hmem, operation_of_mem hseq.ordered hmem']
  · refine hseq.retained hs (halive.imp_right fun huncut => ?_)
    exact run_clear generations closes (fun n => by rw [← hanswers]; exact huncut n) ops key s hs
  · have hstill := (sweepInternal_moves (C := C) C.limits false).along (run C ops (Manager.start generations closes answers))
    rw [hsweep] at hstill
    exact hconflict.answered (hseq.moves hstill) hsweep

end Stream
end TmuxWorktree
