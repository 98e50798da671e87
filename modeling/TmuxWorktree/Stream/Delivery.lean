import TmuxWorktree.Stream.Runs
/-!
# Delivery — terminal output reaches the client without loss or gap

What a backend has delivered to a generation is in the trace (`delivered`), and so is how far a binding has sent
(`sentThrough`).  A stream's ring holds a stretch of the delivered bytes that ends where the delivered bytes end, but
for what is still in hand; a binding's cursor lies inside it.  Every frame fits what came before it (`Delivered`).
-/
namespace TmuxWorktree
namespace Stream

open Effect

variable {C : Config}

/-! ## The ring and the delivered bytes -/

/-- The bytes of a generation that have come but are not yet in its ring. -/
def owed (m : Manager) (key : StreamKey) (generation : Nat) : Bytes :=
  match m.inbox with
  | some (k, g, rest) => if k = key ∧ g = generation then rest else []
  | none => []

structure ByteRing.Holds (r : ByteRing) (all : Bytes) : Prop where
  tail : r.tail ≤ all.length
  bytes : r.bytes = (all.take r.tail).drop r.start

theorem ByteRing.Holds.extend {r : ByteRing} {all more : Bytes} (h : r.Holds all) : r.Holds (all ++ more) := by
  refine ⟨?_, ?_⟩
  · rw [List.length_append]
    exact h.tail.trans (Nat.le_add_right _ _)
  · rw [List.take_append_of_le_length h.tail]
    exact h.bytes

theorem ByteRing.Holds.clear {r : ByteRing} {all : Bytes} (h : r.Holds all) : r.clear.2.Holds all := by
  refine ⟨h.tail, ?_⟩
  rw [ByteRing.clear_bytes, ByteRing.clear_tail, ByteRing.clear_start, List.drop_of_length_le]
  rw [List.length_take]
  exact Nat.min_le_left _ _

theorem ByteRing.Holds.discardBefore {r : ByteRing} {all : Bytes} (h : r.Holds all) (n : Nat) :
    (r.discardBefore n).2.Holds all := by
  have hstart : r.start ≤ (r.discardBefore n).2.start := by
    unfold ByteRing.discardBefore
    split
    · exact le_rfl
    · exact Nat.le_add_right _ _
  refine ⟨by rw [ByteRing.discardBefore_tail]; exact h.tail, ?_⟩
  rw [ByteRing.discardBefore_bytes, ByteRing.discardBefore_tail, h.bytes, List.drop_drop]
  congr 1
  omega

theorem ByteRing.Holds.append {r : ByteRing} {all data rest : Bytes} (h : r.Holds all)
    (hnext : all.drop r.tail = data ++ rest) : (r.append data).Holds all := by
  have hlen : all.length = r.tail + (data.length + rest.length) := by
    have := congrArg List.length hnext
    rw [List.length_drop, List.length_append] at this
    have := h.tail
    omega
  have htake : all.take (r.tail + data.length) = all.take r.tail ++ data := by
    rw [List.take_add, hnext, List.take_left]
  have hstart : r.start ≤ r.predictedStartAfter data.length := by
    have := r.tail_eq
    unfold ByteRing.predictedStartAfter
    omega
  refine ⟨?_, ?_⟩
  · rw [ByteRing.append_tail, hlen]
    omega
  · have hin : r.start ≤ (all.take r.tail).length := by
      rw [List.length_take]
      have := r.start_le_tail
      have := h.tail
      omega
    rw [ByteRing.append_bytes, ByteRing.append_tail, htake, ByteRing.append_start, h.bytes,
      ← List.drop_append_of_le_length hin, List.drop_drop]
    congr 1
    omega

theorem ByteRing.Holds.read {r : ByteRing} {all : Bytes} (h : r.Holds all) {first limit through : Nat}
    (hne : r.read first limit through ≠ []) :
    r.read first limit through = (all.drop first).take (r.read first limit through).length ∧
      first + (r.read first limit through).length ≤ r.tail ∧
      (r.read first limit through).length ≤ limit ∧ first + (r.read first limit through).length ≤ through := by
  rw [ByteRing.read_eq] at hne ⊢
  split
  · rename_i hrange
    obtain ⟨h1, h2, h3⟩ := ByteRing.hasRange_iff.mp hrange
    have htail := h.tail
    have hdata : (r.bytes.drop (first - r.start)).take (min (through - first) limit) =
        (all.drop first).take (min (through - first) limit) := by
      rw [h.bytes, List.drop_drop, show r.start + (first - r.start) = first by omega, List.drop_take, List.take_take]
      congr 1
      omega
    have hlen : ((r.bytes.drop (first - r.start)).take (min (through - first) limit)).length =
        min (through - first) limit := by
      rw [hdata, List.length_take, List.length_drop]
      omega
    rw [hlen]
    exact ⟨hdata, by omega, by omega, by omega⟩
  · rename_i hrange
    rw [if_neg hrange] at hne
    exact absurd rfl hne

/-! ## The invariant -/

/-- A binding agrees with the trace, and its cursor lies inside the stream. -/
structure BindingOk (C : Config) (trace : List Event) (key : StreamKey) (s : TerminalStream) (b : Binding) : Prop where
  made : ∃ offset, boundAt trace b.id = some (key, s.generation, offset)
  sent : sentThrough trace b.id = some b.sentThroughOffset
  acked_le : b.ackedOffset ≤ b.sentThroughOffset
  sent_le : b.sentThroughOffset ≤ s.ring.tail
  boundary_le : b.replayBoundary ≤ s.ring.tail
  unacked : b.sentThroughOffset - b.ackedOffset ≤ C.limits.maxUnackedBytes
  held : s.status = .live → s.ring.start ≤ b.ackedOffset
  kept : wasAbandoned trace b.id = false
  told : toldClosed trace b.id = true → s.close.isSome = true ∧ b.sentThroughOffset = s.ring.tail

/-- A stream holds the end of what its generation was delivered. -/
structure StreamOk (C : Config) (m : Manager) (key : StreamKey) (s : TerminalStream) : Prop where
  holds : s.ring.Holds (delivered m.trace key s.generation)
  next : s.producing = true → (delivered m.trace key s.generation).drop s.ring.tail = owed m key s.generation
  kept : s.producing = true → s.ringRetained = true
  unclosed : s.producing = true → s.close = none
  closed : s.status = .closed → s.close.isSome = true
  final : ∀ c, s.close = some c → c.finalOffset = s.ring.tail
  detached : s.status = .detached → s.binding = none
  binding : ∀ b, s.binding = some b → BindingOk C m.trace key s b

def FitsOutput : Event → List Event → Prop
  | .output id key generation offset data, past =>
    data ≠ [] ∧ data = ((delivered past key generation).drop offset).take data.length ∧
      offset + data.length ≤ (delivered past key generation).length ∧
      (∃ first, boundAt past id = some (key, generation, first)) ∧ sentThrough past id = some offset ∧
      toldClosed past id = false ∧ wasAbandoned past id = false
  | .opened id key generation offset, past | .replayStarted id key generation offset, past =>
    boundAt past id = some (key, generation, offset)
  | .closed id key generation final, past =>
    ∀ first, boundAt past id = some (key, generation, first) → ∃ n, sentThrough past id = some n ∧ final ≤ n
  | .abandoned _ _ _ _ origin status, _ => ¬ (origin = .pump ∧ status = .live)
  | .reset id _ _ _, past => wasAbandoned past id = true
  | .bound id _ _ _, past => boundAt past id = none ∧ sentThrough past id = none
  | _, _ => True

def Delivered : List Event → Prop
  | [] => True
  | e :: past => FitsOutput e past ∧ Delivered past

structure Unbound (trace : List Event) (id : Nat) : Prop where
  made : boundAt trace id = none
  sent : sentThrough trace id = none
  told : toldClosed trace id = false
  kept : wasAbandoned trace id = false

structure Delivery (C : Config) (m : Manager) : Prop where
  streams : ∀ key s, m.stream key = some s → StreamOk C m key s
  fresh : ∀ id, m.bindings ≤ id → Unbound m.trace id
  inbox : ∀ key generation rest, m.inbox = some (key, generation, rest) → rest <:+ delivered m.trace key generation
  fits : Delivered m.trace

/-! ## Streams that keep their cursor -/

theorem through_eq {m : Manager} {key : StreamKey} {s : TerminalStream} (h : StreamOk C m key s) :
    s.through = s.ring.tail := by
  unfold TerminalStream.through
  cases hc : s.close with
  | none => rfl
  | some c => exact h.final c hc

theorem producing_iff (s : TerminalStream) : s.producing = true ↔ s.status = .live ∨ s.status = .detached := by
  simp [TerminalStream.producing]

/-- The events of a binding that matter for its cursor. -/
structure SameTrace (trace trace' : List Event) (id : Nat) : Prop where
  made : boundAt trace' id = boundAt trace id
  sent : sentThrough trace' id = sentThrough trace id
  told : toldClosed trace' id = toldClosed trace id
  kept : wasAbandoned trace' id = wasAbandoned trace id

theorem SameTrace.rfl {trace : List Event} {id : Nat} : SameTrace trace trace id := ⟨Eq.refl _, Eq.refl _, Eq.refl _, Eq.refl _⟩

theorem BindingOk.retrace {trace trace' : List Event} {key : StreamKey} {s : TerminalStream} {b : Binding}
    (h : BindingOk C trace key s b) (ht : SameTrace trace trace' b.id) : BindingOk C trace' key s b :=
  { h with
    made := by rw [ht.made]; exact h.made
    sent := ht.sent.trans h.sent
    kept := ht.kept.trans h.kept
    told := fun htold => h.told (ht.told.symm.trans htold) }

theorem Unbound.retrace {trace trace' : List Event} {id : Nat} (h : Unbound trace id) (ht : SameTrace trace trace' id) :
    Unbound trace' id := ⟨ht.made.trans h.made, ht.sent.trans h.sent, ht.told.trans h.told, ht.kept.trans h.kept⟩

theorem StreamOk.retrace {m m' : Manager} {key : StreamKey} {s : TerminalStream} (h : StreamOk C m key s)
    (hd : delivered m'.trace key s.generation = delivered m.trace key s.generation)
    (ho : owed m' key s.generation = owed m key s.generation)
    (hb : ∀ b, s.binding = some b → SameTrace m.trace m'.trace b.id) : StreamOk C m' key s :=
  { h with
    holds := hd ▸ h.holds
    next := fun hp => by rw [hd, ho]; exact h.next hp
    binding := fun b hb' => (h.binding b hb').retrace (hb b hb') }

theorem BindingOk.restream {trace : List Event} {key : StreamKey} {s s' : TerminalStream} {b b' : Binding}
    (h : BindingOk C trace key s b) (hk : Keeps s s') (hlive : s'.status = .live → s.status = .live)
    (hclose : s.close.isSome = true → s'.close.isSome = true) (hb : SameCursor b b') : BindingOk C trace key s' b' where
  made := by rw [hb.id, hk.generation]; exact h.made
  sent := by rw [hb.id, hb.sent]; exact h.sent
  acked_le := by rw [hb.acked, hb.sent]; exact h.acked_le
  sent_le := by rw [hb.sent, hk.ring]; exact h.sent_le
  boundary_le := by rw [hb.boundary, hk.ring]; exact h.boundary_le
  unacked := by rw [hb.acked, hb.sent]; exact h.unacked
  held := fun hl => by rw [hk.ring, hb.acked]; exact h.held (hlive hl)
  kept := by rw [hb.id]; exact h.kept
  told := fun ht => by
    rw [hb.id] at ht
    rw [hb.sent, hk.ring]
    exact ⟨hclose (h.told ht).1, (h.told ht).2⟩

theorem SameCursor.rfl {b : Binding} : SameCursor b b := ⟨Eq.refl _, Eq.refl _, Eq.refl _, Eq.refl _⟩

theorem StreamOk.streamMove {m : Manager} {key : StreamKey} {s s' : TerminalStream} (h : StreamOk C m key s)
    (hm : StreamMove s s') : StreamOk C m key s' := by
  have hk := hm.keeps
  have hholds : s'.ring.Holds (delivered m.trace key s'.generation) := by
    rw [hk.ring, hk.generation]
    exact h.holds
  -- the ring's part of a stream that was producing already
  have hnext : s.producing = true → (delivered m.trace key s'.generation).drop s'.ring.tail = owed m key s'.generation := by
    rw [hk.ring, hk.generation]
    exact h.next
  have hkept : s.producing = true → s'.ringRetained = true := by
    rw [hk.ringRetained]
    exact h.kept
  have hfinal : s'.close = s.close → ∀ c, s'.close = some c → c.finalOffset = s'.ring.tail := by
    intro hc c hc'
    rw [hk.ring]
    exact h.final c (hc ▸ hc')
  have hsame : s'.status = s.status → s'.producing = s.producing := by
    intro hst
    unfold TerminalStream.producing
    rw [hst]
  cases hm with
  | stay keeps status close binding _ =>
    refine ⟨hholds, fun hp => hnext (hsame status ▸ hp), fun hp => hkept (hsame status ▸ hp),
      fun hp => close.trans (h.unclosed (hsame status ▸ hp)), fun hc => close ▸ h.closed (status ▸ hc), hfinal close,
      fun hd => binding.trans (h.detached (status ▸ hd)), fun b hb => ?_⟩
    exact (h.binding b (binding ▸ hb)).restream keeps (fun hl => status ▸ hl) (fun hc => close ▸ hc) SameCursor.rfl
  | rephase keeps status close binding _ =>
    refine ⟨hholds, fun hp => hnext (hsame status ▸ hp), fun hp => hkept (hsame status ▸ hp),
      fun hp => close.trans (h.unclosed (hsame status ▸ hp)), fun hc => close ▸ h.closed (status ▸ hc), hfinal close,
      fun hd => ?_, fun b' hb' => ?_⟩
    · cases hb' : s'.binding with
      | none => rfl
      | some b' =>
        obtain ⟨b, hb, _⟩ := binding b' hb'
        rw [h.detached (status ▸ hd)] at hb
        cases hb
    · obtain ⟨b, hb, hcur⟩ := binding b' hb'
      exact (h.binding b hb).restream keeps (fun hl => status ▸ hl) (fun hc => close ▸ hc) hcur
  | unbind keeps status close binding _ =>
    exact ⟨hholds, fun hp => hnext (hsame status ▸ hp), fun hp => hkept (hsame status ▸ hp),
      fun hp => close.trans (h.unclosed (hsame status ▸ hp)), fun hc => close ▸ h.closed (status ▸ hc), hfinal close,
      fun _ => binding, fun b hb => nomatch binding.symm.trans hb⟩
  | detach keeps was status close unbound binding _ =>
    have hlive : s.producing = true := (producing_iff s).mpr (.inl was)
    exact ⟨hholds, fun _ => hnext hlive, fun _ => hkept hlive, fun _ => close.trans (h.unclosed hlive),
      fun hc => (nomatch status.symm.trans hc), hfinal close, fun _ => binding, fun b hb => nomatch binding.symm.trans hb⟩
  | restore keeps was status close binding _ =>
    cases hc : s.close with
    | some c =>
      simp only [hc, Option.isSome_some, if_true] at status
      have hdead : ¬ s'.producing = true := by
        rw [producing_iff, status]
        decide
      refine ⟨hholds, fun hp => absurd hp hdead, fun hp => absurd hp hdead, fun hp => absurd hp hdead,
        fun _ => by rw [close, hc]; rfl, hfinal close, fun hd => (nomatch status.symm.trans hd), fun b hb => ?_⟩
      exact (h.binding b (binding ▸ hb)).restream keeps (fun hl => nomatch status.symm.trans hl)
        (fun h => close ▸ h) SameCursor.rfl
    | none =>
      simp only [hc, Option.isSome_none, Bool.false_eq_true, if_false] at status
      -- a stream without a close is live or detached, and a detached one has no binding
      have hproducing : s.producing = true := by
        rw [producing_iff]
        cases hs : s.status with
        | live => exact .inl rfl
        | detached => exact .inr rfl
        | closed =>
          have := h.closed hs
          rw [hc] at this
          cases this
        | lost => exact absurd hs was
      refine ⟨hholds, fun _ => hnext hproducing, fun _ => hkept hproducing, fun _ => close.trans hc,
        fun hcl => (nomatch status.symm.trans hcl), hfinal close, fun hd => (nomatch status.symm.trans hd), fun b hb => ?_⟩
      have hb₀ : s.binding = some b := binding ▸ hb
      refine (h.binding b hb₀).restream keeps (fun _ => ?_) (fun h => close ▸ h) SameCursor.rfl
      refine ((producing_iff s).mp hproducing).resolve_right fun hd => ?_
      rw [h.detached hd] at hb₀
      cases hb₀
  | commit keeps alive was status close binding _ =>
    obtain ⟨c, hc, hfin⟩ := close
    have hdead : ¬ s'.producing = true := by
      rw [producing_iff, status]
      decide
    refine ⟨hholds, fun hp => absurd hp hdead, fun hp => absurd hp hdead, fun hp => absurd hp hdead,
      fun _ => by rw [hc]; rfl, fun c' hc' => ?_, fun hd => (nomatch status.symm.trans hd), fun b hb => ?_⟩
    · cases hc.symm.trans hc'
      rw [keeps.ring]
      exact hfin
    · exact (h.binding b (binding ▸ hb)).restream keeps (fun hl => nomatch status.symm.trans hl)
        (fun _ => by rw [hc]; rfl) SameCursor.rfl

theorem StreamOk.loses {m : Manager} {key : StreamKey} {s s' : TerminalStream} (h : StreamOk C m key s)
    (hl : Loses s s') : StreamOk C m key s' := by
  have hdead : ¬ s'.producing = true := by
    rw [producing_iff, hl.status]
    decide
  refine ⟨by rw [hl.keeps.ring, hl.keeps.generation]; exact h.holds, fun hp => absurd hp hdead,
    fun hp => absurd hp hdead, fun hp => absurd hp hdead, fun hc => (nomatch hl.status.symm.trans hc),
    fun c hc => by rw [hl.keeps.ring]; exact h.final c (hl.close ▸ hc), fun hd => (nomatch hl.status.symm.trans hd),
    fun b hb => ?_⟩
  rcases hl.binding with hsame | hnone
  · exact (h.binding b (hsame ▸ hb)).restream hl.keeps (fun hlive => nomatch hl.status.symm.trans hlive)
      (fun hc => hl.close ▸ hc) SameCursor.rfl
  · exact nomatch hnone.symm.trans hb

/-! ## Moves that add nothing to the trace -/

theorem owed_of_inbox {m m' : Manager} (h : m'.inbox = m.inbox) (key : StreamKey) (generation : Nat) :
    owed m' key generation = owed m key generation := by
  unfold owed
  rw [h]

theorem Delivery.still {m m' : Manager} (h : Delivery C m) (htrace : m'.trace = m.trace) (hinbox : m'.inbox = m.inbox)
    (hbindings : m'.bindings = m.bindings) (hs : ∀ k s', m'.stream k = some s' → StreamOk C m k s') : Delivery C m' := by
  refine ⟨fun k s' hs' => ?_, ?_, ?_, htrace ▸ h.fits⟩
  · refine (hs k s' hs').retrace (by rw [htrace]) (owed_of_inbox hinbox _ _) fun _ _ => ?_
    rw [htrace]
    exact SameTrace.rfl
  · rw [hbindings, htrace]
    exact h.fresh
  · rw [hinbox, htrace]
    exact h.inbox

theorem Delivery.updated {m : Manager} {key : StreamKey} {f : TerminalStream → TerminalStream} (h : Delivery C m)
    {k : StreamKey} {s' : TerminalStream} (hs' : (m.update key f).stream k = some s') (hf : ∀ s, (f s).key = s.key)
    (hok : ∀ s, m.stream key = some s → StreamOk C m key s → StreamOk C m key (f s)) : StreamOk C m k s' := by
  rcases stream_update_cases hs' hf with ⟨_, hs'⟩ | ⟨rfl, s, hs, rfl⟩
  · exact h.streams k s' hs'
  · exact hok s hs (h.streams k s hs)

theorem StreamOk.clear {m : Manager} {key : StreamKey} {s : TerminalStream} (h : StreamOk C m key s) {retained : Bool}
    (hfree : (s.status = .detached ∧ retained = true) ∨ (s.status = .closed ∨ s.status = .lost)) :
    StreamOk C m key { s with ring := s.ring.clear.2, ringRetained := retained } := by
  have hretained : s.producing = true → retained = true := by
    intro hp
    rcases hfree with ⟨_, hr⟩ | hc | hl
    · exact hr
    · rw [producing_iff, hc] at hp
      exact absurd hp (by decide)
    · rw [producing_iff, hl] at hp
      exact absurd hp (by decide)
  have hnotlive : s.status ≠ .live := by
    intro hlive
    rcases hfree with ⟨hd, _⟩ | hc | hl
    · exact nomatch hlive.symm.trans hd
    · exact nomatch hlive.symm.trans hc
    · exact nomatch hlive.symm.trans hl
  refine ⟨h.holds.clear, h.next, hretained, h.unclosed, h.closed, h.final, h.detached, fun b hb => ?_⟩
  have hok := h.binding b hb
  exact { hok with held := fun hl => absurd hl hnotlive }

theorem StreamOk.acknowledge {m : Manager} {key : StreamKey} {s : TerminalStream} {b : Binding} {next : Nat}
    (h : StreamOk C m key s) (hb : s.binding = some b) (hle : next ≤ b.sentThroughOffset) (hlt : b.ackedOffset < next) :
    StreamOk C m key { s with
      binding := s.binding.map fun b => { b with ackedOffset := next }
      ring := (s.ring.discardBefore next).2 } := by
  have hok := h.binding b hb
  have htail : (s.ring.discardBefore next).2.tail = s.ring.tail := ByteRing.discardBefore_tail _ _
  have hstart : (s.ring.discardBefore next).2.start = max s.ring.start next :=
    ByteRing.discardBefore_start (hle.trans hok.sent_le)
  refine ⟨h.holds.discardBefore next, ?_, h.kept, h.unclosed, h.closed, ?_, ?_, fun b' hb' => ?_⟩
  · intro hp
    show (delivered m.trace key s.generation).drop (s.ring.discardBefore next).2.tail = _
    rw [htail]
    exact h.next hp
  · intro c hc
    show c.finalOffset = (s.ring.discardBefore next).2.tail
    rw [htail]
    exact h.final c hc
  · intro hd
    rw [h.detached hd] at hb
    cases hb
  · simp only [hb, Option.map_some, Option.some.injEq] at hb'
    subst hb'
    refine ⟨hok.made, hok.sent, hle, ?_, ?_, ?_, ?_, hok.kept, ?_⟩
    · show b.sentThroughOffset ≤ (s.ring.discardBefore next).2.tail
      rw [htail]
      exact hok.sent_le
    · show b.replayBoundary ≤ (s.ring.discardBefore next).2.tail
      rw [htail]
      exact hok.boundary_le
    · have := hok.unacked
      show b.sentThroughOffset - next ≤ _
      omega
    · intro hlive
      have := hok.held hlive
      show (s.ring.discardBefore next).2.start ≤ next
      rw [hstart]
      omega
    · intro ht
      show s.close.isSome = true ∧ b.sentThroughOffset = (s.ring.discardBefore next).2.tail
      rw [htail]
      exact hok.told ht

/-! ## Moves that send -/

theorem Delivery.grow {m m' : Manager} (h : Delivery C m) {e : Event} (htrace : m'.trace = e :: m.trace)
    (hinbox : m'.inbox = m.inbox) (hdelivered : ∀ k g, delivered (e :: m.trace) k g = delivered m.trace k g)
    (hfits : FitsOutput e m.trace) (hfresh : ∀ id, m'.bindings ≤ id → Unbound (e :: m.trace) id)
    (hs : ∀ k s', m'.stream k = some s' → StreamOk C { m with trace := e :: m.trace } k s') : Delivery C m' := by
  refine ⟨fun k s' hs' => ?_, by rw [htrace]; exact hfresh, ?_, by rw [htrace]; exact ⟨hfits, h.fits⟩⟩
  · refine (hs k s' hs').retrace (by rw [htrace]) (owed_of_inbox hinbox _ _) fun _ _ => ?_
    rw [htrace]
    exact SameTrace.rfl
  · intro k g rest hin
    rw [hinbox] at hin
    rw [htrace, hdelivered]
    exact h.inbox k g rest hin

theorem Delivery.same_key {m : Manager} (h : Delivery C m) {k k' : StreamKey} {s s' : TerminalStream} {b b' : Binding}
    (hs : m.stream k = some s) (hs' : m.stream k' = some s') (hb : s.binding = some b) (hb' : s'.binding = some b')
    (hid : b'.id = b.id) : k' = k := by
  obtain ⟨o, ho⟩ := ((h.streams k s hs).binding b hb).made
  obtain ⟨o', ho'⟩ := ((h.streams k' s' hs').binding b' hb').made
  rw [hid, ho] at ho'
  exact (congrArg Prod.fst (Option.some.inj ho')).symm

theorem Delivery.used {m : Manager} (h : Delivery C m) {k : StreamKey} {s : TerminalStream} {b : Binding}
    (hs : m.stream k = some s) (hb : s.binding = some b) : b.id < m.bindings := by
  by_contra hle
  obtain ⟨o, ho⟩ := ((h.streams k s hs).binding b hb).made
  have hnone := (h.fresh b.id (Nat.le_of_not_lt hle)).made
  rw [hnone] at ho
  cases ho

theorem sameTrace_other {trace : List Event} {e : Event} {i id : Nat} (hne : i ≠ id)
    (he : (∃ k g o, e = .bound i k g o) ∨ (∃ k g o d, e = .output i k g o d) ∨ (∃ k g f, e = .closed i k g f) ∨
      ∃ k g r o st, e = .abandoned i k g r o st) : SameTrace trace (e :: trace) id := by
  rcases he with ⟨k, g, o, rfl⟩ | ⟨k, g, o, d, rfl⟩ | ⟨k, g, f, rfl⟩ | ⟨k, g, r, o, st, rfl⟩
  · exact ⟨if_neg hne, if_neg hne, rfl, rfl⟩
  · exact ⟨rfl, if_neg hne, rfl, rfl⟩
  · exact ⟨rfl, rfl, by simp [toldClosed, hne], rfl⟩
  · exact ⟨rfl, rfl, rfl, by simp [wasAbandoned, hne]⟩

theorem StreamOk.cons {m : Manager} {k : StreamKey} {s : TerminalStream} (h : StreamOk C m k s) {e : Event}
    (hd : delivered (e :: m.trace) k s.generation = delivered m.trace k s.generation)
    (hb : ∀ b, s.binding = some b → SameTrace m.trace (e :: m.trace) b.id) :
    StreamOk C { m with trace := e :: m.trace } k s := h.retrace hd rfl hb

theorem Delivery.tells {m : Manager} (h : Delivery C m) (hsane : Sane m) {e : Event} (htells : Says m e) :
    Delivery C (m.emit e) := by
  -- an event that names no binding leaves every cursor alone
  have hplain : (∀ k g, delivered (e :: m.trace) k g = delivered m.trace k g) →
      (∀ id, SameTrace m.trace (e :: m.trace) id) → FitsOutput e m.trace → Delivery C (m.emit e) := by
    intro hd hsame hfits
    refine h.grow rfl rfl hd hfits (fun id hid => (h.fresh id hid).retrace (hsame id)) fun k s hs => ?_
    exact (h.streams k s hs).cons (hd k s.generation) fun b _ => hsame b.id
  cases e with
  | closed id key generation final =>
    obtain ⟨k, s, b, c, hs, hb, rfl, hc, hsent, hwhat⟩ := htells
    have hok := h.streams k s hs
    have hbok := hok.binding b hb
    have hfinal : c.finalOffset = s.ring.tail := hok.final c hc
    refine h.grow rfl rfl (fun _ _ => rfl) ?_ ?_ ?_
    · intro first hfirst
      refine ⟨b.sentThroughOffset, hbok.sent, ?_⟩
      rcases hwhat with ⟨_, _, rfl⟩ | ⟨r, hr, rfl, rfl, rfl⟩
      · exact hsent.ge
      · obtain ⟨o, ho⟩ := hbok.made
        rw [ho] at hfirst
        have hk : k = r.streamKey := congrArg Prod.fst (Option.some.inj hfirst)
        have hg : s.generation = r.generation := congrArg (fun t => t.2.1) (Option.some.inj hfirst)
        have hle := (hsane.records r (List.mem_append_left _ hr)).2 s (hk ▸ hs) hg
        rw [through_eq hok] at hle
        omega
    · intro id hid
      refine (h.fresh id hid).retrace (sameTrace_other ?_ (.inr (.inr (.inl ⟨_, _, _, rfl⟩))))
      exact Nat.ne_of_lt ((h.used hs hb).trans_le hid)
    · intro k' s' hs'
      by_cases hk : k' = k
      · subst hk
        cases hs.symm.trans hs'
        refine { (h.streams k' s hs) with binding := fun b' hb' => ?_ }
        cases hb.symm.trans hb'
        refine { hbok with told := fun _ => ⟨?_, hsent.trans hfinal⟩ }
        rw [hc]
        rfl
      · refine (h.streams k' s' hs').cons rfl fun b' hb' => sameTrace_other (fun hid => hk ?_) (.inr (.inr (.inl ⟨_, _, _, rfl⟩)))
        exact h.same_key hs hs' hb hb' hid.symm
  | opened id key generation offset => exact hplain (fun _ _ => rfl) (fun _ => SameTrace.mk rfl rfl rfl rfl) htells
  | replayStarted id key generation offset => exact hplain (fun _ _ => rfl) (fun _ => SameTrace.mk rfl rfl rfl rfl) htells
  | reset id key generation reason => exact hplain (fun _ _ => rfl) (fun _ => SameTrace.mk rfl rfl rfl rfl) htells
  | delivered | bound | output | abandoned | wrote => exact htells.elim
  | _ => exact hplain (fun _ _ => rfl) (fun _ => SameTrace.mk rfl rfl rfl rfl) trivial

theorem StreamOk.no_pump_reset {m : Manager} {key : StreamKey} {s : TerminalStream} {b : Binding}
    (h : StreamOk C m key s) (hb : s.binding = some b) (hlive : s.status = .live)
    (hreset : s.pumpThrough b > b.sentThroughOffset ∧ (b.sentThroughOffset < s.ring.start ∨ s.ringRetained = false ∨
      0 < b.credit C.limits ∧ s.ring.read b.sentThroughOffset (min (b.credit C.limits) C.limits.maxFrameBytes)
        (s.pumpThrough b) = [])) : False := by
  have hok := h.binding b hb
  have hproducing : s.producing = true := (producing_iff s).mpr (.inl hlive)
  have hacked := hok.acked_le
  have hstart := hok.held hlive
  have hthrough : s.pumpThrough b ≤ s.ring.tail := by
    unfold TerminalStream.pumpThrough
    split
    · exact hok.boundary_le
    · exact (through_eq h).le
  obtain ⟨hmore, hgap | hring | ⟨hcredit, hread⟩⟩ := hreset
  · omega
  · rw [h.kept hproducing] at hring
    cases hring
  · have hrange : s.ring.hasRange b.sentThroughOffset (s.pumpThrough b) = true :=
      ByteRing.hasRange_iff.mpr ⟨by omega, by omega, hthrough⟩
    rw [ByteRing.read_eq, if_pos hrange] at hread
    have hlen := congrArg List.length hread
    have hframe := C.limits.frame_pos
    have htail := s.ring.tail_eq
    rw [List.length_take, List.length_drop, ByteRing.length_bytes, List.length_nil] at hlen
    omega

theorem Delivery.abandon {m : Manager} (h : Delivery C m) {key : StreamKey} {s : TerminalStream} {b : Binding}
    {reason : ResetReason} {origin : ResetOrigin} (hs : m.stream key = some s) (hb : s.binding = some b)
    (hpump : origin = .pump → s.pumpThrough b > b.sentThroughOffset ∧
      (b.sentThroughOffset < s.ring.start ∨ s.ringRetained = false ∨
        0 < b.credit C.limits ∧ s.ring.read b.sentThroughOffset (min (b.credit C.limits) C.limits.maxFrameBytes)
          (s.pumpThrough b) = [])) : Delivery C (m.abandon key s b reason origin) := by
  have hevent : (∃ k g r o st, Event.abandoned b.id key s.generation reason origin s.status = .abandoned b.id k g r o st) :=
    ⟨_, _, _, _, _, rfl⟩
  refine h.grow (e := .abandoned b.id key s.generation reason origin s.status) rfl rfl (fun _ _ => rfl) ?_ ?_ ?_
  · rintro ⟨horigin, hlive⟩
    exact (h.streams key s hs).no_pump_reset hb hlive (hpump horigin)
  · intro id hid
    refine (h.fresh id hid).retrace (sameTrace_other ?_ (.inr (.inr (.inr hevent))))
    exact Nat.ne_of_lt ((h.used hs hb).trans_le hid)
  · intro k s' hs'
    rcases stream_update_cases (show (m.update key _).stream k = some s' from hs') fun _ => rfl with
      ⟨hk, hs'⟩ | ⟨rfl, s₀, hs₀, rfl⟩
    · refine (h.streams k s' hs').cons rfl fun b' hb' => sameTrace_other (fun hid => hk ?_) (.inr (.inr (.inr hevent)))
      exact h.same_key hs hs' hb hb' hid.symm
    · cases hs.symm.trans hs₀
      exact ((h.streams k s hs).streamMove (unbind_move s)).cons rfl fun b' hb' => nomatch hb'

theorem Delivery.output {m : Manager} (h : Delivery C m) {key : StreamKey} {s : TerminalStream} {b : Binding}
    {data : Bytes} (hs : m.stream key = some s) (hb : s.binding = some b)
    (hdata : data = s.ring.read b.sentThroughOffset (min (b.credit C.limits) C.limits.maxFrameBytes) (s.pumpThrough b))
    (hne : data ≠ []) : Delivery C (m.advance key b s.generation data) := by
  have hok := h.streams key s hs
  have hbok := hok.binding b hb
  obtain ⟨hbytes, htail, hlimit, _⟩ := hok.holds.read (hdata ▸ hne)
  rw [← hdata] at hbytes htail hlimit
  have hlen : 0 < data.length := List.length_pos_of_ne_nil hne
  have htold : toldClosed m.trace b.id = false := by
    by_contra ht
    have := (hbok.told (Bool.eq_true_of_not_eq_false ht)).2
    omega
  have hevent : ∃ k g o d, Event.output b.id key s.generation b.sentThroughOffset data = .output b.id k g o d :=
    ⟨_, _, _, _, rfl⟩
  refine h.grow (e := .output b.id key s.generation b.sentThroughOffset data) rfl rfl (fun _ _ => rfl) ?_ ?_ ?_
  · exact ⟨hne, hbytes, htail.trans hok.holds.tail, hbok.made, hbok.sent, htold, hbok.kept⟩
  · intro id hid
    refine (h.fresh id hid).retrace (sameTrace_other ?_ (.inr (.inl hevent)))
    exact Nat.ne_of_lt ((h.used hs hb).trans_le hid)
  · intro k s' hs'
    rcases stream_update_cases (show (m.update key _).stream k = some s' from hs') fun _ => rfl with
      ⟨hk, hs'⟩ | ⟨rfl, s₀, hs₀, rfl⟩
    · refine (h.streams k s' hs').cons rfl fun b' hb' => sameTrace_other (fun hid => hk ?_) (.inr (.inl hevent))
      exact h.same_key hs hs' hb hb' hid.symm
    · cases hs.symm.trans hs₀
      have hacked := hbok.acked_le
      have hunacked := hbok.unacked
      refine ⟨hok.holds, hok.next, hok.kept, hok.unclosed, hok.closed, hok.final, ?_, fun b' hb' => ?_⟩
      · intro hd
        rw [hok.detached hd] at hb
        cases hb
      · cases hb'
        refine ⟨hbok.made, if_pos rfl, ?_, htail, hbok.boundary_le, ?_, hbok.held, hbok.kept, fun ht => ?_⟩
        · show b.ackedOffset ≤ b.sentThroughOffset + data.length
          omega
        · unfold Binding.credit at hlimit
          show b.sentThroughOffset + data.length - b.ackedOffset ≤ _
          omega
        · exact absurd (htold.symm.trans ht) (by decide)

theorem Delivery.bind {m : Manager} (h : Delivery C m) {key : StreamKey} {s : TerminalStream} {route offset : Nat}
    {notification : Bool} (hs : m.stream key = some s) (hbound : s.status = .detached → s.binding ≠ none)
    (hreplay : s.canReplay offset s.through = true) :
    Delivery C (m.bind key route s.generation offset s.through notification) := by
  have hok := h.streams key s hs
  have hnew := h.fresh m.bindings le_rfl
  have hevent : ∃ k g o, Event.bound m.bindings key s.generation offset = .bound m.bindings k g o := ⟨_, _, _, rfl⟩
  have hthrough := through_eq hok
  have hrange : s.ring.start ≤ offset ∧ offset ≤ s.ring.tail := by
    unfold TerminalStream.canReplay at hreplay
    rw [Bool.and_eq_true, ByteRing.hasRange_iff, hthrough] at hreplay
    exact ⟨hreplay.2.1, hreplay.2.2.1⟩
  refine h.grow (e := .bound m.bindings key s.generation offset) rfl rfl (fun _ _ => rfl) ⟨hnew.made, hnew.sent⟩ ?_ ?_
  · intro id hid
    have hid' : m.bindings + 1 ≤ id := hid
    exact (h.fresh id (by omega)).retrace (sameTrace_other (by omega) (.inl hevent))
  · intro k s' hs'
    rcases stream_update_cases (show (m.update key _).stream k = some s' from hs') fun _ => rfl with
      ⟨hk, hs'⟩ | ⟨rfl, s₀, hs₀, rfl⟩
    · refine (h.streams k s' hs').cons rfl fun b' hb' => sameTrace_other ?_ (.inl hevent)
      exact (h.used hs' hb').ne'
    · cases hs.symm.trans hs₀
      refine ⟨hok.holds, hok.next, hok.kept, hok.unclosed, hok.closed, hok.final, ?_, fun b' hb' => ?_⟩
      · intro hd
        exact absurd (hok.detached hd) (hbound hd)
      · cases hb'
        refine ⟨⟨offset, if_pos rfl⟩, if_pos rfl, le_rfl, hrange.2, hthrough.le, ?_, fun _ => hrange.1, hnew.kept, ?_⟩
        · show offset - offset ≤ _
          omega
        · intro ht
          exact absurd (hnew.told.symm.trans ht) (by decide)

/-! ## Steps -/

theorem Delivery.move {m m' : Manager} (h : Delivery C m) (hsane : Sane m) (hm : Move C m m') : Delivery C m' := by
  cases hm with
  | quiet hq =>
    refine h.still hq.trace hq.inbox hq.bindings fun k s' hs' => h.streams k s' ?_
    unfold Manager.stream at hs' ⊢
    rw [← hq.streams]
    exact hs'
  | issue | store => exact h.still rfl rfl rfl h.streams
  | stream hf hmove => exact h.still rfl rfl rfl fun _ _ hs' => h.updated hs' hf fun s hs hok => hok.streamMove (hmove s hs)
  | say htells => exact h.tells hsane htells
  | @clear key retained hfree =>
    have hrest : (m.clearRing key retained).trace = m.trace ∧ (m.clearRing key retained).inbox = m.inbox ∧
        (m.clearRing key retained).bindings = m.bindings := by
      unfold Manager.clearRing
      split <;> exact ⟨rfl, rfl, rfl⟩
    refine h.still hrest.1 hrest.2.1 hrest.2.2 fun k s' hs' => ?_
    rw [stream_clearRing] at hs'
    exact h.updated hs' (fun _ => rfl) fun s hs hok => hok.clear (hfree s hs)
  | abandon hs hb hpump => exact h.abandon hs hb hpump
  | output hs hb _ hdata hne => exact h.output hs hb hdata hne
  | bind hs _ hbound hreplay => exact h.bind hs hbound hreplay
  | @acknowledge key s b next hs hb hle hlt =>
    have hrest : (m.acknowledge key next).trace = m.trace ∧ (m.acknowledge key next).inbox = m.inbox ∧
        (m.acknowledge key next).bindings = m.bindings := by
      unfold Manager.acknowledge
      split <;> exact ⟨rfl, rfl, rfl⟩
    refine h.still hrest.1 hrest.2.1 hrest.2.2 fun k s' hs' => ?_
    rw [stream_acknowledge] at hs'
    refine h.updated hs' (fun _ => rfl) fun s₀ hs₀ hok => ?_
    cases hs.symm.trans hs₀
    exact hok.acknowledge hb hle hlt
  | drop => exact h.still rfl rfl rfl fun k s' hs' => h.streams k s' (stream_of_delete hs').2
  | @write kind f s verdict hs _ _ _ =>
    have hemit : Delivery C (m.emit (.wrote kind f.key f.generation f.seq (operationId C kind f) f.payload verdict)) :=
      h.grow rfl rfl (fun _ _ => rfl) trivial
        (fun id hid => (h.fresh id hid).retrace (SameTrace.mk rfl rfl rfl rfl))
        fun k s hs => (h.streams k s hs).cons rfl fun _ _ => SameTrace.mk rfl rfl rfl rfl
    cases verdict with
    | accepted =>
      refine hemit.still rfl rfl rfl fun k s' hs' => ?_
      refine hemit.updated (show (Manager.update _ f.key _).stream k = some s' from hs') (fun _ => rfl) fun s₀ _ hok => ?_
      exact { hok with binding := fun b hb => { (hok.binding b hb) with } }
    | rejected e => exact hemit
    | uncertain e => exact hemit

theorem Delivery.birth {m m' : Manager} (h : Delivery C m) (hb : Birth C m m') : Delivery C m' := by
  cases hb with
  | @publish r generation canonicalBinding tokenHash t _ hfresh =>
    refine h.still rfl rfl rfl fun k s hs => ?_
    by_cases hk : k = r.key
    · cases hk
      cases (stream_put_self (newStream C r generation canonicalBinding tokenHash t)).symm.trans hs
      have hnone : delivered m.trace r.key generation = [] := hfresh.delivered r.key
      have howed : owed m r.key generation = [] := by
        unfold owed
        split
        · rename_i k g rest hin
          split
          · rename_i hkg
            obtain ⟨rfl, rfl⟩ := hkg
            have hsuffix := h.inbox _ _ _ hin
            rw [hnone] at hsuffix
            exact List.suffix_nil.mp hsuffix
          · rfl
        · rfl
      refine ⟨⟨Nat.zero_le _, ?_⟩, fun _ => ?_, fun _ => rfl, fun _ => rfl, fun hc => ?_, fun c hc => ?_, fun _ => rfl,
        fun b hb => ?_⟩
      · show [] = ((delivered m.trace r.key generation).take 0).drop 0
        rfl
      · show (delivered m.trace r.key generation).drop 0 = owed m r.key generation
        rw [hnone, howed]
        rfl
      · exact nomatch hc
      · exact nomatch hc
      · exact nomatch hb
    · exact h.streams k s ((stream_put_ne hk).symm.trans hs)

theorem delivered_deliver (m : Manager) (key : StreamKey) (generation : Nat) (data : Bytes) (k : StreamKey) (g : Nat) :
    delivered (m.deliver key generation data).trace k g =
      if key = k ∧ generation = g then delivered m.trace k g ++ data else delivered m.trace k g := rfl

theorem Delivery.deliver {m : Manager} (h : Delivery C m) {key : StreamKey} {generation : Nat} {data : Bytes}
    (hfree : m.inbox = none) : Delivery C (m.deliver key generation data) := by
  have hnothing : ∀ k g, owed m k g = [] := fun k g => by
    unfold owed
    rw [hfree]
  refine ⟨fun k s hs => ?_, ?_, ?_, ⟨trivial, h.fits⟩⟩
  · have hok := h.streams k s hs
    have howed : owed (m.deliver key generation data) k s.generation =
        if key = k ∧ generation = s.generation then data else [] := rfl
    by_cases hkg : key = k ∧ generation = s.generation
    · have hd : delivered (m.deliver key generation data).trace k s.generation =
          delivered m.trace k s.generation ++ data := by rw [delivered_deliver, if_pos hkg]
      refine { hok with holds := ?_, next := fun hp => ?_, binding := fun b hb => ?_ }
      · rw [hd]
        exact hok.holds.extend
      · rw [hd, List.drop_append_of_le_length hok.holds.tail, hok.next hp, hnothing, howed, if_pos hkg, List.nil_append]
      · exact (hok.binding b hb).retrace (SameTrace.mk rfl rfl rfl rfl)
    · have hd : delivered (m.deliver key generation data).trace k s.generation = delivered m.trace k s.generation := by
        rw [delivered_deliver, if_neg hkg]
      refine hok.retrace hd ?_ fun _ _ => SameTrace.mk rfl rfl rfl rfl
      rw [howed, if_neg hkg, hnothing]
  · exact fun id hid => (h.fresh id hid).retrace (SameTrace.mk rfl rfl rfl rfl)
  · intro k g rest hin
    obtain ⟨rfl, rfl, rfl⟩ : key = k ∧ generation = g ∧ data = rest := by
      have := Option.some.inj (show some (key, generation, data) = some (k, g, rest) from hin)
      simpa using this
    rw [delivered_deliver, if_pos ⟨rfl, rfl⟩]
    exact List.suffix_append _ _

theorem Delivery.append {m : Manager} (h : Delivery C m) {key : StreamKey} {s : TerminalStream} {data rest : Bytes}
    (hs : m.stream key = some s) (hlive : s.producing = true) (hin : m.inbox = some (key, s.generation, data ++ rest))
    (hroom : s.overtakes data.length = false) : Delivery C (m.appendRing key data) := by
  have hok := h.streams key s hs
  have hinbox : (m.appendRing key data).inbox = some (key, s.generation, rest) := by
    unfold Manager.appendRing
    rw [hs]
    simp [hin]
  have hrest : (m.appendRing key data).trace = m.trace ∧ (m.appendRing key data).bindings = m.bindings := by
    unfold Manager.appendRing
    rw [hs]
    exact ⟨rfl, rfl⟩
  have howed : ∀ k g, owed (m.appendRing key data) k g = if key = k ∧ s.generation = g then rest else [] := fun k g => by
    unfold owed
    rw [hinbox]
  have hbefore : ∀ k g, owed m k g = if key = k ∧ s.generation = g then data ++ rest else [] := fun k g => by
    unfold owed
    rw [hin]
  have hnext : (delivered m.trace key s.generation).drop s.ring.tail = data ++ rest := by
    rw [hok.next hlive, hbefore, if_pos ⟨rfl, rfl⟩]
  refine ⟨fun k s' hs' => ?_, by rw [hrest.1, hrest.2]; exact h.fresh, ?_, hrest.1 ▸ h.fits⟩
  · rw [stream_appendRing] at hs'
    rcases stream_update_cases hs' fun _ => rfl with ⟨hk, hs'⟩ | ⟨rfl, s₀, hs₀, rfl⟩
    · refine (h.streams k s' hs').retrace (by rw [hrest.1]) ?_ fun _ _ => by rw [hrest.1]; exact SameTrace.rfl
      rw [howed, hbefore, if_neg fun hkg => hk hkg.1.symm, if_neg fun hkg => hk hkg.1.symm]
    · cases hs.symm.trans hs₀
      have hclose := hok.unclosed hlive
      refine ⟨?_, fun _ => ?_, fun _ => rfl, fun _ => hclose, hok.closed, fun c hc => ?_, hok.detached, fun b hb => ?_⟩
      · rw [hrest.1]
        exact hok.holds.append hnext
      · rw [hrest.1, howed]
        show (delivered m.trace k s.generation).drop (s.ring.append data).tail = _
        rw [ByteRing.append_tail, ← List.drop_drop, hnext, List.drop_left, if_pos ⟨rfl, rfl⟩]
      · exact nomatch hclose.symm.trans hc
      · have hbok := hok.binding b hb
        have hroom' : s.ring.predictedStartAfter data.length ≤ b.ackedOffset := by
          unfold TerminalStream.overtakes at hroom
          rw [show s.binding = some b from hb, Option.any_some, decide_eq_false_iff_not] at hroom
          exact Nat.le_of_not_lt hroom
        rw [hrest.1]
        refine ⟨hbok.made, hbok.sent, hbok.acked_le, ?_, ?_, hbok.unacked, fun _ => ?_, hbok.kept, fun ht => ?_⟩
        · show b.sentThroughOffset ≤ (s.ring.append data).tail
          rw [ByteRing.append_tail]
          exact hbok.sent_le.trans (Nat.le_add_right _ _)
        · show b.replayBoundary ≤ (s.ring.append data).tail
          rw [ByteRing.append_tail]
          exact hbok.boundary_le.trans (Nat.le_add_right _ _)
        · show (s.ring.append data).start ≤ b.ackedOffset
          rw [ByteRing.append_start]
          exact hroom'
        · have := (hbok.told ht).1
          rw [hclose] at this
          cases this
  · intro k g rest' hin'
    obtain ⟨rfl, rfl, rfl⟩ : key = k ∧ s.generation = g ∧ rest = rest' := by
      simpa using Option.some.inj (hinbox.symm.trans hin')
    rw [hrest.1]
    exact (List.suffix_append _ _).trans (h.inbox _ _ _ hin)

theorem Delivery.settle {m : Manager} (h : Delivery C m) (hsettled : Settled m) : Delivery C { m with inbox := none } := by
  refine ⟨fun k s hs => ?_, h.fresh, fun _ _ _ hin => (nomatch hin), h.fits⟩
  have hok := h.streams k s hs
  refine { hok with next := fun hp => ?_, binding := fun b hb => { (hok.binding b hb) with } }
  refine (hok.next hp).trans ?_
  show owed m k s.generation = []
  unfold owed
  split
  · rename_i k' g rest hin
    split
    · rename_i hkg
      obtain ⟨rfl, rfl⟩ := hkg
      by_contra hne
      have := hsettled _ _ rest hin hne s hs rfl
      rw [hp] at this
      cases this
    · rfl
  · rfl

theorem Delivery.step {m m' : Manager} (h : Delivery C m) (hsane : Sane m) (hstep : Step C m m') : Delivery C m' := by
  rcases hstep with (hmove | hloss) | hbirth | hintake
  · exact h.move hsane hmove
  · cases hloss with
    | lose hf hloses =>
      exact h.still rfl rfl rfl fun _ _ hs' => h.updated hs' hf fun s hs hok => hok.loses (hloses s hs)
  · exact h.birth hbirth
  · cases hintake with
    | deliver _ hfree => exact h.deliver hfree
    | append hs hlive hin hroom => exact h.append hs hlive hin hroom
    | settle hsettled => exact h.settle hsettled

theorem delivery_run (generations : Nat) (closes : List CloseRecord) (answers : Nat → Answer) (ops : List Op) :
    Delivery C (run C ops (Manager.start generations closes answers)) := by
  refine run_keeps (fun _ _ hsane h hstep => h.step hsane hstep) ⟨fun _ _ hs => (nomatch hs), ?_, ?_, trivial⟩ ops
  · exact fun _ _ => ⟨rfl, rfl, rfl, rfl⟩
  · exact fun _ _ _ hin => nomatch hin

/-! ## What a client sees -/

/-- The frames of output sent on a binding, oldest first: offset and bytes. -/
def outputsOf : List Event → Nat → List (Nat × Bytes)
  | [], _ => []
  | .output i _ _ offset data :: past, id => if i = id then outputsOf past id ++ [(offset, data)] else outputsOf past id
  | _ :: past, id => outputsOf past id

/-- Each frame starts where the one before it ended, the first one at `first`. -/
def Contiguous : Nat → List (Nat × Bytes) → Prop
  | _, [] => True
  | first, (offset, data) :: rest => offset = first ∧ Contiguous (first + data.length) rest

theorem contiguous_concat {first offset : Nat} {data : Bytes} {l : List (Nat × Bytes)} (h : Contiguous first l)
    (hoffset : offset = first + (l.map fun f => f.2.length).sum) : Contiguous first (l ++ [(offset, data)]) := by
  induction l generalizing first with
  | nil => exact ⟨by simpa using hoffset, trivial⟩
  | cons f rest ih =>
    refine ⟨h.1, ih h.2 ?_⟩
    rw [hoffset, List.map_cons, List.sum_cons]
    omega

theorem Delivered.contiguous {trace : List Event} (h : Delivered trace) {id : Nat} {key : StreamKey}
    {generation first : Nat} (hb : boundAt trace id = some (key, generation, first)) :
    Contiguous first (outputsOf trace id) ∧
      sentThrough trace id = some (first + ((outputsOf trace id).map fun f => f.2.length).sum) := by
  induction trace with
  | nil => cases hb
  | cons e past ih =>
    cases e with
    | bound i key' g offset =>
      by_cases hi : i = id
      · subst hi
        have hsent : sentThrough past i = none := h.1.2
        simp only [boundAt, if_true, Option.some.injEq, Prod.mk.injEq] at hb
        obtain ⟨_, _, rfl⟩ := hb
        -- nothing was sent on a binding before it was made
        have hnone : outputsOf past i = [] := by
          clear ih h
          induction past with
          | nil => rfl
          | cons e past ih' =>
            cases e with
            | bound j _ _ _ =>
              by_cases hj : j = i
              · simp [sentThrough, hj] at hsent
              · exact ih' (by simpa [sentThrough, hj] using hsent)
            | output j _ _ _ _ =>
              by_cases hj : j = i
              · simp [sentThrough, hj] at hsent
              · simp only [outputsOf, if_neg hj]
                exact ih' (by simpa [sentThrough, hj] using hsent)
            | _ => exact ih' hsent
        have hout : outputsOf (.bound i key' g offset :: past) i = [] := hnone
        rw [hout]
        exact ⟨trivial, by simp [sentThrough]⟩
      · have hsame : boundAt past id = some (key, generation, first) := by simpa [boundAt, hi] using hb
        have hpast := ih h.2 hsame
        exact ⟨hpast.1, by simpa [sentThrough, hi, outputsOf] using hpast.2⟩
    | output i key' g offset data =>
      have hpast := ih h.2 hb
      by_cases hi : i = id
      · subst hi
        have hsent : sentThrough past i = some offset := h.1.2.2.2.2.1
        have hoffset : offset = first + ((outputsOf past i).map fun f => f.2.length).sum :=
          Option.some.inj (hsent.symm.trans hpast.2)
        simp only [outputsOf, sentThrough, if_true]
        refine ⟨contiguous_concat hpast.1 hoffset, ?_⟩
        rw [List.map_append, List.sum_append, hoffset]
        simp [Nat.add_assoc]
      · simp only [outputsOf, sentThrough, if_neg hi]
        exact hpast
    | _ => exact ih h.2 hb

theorem Delivered.boundAt_mono {later p : List Event} (h : Delivered (later ++ p)) {id : Nat}
    {x : StreamKey × Nat × Nat} (hb : boundAt p id = some x) : boundAt (later ++ p) id = some x := by
  induction later with
  | nil => exact hb
  | cons e later ih =>
    have hnext := ih h.2
    cases e with
    | bound i key g offset =>
      by_cases hi : i = id
      · subst hi
        have hnone : boundAt (later ++ p) i = none := h.1.1
        rw [hnext] at hnone
        cases hnone
      · simpa [boundAt, hi] using hnext
    | _ => exact hnext

theorem delivered_mono (later p : List Event) (key : StreamKey) (generation : Nat) :
    delivered p key generation <+: delivered (later ++ p) key generation := by
  induction later with
  | nil => exact List.prefix_rfl
  | cons e later ih =>
    cases e with
    | delivered k g data =>
      by_cases h : k = key ∧ g = generation
      · have hmore : delivered (.delivered k g data :: later ++ p) key generation =
            delivered (later ++ p) key generation ++ data := if_pos h
        rw [hmore]
        exact ih.trans (List.prefix_append _ _)
      · have hsame : delivered (.delivered k g data :: later ++ p) key generation =
            delivered (later ++ p) key generation := if_neg h
        rw [hsame]
        exact ih
    | _ => exact ih

theorem Delivered.of_append {later past : List Event} (h : Delivered (later ++ past)) : Delivered past := by
  induction later with
  | nil => exact h
  | cons _ later ih => exact ih h.2

theorem toldClosed_of_mem {past : List Event} {id : Nat} {key : StreamKey} {generation final : Nat}
    (h : .closed id key generation final ∈ past) : toldClosed past id = true := by
  induction past with
  | nil => cases h
  | cons e past ih =>
    rcases List.mem_cons.mp h with rfl | hm
    · simp [toldClosed]
    · cases e with
      | closed i k g f => simp [toldClosed, ih hm]
      | _ => exact ih hm

theorem wasAbandoned_mono {later p : List Event} {id : Nat} (h : wasAbandoned p id = true) :
    wasAbandoned (later ++ p) id = true := by
  induction later with
  | nil => exact h
  | cons e later ih =>
    cases e with
    | abandoned i k g r o st => simp [wasAbandoned, ih]
    | _ => exact ih

/-- **Terminal output is delivered without loss, gap or corruption**, as the trace and the state of a manager show it. -/
structure DeliversInOrder (C : Config) (m : Manager) : Prop where
  /-- A frame of output carries the delivered bytes at its offset. -/
  bytes : ∀ id key generation offset data, .output id key generation offset data ∈ m.trace →
    data = ((delivered m.trace key generation).drop offset).take data.length ∧
      offset + data.length ≤ (delivered m.trace key generation).length
  /-- The frames of a binding are of its stream and generation, and contiguous from its first offset on. -/
  contiguous : ∀ id key generation offset data, .output id key generation offset data ∈ m.trace →
    ∃ first, boundAt m.trace id = some (key, generation, first) ∧ Contiguous first (outputsOf m.trace id)
  /-- The first offset is the one announced. -/
  opened : ∀ id key generation offset, .opened id key generation offset ∈ m.trace ∨
    .replayStarted id key generation offset ∈ m.trace → boundAt m.trace id = some (key, generation, offset)
  unacked : ∀ key s b, m.stream key = some s → s.binding = some b →
    b.sentThroughOffset - b.ackedOffset ≤ C.limits.maxUnackedBytes
  cursor : ∀ key s b, m.stream key = some s → s.binding = some b → s.status = .live →
    s.ring.start ≤ b.ackedOffset ∧ b.ackedOffset ≤ b.sentThroughOffset ∧ b.sentThroughOffset ≤ s.ring.tail
  /-- The pump never resets a live stream. -/
  pump : ∀ id key generation reason, .abandoned id key generation reason .pump .live ∉ m.trace
  /-- A binding tells its client of the close of its stream only when it has sent all bytes. -/
  closed : ∀ later id key generation final past first, m.trace = later ++ .closed id key generation final :: past →
    boundAt past id = some (key, generation, first) → ∃ n, sentThrough past id = some n ∧ final ≤ n
  /-- No output follows on a binding that has told of the close or was reset. -/
  last : ∀ later id key generation offset data past, m.trace = later ++ .output id key generation offset data :: past →
    (∀ k g f, .closed id k g f ∉ past) ∧ ∀ k g r, .reset id k g r ∉ past

theorem delivers_in_order (C : Config) (generations : Nat) (closes : List CloseRecord) (answers : Nat → Answer)
    (ops : List Op) : DeliversInOrder C (run C ops (Manager.start generations closes answers)) := by
  have h := delivery_run (C := C) generations closes answers ops
  generalize run C ops (Manager.start generations closes answers) = m at h
  have hfits : ∀ {e : Event} {l p : List Event}, m.trace = l ++ e :: p → FitsOutput e p := by
    intro e later past htrace
    have hall := h.fits
    rw [htrace] at hall
    exact hall.of_append.1
  refine ⟨fun id key generation offset data hmem => ?_, fun id key generation offset data hmem => ?_,
    fun id key generation offset hmem => ?_, fun key s b hs hb => ((h.streams key s hs).binding b hb).unacked,
    fun key s b hs hb hlive => ?_, fun id key generation reason hmem => ?_,
    fun later id key generation final past first htrace => hfits htrace first,
    fun later id key generation offset data past htrace => ?_⟩
  · obtain ⟨later, past, htrace⟩ := List.append_of_mem hmem
    obtain ⟨_, hdata, hlen, _⟩ := hfits htrace
    obtain ⟨more, hmore⟩ := delivered_mono (later ++ [.output id key generation offset data]) past key generation
    rw [List.append_assoc, List.singleton_append, ← htrace] at hmore
    rw [← hmore]
    refine ⟨?_, by rw [List.length_append]; omega⟩
    rw [List.drop_append_of_le_length (by omega), List.take_append_of_le_length (by rw [List.length_drop]; omega)]
    exact hdata
  · obtain ⟨later, past, htrace⟩ := List.append_of_mem hmem
    obtain ⟨first, hfirst⟩ := (hfits htrace).2.2.2.1
    have hb : boundAt m.trace id = some (key, generation, first) := by
      have hall := h.fits
      rw [htrace] at hall ⊢
      exact hall.boundAt_mono (p := .output id key generation offset data :: past) hfirst
    exact ⟨first, hb, (h.fits.contiguous hb).1⟩
  · have hall := h.fits
    rcases hmem with hmem | hmem
    · obtain ⟨later, past, htrace⟩ := List.append_of_mem hmem
      have hfirst : boundAt past id = some (key, generation, offset) := hfits htrace
      rw [htrace] at hall ⊢
      exact hall.boundAt_mono (p := .opened id key generation offset :: past) hfirst
    · obtain ⟨later, past, htrace⟩ := List.append_of_mem hmem
      have hfirst : boundAt past id = some (key, generation, offset) := hfits htrace
      rw [htrace] at hall ⊢
      exact hall.boundAt_mono (p := .replayStarted id key generation offset :: past) hfirst
  · have hok := (h.streams key s hs).binding b hb
    exact ⟨hok.held hlive, hok.acked_le, hok.sent_le⟩
  · obtain ⟨later, past, htrace⟩ := List.append_of_mem hmem
    exact hfits htrace ⟨rfl, rfl⟩
  · obtain ⟨_, _, _, _, _, htold, hkept⟩ := hfits htrace
    refine ⟨fun k g f hmem => ?_, fun k g r hmem => ?_⟩
    · exact absurd (htold.symm.trans (toldClosed_of_mem hmem)) (by decide)
    · obtain ⟨later', past', rfl⟩ := List.append_of_mem hmem
      have hgone : wasAbandoned past' id = true := by
        refine hfits (e := .reset id k g r)
          (l := later ++ .output id key generation offset data :: later') (p := past') ?_
        rw [htrace, List.append_assoc, List.cons_append]
      have hstill : wasAbandoned (later' ++ .reset id k g r :: past') id = true :=
        wasAbandoned_mono (p := .reset id k g r :: past') hgone
      exact absurd (hkept.symm.trans hstill) (by decide)

/-! ### Frames that are not of the binding

A `terminal.closed` that answers a close request on another route does not wait for the binding's output, and a
`terminal.reset_required` that answers a replay of discarded bytes leaves the binding as it was. -/

def narrowLimits : Limits where
  streamRingBytes := 8
  hostRingBytes := 16
  maxUnackedBytes := 4
  detachedLeaseMs := 10
  controlRetentionMs := 10
  maxFrameBytes := 3
  inputDedupeEntries := 2
  resizeDedupeEntries := 2
  maxStreams := 4
  maxControlRecords := 8
  frame_pos := by decide
  dedupe_pos := by decide
  frame_le_unacked := by decide
  unacked_le_ring := by decide
  ring_le_host := by decide

def narrowConfig : Config := ⟨narrowLimits, 1, 1, 7, List.length⟩

/-- The lineage claims the first open; every other call resolves, at time 5. -/
def promptAnswers (n : Nat) : Answer := if n = 0 then { lineage := .claimed none } else { time := 5 }

def sampleKey : StreamKey := ⟨1, 2⟩

def sampleOpen : OpenRequest where
  key := sampleKey
  route := 3
  requestId := 1
  hostId := 1
  hostEpoch := 1
  target := 4
  openId := 5
  pane := 6
  cols := 80
  rows := 24
  mode := .new
  resume := none

/-- Six bytes, two of them unsent for want of credit, the backend's close, and a close request on route 9. -/
def closeElsewhere : List Op :=
  [.open sampleOpen, .bytes sampleKey 0 [1, 2, 3], .bytes sampleKey 0 [4, 5, 6],
    .backendClosed sampleKey 0 .backendExit none, .close ⟨⟨sampleKey, 9, 1, 1, 1, 4⟩, 0, 5, 11⟩]

/-- Three acknowledged bytes, a replay from offset 0 on the binding's route, and three more bytes. -/
def replayDiscarded : List Op :=
  [.open sampleOpen, .bytes sampleKey 0 [1, 2, 3], .ack sampleKey 3 0 3, .replay ⟨sampleKey, 3, 1, 1, 1, 4⟩ 0 0,
    .bytes sampleKey 0 [4, 5, 6]]

theorem closed_before_output_and_output_after_reset :
    (∃ past, (run narrowConfig closeElsewhere (Manager.start 0 [] promptAnswers)).trace =
        .closedElsewhere 9 sampleKey 0 6 :: past ∧
      boundAt past 0 = some (sampleKey, 0, 0) ∧ sentThrough past 0 = some 4) ∧
    ∃ past, (run narrowConfig replayDiscarded (Manager.start 0 [] promptAnswers)).trace =
      .output 0 sampleKey 0 3 [4, 5, 6] :: .delivered sampleKey 0 [4, 5, 6] ::
        .resetResponse 3 sampleKey (some 0) .offsetExpired :: past := by
  constructor
  · exact ⟨[.output 0 sampleKey 0 3 [4], .delivered sampleKey 0 [4, 5, 6], .output 0 sampleKey 0 0 [1, 2, 3],
      .delivered sampleKey 0 [1, 2, 3], .opened 0 sampleKey 0 0, .bound 0 sampleKey 0 0],
      by decide +kernel, by decide, by decide⟩
  · exact ⟨[.output 0 sampleKey 0 0 [1, 2, 3], .delivered sampleKey 0 [1, 2, 3], .opened 0 sampleKey 0 0,
      .bound 0 sampleKey 0 0], by decide +kernel⟩

end Stream
end TmuxWorktree
