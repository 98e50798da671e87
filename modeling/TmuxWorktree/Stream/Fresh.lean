import TmuxWorktree.Stream.Moves
/-!
# Fresh — the numbers the manager has not used yet

Everything in the state and in the trace is of a generation that was issued, so the next one is untouched.  A close
record never claims more bytes than its stream has.
-/
namespace TmuxWorktree
namespace Stream

/-- **The host's count covers the rings**: no ring can be emptied below zero. -/
structure Funded (m : Manager) : Prop where
  keys : (m.streams.map TerminalStream.key).Nodup
  bytes : (((m.streams.map fun s => s.ring.byteLength).sum : Nat) : Int) ≤ m.ringBytes

/-- Everything that is there is of a generation that was issued, and its bytes are on the host's count. -/
structure Sane (m : Manager) : Prop where
  funded : Funded m
  streams : ∀ key s, m.stream key = some s → s.generation < m.generations
  delivered : ∀ key generation, delivered m.trace key generation ≠ [] → generation < m.generations
  accepted : ∀ kind key generation, accepted m.trace kind key generation ≠ [] → generation < m.generations
  records : ∀ r ∈ m.closeRecords ++ m.durableCloses, RecordOk m r

theorem Sane.untouched {m : Manager} (h : Sane m) : Untouched m.generations m where
  delivered key := not_not.mp fun hne => absurd (h.delivered key _ hne) (lt_irrefl _)
  accepted kind key := not_not.mp fun hne => absurd (h.accepted kind key _ hne) (lt_irrefl _)
  records r hr := ((h.records r hr).1).ne
  streams key s hs := (h.streams key s hs).ne

theorem sane_start (generations : Nat) (closes : List CloseRecord) (answers : Nat → Answer) :
    Sane (Manager.start generations closes answers) where
  funded := ⟨List.nodup_nil, le_rfl⟩
  streams _ _ hs := nomatch hs
  delivered _ _ h := absurd rfl h
  accepted _ _ _ h := absurd rfl h
  records r hr := by
    have hmem : r ∈ closes.filter fun r => r.generation < generations := by simpa [Manager.start] using hr
    exact ⟨of_decide_eq_true (List.mem_filter.mp hmem).2, fun _ hs => nomatch hs⟩

/-! ## The count of the rings -/

theorem StreamMove.keeps {s s' : TerminalStream} (h : StreamMove s s') : Keeps s s' := by
  cases h <;> assumption

theorem Funded.of_eq {m n : Manager} (h : Funded m) (hs : n.streams = m.streams) (hr : n.ringBytes = m.ringBytes) :
    Funded n := by
  refine ⟨hs ▸ h.keys, ?_⟩
  rw [hs, hr]
  exact h.bytes

theorem Funded.update {m m' : Manager} {key : StreamKey} {f : TerminalStream → TerminalStream} (h : Funded m)
    (hs : m'.streams = (m.update key f).streams) (hf : ∀ s, (f s).key = s.key)
    (hnone : m.stream key = none → m'.ringBytes = m.ringBytes)
    (hsome : ∀ s, m.stream key = some s →
      m.ringBytes + (f s).ring.byteLength = m'.ringBytes + s.ring.byteLength) : Funded m' := by
  have hkeys : (m'.streams.map TerminalStream.key).Nodup := by
    rw [hs]
    unfold Manager.update
    rw [Keyed.keys_update fun s hk => (hf s).trans hk]
    exact h.keys
  refine ⟨hkeys, ?_⟩
  rw [hs]
  unfold Manager.update
  have hbytes := h.bytes
  cases hfind : m.stream key with
  | none =>
    rw [Keyed.update_none hfind, hnone hfind]
    exact hbytes
  | some s =>
    have hsum := Keyed.sum_update (f := f) (w := fun s => s.ring.byteLength) h.keys hfind
    have hcount := hsome s hfind
    dsimp only at hsum ⊢
    omega

theorem Funded.clear {m : Manager} {key : StreamKey} {retained : Bool} (h : Funded m) :
    Funded (m.clearRing key retained) := by
  unfold Manager.clearRing
  split
  · exact h
  · rename_i s hs
    refine h.update rfl (fun _ => rfl) (fun hnone => nomatch hs.symm.trans hnone) fun s' hs' => ?_
    cases hs.symm.trans hs'
    simp [ByteRing.clear]

theorem Funded.move {C : Config} {m m' : Manager} (h : Funded m) (hm : Move C m m') : Funded m' := by
  cases hm with
  | quiet hq => exact h.of_eq hq.streams hq.ringBytes
  | issue | store | say => exact h.of_eq rfl rfl
  | stream hf hmove =>
    refine h.update rfl hf (fun _ => rfl) fun s hs => ?_
    rw [(hmove s hs).keeps.ring]
    rfl
  | clear => exact h.clear
  | abandon | output | bind => exact h.update rfl (fun _ => rfl) (fun _ => rfl) fun _ _ => rfl
  | @acknowledge key s b next hs _ _ _ =>
    unfold Manager.acknowledge
    rw [hs]
    refine h.update rfl (fun _ => rfl) (fun hnone => nomatch hs.symm.trans hnone) fun s' hs' => ?_
    cases hs.symm.trans hs'
    have := s.ring.discardBefore_count next
    dsimp only
    omega
  | @drop key ringBytes _ hcount =>
    refine ⟨Keyed.keys_erase h.keys, ?_⟩
    have hbytes := h.bytes
    rcases hcount with rfl | ⟨s, hs, rfl⟩
    · have hsum : ((m.delete key).streams.map fun s => s.ring.byteLength).sum ≤
          (m.streams.map fun s => s.ring.byteLength).sum := Keyed.sum_erase_le
      dsimp only at hsum ⊢
      omega
    · have hsum : ((m.delete key).streams.map fun s => s.ring.byteLength).sum + s.ring.byteLength =
          (m.streams.map fun s => s.ring.byteLength).sum :=
        Keyed.sum_erase (w := fun s : TerminalStream => s.ring.byteLength) h.keys hs
      dsimp only at hsum ⊢
      omega
  | write =>
    unfold Manager.wrote
    split
    · exact (h.of_eq (n := m.emit _) rfl rfl).update rfl (fun _ => rfl) (fun _ => rfl) fun _ _ => rfl
    · exact h.of_eq rfl rfl

theorem Funded.loss {m m' : Manager} (h : Funded m) (hl : Loss m m') : Funded m' := by
  cases hl with
  | lose hf hloses =>
    refine h.update rfl hf (fun _ => rfl) fun s hs => ?_
    rw [(hloses s hs).keeps.ring]
    rfl

theorem Funded.birth {C : Config} {m m' : Manager} (h : Funded m) (hb : Birth C m m') : Funded m' := by
  cases hb with
  | @publish r generation canonicalBinding tokenHash t _ _ =>
    refine ⟨Keyed.keys_put h.keys, ?_⟩
    have hsum := Keyed.sum_put_le (v := newStream C r generation canonicalBinding tokenHash t)
      (w := fun s => s.ring.byteLength) h.keys
    have hbytes := h.bytes
    have hempty : (newStream C r generation canonicalBinding tokenHash t).ring.byteLength = 0 := rfl
    unfold Manager.put
    dsimp only at hsum ⊢
    omega

theorem Funded.intake {m m' : Manager} (h : Funded m) (hi : Intake m m') : Funded m' := by
  cases hi with
  | deliver | settle => exact h.of_eq rfl rfl
  | @append key s data rest hs _ _ _ =>
    unfold Manager.appendRing
    rw [hs]
    refine h.update rfl (fun _ => rfl) (fun hnone => nomatch hs.symm.trans hnone) fun s' hs' => ?_
    cases hs.symm.trans hs'
    dsimp only
    omega

/-! ## What a move leaves of a stream -/

theorem StreamMove.through {s s' : TerminalStream} (h : StreamMove s s') : s'.through = s.through := by
  unfold TerminalStream.through
  cases h with
  | commit keeps _ was _ close =>
    obtain ⟨c, hc, hf⟩ := close
    simp only [was, hc, hf]
  | stay keeps _ close | rephase keeps _ close | unbind keeps _ close | detach keeps _ _ close
  | restore keeps _ _ close =>
    rw [close, keeps.ring]

theorem stream_wrote {C : Config} {m : Manager} {kind : Kind} {f : Frame} {verdict : Verdict} {key : StreamKey}
    {s' : TerminalStream} (h : (m.wrote C kind f verdict).stream key = some s') :
    ∃ s, m.stream key = some s ∧ ∃ c, s' = { s with control := c } := by
  unfold Manager.wrote at h
  cases verdict with
  | accepted =>
    rcases stream_update_cases h fun _ => rfl with ⟨_, hs⟩ | ⟨rfl, s, hs, rfl⟩
    · exact ⟨s', hs, s'.control, rfl⟩
    · exact ⟨s, hs, _, rfl⟩
  | rejected e => exact ⟨s', h, s'.control, rfl⟩
  | uncertain e => exact ⟨s', h, s'.control, rfl⟩

theorem Move.back {C : Config} {m m' : Manager} (h : Move C m m') {key : StreamKey} {s' : TerminalStream}
    (hs' : m'.stream key = some s') :
    ∃ s, m.stream key = some s ∧ s'.generation = s.generation ∧ s'.through = s.through := by
  cases h with
  | quiet h =>
    unfold Manager.stream at hs'
    rw [h.streams] at hs'
    exact ⟨s', hs', rfl, rfl⟩
  | issue => exact ⟨s', hs', rfl, rfl⟩
  | store => exact ⟨s', hs', rfl, rfl⟩
  | say => exact ⟨s', hs', rfl, rfl⟩
  | stream hf h =>
    rcases stream_update_cases hs' hf with ⟨_, hs⟩ | ⟨rfl, s, hs, rfl⟩
    · exact ⟨s', hs, rfl, rfl⟩
    · exact ⟨s, hs, (h s hs).keeps.generation, (h s hs).through⟩
  | clear =>
    rw [stream_clearRing] at hs'
    rcases stream_update_cases hs' fun _ => rfl with ⟨_, hs⟩ | ⟨rfl, s, hs, rfl⟩
    · exact ⟨s', hs, rfl, rfl⟩
    · exact ⟨s, hs, rfl, rfl⟩
  | abandon | output | bind =>
    rcases stream_update_cases hs' fun _ => rfl with ⟨_, hs⟩ | ⟨rfl, s, hs, rfl⟩
    · exact ⟨s', hs, rfl, rfl⟩
    · exact ⟨s, hs, rfl, rfl⟩
  | acknowledge =>
    rw [stream_acknowledge] at hs'
    rcases stream_update_cases hs' fun _ => rfl with ⟨_, hs⟩ | ⟨rfl, s, hs, rfl⟩
    · exact ⟨s', hs, rfl, rfl⟩
    · refine ⟨s, hs, rfl, ?_⟩
      simp only [TerminalStream.through, ByteRing.discardBefore_tail]
  | drop => exact ⟨s', (stream_of_delete hs').2, rfl, rfl⟩
  | write =>
    obtain ⟨s, hs, c, rfl⟩ := stream_wrote hs'
    exact ⟨s, hs, rfl, rfl⟩

theorem Loss.back {m m' : Manager} (h : Loss m m') {key : StreamKey} {s' : TerminalStream}
    (hs' : m'.stream key = some s') :
    ∃ s, m.stream key = some s ∧ s'.generation = s.generation ∧ s'.through = s.through := by
  cases h with
  | lose hf hloses =>
    rcases stream_update_cases hs' hf with ⟨_, hs⟩ | ⟨rfl, s, hs, rfl⟩
    · exact ⟨s', hs, rfl, rfl⟩
    · refine ⟨s, hs, (hloses s hs).keeps.generation, ?_⟩
      unfold TerminalStream.through
      rw [(hloses s hs).close, (hloses s hs).keeps.ring]

theorem Move.generations {C : Config} {m m' : Manager} (h : Move C m m') : m.generations ≤ m'.generations := by
  cases h with
  | quiet h => exact h.generations.ge
  | issue => exact Nat.le_succ _
  | clear => unfold Manager.clearRing; split <;> exact le_rfl
  | acknowledge => unfold Manager.acknowledge; split <;> exact le_rfl
  | write => unfold Manager.wrote; split <;> exact le_rfl
  | store | stream | say | abandon | output | bind | drop => exact le_rfl

theorem Move.delivered {C : Config} {m m' : Manager} (h : Move C m m') (key : StreamKey) (generation : Nat) :
    delivered m'.trace key generation = delivered m.trace key generation := by
  cases h with
  | quiet h => rw [h.trace]
  | @say e h => cases e <;> first | rfl | exact h.elim
  | clear => unfold Manager.clearRing; split <;> rfl
  | acknowledge => unfold Manager.acknowledge; split <;> rfl
  | write => unfold Manager.wrote; split <;> rfl
  | issue | store | stream | abandon | output | bind | drop => rfl

theorem Move.accepted {C : Config} {m m' : Manager} (h : Move C m m') {kind : Kind} {key : StreamKey} {generation : Nat}
    (hne : accepted m'.trace kind key generation ≠ []) :
    accepted m.trace kind key generation ≠ [] ∨ ∃ s, m.stream key = some s ∧ s.generation = generation := by
  cases h with
  | quiet h => rw [h.trace] at hne; exact .inl hne
  | @say e h => cases e <;> first | exact .inl hne | exact h.elim
  | clear => unfold Manager.clearRing at hne; split at hne <;> exact .inl hne
  | acknowledge => unfold Manager.acknowledge at hne; split at hne <;> exact .inl hne
  | issue | store | stream | abandon | output | bind | drop => exact .inl hne
  | @write k f s verdict hs hg _ _ =>
    by_cases hf : f.key = key ∧ f.generation = generation
    · obtain ⟨rfl, rfl⟩ := hf
      exact .inr ⟨s, hs, hg⟩
    · refine .inl ?_
      unfold Manager.wrote at hne
      cases verdict with
      | rejected e => exact hne
      | uncertain e => exact hne
      | accepted =>
        have hcond : ¬ (k = kind ∧ f.key = key ∧ f.generation = generation) := fun h => hf h.2
        simpa only [Manager.acceptWrite, Manager.update, Manager.emit, Stream.accepted, if_neg hcond] using hne

theorem RecordOk.move {C : Config} {m m' : Manager} {r : CloseRecord} (h : RecordOk m r) (hm : Move C m m') :
    RecordOk m' r := by
  refine ⟨h.1.trans_le hm.generations, fun s' hs' hg => ?_⟩
  obtain ⟨s, hs, hgen, hthrough⟩ := hm.back hs'
  rw [hthrough]
  exact h.2 s hs (hgen.symm.trans hg)

theorem RecordOk.loss {m m' : Manager} {r : CloseRecord} (h : RecordOk m r) (hl : Loss m m') : RecordOk m' r := by
  have hgen : m'.generations = m.generations := by
    cases hl
    rfl
  refine ⟨hgen ▸ h.1, fun s' hs' hg => ?_⟩
  obtain ⟨s, hs, hgen, hthrough⟩ := hl.back hs'
  rw [hthrough]
  exact h.2 s hs (hgen.symm.trans hg)

theorem Move.records {C : Config} {m m' : Manager} (h : Move C m m') (hsane : Sane m) {r : CloseRecord}
    (hr : r ∈ m'.closeRecords ++ m'.durableCloses) : RecordOk m r := by
  cases h with
  | quiet h =>
    rcases List.mem_append.mp hr with hr | hr
    · exact (h.cached r hr).elim (fun hr => hsane.records r (List.mem_append_left _ hr)) id
    · rw [h.durable] at hr
      exact hsane.records r (List.mem_append_right _ hr)
  | store hs hg hf =>
    rcases List.mem_append.mp hr with hr | hr
    · exact hsane.records r (List.mem_append_left _ hr)
    · rcases Keyed.mem_put hr with rfl | hr
      · refine ⟨hg ▸ hsane.streams _ _ hs, fun s' hs' _ => ?_⟩
        cases hs.symm.trans hs'
        exact hf.le
      · exact hsane.records r (List.mem_append_right _ hr)
  | clear => unfold Manager.clearRing at hr; split at hr <;> exact hsane.records r hr
  | acknowledge => unfold Manager.acknowledge at hr; split at hr <;> exact hsane.records r hr
  | write => unfold Manager.wrote at hr; split at hr <;> exact hsane.records r hr
  | issue | say | stream | abandon | output | bind | drop => exact hsane.records r hr

theorem Sane.move {C : Config} {m m' : Manager} (h : Sane m) (hm : Move C m m') : Sane m' where
  funded := h.funded.move hm
  streams key s' hs' := by
    obtain ⟨s, hs, hg, _⟩ := hm.back hs'
    exact hg ▸ (h.streams key s hs).trans_le hm.generations
  delivered key generation hne := by
    rw [hm.delivered] at hne
    exact (h.delivered key generation hne).trans_le hm.generations
  accepted kind key generation hne := by
    rcases hm.accepted hne with hne | ⟨s, hs, rfl⟩
    · exact (h.accepted kind key generation hne).trans_le hm.generations
    · exact (h.streams key s hs).trans_le hm.generations
  records _ hr := (hm.records h hr).move hm

theorem Sane.loss {m m' : Manager} (h : Sane m) (hl : Loss m m') : Sane m' := by
  have hrest : m'.generations = m.generations ∧ m'.trace = m.trace ∧ m'.closeRecords = m.closeRecords ∧
      m'.durableCloses = m.durableCloses := by
    cases hl
    exact ⟨rfl, rfl, rfl, rfl⟩
  obtain ⟨hgen, htrace, hcl, hdur⟩ := hrest
  refine ⟨h.funded.loss hl, fun key s' hs' => ?_, ?_, ?_, fun r hr => ?_⟩
  · obtain ⟨s, hs, hg, _⟩ := hl.back hs'
    rw [hg, hgen]
    exact h.streams key s hs
  · rw [htrace, hgen]
    exact h.delivered
  · rw [htrace, hgen]
    exact h.accepted
  · rw [hcl, hdur] at hr
    exact (h.records r hr).loss hl

theorem Sane.birth {C : Config} {m m' : Manager} (h : Sane m) (hb : Birth C m m') : Sane m' := by
  have hfunded := h.funded.birth hb
  cases hb with
  | @publish r generation canonicalBinding tokenHash t hg hfresh =>
    refine ⟨hfunded, fun key s hs => ?_, h.delivered, h.accepted, fun x hx => ⟨(h.records x hx).1, fun s hs hgen => ?_⟩⟩
    · by_cases hk : key = r.key
      · cases hk
        cases (stream_put_self (newStream C r generation canonicalBinding tokenHash t)).symm.trans hs
        exact hg
      · exact h.streams key s ((stream_put_ne hk).symm.trans hs)
    · by_cases hk : x.streamKey = r.key
      · rw [hk] at hs
        cases (stream_put_self (newStream C r generation canonicalBinding tokenHash t)).symm.trans hs
        exact absurd hgen.symm (hfresh.records x hx)
      · exact (h.records x hx).2 s ((stream_put_ne hk).symm.trans hs) hgen

theorem append_through {s : TerminalStream} {data : Bytes} :
    s.through ≤ ({ s with ring := s.ring.append data, ringRetained := true } : TerminalStream).through := by
  unfold TerminalStream.through
  cases s.close with
  | none => simp
  | some c => exact le_rfl

theorem Sane.intake {m m' : Manager} (h : Sane m) (hi : Intake m m') : Sane m' := by
  have hfunded := h.funded.intake hi
  cases hi with
  | settle => exact ⟨hfunded, h.streams, h.delivered, h.accepted, h.records⟩
  | @deliver k g data hg _ =>
    refine ⟨hfunded, h.streams, fun key generation hne => ?_, h.accepted, h.records⟩
    by_cases hk : k = key ∧ g = generation
    · exact hk.2 ▸ hg
    · refine h.delivered key generation ?_
      simpa only [Manager.deliver, Manager.emit, Stream.delivered, if_neg hk] using hne
  | @append k s data rest hs _ _ _ =>
    have hshape : (m.appendRing k data).generations = m.generations ∧ (m.appendRing k data).trace = m.trace ∧
        (m.appendRing k data).closeRecords = m.closeRecords ∧ (m.appendRing k data).durableCloses = m.durableCloses := by
      unfold Manager.appendRing
      rw [hs]
      exact ⟨rfl, rfl, rfl, rfl⟩
    obtain ⟨hgen, htrace, hcl, hdur⟩ := hshape
    refine ⟨hfunded, fun key s' hs' => ?_, ?_, ?_, fun r hr => ?_⟩
    · rw [stream_appendRing] at hs'
      rw [hgen]
      rcases stream_update_cases hs' fun _ => rfl with ⟨_, hs'⟩ | ⟨rfl, s₀, hs₀, rfl⟩
      · exact h.streams key s' hs'
      · exact h.streams _ s₀ hs₀
    · rw [htrace, hgen]
      exact h.delivered
    · rw [htrace, hgen]
      exact h.accepted
    · rw [hcl, hdur] at hr
      refine ⟨hgen ▸ (h.records r hr).1, fun s' hs' hg => ?_⟩
      rw [stream_appendRing] at hs'
      rcases stream_update_cases hs' fun _ => rfl with ⟨_, hs'⟩ | ⟨hk, s₀, hs₀, rfl⟩
      · exact (h.records r hr).2 s' hs' hg
      · exact ((h.records r hr).2 s₀ (hk ▸ hs₀) hg).trans append_through

end Stream
end TmuxWorktree
