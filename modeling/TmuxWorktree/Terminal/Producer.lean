import TmuxWorktree.Terminal.Drain
/-!
# Producer — one interactive producer at a time

`validateLease` takes every interactive owner for the holder of the fence, so who may write is decided by the registry of
producers alone.  `Producing id f p` reads a trace against the registered producer `p`: whoever wrote to `id` at fence
`f` is `p`, has released since, or was displaced by a rebinding to `p`.  Nothing is said of what happened before a failed
save or before the process started.
-/
namespace TmuxWorktree
namespace Terminal

def Event.voids : Event → Bool
  | .saveFailed | .saveRejected _ | .restarted => true
  | _ => false

/-- The write call of an input request by an interactive owner, which the backend answered. -/
def Event.produces (id : String) (f : Nat) (a : Owner) : Event → Bool
  | .write target _ kind owner fence returned =>
    target = id && fence = f && owner = a && returned && kind ≠ .lifecycleKill && isInteractiveOwner a
  | _ => false

/-- The producer `p` may follow `a`: it is `a`, or `a` released, or `p` was bound in its place. -/
def Succeeds (id : String) (p : Option Owner) (mid : List Event) (a : Owner) : Prop :=
  p = some a ∨ Event.released id a ∈ mid ∨ ∃ o, p = some o ∧ Event.rebound id o ∈ mid

/-- **Every producer of this fence before `p` made way for it.** -/
def Producing (id : String) (f : Nat) (p : Option Owner) (tr : List Event) : Prop :=
  ∀ mid e earlier a, tr = mid ++ e :: earlier → e.produces id f a = true → (∀ e' ∈ mid, e'.voids = false) →
    Succeeds id p mid a

/-- **Every input that was written had the producer of its fence to itself.** -/
def ProducerLog : List Event → Prop
  | [] => True
  | e :: tr => ProducerLog tr ∧ ∀ id f a, e.produces id f a = true → Producing id f (some a) tr

/-- The registry accounts for the fences of the state file, except for the target `ex`. -/
def Producers (disk : Option ControlState) (registry : String → Option Owner) (ex : Option String)
    (tr : List Event) : Prop :=
  ∀ d ∈ disk, ∀ t ∈ d.targets, ex ≠ some t.controlTargetId →
    Producing t.controlTargetId t.fence (registry t.controlTargetId) tr

/-! ## Producers over a trace -/

section
variable {id : String} {f : Nat} {p : Option Owner} {tr : List Event}

theorem Producing.nil : Producing id f p [] := by
  intro mid e earlier a heq
  simp at heq

theorem Succeeds.cons {mid : List Event} {a : Owner} (h : Succeeds id p mid a) (e : Event) :
    Succeeds id p (e :: mid) a := by
  rcases h with h | h | ⟨o, ho, h⟩
  · exact .inl h
  · exact .inr (.inl (List.mem_cons_of_mem _ h))
  · exact .inr (.inr ⟨o, ho, List.mem_cons_of_mem _ h⟩)

theorem Producing.cons (h : Producing id f p tr) {e : Event} (he : ∀ a, e.produces id f a = true → p = some a) :
    Producing id f p (e :: tr) := by
  intro mid e' earlier a heq hp hv
  rcases List.cons_eq_append_iff.1 heq with ⟨rfl, hhd⟩ | ⟨mid', rfl, htl⟩
  · obtain ⟨rfl, -⟩ := List.cons.inj hhd
    exact .inl (he a hp)
  · exact (h mid' e' earlier a htl hp (fun e he => hv e (List.mem_cons_of_mem _ he))).cons e

theorem Event.not_produces_of_voids {e : Event} (h : e.voids = true) (a : Owner) : e.produces id f a = false := by
  cases e <;> first | rfl | cases h

theorem Producing.void {e : Event} (he : e.voids = true) : Producing id f p (e :: tr) := by
  intro mid e' earlier a heq hp hv
  rcases List.cons_eq_append_iff.1 heq with ⟨rfl, hhd⟩ | ⟨mid', rfl, htl⟩
  · obtain ⟨rfl, -⟩ := List.cons.inj hhd
    rw [Event.not_produces_of_voids he] at hp
    cases hp
  · have := hv e List.mem_cons_self
    rw [he] at this
    cases this

theorem Producing.register (h : Producing id f none tr) : Producing id f p tr := by
  intro mid e earlier a heq hp hv
  rcases h mid e earlier a heq hp hv with h | h | ⟨o, h, -⟩
  · cases h
  · exact .inr (.inl h)
  · cases h

theorem Producing.rebind (o : Owner) : Producing id f (some o) (.rebound id o :: tr) := by
  intro mid e' earlier a heq hp hv
  rcases List.cons_eq_append_iff.1 heq with ⟨rfl, hhd⟩ | ⟨mid', rfl, htl⟩
  · obtain ⟨rfl, -⟩ := List.cons.inj hhd
    cases hp
  · exact .inr (.inr ⟨o, rfl, List.mem_cons_self⟩)

theorem Producing.of_no_write (h : ∀ e ∈ tr, ∀ a, e.produces id f a = false) : Producing id f p tr := by
  intro mid e earlier a heq hp
  rw [h e (by rw [heq]; simp)] at hp
  cases hp

theorem Producing.append (h : Producing id f p tr) : ∀ {events : List Event},
    (∀ e ∈ events, ∀ a, e.produces id f a = false) → Producing id f p (events ++ tr)
  | [], _ => h
  | e :: events, hn => (h.append (fun e he => hn e (List.mem_cons_of_mem _ he))).cons
      (fun a ha => by rw [hn e List.mem_cons_self] at ha; cases ha)

end

theorem ProducerLog.append {tr : List Event} (h : ProducerLog tr) : ∀ {events : List Event},
    (∀ e ∈ events, ∀ id f a, e.produces id f a = false) → ProducerLog (events ++ tr)
  | [], _ => h
  | e :: events, hn => ⟨h.append (fun e he => hn e (List.mem_cons_of_mem _ he)), fun id f a ha => by
      rw [hn e List.mem_cons_self] at ha; cases ha⟩

/-! ## Writes and fences -/

def Event.wroteAt (id : String) : Event → Option Nat
  | .write target _ _ _ fence _ => if target = id then some fence else none
  | _ => none

theorem Event.wroteAt_of_produces {e : Event} {id : String} {f : Nat} {a : Owner} (h : e.produces id f a = true) :
    e.wroteAt id = some f := by
  cases e with
  | write target op kind owner fence returned =>
    simp only [Event.produces, Bool.and_eq_true, decide_eq_true_eq] at h
    simp [Event.wroteAt, h.1.1.1.1.1, h.1.1.1.1.2]
  | _ => cases h

theorem Ownership.isFree_eq (o : Ownership) : o.isFree = o.leaseId?.isNone := by cases o <;> rfl

/-- **No write call is ahead of its record**, and one at the record's own fence has a lease to stand on. -/
structure Ledger.WriteInv (l : Ledger) : Prop where
  disk : ∀ e ∈ l.trace, ∀ id g, e.wroteAt id = some g → ∀ d ∈ l.disk, ∀ t ∈ d.targets, t.controlTargetId = id →
    g < t.fence ∨ (g = t.fence ∧ t.ownership.isFree = false)
  mem : ∀ e ∈ l.trace, ∀ id g, e.wroteAt id = some g → ∀ t ∈ l.mem.targets, t.controlTargetId = id →
    g < t.fence ∨ (g = t.fence ∧ t.ownership.isFree = false ∧ ∃ d ∈ l.disk, ∃ u ∈ d.targets, u.controlTargetId = id)

theorem Event.wroteAt_of_isInert {e : Event} (h : e.isInert = true) (id : String) : e.wroteAt id = none := by
  cases e <;> first | rfl | cases h

theorem Event.not_produces_of_isInert {e : Event} (h : e.isInert = true) (id : String) (f : Nat) (a : Owner) :
    e.produces id f a = false := by
  cases e <;> first | rfl | cases h

theorem mem_of_wroteAt {e : Event} {events tr : List Event} {id : String} {g : Nat}
    (hi : ∀ e ∈ events, e.isInert = true) (he : e ∈ events ++ tr) (hw : e.wroteAt id = some g) : e ∈ tr := by
  rcases List.mem_append.1 he with he | he
  · rw [Event.wroteAt_of_isInert (hi e he)] at hw
    cases hw
  · exact he

theorem names_of_wroteAt {e : Event} {id : String} {g : Nat} (h : e.wroteAt id = some g) : e.names id := by
  cases e with
  | write target op kind owner fence returned =>
    simp only [Event.wroteAt] at h
    split at h
    · assumption
    · cases h
  | _ => cases h

theorem Ledger.WriteInv.note {B : Bounds} {l : Ledger} (hw : l.WellFormed B) (h : l.WriteInv) {e : Event}
    (he : l.Notes e) : Ledger.WriteInv { l with trace := e :: l.trace } := by
  -- only a write call is new
  have new : ∀ e' ∈ e :: l.trace, ∀ id g, e'.wroteAt id = some g → e' ∈ l.trace ∨
      ∃ d t, l.disk = some d ∧ d.get? id = some t ∧ l.mem.get? id = some t ∧ t.fence = g ∧ t.ownership.isFree = false := by
    intro e' he' id g hg
    rcases List.mem_cons.1 he' with rfl | he'
    · right
      cases e' with
      | write target op kind owner fence returned =>
        simp only [Event.wroteAt] at hg
        split at hg
        · subst ‹target = id›
          obtain ⟨-, -, d, t, -, hd, hget, hget', -, -, hf, hfree⟩ := he
          exact ⟨d, t, hd, hget, hget', hf.trans (Option.some.inj hg), hfree⟩
        · cases hg
      | _ => cases hg
    · exact .inl he'
  refine ⟨fun e' he' id g hg d hd t ht hid => ?_, fun e' he' id g hg t ht hid => ?_⟩
  · rcases new e' he' id g hg with hin | ⟨d', u, hd', hget, -, hf, hfree⟩
    · exact h.disk e' hin id g hg d hd t ht hid
    · obtain rfl : d' = d := Option.some.inj (hd'.symm.trans hd)
      obtain ⟨hu, hidu⟩ := ControlState.get?_mem hget
      obtain rfl := (hw.disk d' hd').eq_of_id ht hu (hid.trans hidu.symm)
      exact .inr ⟨hf.symm, hfree⟩
  · rcases new e' he' id g hg with hin | ⟨d', u, hd', hget, hget', hf, hfree⟩
    · exact h.mem e' hin id g hg t ht hid
    · obtain ⟨hu, hidu⟩ := ControlState.get?_mem hget'
      obtain rfl := hw.mem.eq_of_id ht hu (hid.trans hidu.symm)
      exact .inr ⟨hf.symm, hfree, d', hd', t, (ControlState.get?_mem hget).1, hid⟩

theorem LedgerStep.writeInv {B : Bounds} {l l' : Ledger} (hk : l.Known) (hw : l.WellFormed B) (h : l.WriteInv)
    (hs : LedgerStep B l l') : l'.WriteInv := by
  cases hs with
  | load s hd =>
    exact ⟨h.disk, fun e he id g hg t ht hid => (h.disk e he id g hg s hd t ht hid).imp_right
      (fun hh => ⟨hh.1, hh.2, s, hd, t, ht, hid⟩)⟩
  | create epoch hd hB => exact ⟨h.disk, fun _ _ _ _ _ _ ht => (List.not_mem_nil ht).elim⟩
  | move t events t' hepoch hget hmove hB halone =>
    have hmem := (ControlState.get?_mem hget).1
    refine ⟨fun e he id g hg => h.disk e (mem_of_wroteAt hmove.isInert he hg) id g hg, fun e he id g hg u hu hid => ?_⟩
    have hold := h.mem e (mem_of_wroteAt hmove.isInert he hg) id g hg
    rcases ControlState.mem_update hu with ⟨v, -, -, rfl⟩ | ⟨hus, -⟩
    · rw [hmove.frame.1] at hid
      have hb := hold t hmem hid
      rcases hmove.fence_lt_or (hw.mem.shape t hmem) with hlt | ⟨hf, hl, -⟩
      · exact .inl (hb.elim (·.trans hlt) (fun hh => hh.1 ▸ hlt))
      · rw [hf, Ownership.isFree_eq, hl, ← Ownership.isFree_eq]
        exact hb
    · exact hold u hus hid
  | push id generation session tmux u hfresh hB hname =>
    have hnew : ∀ e ∈ Event.created id :: l.trace, ∀ id' g, e.wroteAt id' = some g → e ∈ l.trace ∧ id' ≠ id := by
      intro e he id' g hg
      rcases List.mem_cons.1 he with rfl | he
      · cases hg
      · exact ⟨he, fun heq => hfresh (heq ▸ hk.trace e he _ (names_of_wroteAt hg))⟩
    refine ⟨fun e he id' g hg => h.disk e (hnew e he id' g hg).1 id' g hg, fun e he id' g hg t ht hid => ?_⟩
    obtain ⟨he', hne⟩ := hnew e he id' g hg
    rcases List.mem_append.1 ht with ht | ht
    · exact h.mem e he' id' g hg t ht hid
    · obtain rfl := List.mem_singleton.1 ht
      exact absurd hid.symm hne
  | restart env tick epoch hload hB hBt =>
    have hi : ∀ e ∈ (restartTargets env l.mem.controlEpoch tick l.mem.targets).2, e.isInert = true := restartTargets_isInert _ _
    refine ⟨fun e he id g hg => h.disk e (mem_of_wroteAt hi he hg) id g hg, fun e he id g hg t' ht' hid => ?_⟩
    obtain ⟨t, ht, a, b, c, rfl⟩ := mem_restartTargets ht'
    rw [(restartTarget_frame _ a b c t).1] at hid
    have hb := h.mem e (mem_of_wroteAt hi he hg) id g hg t ht hid
    rcases restartTarget_fence l.mem.controlEpoch a b c (hw.mem.shape t ht) with hlt | ⟨he', -⟩
    · exact .inl (hb.elim (·.trans hlt) (fun hh => hh.1 ▸ hlt))
    · rw [he']; exact hb
  | save =>
    have hin : ∀ e ∈ Event.saved (compact l.mem) :: l.trace, ∀ id g, e.wroteAt id = some g → e ∈ l.trace := by
      intro e he id g hg
      rcases List.mem_cons.1 he with rfl | he
      · cases hg
      · exact he
    refine ⟨fun e he id g hg d hd t ht hid => ?_, fun e he id g hg t ht hid => ?_⟩
    · obtain rfl : compact l.mem = d := by simpa using hd
      obtain ⟨u, hu, hidu, ho, -⟩ := compact_cases ht
      have := h.mem e (hin e he id g hg) id g hg u hu (hidu ▸ hid)
      rw [TargetRecord.fence, ho]
      exact this.imp_right (fun hh => ⟨hh.1, hh.2.1⟩)
    · refine (h.mem e (hin e he id g hg) id g hg t ht hid).imp_right (fun hh => ⟨hh.1, hh.2.1, _, rfl, t, ?_, hid⟩)
      refine mem_compact_of_not_gone ht (fun hg => ?_)
      rw [(hw.mem.shape t ht).free (by rw [hg]; decide)] at hh
      exact Bool.noConfusion hh.2.1
  | note e he => exact h.note hw he
  | reset =>
    refine ⟨fun e he id g hg => h.disk e ?_ id g hg, fun _ _ _ _ _ _ ht => (List.not_mem_nil ht).elim⟩
    rcases List.mem_cons.1 he with rfl | he
    · cases hg
    · exact he

theorem Ledger.Reachable.writeInv {B : Bounds} (hB : B.stored "-" 128 = true) {l : Ledger} (h : l.Reachable B) :
    l.WriteInv :=
  h.induct ⟨fun _ he => (List.not_mem_nil he).elim, fun _ he => (List.not_mem_nil he).elim⟩
    (fun _ _ hr hl hs => hs.writeInv hr.known (hr.wellFormed hB) hl)

/-! ## The registry against the state file -/

section
variable {B : Bounds} {l : Ledger} {registry : String → Option Owner} {ex : Option String}

/-- The record of `id` in the section is past that of the state file. -/
def Ledger.Advanced (l : Ledger) (id : String) : Prop :=
  ∀ d ∈ l.disk, ∀ u ∈ d.targets, u.controlTargetId = id → ∀ t ∈ l.mem.targets, t.controlTargetId = id →
    u.fence < t.fence

theorem Ledger.Reachable.producing_of_saved (hB : B.stored "-" 128 = true) (h : l.Reachable B) {t : TargetRecord}
    (ht : t ∈ (compact l.mem).targets) {p : Option Owner}
    (hold : ∀ d ∈ l.disk, ∀ u ∈ d.targets, u.controlTargetId = t.controlTargetId → u.fence = t.fence →
      Producing t.controlTargetId t.fence p l.trace) :
    Producing t.controlTargetId t.fence p (.saved (compact l.mem) :: l.trace) := by
  refine Producing.cons ?_ (fun a ha => by cases ha)
  by_cases hex : ∃ e ∈ l.trace, e.wroteAt t.controlTargetId = some t.fence
  · obtain ⟨e, he, hw⟩ := hex
    obtain ⟨u, hu, hid, ho, -⟩ := compact_cases ht
    have hfence : t.fence = u.fence := by rw [TargetRecord.fence, ho]
    rcases (h.writeInv hB).mem e he _ _ hw u hu hid.symm with hlt | ⟨-, -, d, hd, v, hv, hidv⟩
    · rw [hfence] at hlt; exact absurd hlt (lt_irrefl _)
    · refine hold d hd v hv hidv (le_antisymm ?_ ?_)
      · have hsaved : Event.saved d ∈ l.trace := by
          have := h.saved
          rw [show l.disk = some d from hd] at this
          exact mem_of_lastSaved this.symm
        rw [hfence]
        exact (h.leaseInv hB).mem.precedes d hsaved v hv u hu (hid.symm.trans hidv.symm)
      · rcases (h.writeInv hB).disk e he _ _ hw d hd v hv hidv with hlt | ⟨heq, -⟩
        · exact hlt.le
        · exact heq.le
  · refine Producing.of_no_write (fun e he a => ?_)
    by_contra hne
    exact hex ⟨e, he, Event.wroteAt_of_produces (by simpa using hne)⟩

theorem Producers.save (hB : B.stored "-" 128 = true) (hr : l.Reachable B) (h : Producers l.disk registry ex l.trace)
    {ex' : Option String} (hex : ∀ id, ex = some id → ex' = some id ∨ l.Advanced id) :
    Producers (some (compact l.mem)) registry ex' (.saved (compact l.mem) :: l.trace) := by
  intro d hd t ht hne
  obtain rfl : compact l.mem = d := by simpa using hd
  refine hr.producing_of_saved hB ht (fun d hd u hu hid hf => ?_)
  by_cases he : ex = some t.controlTargetId
  · obtain ⟨v, hv, hidv, ho, -⟩ := compact_cases ht
    have hlt := (hex _ he).resolve_left hne d hd u hu hid v hv hidv.symm
    rw [hf, TargetRecord.fence, ho] at hlt
    exact absurd hlt (lt_irrefl _)
  · have := h d hd u hu (by rw [hid]; exact he)
    rwa [hid, hf] at this

theorem Ledger.Reachable.producing_of_free (hB : B.stored "-" 128 = true) (h : l.Reachable B) {d : ControlState}
    (hd : d ∈ l.disk) {t : TargetRecord} (ht : t ∈ d.targets) (hfree : t.ownership.isFree = true) (p : Option Owner) :
    Producing t.controlTargetId t.fence p l.trace := by
  refine Producing.of_no_write (fun e he a => ?_)
  by_contra hne
  have hw := Event.wroteAt_of_produces (e := e) (by simpa using hne)
  rcases (h.writeInv hB).disk e he _ _ hw d hd t ht rfl with hlt | ⟨-, hf⟩
  · exact lt_irrefl _ hlt
  · rw [hfree] at hf; cases hf

theorem Producers.void {e : Event} {tr : List Event} {disk : Option ControlState} (he : e.voids = true) :
    Producers disk registry ex (e :: tr) := fun _ _ _ _ _ => Producing.void he

theorem Producers.append {disk : Option ControlState} {tr events : List Event}
    (h : Producers disk registry ex tr) (hn : ∀ e ∈ events, ∀ id f a, e.produces id f a = false) :
    Producers disk registry ex (events ++ tr) := fun d hd t ht he =>
  (h d hd t ht he).append (fun e he a => hn e he _ _ a)

end

end Terminal
end TmuxWorktree
