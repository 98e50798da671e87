import TmuxWorktree.Readiness.Activation
/-!
# Overlap — activations that overlap

A live lease belongs to the record that is active, and a receipt that can still be exchanged is there only while no lease
is; so one record at most is active, and the source is ready only under its lease.  An `activate` that was superseded
does no harm after its first `await`; after its second it goes on as if it were the current one.
-/
namespace TmuxWorktree
namespace Readiness

/-! ## What a cleanup leaves alone -/

structure Books where
  receipts : List Nat
  proofGeneration : Nat
  queue : List Request
  mutationEpoch : Nat
  currentAttempt : Option Nat
  sourceGeneration : Nat
  disposed : Bool
  calls : Nat → Option Progress

def World.books (w : World) : Books :=
  ⟨w.receipts, w.proofGeneration, w.queue, w.mutationEpoch, w.currentAttempt, w.sourceGeneration, w.disposed, w.calls⟩

@[simp] theorem setRecord_books (w : World) (e : Nat) (r : Record) : (w.setRecord e r).books = w.books := rfl

@[simp] theorem withdrawSource_books (w : World) : w.withdrawSource.books = w.books := by
  unfold World.withdrawSource
  split <;> rfl

@[simp] theorem releaseRecord_books (w : World) (e : Nat) : (w.releaseRecord e).books = w.books := by
  unfold World.releaseRecord
  split
  · split
    · split <;> rfl
    · rfl
  · rfl

@[simp] theorem retireRecord_books (w : World) (e : Nat) : (w.retireRecord e).books = w.books := by
  unfold World.retireRecord
  split
  · rw [releaseRecord_books]
    split
    · rfl
    · rw [withdrawSource_books]
      rfl
  · rfl

/-! ## The lamp -/

/-- Nothing is active. -/
structure Idle (w : World) : Prop where
  active : w.active = none
  leases : w.leases = []
  published : w.published = false
  records : ∀ e r, w.records e = some r → r.active = false

/-- A record is active, under the one lease that is live. -/
structure Lit (w : World) (e lease : Nat) : Prop where
  active : w.active = some e
  leases : w.leases = [(lease, e)]
  receipts : w.receipts = []
  shown : w.sourceWithdrawn = false
  record : ∃ r, w.records e = some r ∧ r.lease = some lease ∧ r.retired = false ∧ r.releaseAttempted = false ∧ r.active = true
  records : ∀ e' r, w.records e' = some r → r.active = true → e' = e

def Lamp (w : World) : Prop := Idle w ∨ ∃ e lease, Lit w e lease

/-- A record that is about to be retired; its lease may be gone. -/
structure Fading (w : World) (e lease : Nat) : Prop where
  active : w.active = none ∨ w.active = some e
  leases : w.leases = [] ∨ w.leases = [(lease, e)]
  published : w.sourceWithdrawn = true → w.published = false
  record : ∃ r, w.records e = some r ∧ r.lease = some lease ∧ r.retired = false ∧ r.releaseAttempted = false
  records : ∀ e' r, w.records e' = some r → r.active = true → e' = e

theorem withdrawSource_published {w : World} (h : w.sourceWithdrawn = true → w.published = false) :
    w.withdrawSource.published = false ∧ w.withdrawSource.sourceWithdrawn = true := by
  unfold World.withdrawSource
  split
  next hw => exact ⟨h hw, hw⟩
  next => exact ⟨rfl, rfl⟩

theorem Lit.fading {w : World} {e lease : Nat} (h : Lit w e lease) : Fading w e lease where
  active := .inr h.active
  leases := .inr h.leases
  published hw := by rw [h.shown] at hw; cases hw
  record := by
    obtain ⟨r, hr, hlease, hretired, hreleased, -⟩ := h.record
    exact ⟨r, hr, hlease, hretired, hreleased⟩
  records := h.records

theorem Fading.withdrawSource {w : World} {e lease : Nat} (h : Fading w e lease) : Fading w.withdrawSource e lease := by
  have hp := withdrawSource_published h.published
  have hsame : w.withdrawSource.active = w.active ∧ w.withdrawSource.leases = w.leases ∧
      w.withdrawSource.records = w.records := by
    unfold World.withdrawSource
    split <;> exact ⟨rfl, rfl, rfl⟩
  obtain ⟨hactive, hleases, hrecords⟩ := hsame
  exact ⟨by rw [hactive]; exact h.active, by rw [hleases]; exact h.leases, fun _ => hp.1, by rw [hrecords]; exact h.record,
    by rw [hrecords]; exact h.records⟩

theorem withdrawSource_leases (w : World) : w.withdrawSource.leases = w.leases := by
  unfold World.withdrawSource
  split <;> rfl

theorem withdrawSource_active (w : World) : w.withdrawSource.active = w.active := by
  unfold World.withdrawSource
  split <;> rfl

@[simp] theorem withdrawSource_records (w : World) : w.withdrawSource.records = w.records := by
  unfold World.withdrawSource
  split <;> rfl

theorem retireRecord_eq {w : World} {e lease : Nat} {r : Record} (hr : w.records e = some r)
    (hlease : r.lease = some lease) (hretired : r.retired = false) (hreleased : r.releaseAttempted = false) :
    ∃ r' : Record, r'.active = false ∧ r'.retired = true ∧ w.retireRecord e =
      ({ ({ w with active := if w.active = some e then none else w.active }).withdrawSource with
        leases := w.leases.filter (· ≠ (lease, e)) }).setRecord e r' := by
  let w₁ := ({ w with active := if w.active = some e then none else w.active }.setRecord e
    { r with retired := true, active := false }).withdrawSource
  let r₁ : Record := { r with retired := true, active := false }
  let r₂ : Record := { r₁ with
    releaseAttempted := true
    cleanupFailed := r.cleanupFailed || (!w₁.leases.contains (lease, e) && !r.ownerInvalidated) }
  have hrecord : w₁.records e = some r₁ := by
    simp [w₁, r₁, World.setRecord]
  have hret : w.retireRecord e = w₁.releaseRecord e := by
    unfold World.retireRecord
    simp [hr, hretired, w₁]
  have hrel : w₁.releaseRecord e = { w₁ with leases := w₁.leases.filter (· ≠ (lease, e)) }.setRecord e r₂ := by
    unfold World.releaseRecord
    simp [hrecord, r₁, r₂, hlease, hreleased]
  refine ⟨r₂, rfl, rfl, ?_⟩
  rw [hret, hrel]
  unfold w₁ World.withdrawSource
  split <;> split <;> simp_all [World.setRecord]

/-- **A record that is retired leaves the lamp out.** -/
theorem Fading.retire {w : World} {e lease : Nat} (h : Fading w e lease) : Idle (w.retireRecord e) := by
  obtain ⟨r, hr, hlease, hretired, hreleased⟩ := h.record
  obtain ⟨r', hdark, -, hw⟩ := retireRecord_eq hr hlease hretired hreleased
  have hactive : (if w.active = some e then none else w.active) = none := by
    rcases h.active with hnone | hsome
    · rw [hnone]
      rfl
    · rw [if_pos hsome]
  rw [hw]
  constructor
  · simpa [World.setRecord, withdrawSource_active] using hactive
  · rcases h.leases with hnone | hsome
    · simp [World.setRecord, hnone]
    · simp [World.setRecord, hsome]
  · exact (withdrawSource_published (w := { w with active := if w.active = some e then none else w.active }) h.published).1
  · intro e' r'' h''
    by_cases he : e' = e
    · simp [World.setRecord, he] at h''
      rw [← h'']
      exact hdark
    · simp [World.setRecord, he] at h''
      cases hlit : r''.active with
      | false => rfl
      | true => exact absurd (h.records e' r'' h'' hlit) he

theorem Idle.withdrawSource {w : World} (h : Idle w) : Idle w.withdrawSource where
  active := by rw [withdrawSource_active, h.active]
  leases := by rw [withdrawSource_leases, h.leases]
  published := (withdrawSource_published fun _ => h.published).1
  records := by rw [withdrawSource_records]; exact h.records

theorem Lamp.withdraw {w : World} (h : Lamp w) : Idle w.withdraw := by
  unfold World.withdraw
  rcases h with hidle | ⟨e, lease, hlit⟩
  · rw [hidle.active]
    exact hidle.withdrawSource
  · rw [hlit.active]
    exact hlit.fading.withdrawSource.retire

@[simp] theorem withdraw_books (w : World) : w.withdraw.books = w.books := by
  unfold World.withdraw
  split <;> simp

theorem failClosed_eq (w : World) : w.failClosed.1 = w.invalidateAttempt.withdraw := by
  unfold World.failClosed World.withdraw
  dsimp only
  split <;> rfl

theorem Lamp.of_eq {w w' : World} (h : Lamp w) (hactive : w'.active = w.active) (hleases : w'.leases = w.leases)
    (hreceipts : w.receipts = [] → w'.receipts = []) (hshown : w'.sourceWithdrawn = w.sourceWithdrawn)
    (hpublished : w'.published = w.published) (hrecords : w'.records = w.records) : Lamp w' := by
  rcases h with hidle | ⟨e, lease, hlit⟩
  · exact .inl ⟨by rw [hactive, hidle.active], by rw [hleases, hidle.leases], by rw [hpublished, hidle.published],
      by rw [hrecords]; exact hidle.records⟩
  · exact .inr ⟨e, lease, by rw [hactive, hlit.active], by rw [hleases, hlit.leases], hreceipts hlit.receipts,
      by rw [hshown, hlit.shown], by rw [hrecords]; exact hlit.record, by rw [hrecords]; exact hlit.records⟩

theorem Lamp.invalidateAttempt {w : World} (h : Lamp w) : Lamp w.invalidateAttempt :=
  h.of_eq rfl rfl id rfl rfl rfl

theorem Lamp.failClosed {w : World} (h : Lamp w) : Idle w.failClosed.1 := by
  rw [failClosed_eq]
  exact h.invalidateAttempt.withdraw

@[simp] theorem failClosed_books (w : World) : w.failClosed.1.books = w.invalidateAttempt.books := by
  rw [failClosed_eq, withdraw_books]

/-- **The store that loses its proofs puts the lamp out**, and takes the attempt with it if it is the one that was
active. -/
theorem Lamp.invalidateProofs {w : World} (h : Lamp w) :
    Idle w.invalidateProofs ∧ (w.invalidateProofs.books = { w with receipts := [] }.books ∨
      w.invalidateProofs.books = { w.invalidateAttempt with receipts := [] }.books ∧ w.active.isSome ∧
        w.currentAttempt = w.active) := by
  unfold World.invalidateProofs
  rcases h with hidle | ⟨e, lease, hlit⟩
  · rw [hidle.leases]
    exact ⟨⟨hidle.active, rfl, hidle.published, hidle.records⟩, .inl rfl⟩
  · rw [hlit.leases]
    obtain ⟨r, hr, hlease, hretired, hreleased, hactive⟩ := hlit.record
    let w₁ : World := { w with receipts := [], leases := [] }.setRecord e { r with ownerInvalidated := true }
    have hfading (w₂ : World) (ha : w₂.active = w.active) (hl : w₂.leases = []) (hs : w₂.sourceWithdrawn = w.sourceWithdrawn)
        (hrec : w₂.records = w₁.records) : Fading w₂ e lease := by
      refine ⟨.inr (by rw [ha, hlit.active]), .inl hl, ?_, ?_, ?_⟩
      · rw [hs, hlit.shown]
        simp
      · exact ⟨{ r with ownerInvalidated := true }, by simp [hrec, w₁, World.setRecord], hlease, hretired, hreleased⟩
      · intro e' r' hr' hlit'
        by_cases he : e' = e
        · exact he
        · simp [hrec, w₁, World.setRecord, he] at hr'
          exact hlit.records e' r' hr' hlit'
    have hclose : World.closeLease { w with receipts := [], leases := [] } e =
        (if w.currentAttempt = some e then w₁.invalidateAttempt else w₁).retireRecord e := by
      unfold World.closeLease
      simp [hr, hretired, w₁, World.setRecord]
    simp only [List.map_cons, List.map_nil, List.foldl_cons, List.foldl_nil]
    rw [hclose]
    by_cases hc : w.currentAttempt = some e
    · rw [if_pos hc]
      refine ⟨(hfading w₁.invalidateAttempt rfl rfl rfl rfl).retire, .inr ⟨?_, by simp [hlit.active], by rw [hc, hlit.active]⟩⟩
      rw [retireRecord_books]
      rfl
    · rw [if_neg hc]
      refine ⟨(hfading w₁ rfl rfl rfl rfl).retire, .inl ?_⟩
      rw [retireRecord_books]
      rfl

/-! ## The books -/

def Request.attempt : Request → Option Nat
  | .issue attempt => some attempt
  | .seed attempt _ => some attempt
  | .read _ => none

/-- The attempts are numbered by the epoch they began in, one that waits for the store waits there once, and a receipt is
the newest. -/
structure Books.Orderly (b : Books) : Prop where
  calls : ∀ a p, b.calls a = some p → a ≤ b.mutationEpoch
  current : ∀ a, b.currentAttempt = some a → a = b.mutationEpoch
  queued : ∀ q ∈ b.queue, ∀ a, q.attempt = some a → b.calls a = some .issuing ∨ ∃ r, b.calls a = some (.seeding r)
  once : (b.queue.filterMap Request.attempt).Nodup
  newest : ∀ r ∈ b.receipts, r = b.proofGeneration

def Books.setCall (b : Books) (attempt : Nat) (p : Progress) : Books :=
  { b with calls := fun a => if a = attempt then some p else b.calls a }

theorem Books.Orderly.setCall {b : Books} (h : b.Orderly) {a : Nat} (hle : a ≤ b.mutationEpoch)
    (hout : ∀ q ∈ b.queue, q.attempt ≠ some a) (p : Progress) : (b.setCall a p).Orderly where
  calls a' p' hp := by
    by_cases ha : a' = a
    · rw [ha]
      exact hle
    · exact h.calls a' p' (by simpa [Books.setCall, ha] using hp)
  current := h.current
  queued q hq a' ha' := by
    have hne : a' ≠ a := fun heq => hout q hq (by rw [ha', heq])
    simpa [Books.setCall, hne] using h.queued q hq a' ha'
  once := h.once
  newest := h.newest

theorem Books.Orderly.clear {b : Books} (h : b.Orderly) : { b with currentAttempt := none }.Orderly :=
  ⟨h.calls, fun _ ha => by simp at ha, h.queued, h.once, h.newest⟩

theorem Books.Orderly.invalidate {b : Books} (h : b.Orderly) :
    { b with mutationEpoch := b.mutationEpoch + 1, currentAttempt := none }.Orderly :=
  ⟨fun a p hp => Nat.le_succ_of_le (h.calls a p hp), fun _ ha => by simp at ha, h.queued, h.once, h.newest⟩

theorem Books.Orderly.enqueue {b : Books} (h : b.Orderly) {a : Nat} (hle : a ≤ b.mutationEpoch)
    (hout : ∀ q ∈ b.queue, q.attempt ≠ some a) {request : Request} (hrequest : request.attempt = some a) {p : Progress}
    (hp : p = .issuing ∨ ∃ r, p = .seeding r) : ({ b with queue := b.queue ++ [request] }.setCall a p).Orderly where
  calls a' p' hp' := by
    by_cases ha : a' = a
    · rw [ha]
      exact hle
    · exact h.calls a' p' (by simpa [Books.setCall, ha] using hp')
  current := h.current
  queued q hq a' ha' := by
    rcases List.mem_append.mp hq with hold | hnew
    · have hne : a' ≠ a := fun heq => hout q hold (by rw [ha', heq])
      simpa [Books.setCall, hne] using h.queued q hold a' ha'
    · rw [List.mem_singleton.mp hnew, hrequest] at ha'
      cases ha'
      simpa [Books.setCall] using hp
  once := by
    have hnew : a ∉ b.queue.filterMap Request.attempt := by
      intro hmem
      obtain ⟨q, hq, ha⟩ := List.mem_filterMap.mp hmem
      exact hout q hq ha
    simp only [Books.setCall, List.filterMap_append, List.filterMap_cons, List.filterMap_nil, hrequest]
    rw [List.nodup_append]
    refine ⟨h.once, by simp, ?_⟩
    intro x hx y hy hxy
    rw [List.mem_singleton.mp hy] at hxy
    exact hnew (hxy ▸ hx)
  newest := h.newest

theorem Books.Orderly.read {b : Books} (h : b.Orderly) (call : Nat) :
    { b with queue := b.queue ++ [Request.read call] }.Orderly where
  calls := h.calls
  current := h.current
  queued q hq a ha := by
    rcases List.mem_append.mp hq with hold | hnew
    · exact h.queued q hold a ha
    · rw [List.mem_singleton.mp hnew] at ha
      cases ha
  once := by
    rw [List.filterMap_append, show List.filterMap Request.attempt [Request.read call] = [] from rfl, List.append_nil]
    exact h.once
  newest := h.newest

theorem Books.Orderly.receive {b : Books} (h : b.Orderly) (receipts : List Nat) (generation : Nat)
    (hnewest : ∀ r ∈ receipts, r = generation) :
    { b with
      receipts := receipts
      proofGeneration := generation }.Orderly :=
  ⟨h.calls, h.current, h.queued, h.once, hnewest⟩

theorem Books.Orderly.claim {b : Books} (h : b.Orderly) :
    { b with
      mutationEpoch := b.mutationEpoch + 1
      currentAttempt := some (b.mutationEpoch + 1) }.Orderly :=
  ⟨fun a p hp => Nat.le_succ_of_le (h.calls a p hp), fun _ ha => (Option.some.inj ha).symm, h.queued, h.once, h.newest⟩

theorem Books.Orderly.serve {b : Books} (h : b.Orderly) {request : Request} {queue : List Request}
    (hqueue : b.queue = request :: queue) :
    { b with queue := queue }.Orderly ∧ ∀ a, request.attempt = some a →
      (b.calls a = some .issuing ∨ ∃ r, b.calls a = some (.seeding r)) ∧ ∀ q ∈ queue, q.attempt ≠ some a := by
  have honce := h.once
  rw [hqueue] at honce
  constructor
  · refine ⟨h.calls, h.current, fun q hq => h.queued q (by rw [hqueue]; exact .tail _ hq), ?_, h.newest⟩
    cases ha : request.attempt with
    | none => simpa [ha] using honce
    | some a => exact (List.nodup_cons.mp (by simpa [ha] using honce)).2
  · intro a ha
    refine ⟨h.queued request (by rw [hqueue]; exact .head _) a ha, fun q hq hqa => ?_⟩
    rw [List.filterMap_cons_some ha] at honce
    exact (List.nodup_cons.mp honce).1 (List.mem_filterMap.mpr ⟨q, hq, hqa⟩)

/-! ## Every step -/

structure Sound (w : World) : Prop where
  lamp : Lamp w
  orderly : w.books.Orderly
  settled : ∀ e, w.active = some e → w.calls e = some (.settled (some true))

/-- A call that waits for nothing, and whose record is not active. -/
structure Free (w : World) (a : Nat) : Prop where
  claimed : a ≤ w.mutationEpoch
  out : ∀ q ∈ w.queue, q.attempt ≠ some a
  dark : w.active ≠ some a

theorem Sound.free {w : World} (h : Sound w) {a : Nat} {p : Progress} (hcall : w.calls a = some p)
    (hp : p ≠ .issuing ∧ (∀ r, p ≠ .seeding r) ∧ p ≠ .settled (some true)) : Free w a where
  claimed := h.orderly.calls a p hcall
  out q hq ha := by
    rcases h.orderly.queued q hq a ha with hwait | ⟨r, hwait⟩
    · rw [show w.books.calls a = w.calls a from rfl, hcall] at hwait
      exact hp.1 (Option.some.inj hwait)
    · rw [show w.books.calls a = w.calls a from rfl, hcall] at hwait
      exact hp.2.1 r (Option.some.inj hwait)
  dark ha := by
    have hsettled := h.settled a ha
    rw [hcall] at hsettled
    exact hp.2.2 (Option.some.inj hsettled)

theorem Sound.setCall {w : World} (h : Sound w) {a : Nat} (hfree : Free w a) (p : Progress) : Sound (w.setCall a p) where
  lamp := h.lamp.of_eq rfl rfl id rfl rfl rfl
  orderly := h.orderly.setCall hfree.claimed hfree.out p
  settled e he := by
    have hne : e ≠ a := fun heq => hfree.dark (heq ▸ he)
    simpa [World.setCall, hne] using h.settled e he

theorem Sound.clear {w : World} (h : Sound w) : Sound { w with currentAttempt := none } where
  lamp := h.lamp.of_eq rfl rfl id rfl rfl rfl
  orderly := h.orderly.clear
  settled := h.settled

theorem Sound.finishAttempt {w : World} (h : Sound w) {a : Nat} (hfree : Free w a) : Sound (w.finishAttempt a) := by
  unfold World.finishAttempt
  split
  · exact h.clear.setCall ⟨hfree.claimed, hfree.out, hfree.dark⟩ _
  · exact h.setCall hfree _

theorem Sound.finishUnless {w : World} (h : Sound w) {a : Nat} (hfree : Free w a) (failed : Bool) :
    Sound (w.finishUnless failed a) := by
  unfold World.finishUnless
  split
  · exact h.setCall hfree _
  · exact h.finishAttempt hfree

theorem Idle.sound {w : World} (h : Idle w) (horderly : w.books.Orderly) : Sound w where
  lamp := .inl h
  orderly := horderly
  settled e he := by
    rw [h.active] at he
    cases he

theorem Idle.free {w w' : World} (h : Idle w') {a : Nat} (hfree : Free w a) (hepoch : w.mutationEpoch ≤ w'.mutationEpoch)
    (hqueue : w'.queue = w.queue) : Free w' a where
  claimed := Nat.le_trans hfree.claimed hepoch
  out := by rw [hqueue]; exact hfree.out
  dark ha := by
    rw [h.active] at ha
    cases ha

theorem Sound.failClosed {w : World} (h : Sound w) : Sound w.failClosed.1 :=
  h.lamp.failClosed.sound (by rw [failClosed_books]; exact h.orderly.invalidate)

theorem Sound.free_failClosed {w : World} (h : Sound w) {a : Nat} (hfree : Free w a) : Free w.failClosed.1 a := by
  have hepoch := congrArg Books.mutationEpoch (failClosed_books w)
  have hqueue := congrArg Books.queue (failClosed_books w)
  exact h.lamp.failClosed.free hfree (Nat.le_trans (Nat.le_succ _) (Nat.le_of_eq hepoch.symm)) hqueue

theorem Sound.invalidateProofs {w : World} (h : Sound w) :
    Sound w.invalidateProofs ∧ Idle w.invalidateProofs ∧ w.mutationEpoch ≤ w.invalidateProofs.mutationEpoch ∧
      w.invalidateProofs.queue = w.queue ∧ w.invalidateProofs.calls = w.calls := by
  obtain ⟨hidle, hbooks | ⟨hbooks, -, -⟩⟩ := h.lamp.invalidateProofs
  · refine ⟨hidle.sound ?_, hidle, Nat.le_of_eq (congrArg Books.mutationEpoch hbooks).symm, congrArg Books.queue hbooks,
      congrArg Books.calls hbooks⟩
    rw [hbooks]
    exact h.orderly.receive [] _ (by simp)
  · refine ⟨hidle.sound ?_, hidle, ?_, congrArg Books.queue hbooks, congrArg Books.calls hbooks⟩
    · rw [hbooks]
      exact h.orderly.invalidate.receive [] _ (by simp)
    · rw [show w.invalidateProofs.mutationEpoch = w.mutationEpoch + 1 from congrArg Books.mutationEpoch hbooks]
      exact Nat.le_succ _

theorem Sound.free_invalidateProofs {w : World} (h : Sound w) {a : Nat} (hfree : Free w a) : Free w.invalidateProofs a := by
  obtain ⟨-, hidle, hepoch, hqueue, -⟩ := h.invalidateProofs
  exact hidle.free hfree hepoch hqueue

theorem Sound.pop {w : World} (h : Sound w) {request : Request} {queue : List Request} (hqueue : w.queue = request :: queue) :
    Sound { w with queue := queue } ∧ ∀ a, request.attempt = some a → Free { w with queue := queue } a := by
  obtain ⟨horderly, hserved⟩ := h.orderly.serve hqueue
  refine ⟨⟨h.lamp.of_eq rfl rfl id rfl rfl rfl, horderly, h.settled⟩, fun a ha => ?_⟩
  obtain ⟨hwait, hout⟩ := hserved a ha
  refine ⟨?_, hout, fun hactive => ?_⟩
  · rcases hwait with hissuing | ⟨r, hseeding⟩
    · exact h.orderly.calls a _ hissuing
    · exact h.orderly.calls a _ hseeding
  · have hsettled : w.books.calls a = some (.settled (some true)) := h.settled a hactive
    rcases hwait with hissuing | ⟨r, hseeding⟩
    · rw [hissuing] at hsettled
      cases hsettled
    · rw [hseeding] at hsettled
      cases hsettled

theorem Sound.issue {w : World} (h : Sound w) {a : Nat} (hfree : Free w a) (outcome : Outcome) :
    Sound ({ w.invalidateProofs with
      proofGeneration := w.invalidateProofs.proofGeneration + 1
      receipts := [w.invalidateProofs.proofGeneration + 1] }.setCall a
        (.issued (w.invalidateProofs.proofGeneration + 1) outcome)) := by
  obtain ⟨hsound, hidle, -⟩ := h.invalidateProofs
  have hfree' := h.free_invalidateProofs hfree
  have hissued : Sound { w.invalidateProofs with
      proofGeneration := w.invalidateProofs.proofGeneration + 1
      receipts := [w.invalidateProofs.proofGeneration + 1] } :=
    Idle.sound ⟨hidle.active, hidle.leases, hidle.published, hidle.records⟩
      (hsound.orderly.receive [_] _ fun r hr => List.mem_singleton.mp hr)
  exact hissued.setCall ⟨hfree'.claimed, hfree'.out, hfree'.dark⟩ _

theorem Sound.serve {w : World} (h : Sound w) (outcome : Outcome) : Sound (w.serve outcome) := by
  unfold World.serve
  split
  · exact h
  next request queue hqueue =>
    obtain ⟨hpopped, hfree⟩ := h.pop hqueue
    obtain ⟨w₁, hw₁, hsound, hfree₁⟩ : ∃ w₁, w₁ = (if outcome = .failed then World.invalidateProofs { w with queue := queue }
        else { w with queue := queue }) ∧ Sound w₁ ∧ ∀ a, request.attempt = some a → Free w₁ a := by
      refine ⟨_, rfl, ?_⟩
      split
      · exact ⟨hpopped.invalidateProofs.1, fun a ha => hpopped.free_invalidateProofs (hfree a ha)⟩
      · exact ⟨hpopped, hfree⟩
    dsimp only
    rw [← hw₁]
    cases request with
    | issue a =>
      cases outcome with
      | done ours => exact hsound.issue (hfree₁ a rfl) _
      | storageFault => exact hsound.setCall (hfree₁ a rfl) _
      | failed => exact hsound.setCall (hfree₁ a rfl) _
    | seed a receipt => exact hsound.setCall (hfree₁ a rfl) _
    | read call => exact ⟨hsound.lamp.of_eq rfl rfl id rfl rfl rfl, hsound.orderly, hsound.settled⟩

theorem Sound.activate {w : World} (h : Sound w) : Sound w.activate := by
  have hfresh : w.calls (w.mutationEpoch + 1) = none := by
    cases hcall : w.calls (w.mutationEpoch + 1) with
    | none => rfl
    | some p => exact absurd (h.orderly.calls _ _ hcall) (Nat.not_succ_le_self _)
  have hclaimed : Sound { w with
      mutationEpoch := w.mutationEpoch + 1
      currentAttempt := some (w.mutationEpoch + 1) } :=
    ⟨h.lamp.of_eq rfl rfl id rfl rfl rfl, h.orderly.claim, h.settled⟩
  have hout : ∀ q ∈ w.queue, q.attempt ≠ some (w.mutationEpoch + 1) := by
    intro q hq ha
    rcases h.orderly.queued q hq _ ha with hwait | ⟨r, hwait⟩ <;>
    · rw [show w.books.calls (w.mutationEpoch + 1) = none from hfresh] at hwait
      cases hwait
  have hdark : w.active ≠ some (w.mutationEpoch + 1) := by
    intro ha
    have hsettled := h.settled _ ha
    rw [hfresh] at hsettled
    cases hsettled
  unfold World.activate
  dsimp only
  split
  · exact hclaimed.finishAttempt ⟨Nat.le_refl _, hout, hdark⟩
  · refine ⟨h.lamp.of_eq rfl rfl id rfl rfl rfl, h.orderly.claim.enqueue (Nat.le_refl _) hout rfl (.inl rfl), fun e he => ?_⟩
    have hne : e ≠ w.mutationEpoch + 1 := fun heq => hdark (heq ▸ he)
    simpa [World.setCall, World.enqueue, hne] using h.settled e he

theorem Sound.close {w : World} (h : Sound w) : Sound w.close := by
  unfold World.close
  split
  · exact h
  · exact h.lamp.invalidateAttempt.withdraw.sound (by rw [withdraw_books]; exact h.orderly.invalidate)

theorem Sound.dispose {w : World} (h : Sound w) : Sound w.dispose := by
  unfold World.dispose
  split
  · exact h
  · refine Idle.sound (Lamp.withdraw (h.lamp.of_eq rfl rfl id rfl rfl rfl)) ?_
    rw [withdraw_books]
    exact ⟨h.orderly.invalidate.calls, h.orderly.invalidate.current, h.orderly.queued, h.orderly.once, h.orderly.newest⟩

theorem Sound.read {w : World} (h : Sound w) (call : Nat) : Sound (w.read call) := by
  unfold World.read
  split
  · exact h
  · exact ⟨h.lamp.of_eq rfl rfl id rfl rfl rfl, h.orderly.read call, h.settled⟩

theorem Sound.resumeRead {w : World} (h : Sound w) (call : Nat) : Sound (w.resumeRead call) := by
  have hset {w' : World} (h' : Sound w') (r : Reading) : Sound (w'.setRead call r) :=
    ⟨h'.lamp.of_eq rfl rfl id rfl rfl rfl, h'.orderly, h'.settled⟩
  unfold World.resumeRead
  split
  · exact ⟨h.lamp.of_eq rfl rfl id rfl rfl rfl, h.orderly, h.settled⟩
  · split
    · exact hset h _
    · exact hset h.failClosed _
  · exact h

theorem Sound.filter {w : World} (h : Sound w) (r : Nat) : Sound { w with receipts := w.receipts.filter (· ≠ r) } where
  lamp := h.lamp.of_eq rfl rfl (fun hnone => by simp [hnone]) rfl rfl rfl
  orderly := h.orderly.receive _ _ fun r' hr' => h.orderly.newest r' (List.mem_of_mem_filter hr')
  settled := h.settled

theorem Sound.resumeIssued {w : World} (h : Sound w) {a : Nat} (hfree : Free w a) (receipt : Nat) (outcome : Outcome) :
    Sound (w.resumeIssued a receipt outcome) := by
  unfold World.resumeIssued
  split
  · exact h.finishAttempt hfree
  · split
    · refine ⟨h.lamp.of_eq rfl rfl id rfl rfl rfl,
        h.orderly.enqueue hfree.claimed hfree.out rfl (.inr ⟨receipt, rfl⟩), fun e he => ?_⟩
      have hne : e ≠ a := fun heq => hfree.dark (heq ▸ he)
      simpa [World.setCall, World.enqueue, hne] using h.settled e he
    · have hdiscarded := h.filter receipt
      exact hdiscarded.failClosed.setCall (hdiscarded.free_failClosed ⟨hfree.claimed, hfree.out, hfree.dark⟩) _
    · exact h.failClosed.setCall (h.free_failClosed hfree) _

/-! ## A receipt is exchanged -/

/-- The world an attempt is in when it exchanges its receipt. -/
def World.verify (w : World) (outcome : Outcome) : World :=
  match outcome with
  | .done ours => { w with lastVerified := ours || w.lastVerified }
  | _ => { w with lastVerified := false }

def World.redeemable (w : World) (receipt : Nat) : Bool := w.receipts.contains receipt && receipt = w.proofGeneration

def World.leased (w : World) (a receipt : Nat) : World :=
  { w with receipts := w.receipts.filter (· ≠ receipt), leases := (receipt, a) :: w.leases }.setRecord a
    ⟨some receipt, false, false, false, false, false⟩

theorem resumeSeeded_eq (w : World) (a receipt : Nat) (outcome : Outcome) (answer : Option Bool) :
    w.resumeSeeded a receipt outcome answer =
      let w := w.verify outcome
      if w.redeemable receipt then
        let w := w.leased a receipt
        if !w.isCurrentAttempt a || maxH0SourceGeneration ≤ w.sourceGeneration then
          (w.retireRecord a).finishUnless ((w.retireRecord a).cleanupFailed a) a
        else { w with sourceGeneration := w.sourceGeneration + 1 }.publish a ⟨some receipt, false, false, false, false, false⟩
          answer
      else
        let w := w.setRecord a ⟨none, false, false, false, false, false⟩
        w.failClosed.1.finishUnless w.failClosed.2 a := by
  unfold World.resumeSeeded World.consumeReceipt World.redeemable World.verify World.leased
  cases outcome <;> dsimp only <;> split <;> simp_all [World.setRecord]

theorem Sound.verify {w : World} (h : Sound w) (outcome : Outcome) : Sound (w.verify outcome) := by
  cases outcome <;> exact ⟨h.lamp.of_eq rfl rfl id rfl rfl rfl, h.orderly, h.settled⟩

theorem Free.verify {w : World} {a : Nat} (h : Free w a) (outcome : Outcome) : Free (w.verify outcome) a := by
  cases outcome <;> exact ⟨h.claimed, h.out, h.dark⟩

theorem Lamp.setRecord {w : World} (h : Lamp w) {a : Nat} (hdark : w.active ≠ some a) {r : Record} (hr : r.active = false) :
    Lamp (w.setRecord a r) := by
  have hkept (e : Nat) (r' : Record) (hr' : (w.setRecord a r).records e = some r') (hlit : r'.active = true) :
      w.records e = some r' := by
    by_cases he : e = a
    · simp [World.setRecord, he] at hr'
      rw [← hr', hr] at hlit
      cases hlit
    · simpa [World.setRecord, he] using hr'
  rcases h with hidle | ⟨e, lease, hlit⟩
  · refine .inl ⟨hidle.active, hidle.leases, hidle.published, fun e r' hr' => ?_⟩
    by_contra hlit
    have hlit' : r'.active = true := by simpa using hlit
    exact hlit (hidle.records e r' (hkept e r' hr' hlit'))
  · have hne : e ≠ a := fun heq => hdark (heq ▸ hlit.active)
    refine .inr ⟨e, lease, hlit.active, hlit.leases, hlit.receipts, hlit.shown, ?_, fun e' r' hr' hlit' =>
      hlit.records e' r' (hkept e' r' hr' hlit') hlit'⟩
    obtain ⟨r', hr', hrest⟩ := hlit.record
    exact ⟨r', by simpa [World.setRecord, hne] using hr', hrest⟩

theorem Lamp.idle_of_redeemable {w : World} (h : Lamp w) {receipt : Nat} (hr : w.redeemable receipt = true) : Idle w := by
  rcases h with hidle | ⟨e, lease, hlit⟩
  · exact hidle
  · simp [World.redeemable, hlit.receipts] at hr

theorem Idle.leased {w : World} (h : Idle w) (a receipt : Nat) : Fading (w.leased a receipt) a receipt where
  active := .inl h.active
  leases := .inr (by simp [World.leased, World.setRecord, h.leases])
  published _ := h.published
  record := ⟨⟨some receipt, false, false, false, false, false⟩, by simp [World.leased, World.setRecord], rfl, rfl, rfl⟩
  records e r hr hlit := by
    by_cases he : e = a
    · exact he
    · have hdark := h.records e r (by simpa [World.leased, World.setRecord, he] using hr)
      rw [hlit] at hdark
      cases hdark

theorem Sound.leased {w : World} (h : Sound w) (a receipt : Nat) : (w.leased a receipt).books.Orderly :=
  h.orderly.receive _ _ fun r' hr' => h.orderly.newest r' (List.mem_of_mem_filter hr')

theorem Sound.leased_receipts {w : World} (h : Sound w) (a : Nat) {receipt : Nat} (hr : w.redeemable receipt = true) :
    (w.leased a receipt).receipts = [] := by
  have hnewest : receipt = w.proofGeneration := by
    simp only [World.redeemable, Bool.and_eq_true, decide_eq_true_eq] at hr
    exact hr.2
  refine List.filter_eq_nil_iff.mpr fun r hmem => ?_
  have hr' : r = w.proofGeneration := h.orderly.newest r hmem
  simp [hr', hnewest]

/-- **A record that is retired before its call ends leaves the world sound.** -/
theorem Free.retired {w w' : World} {a lease : Nat} (hfree : Free w a) (hfading : Fading w' a lease)
    (horderly : w'.books.Orderly) (hepoch : w'.mutationEpoch = w.mutationEpoch) (hqueue : w'.queue = w.queue) (failed : Bool) :
    Sound ((w'.retireRecord a).finishUnless failed a) := by
  have hidle := hfading.retire
  have hsound : Sound (w'.retireRecord a) := hidle.sound (by rw [retireRecord_books]; exact horderly)
  have hepoch' : (w'.retireRecord a).mutationEpoch = w'.mutationEpoch :=
    congrArg Books.mutationEpoch (retireRecord_books w' a)
  have hqueue' : (w'.retireRecord a).queue = w'.queue := congrArg Books.queue (retireRecord_books w' a)
  exact hsound.finishUnless (hidle.free hfree (Nat.le_of_eq (by rw [hepoch', hepoch])) (by rw [hqueue', hqueue])) failed

def World.lit (w : World) (a receipt : Nat) (accepted : Bool) : World :=
  { w.leased a receipt with
    sourceGeneration := w.sourceGeneration + 1
    active := some a
    sourceWithdrawn := false
    published := accepted }.setRecord a ⟨some receipt, true, false, false, false, false⟩

theorem Idle.lit {w : World} (h : Idle w) {a receipt : Nat} (hreceipts : (w.leased a receipt).receipts = [])
    (accepted : Bool) : Lit (w.lit a receipt accepted) a receipt where
  active := rfl
  leases := by simp [World.lit, World.leased, World.setRecord, h.leases]
  receipts := hreceipts
  shown := rfl
  record := ⟨⟨some receipt, true, false, false, false, false⟩, by simp [World.lit, World.setRecord], rfl, rfl, rfl, rfl⟩
  records e r hr hlit := by
    by_cases he : e = a
    · exact he
    · have hdark := h.records e r (by simpa [World.lit, World.leased, World.setRecord, he] using hr)
      rw [hlit] at hdark
      cases hdark

theorem publish_eq (w : World) (a receipt : Nat) (answer : Option Bool) :
    { w.leased a receipt with sourceGeneration := w.sourceGeneration + 1 }.publish a
        ⟨some receipt, false, false, false, false, false⟩ answer =
      if answer = some true then { w.lit a receipt true with currentAttempt := none }.setCall a (.settled (some true))
      else ((w.lit a receipt false).retireRecord a).finishUnless
        (answer.isNone || ((w.lit a receipt false).retireRecord a).cleanupFailed a) a := by
  unfold World.publish World.lit
  dsimp only
  split
  next h =>
    rw [h]
    rfl
  next h => rw [decide_eq_false h]

theorem Sound.lit {w : World} (h : Sound w) (a receipt : Nat) (accepted : Bool) : (w.lit a receipt accepted).books.Orderly :=
  ⟨h.orderly.calls, h.orderly.current, h.orderly.queued, h.orderly.once,
    fun r hr => h.orderly.newest r (List.mem_of_mem_filter hr)⟩

theorem Sound.resumeSeeded {w : World} (h : Sound w) {a : Nat} (hfree : Free w a) (receipt : Nat) (outcome : Outcome)
    (answer : Option Bool) : Sound (w.resumeSeeded a receipt outcome answer) := by
  have hv := h.verify outcome
  have hf := hfree.verify outcome
  rw [resumeSeeded_eq]
  dsimp only
  split
  next hr =>
    have hidle := hv.lamp.idle_of_redeemable hr
    have hreceipts := hv.leased_receipts a hr
    split
    · exact hf.retired (hidle.leased a receipt) (hv.leased a receipt) rfl rfl _
    · rw [show ((w.verify outcome).leased a receipt).sourceGeneration = (w.verify outcome).sourceGeneration from rfl, publish_eq]
      split
      · have hlit := hidle.lit hreceipts true
        refine ⟨Lamp.of_eq (.inr ⟨a, receipt, hlit⟩) rfl rfl id rfl rfl rfl,
          ((hv.lit a receipt true).clear).setCall hf.claimed hf.out _, fun e he => ?_⟩
        have hea : a = e := Option.some.inj he
        simp [World.setCall, hea]
      · exact hf.retired (hidle.lit hreceipts false).fading (hv.lit a receipt false) rfl rfl _
  next hr =>
    have hset : Sound ((w.verify outcome).setRecord a ⟨none, false, false, false, false, false⟩) :=
      ⟨hv.lamp.setRecord hf.dark rfl, hv.orderly, hv.settled⟩
    exact hset.failClosed.finishUnless (hset.free_failClosed ⟨hf.claimed, hf.out, hf.dark⟩) _

theorem Sound.resume {w : World} (h : Sound w) (a : Nat) (answer : Option Bool) : Sound (w.resume a answer) := by
  unfold World.resume
  split
  next receipt outcome hcall => exact h.resumeIssued (h.free hcall (by simp)) receipt outcome
  next receipt outcome hcall => exact h.resumeSeeded (h.free hcall (by simp)) receipt outcome answer
  next => exact h

theorem Sound.step {w : World} (h : Sound w) (s : Step) : Sound (step w s) := by
  cases s with
  | activate => exact h.activate
  | close => exact h.close
  | dispose => exact h.dispose
  | read call => exact h.read call
  | serve outcome => exact h.serve outcome
  | resume a answer => exact h.resume a answer
  | resumeRead call => exact h.resumeRead call
  | invalidateProofs => exact h.invalidateProofs.1

theorem Sound.init : Sound {} :=
  Idle.sound ⟨rfl, rfl, rfl, fun _ _ h => by cases h⟩
    ⟨fun _ _ h => (by cases h), fun _ h => (by cases h), fun _ h => (by cases h), List.nodup_nil, fun _ h => (by cases h)⟩

theorem Sound.foldl {w : World} (h : Sound w) (steps : List Step) : Sound (steps.foldl Readiness.step w) := by
  induction steps generalizing w with
  | nil => exact h
  | cons s steps ih => exact ih (h.step s)

/-- **Every world a run reaches is sound.** -/
theorem sound_run (steps : List Step) : Sound (run steps) := Sound.init.foldl steps

end Readiness
end TmuxWorktree
