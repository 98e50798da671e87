import TmuxWorktree.Host.Files
/-!
# Commits — host state commits are all or nothing

`publishState` writes two files.  The invariant is that the witness belongs to the state file, or is one commit behind
it, or is missing after a creation that did not get to it; `unwitnessed` says which from the trace.  It survives every
fault but two: a clean-up that fails after the rename hides the commit from its caller, and a second rename of the state
file while the witness is behind breaks the lineage.
-/
namespace TmuxWorktree
namespace Host

open Effect

variable {ξ R : Type} {o : Outside R} {w w' : World R}

/-! ## Operations that nobody sees -/

def Same (w w' : World R) : Prop := w' = { w with tick := w'.tick }

theorem Same.refl (w : World R) : Same w w := rfl

theorem Same.trans {w₁ : World R} (h : Same w w₁) (h' : Same w₁ w') : Same w w' := by
  rw [Same] at *
  rw [h', h]

theorem Same.tick (w : World R) (n : Nat) : Same w { w with tick := n } := rfl

theorem Same.state (h : Same w w') : w'.state = w.state := by rw [h]
theorem Same.witness (h : Same w w') : w'.witness = w.witness := by rw [h]
theorem Same.current (h : Same w w') : w'.current = w.current := by rw [h]
theorem Same.trace (h : Same w w') : w'.trace = w.trace := by rw [h]

def Timeless (f : World R → World R) : Prop := ∀ w n, f { w with tick := n } = { f w with tick := n }

theorem Timeless.same {f : World R → World R} (hf : Timeless f) (h : Same w w') : Same (f w) (f w') := by
  have heq : f w' = { f w with tick := w'.tick } := by
    rw [← hf, ← h]
  rw [Same, heq]

/-- The program leaves the files alone, and throws errors of file operations. -/
def Quiet {α : Type} (x : M ξ R α) : Prop :=
  ∀ w, Sat (Same w) x w (fun _ => Same w) (fun e w' => Same w w' ∧ ∃ code, e = .fs code)

theorem Quiet.pure {α : Type} (a : α) : Quiet (Pure.pure a : M ξ R α) := fun w => Same.refl w

theorem Quiet.bind {α β : Type} {x : M ξ R α} {f : α → M ξ R β} (hx : Quiet x) (hf : ∀ a, Quiet (f a)) :
    Quiet (x >>= f) := by
  intro w
  refine Sat.step (hx w) (fun a w₁ h₁ => ?_)
  exact (hf a w₁).imp (fun _ h => h₁.trans h) (fun _ _ h => h₁.trans h) (fun _ _ h => ⟨h₁.trans h.1, h.2⟩)

theorem Quiet.attempt {α : Type} {x : M ξ R α} (hx : Quiet x) (w : World R) :
    Sat (Same w) (Eff.attempt x) w (fun r w' => Same w w' ∧ ∀ e, r = .error e → ∃ code, e = .fs code)
      (fun _ _ => False) := by
  refine Sat.attempt ((hx w).mono (fun a w' h => ⟨h, fun e he => by cases he⟩) (fun e w' h => ⟨h.1, fun e' he => ?_⟩))
  obtain rfl := Except.error.inj he
  exact h.2

theorem fileOp_spec {effect : World R → World R} (he : Timeless effect) (w : World R) :
    Sat (Same (effect w)) (fileOp o effect : M ξ R Unit) w (fun _ => Same (effect w))
      (fun e w' => Same w w' ∧ ∃ code, e = .fs code) := by
  have hdone : Same (effect w) (effect { w with tick := w.tick + 1 }) := he.same (Same.tick w _)
  refine Sat.next rfl ?_
  cases o.fault w.tick with
  | none => exact hdone
  | fails code => exact ⟨Same.tick w _, code, rfl⟩
  | stops => exact hdone

theorem quietOp_quiet : Quiet (quietOp o : M ξ R Unit) := fileOp_spec (fun _ _ => rfl)

theorem writeLoop_quiet : ∀ turns remaining, Quiet (writeLoop o turns remaining : M ξ R Unit)
  | 0, _ => .pure ()
  | _ + 1, 0 => .pure ()
  | turns + 1, _ + 1 =>
    Quiet.bind (fun w => Same.refl w) (fun _ => Quiet.bind quietOp_quiet (fun _ => writeLoop_quiet turns _))

theorem writeTemporary_quiet (bytes : Nat) : Quiet (writeTemporary o bytes : M ξ R Unit) :=
  quietOp_quiet.bind (fun _ => (writeLoop_quiet _ _).bind (fun _ => quietOp_quiet.bind (fun _ => quietOp_quiet)))

theorem fsyncDirectory_quiet : Quiet (fsyncDirectory o : M ξ R Unit) := by
  refine quietOp_quiet.bind (fun _ w => ?_)
  refine Sat.bind (quietOp_quiet.attempt w) (fun _ _ h => h.elim) ?_
  rintro r w₁ ⟨h₁, hr⟩
  refine Sat.bind ((quietOp_quiet w₁).imp (fun _ h => h₁.trans h) (fun _ _ h => h₁.trans h)
    (fun _ _ h => (⟨h₁.trans h.1, h.2⟩ : Same w _ ∧ _))) (fun _ _ h => h) ?_
  intro _ w₂ h₂
  exact Sat.ofExcept (fun _ _ => h₂) (fun e he => ⟨h₂, hr e he⟩)

/-! ## Atomic writes -/

def Fits (bytes : Nat) (maxBytes : Option Nat) : Prop := ∀ m ∈ maxBytes, bytes ≤ m

/-- How an atomic write ends if it throws: nothing was published, or it says so, or its clean-up failed. -/
def Thrown (bytes : Nat) (maxBytes : Option Nat) (publish slip : World R → World R) (w : World R) (e : HostError ξ)
    (w' : World R) : Prop :=
  (Same w w' ∧ ((∃ code, e = .fs code) ∨ (∃ a b, e = .capacity a b) ∨ ∃ code, e = .atomicPublish false (.fs code))) ∨
  (Fits bytes maxBytes ∧ Same (publish w) w' ∧ ∃ code, e = .atomicPublish true (.fs code)) ∨
  (Fits bytes maxBytes ∧ Same (slip (publish w)) w' ∧ ∃ code, e = .fs code)

/-- The body of the `try`: published or not, and the error says which. -/
def Tried (publish : World R → World R) (w : World R) (r : Except (HostError ξ) Unit) (w' : World R) : Prop :=
  (r = .ok () ∧ Same (publish w) w') ∨ (∃ code, r = .error (.atomicPublish false (.fs code)) ∧ Same w w') ∨
    ∃ code, r = .error (.atomicPublish true (.fs code)) ∧ Same (publish w) w'

theorem tryPublish_spec {bytes : Nat} {publish : World R → World R}
    (hp : Timeless publish) (w : World R) :
    Sat (fun w' => Same w w' ∨ Same (publish w) w')
      (Eff.attempt (do
        tryCatch (do
          writeTemporary o bytes
          fileOp o publish) (fun e => throw (.atomicPublish false e))
        tryCatch (do
          quietOp o
          fsyncDirectory o) (fun e => throw (.atomicPublish true e))) : M ξ R (Except (HostError ξ) Unit)) w
      (Tried publish w) (fun _ _ => False) := by
  refine Sat.attempt (Sat.bind (P := fun _ w' => Same (publish w) w')
    (F := fun e w' => ∃ code, e = .atomicPublish false (.fs code) ∧ Same w w') ?_ ?_ ?_)
  · refine Sat.tryCatch (F := fun e w' => Same w w' ∧ ∃ code, e = .fs code) ?_ ?_
    · refine Sat.bind ((writeTemporary_quiet bytes w).imp (fun _ h => .inl h) (fun _ _ h => h) (fun _ _ h => h))
        (fun _ _ h => h) (fun _ w₁ h₁ => ?_)
      have hpub := hp.same h₁
      exact (fileOp_spec hp w₁).imp (fun _ h => .inr (hpub.trans h)) (fun _ _ h => hpub.trans h)
        (fun _ _ h => ⟨h₁.trans h.1, h.2⟩)
    · rintro e w₁ ⟨h₁, code, rfl⟩
      exact ⟨code, rfl, h₁⟩
  · rintro e w₁ ⟨code, rfl, h₁⟩
    exact .inr (.inl ⟨code, rfl, h₁⟩)
  · intro _ w₁ h₁
    refine Sat.tryCatch (F := fun e w' => Same (publish w) w' ∧ ∃ code, e = .fs code) ?_ ?_
    · refine ((quietOp_quiet.bind (fun _ => fsyncDirectory_quiet)) w₁).imp (fun _ h => .inr (h₁.trans h))
        (fun _ _ h => .inl ⟨rfl, h₁.trans h⟩) (fun _ _ h => ⟨h₁.trans h.1, h.2⟩)
    · rintro e w₂ ⟨h₂, code, rfl⟩
      exact .inr (.inr ⟨code, rfl, h₂⟩)

theorem removeTemporary_spec {slip : World R → World R} (hs : Timeless slip)
    (published : Bool) (w : World R) :
    Sat (Same w) (removeTemporary o published slip : M ξ R Unit) w (fun _ => Same w)
      (fun e w' => (∃ code, e = .fs code) ∧ Same (if published then slip w else w) w') := by
  refine Sat.tryCatch ((quietOp_quiet w).mono (fun _ _ h => h) (fun _ _ h => h)) ?_
  rintro e w₁ ⟨h₁, code, rfl⟩
  refine ⟨⟨code, rfl⟩, ?_⟩
  cases published with
  | false => exact h₁
  | true =>
    exact hs.same h₁

theorem capacityGuard_spec {bytes : Nat} {maxBytes : Option Nat} {publish slip : World R → World R} (w : World R) :
    Sat (fun w' => Same w w' ∨ (Fits bytes maxBytes ∧ Same (publish w) w'))
      (match maxBytes with
        | some m => if m < bytes then throw (.capacity bytes m) else Pure.pure ()
        | none => Pure.pure () : M ξ R Unit) w (fun _ w' => w' = w ∧ Fits bytes maxBytes)
      (Thrown bytes maxBytes publish slip w) := by
  cases maxBytes with
  | none => exact ⟨rfl, fun m hm => by cases hm⟩
  | some m =>
    by_cases hlt : m < bytes
    · simp only [hlt, if_true]
      exact .inl ⟨Same.refl w, .inr (.inl ⟨_, _, rfl⟩)⟩
    · simp only [hlt, if_false]
      exact ⟨rfl, fun m' hm => by cases hm; omega⟩

theorem atomicWriteJson_spec {bytes : Nat} {maxBytes : Option Nat} {publish slip : World R → World R}
    (hp : Timeless publish) (hs : Timeless slip) (w : World R) :
    Sat (fun w' => Same w w' ∨ (Fits bytes maxBytes ∧ Same (publish w) w'))
      (atomicWriteJson o bytes maxBytes publish slip : M ξ R Unit) w
      (fun _ w' => Fits bytes maxBytes ∧ Same (publish w) w') (Thrown bytes maxBytes publish slip w) := by
  refine Sat.step (capacityGuard_spec w) ?_
  intro _ w₀ h₀
  obtain ⟨rfl, hfits⟩ := h₀
  refine Sat.step (P := fun _ => Same w₀) ((quietOp_quiet w₀).imp (fun _ h => .inl h) (fun _ _ h => h)
    (fun _ _ h => .inl ⟨h.1, .inl h.2⟩)) ?_
  intro _ w₁ h₁
  have hpub := hp.same h₁
  refine Sat.bind ((tryPublish_spec hp w₁).imp ?_ (fun _ _ h => h) (fun _ _ h => h)) (fun _ _ h => h.elim) ?_
  · exact fun _ h => h.imp (fun h => h₁.trans h) (fun h => ⟨hfits, hpub.trans h⟩)
  · rintro r w₂ (⟨rfl, h₂⟩ | ⟨code, rfl, h₂⟩ | ⟨code, rfl, h₂⟩)
    · have h₂ := hpub.trans h₂
      exact Sat.step (P := fun _ => Same (publish w₀)) ((removeTemporary_spec hs true w₂).imp
        (fun _ h => .inr ⟨hfits, h₂.trans h⟩) (fun _ _ h => h₂.trans h)
        (fun e w₃ h => .inr (.inr ⟨hfits, (hs.same h₂).trans h.2, h.1⟩))) (fun _ _ h => ⟨hfits, h⟩)
    · have h₂ := h₁.trans h₂
      exact Sat.step (P := fun _ => Same w₀) ((removeTemporary_spec hs false w₂).imp (fun _ h => .inl (h₂.trans h))
        (fun _ _ h => h₂.trans h) (fun e w₃ h => .inl ⟨h₂.trans h.2, .inl h.1⟩))
        (fun _ _ h => .inl ⟨h, .inr (.inr ⟨code, rfl⟩)⟩)
    · have h₂ := hpub.trans h₂
      exact Sat.step (P := fun _ => Same (publish w₀)) ((removeTemporary_spec hs true w₂).imp
        (fun _ h => .inr ⟨hfits, h₂.trans h⟩) (fun _ _ h => h₂.trans h)
        (fun e w₃ h => .inr (.inr ⟨hfits, (hs.same h₂).trans h.2, h.1⟩)))
        (fun _ _ h => .inr (.inl ⟨hfits, h, code, rfl⟩))

/-! ## The two files -/

theorem putState_timeless (s : PersistedHostState R) : Timeless (World.putState s) := fun _ _ => rfl
theorem putWitness_timeless (v : ContinuityWitness) : Timeless (World.putWitness v : World R → World R) := fun _ _ => rfl
theorem log_timeless (e : Event R) : Timeless (fun w : World R => w.log e) := fun _ _ => rfl

def World.putBoth (s : PersistedHostState R) (w : World R) : World R := (w.putState s).putWitness (witnessFor s)

theorem writeState_spec (s : PersistedHostState R) (maxBytes : Nat) (w : World R) :
    Sat (fun w' => Same w w' ∨ (o.codec.stateBytes s ≤ maxBytes ∧ Same (w.putState s) w'))
      (writeState o s maxBytes : M ξ R Unit) w
      (fun _ w' => o.codec.stateBytes s ≤ maxBytes ∧ Same (w.putState s) w')
      (Thrown (o.codec.stateBytes s) (some maxBytes) (World.putState s) (fun w => w.log .cleanupFailed) w) :=
  (atomicWriteJson_spec (putState_timeless s) (log_timeless _) w).imp
    (fun _ h => h.imp_right (fun h => ⟨h.1 _ rfl, h.2⟩)) (fun _ _ h => ⟨h.1 _ rfl, h.2⟩) (fun _ _ h => h)

theorem writeWitness_spec (v : ContinuityWitness) (w : World R) :
    Sat (fun w' => Same w w' ∨ Same (w.putWitness v) w') (writeWitness o v : M ξ R Unit) w
      (fun _ => Same (w.putWitness v)) (fun _ w' => Same w w' ∨ Same (w.putWitness v) w') := by
  refine (atomicWriteJson_spec (putWitness_timeless v) (fun _ _ => rfl) w).imp (fun _ h => h.imp_right And.right)
    (fun _ _ h => h.2) (fun e w' h => ?_)
  rcases h with h | h | h
  · exact .inl h.1
  · exact .inr h.2.1
  · exact .inr h.2.1

/-- **`publishState`**: nothing, the state file alone, or both; the error says whether the state file was replaced,
unless the clean-up failed. -/
theorem publishState_spec (s : PersistedHostState R) (emergencyFence : Bool) (w : World R) :
    Sat (fun w' => Same w w' ∨ (o.codec.stateBytes s ≤ o.codec.maxPersistedBytes ∧
        (Same (w.putState s) w' ∨ Same (w.putBoth s) w')))
      (publishState o s emergencyFence : M ξ R Unit) w
      (fun _ w' => o.codec.stateBytes s ≤ o.codec.maxPersistedBytes ∧ Same (w.putBoth s) w')
      (fun e w' => (e ≠ .commitUncertain ∧ Same w w') ∨
        (e = .commitUncertain ∧ o.codec.stateBytes s ≤ o.codec.maxPersistedBytes ∧
          (Same (w.putState s) w' ∨ Same (w.putBoth s) w')) ∨
        (e ≠ .commitUncertain ∧ Same ((w.putState s).log .cleanupFailed) w')) := by
  have hmax : (if emergencyFence then o.codec.maxPersistedBytes else o.codec.maxPersistedBytes - fenceReserveBytes) ≤
      o.codec.maxPersistedBytes := by
    split <;> omega
  refine Sat.step (P := fun _ w' => o.codec.stateBytes s ≤ o.codec.maxPersistedBytes ∧ Same (w.putState s) w') ?_ ?_
  · refine Sat.tryCatch ((writeState_spec s _ w).imp ?_ (fun _ _ h => ⟨h.1.trans hmax, h.2⟩) (fun _ _ h => h)) ?_
    · exact fun _ h => h.imp_right (fun h => ⟨h.1.trans hmax, .inl h.2⟩)
    · rintro e w₁ (⟨h₁, ⟨code, rfl⟩ | ⟨a, b, rfl⟩ | ⟨code, rfl⟩⟩ | ⟨hf, h₁, code, rfl⟩ | ⟨hf, h₁, code, rfl⟩)
      · exact .inl ⟨by simp, h₁⟩
      · exact .inl ⟨by simp, h₁⟩
      · exact .inl ⟨by simp, h₁⟩
      · exact .inr (.inl ⟨rfl, (hf _ rfl).trans hmax, .inl h₁⟩)
      · exact .inr (.inr ⟨by simp, h₁⟩)
  · rintro - w₁ ⟨hf, h₁⟩
    have hboth : Same (w.putBoth s) (w₁.putWitness (witnessFor s)) := (putWitness_timeless _).same h₁
    refine Sat.tryCatch ((writeWitness_spec (witnessFor s) w₁).imp ?_ (fun _ _ h => ⟨hf, hboth.trans h⟩)
      (fun _ _ h => h)) ?_
    · exact fun _ h => .inr ⟨hf, h.imp (fun h => h₁.trans h) (fun h => hboth.trans h)⟩
    · exact fun e w₂ h => .inr (.inl ⟨rfl, hf, h.imp (fun h => h₁.trans h) (fun h => hboth.trans h)⟩)

/-! ## Reading a trace -/

def unwitnessed : List (Event R) → Bool
  | [] => false
  | .renamed _ :: _ => true
  | .witnessed :: _ => false
  | _ :: tr => unwitnessed tr

/-- **No clean-up failed after a rename of the state file, and the state file was not replaced while the witness was
behind it.** -/
def Careful : List (Event R) → Prop
  | [] => True
  | .renamed _ :: tr => unwitnessed tr = false ∧ Careful tr
  | .cleanupFailed :: _ => False
  | _ :: tr => Careful tr

def lastRenamed : List (Event R) → Option (PersistedHostState R)
  | [] => none
  | .renamed s :: _ => some s
  | _ :: tr => lastRenamed tr

/-- **The state after the last transaction that returned or was reported uncertain**, or the state that was loaded
since. -/
def answered : List (Event R) → Option (PersistedHostState R)
  | [] => none
  | .loaded s :: _ | .returned s :: _ | .uncertain s :: _ => some s
  | _ :: tr => answered tr

def pending : List (Event R) → Bool
  | [] => false
  | .renamed _ :: _ => true
  | .loaded _ :: _ | .returned _ :: _ | .uncertain _ :: _ => false
  | _ :: tr => pending tr

/-- **The process stopped after a rename that was not answered for.** -/
def interrupted : List (Event R) → Bool
  | [] => false
  | .stopped :: tr => pending tr || interrupted tr
  | .loaded _ :: _ | .returned _ :: _ | .uncertain _ :: _ => false
  | _ :: tr => interrupted tr

def Follows (s s' : PersistedHostState R) : Prop :=
  s.hostEpoch = s'.hostEpoch ∧ s.commitSeq = s'.commitSeq + 1 ∧ s.parentCommitId = some s'.commitId

/-- **Every state that replaces another is its next commit.** -/
def Chained : List (Event R) → Prop
  | [] => True
  | .renamed s :: tr => Chained tr ∧ ∀ s' ∈ lastRenamed tr, Follows s s'
  | _ :: tr => Chained tr

theorem Careful.tail {e : Event R} {tr : List (Event R)} (h : Careful (e :: tr)) : Careful tr := by
  cases e <;> first | exact h | exact h.2 | exact h.elim

/-! ## The invariant -/

def Sealed (o : Outside R) (s : PersistedHostState R) : Prop :=
  parseHostState o.codec s = true ∧ o.codec.stateBytes s ≤ o.codec.maxPersistedBytes

/-- **How the two files stand to each other**: no file yet; a creation that did not get to the witness; the witness one
commit behind; or both at the same commit. -/
inductive Lineage (o : Outside R) (state : File (PersistedHostState R)) (witness : File ContinuityWitness)
    (tr : List (Event R)) : Prop
  | fresh (hs : state = .missing) (hw : witness = .missing) (hr : lastRenamed tr = none) (hu : unwitnessed tr = false)
      (ha : answered tr = none)
  | unfinished (s : PersistedHostState R) (hs : state = .holds s) (hw : witness = .missing) (hv : Sealed o s)
      (hr : lastRenamed tr = some s) (hu : unwitnessed tr = true) (ha : answered tr = none)
  | behind (s s₀ : PersistedHostState R) (hs : state = .holds s) (hw : witness = .holds (witnessFor s₀)) (hv : Sealed o s)
      (hp : parseHostState o.codec s₀ = true) (hf : Follows s s₀) (hr : lastRenamed tr = some s) (hu : unwitnessed tr = true)
  | level (s : PersistedHostState R) (hs : state = .holds s) (hw : witness = .holds (witnessFor s)) (hv : Sealed o s)
      (hr : lastRenamed tr = some s)

/-- What was answered is what the state file holds, unless the process stopped in between; `cut` says that it is about
to. -/
def Told (cut : Bool) (tr : List (Event R)) : Prop :=
  ∀ t, answered tr = some t → lastRenamed tr = some t ∨ interrupted tr = true ∨ (cut = true ∧ pending tr = true)

structure Good (o : Outside R) (cut : Bool) (w : World R) : Prop where
  lineage : Lineage o w.state w.witness w.trace
  chain : Chained w.trace
  told : Told cut w.trace

/-- In a section: what it takes for the current state is what the state file holds. -/
structure Sec (o : Outside R) (s : PersistedHostState R) (w : World R) : Prop where
  lineage : Lineage o w.state w.witness w.trace
  chain : Chained w.trace
  current : w.current = some s
  renamed : lastRenamed w.trace = some s
  answered : answered w.trace = some s

theorem Told.mono {tr : List (Event R)} (h : Told false tr) (cut : Bool) : Told cut tr := fun t ht => by
  rcases h t ht with h | h | ⟨h, -⟩
  · exact .inl h
  · exact .inr (.inl h)
  · cases h

theorem Good.same {cut : Bool} (h : Good o cut w) (hs : Same w w') : Good o cut w' := by
  rw [hs]
  exact ⟨h.lineage, h.chain, h.told⟩

theorem Good.cut (h : Good o false w) : Good o true w := ⟨h.lineage, h.chain, h.told.mono true⟩

theorem Sec.same {s : PersistedHostState R} (h : Sec o s w) (hs : Same w w') : Sec o s w' := by
  rw [hs]
  exact ⟨h.lineage, h.chain, h.current, h.renamed, h.answered⟩

theorem Sec.good {s : PersistedHostState R} (h : Sec o s w) (cut : Bool) : Good o cut w := by
  refine ⟨h.lineage, h.chain, fun t ht => .inl ?_⟩
  rw [h.answered] at ht
  rw [← ht]
  exact h.renamed

theorem Lineage.sealed {st : File (PersistedHostState R)} {wt : File ContinuityWitness} {tr : List (Event R)}
    (h : Lineage o st wt tr) {s : PersistedHostState R} (hr : lastRenamed tr = some s) : st = .holds s ∧ Sealed o s := by
  cases h with
  | fresh hs hw hr' hu ha => rw [hr'] at hr; cases hr
  | unfinished s' hs hw hv hr' hu ha => rw [hr'] at hr; obtain rfl := Option.some.inj hr; exact ⟨hs, hv⟩
  | behind s' s₀ hs hw hv hp hf hr' hu => rw [hr'] at hr; obtain rfl := Option.some.inj hr; exact ⟨hs, hv⟩
  | level s' hs hw hv hr' => rw [hr'] at hr; obtain rfl := Option.some.inj hr; exact ⟨hs, hv⟩

theorem Sec.level {s : PersistedHostState R} (h : Sec o s w) (hu : unwitnessed w.trace = false) :
    w.witness = .holds (witnessFor s) := by
  cases h.lineage with
  | fresh hs hw hr hu' ha => rw [h.renamed] at hr; cases hr
  | unfinished s' hs hw hv hr hu' ha => rw [hu] at hu'; cases hu'
  | behind s' s₀ hs hw hv hp hf hr hu' => rw [hu] at hu'; cases hu'
  | level s' hs hw hv hr =>
    rw [h.renamed] at hr
    rw [hw, Option.some.inj hr]

/-- An event that says nothing about the files or the answers. -/
def Event.isMute : Event R → Bool
  | .creates | .begins | .failed => true
  | _ => false

section
variable {e : Event R} {tr : List (Event R)}

theorem lastRenamed_mute (he : e.isMute = true) : lastRenamed (e :: tr) = lastRenamed tr := by
  cases e <;> simp_all [Event.isMute, lastRenamed]

theorem unwitnessed_mute (he : e.isMute = true) : unwitnessed (e :: tr) = unwitnessed tr := by
  cases e <;> simp_all [Event.isMute, unwitnessed]

theorem answered_mute (he : e.isMute = true) : answered (e :: tr) = answered tr := by
  cases e <;> simp_all [Event.isMute, answered]

theorem interrupted_mute (he : e.isMute = true) : interrupted (e :: tr) = interrupted tr := by
  cases e <;> simp_all [Event.isMute, interrupted]

theorem pending_mute (he : e.isMute = true) : pending (e :: tr) = pending tr := by
  cases e <;> simp_all [Event.isMute, pending]

theorem Chained.mute (h : Chained tr) (he : e.isMute = true) : Chained (e :: tr) := by
  cases e <;> simp_all [Event.isMute, Chained]

theorem Lineage.mute {st : File (PersistedHostState R)} {wt : File ContinuityWitness} (h : Lineage o st wt tr)
    (he : e.isMute = true) : Lineage o st wt (e :: tr) := by
  cases h with
  | fresh hs hw hr hu ha =>
    exact .fresh hs hw (by rw [lastRenamed_mute he, hr]) (by rw [unwitnessed_mute he, hu]) (by rw [answered_mute he, ha])
  | unfinished s hs hw hv hr hu ha =>
    exact .unfinished s hs hw hv (by rw [lastRenamed_mute he, hr]) (by rw [unwitnessed_mute he, hu])
      (by rw [answered_mute he, ha])
  | behind s s₀ hs hw hv hp hf hr hu =>
    exact .behind s s₀ hs hw hv hp hf (by rw [lastRenamed_mute he, hr]) (by rw [unwitnessed_mute he, hu])
  | level s hs hw hv hr => exact .level s hs hw hv (by rw [lastRenamed_mute he, hr])

theorem Told.mute {cut : Bool} (h : Told cut tr) (he : e.isMute = true) : Told cut (e :: tr) := by
  unfold Told
  rw [answered_mute he, lastRenamed_mute he, interrupted_mute he, pending_mute he]
  exact h

end

theorem Good.log {cut : Bool} (h : Good o cut w) {e : Event R} (he : e.isMute = true) : Good o cut (w.log e) :=
  ⟨h.lineage.mute he, h.chain.mute he, h.told.mute he⟩

theorem Sec.log {s : PersistedHostState R} (h : Sec o s w) {e : Event R} (he : e.isMute = true) : Sec o s (w.log e) :=
  ⟨h.lineage.mute he, h.chain.mute he, h.current, (lastRenamed_mute he).trans h.renamed,
    (answered_mute he).trans h.answered⟩

theorem Sec.putState {s next : PersistedHostState R} (h : Sec o s w) (hv : Sealed o next) (hf : Follows next s)
    (hc : Careful (w.putState next).trace) : Good o true (w.putState next) := by
  refine ⟨.behind next s rfl (h.level hc.1) hv (h.lineage.sealed h.renamed).2.1 hf rfl rfl, ⟨h.chain, fun s' hs' => ?_⟩,
    fun t _ => .inr (.inr ⟨rfl, rfl⟩)⟩
  rw [h.renamed] at hs'
  obtain rfl := Option.some.inj hs'
  exact hf

theorem Sec.putBoth {s next : PersistedHostState R} (h : Sec o s w) (hv : Sealed o next) (hf : Follows next s)
    (hc : Careful (w.putBoth next).trace) : Good o true (w.putBoth next) := by
  have hg := h.putState hv hf hc.tail
  exact ⟨.level next rfl rfl hv rfl, hg.chain, fun t _ => .inr (.inr ⟨rfl, rfl⟩)⟩

theorem Good.answer {next : PersistedHostState R} (h : Good o true w) (hr : lastRenamed w.trace = some next) {e : Event R}
    (he : e = .returned next ∨ e = .uncertain next ∨ e = .loaded next) (hw : w.witness ≠ .missing) :
    Sec o next { w with current := some next, trace := e :: w.trace } := by
  have hl : Lineage o w.state w.witness (e :: w.trace) := by
    rcases he with rfl | rfl | rfl <;> exact (by cases h.lineage with
      | fresh hs hw' hr' hu ha => rw [hr'] at hr; cases hr
      | unfinished s hs hw' hv hr' hu ha => exact absurd hw' hw
      | behind s s₀ hs hw' hv hp hf hr' hu => exact .behind s s₀ hs hw' hv hp hf hr' hu
      | level s hs hw' hv hr' => exact .level s hs hw' hv hr')
  rcases he with rfl | rfl | rfl <;> exact ⟨hl, h.chain, rfl, hr, rfl⟩

/-! ## Commits -/

section
variable {s next : PersistedHostState R}

theorem Sec.put (h : Careful w.trace → Sec o s w)
    (hv : Careful w.trace → parseHostState o.codec next = true ∧ Follows next s)
    (hb : o.codec.stateBytes next ≤ o.codec.maxPersistedBytes)
    (hw' : Same (w.putState next) w' ∨ Same (w.putBoth next) w') (hc : Careful w'.trace) :
    Good o true w' ∧ lastRenamed w'.trace = some next ∧ w'.witness ≠ .missing := by
  rcases hw' with hw' | hw'
  · rw [hw'.trace] at hc
    have hc₁ : Careful w.trace := hc.2
    have hs := h hc₁
    refine ⟨(hs.putState ⟨(hv hc₁).1, hb⟩ (hv hc₁).2 hc).same hw', by rw [hw'.trace]; rfl, ?_⟩
    rw [hw'.witness]
    exact fun hm => by cases (hs.level hc.1).symm.trans hm
  · rw [hw'.trace] at hc
    have hc₁ : Careful w.trace := hc.2
    refine ⟨((h hc₁).putBoth ⟨(hv hc₁).1, hb⟩ (hv hc₁).2 hc).same hw', by rw [hw'.trace]; rfl, ?_⟩
    rw [hw'.witness]
    exact fun hm => by cases hm

theorem publish_spec (h : Careful w.trace → Sec o s w)
    (hv : Careful w.trace → parseHostState o.codec next = true ∧ Follows next s) (emergencyFence : Bool) :
    Sat (fun w' => Careful w'.trace → Good o true w')
      (tryCatch
        (do
          publishState o next emergencyFence
          Eff.modify (fun w => { w with current := some next, trace := .returned next :: w.trace }))
        (fun e =>
          match e with
          | .commitUncertain => do
            Eff.modify (fun w => { w with current := some next, trace := .uncertain next :: w.trace })
            throw e
          | e => do
            Eff.modify (·.log .failed)
            throw e) : M ξ R Unit) w
      (fun _ w' => Careful w'.trace → ∃ s', Sec o s' w')
      (fun _ w' => Careful w'.trace → ∃ s', Sec o s' w') := by
  refine Sat.tryCatch (Sat.step ((publishState_spec next emergencyFence w).imp ?_ (fun _ _ h => h) (fun _ _ h => h)) ?_)
    ?_
  · rintro w' (hw' | ⟨hb, hw'⟩) hc
    · rw [hw'.trace] at hc
      exact ((h hc).good true).same hw'
    · exact (Sec.put h hv hb hw' hc).1
  · rintro _ w' ⟨hb, hw'⟩ hc
    obtain ⟨hg, hr, hm⟩ := Sec.put h hv hb (.inr hw') hc
    exact ⟨next, hg.answer hr (.inl rfl) hm⟩
  · rintro e w' (⟨he, hw'⟩ | ⟨rfl, hb, hw'⟩ | ⟨he, hw'⟩)
    · cases e with
      | commitUncertain => exact absurd rfl he
      | _ =>
        refine fun hc => ⟨s, ?_⟩
        have hc' : Careful w'.trace := hc
        rw [hw'.trace] at hc'
        exact ((h hc').same hw').log rfl
    · intro hc
      obtain ⟨hg, hr, hm⟩ := Sec.put h hv hb hw' hc
      exact ⟨next, hg.answer hr (.inr (.inl rfl)) hm⟩
    · cases e with
      | commitUncertain => exact absurd rfl he
      | _ =>
        refine fun hc => ?_
        have hc' : Careful w'.trace := hc
        rw [hw'.trace] at hc'
        exact hc'.elim

/-- **`commit`** from a section: however it ends, the section goes on from what the state file holds. -/
theorem commit_spec (h : Careful w.trace → Sec o s w) {draft : Draft R}
    (hd : Careful w.trace → ValidDraft o.codec draft ∧ draft.hostEpoch = s.hostEpoch) (emergencyFence : Bool) :
    Sat (fun w' => Careful w'.trace → Good o true w') (commit o s draft emergencyFence : M ξ R Unit) w
      (fun _ w' => Careful w'.trace → ∃ s', Sec o s' w')
      (fun _ w' => Careful w'.trace → ∃ s', Sec o s' w') := by
  refine Sat.step (P := fun n w' => w' = w ∧ n = s.commitSeq + 1 ∧ n ≤ maxCounter)
    (Sat.ofExcept (fun n hn => ⟨rfl, nextCounter_ok hn⟩) (fun _ _ hc => ⟨s, h hc⟩)) ?_
  rintro n w ⟨rfl, rfl, hmax⟩
  refine Sat.next (x := randomUUID o) rfl (Sat.next rfl ?_)
  refine publish_spec (s := s) (fun hc => ?_) (fun hc => ?_) emergencyFence
  · have hc' : Careful w.trace := hc
    exact ((h hc').same (Same.tick w _)).log rfl
  · have hc' : Careful w.trace := hc
    exact ⟨parse_nextState (hd hc').1 hmax _, (hd hc').2, rfl, rfl⟩

end

theorem Sec.draft {s : PersistedHostState R} (h : Sec o s w) (calls : List (TxOp R)) :
    ValidDraft o.codec (applyCalls o.codec ξ s.toDraft calls) ∧
      (applyCalls o.codec ξ s.toDraft calls).hostEpoch = s.hostEpoch := by
  have hs : parseHostState o.codec s = true := (h.lineage.sealed h.renamed).2.1
  obtain ⟨-, -, hd, -⟩ := parseHostState_iff.1 hs
  exact applyCalls_valid hd

/-- **One call of a section.** -/
theorem SectionCall.run_spec {s : PersistedHostState R} (h : Careful w.trace → Sec o s w) (call : SectionCall ξ R) :
    Sat (fun w' => Careful w'.trace → Good o true w') (call.run o s) w
      (fun _ w' => Careful w'.trace → ∃ s', Sec o s' w')
      (fun _ w' => Careful w'.trace → ∃ s', Sec o s' w') := by
  cases call with
  | transaction mutation =>
    simp only [SectionCall.run]
    cases mutation.throws s.toDraft with
    | some e => exact fun hc => ⟨s, h hc⟩
    | none => exact commit_spec h (fun hc => (h hc).draft _) false
  | latchMaterializedReadinessFence reason =>
    refine Sat.ite (fun _ hc => ⟨s, h hc⟩) (fun _ => ?_)
    exact commit_spec h (fun hc => (h hc).draft _) true

/-- **The calls of a section.** -/
theorem runCalls_spec (calls : List (SectionCall ξ R)) : ∀ {w : World R}, (Careful w.trace → ∃ s, Sec o s w) →
    Sat (fun w' => Careful w'.trace → Good o true w') (runCalls o calls) w
      (fun _ w' => Careful w'.trace → ∃ s, Sec o s w') (fun _ _ => False) := by
  induction calls with
  | nil => exact fun h => h
  | cons call calls ih =>
    intro w h
    refine Sat.next (x := Eff.get) rfl ?_
    cases hcur : w.current with
    | none => exact h
    | some current =>
      have hsec : Careful w.trace → Sec o current w := fun hc => by
        obtain ⟨s, hs⟩ := h hc
        have heq : s = current := Option.some.inj (hs.current.symm.trans hcur)
        rw [← heq]
        exact hs
      refine Sat.step (P := fun _ w' => Careful w'.trace → ∃ s, Sec o s w') (Sat.attempt ?_) (fun _ w' h' => ih h')
      exact SectionCall.run_spec hsec call

def Untouched (w : World R) (e : HostError ξ) (w' : World R) : Prop :=
  e ≠ .commitUncertain → Careful w'.trace → w'.state = w.state

/-- **A commit that fails, and does not say that it may have succeeded**, has not touched the state file. -/
theorem commit_untouched (s : PersistedHostState R) (draft : Draft R) (emergencyFence : Bool) (w : World R) :
    Sat (fun _ => True) (commit o s draft emergencyFence : M ξ R Unit) w (fun _ _ => True) (Untouched w) := by
  refine Sat.step (P := fun _ w' => w' = w) (Sat.ofExcept (fun _ _ => rfl) (fun _ _ _ _ => rfl)) ?_
  rintro n w rfl
  refine Sat.next (x := randomUUID o) rfl (Sat.next rfl ?_)
  refine Sat.tryCatch (Sat.step ((publishState_spec _ emergencyFence _).imp (fun _ _ => trivial) (fun _ _ h => h)
    (fun _ _ h => h)) (fun _ _ _ => trivial)) ?_
  rintro e w' (⟨he, hw'⟩ | ⟨rfl, -, -⟩ | ⟨he, hw'⟩)
  · cases e with
    | commitUncertain => exact absurd rfl he
    | _ => exact fun _ _ => hw'.state
  · exact fun hne => absurd rfl hne
  · cases e with
    | commitUncertain => exact absurd rfl he
    | _ =>
      intro _ hc
      have hc' : Careful w'.trace := hc
      rw [hw'.trace] at hc'
      exact hc'.elim

theorem SectionCall.run_untouched (s : PersistedHostState R) (call : SectionCall ξ R) (w : World R) :
    Sat (fun _ => True) (call.run o s) w (fun _ _ => True) (Untouched w) := by
  cases call with
  | transaction mutation =>
    simp only [SectionCall.run]
    cases mutation.throws s.toDraft with
    | some e => exact fun _ _ => rfl
    | none => exact commit_untouched ..
  | latchMaterializedReadinessFence reason => exact Sat.ite (fun _ => trivial) (fun _ => commit_untouched ..)

/-! ## Loads -/

def Longer (w w' : World R) : Prop := w.trace <:+ w'.trace

instance : Std.Refl (Longer (R := R)) := ⟨fun w => List.suffix_refl w.trace⟩
instance : IsTrans (World R) Longer := ⟨fun _ _ _ => List.IsSuffix.trans⟩

theorem Careful.suffix : ∀ {tr tr' : List (Event R)}, Careful tr' → tr <:+ tr' → Careful tr
  | _, [], h, hs => by rwa [List.suffix_nil.1 hs]
  | _, _ :: _, h, hs => by
    rcases List.suffix_cons_iff.1 hs with rfl | hs
    · exact h
    · exact h.tail.suffix hs

theorem Same.longer {w₁ : World R} (h : Same w w') (hl : Longer w₁ w) : Longer w₁ w' := by
  rw [Longer, h.trace]
  exact hl

instance : Along Longer (quietOp o : M ξ R Unit) := .of_sat (fun w => by
  have hw : Longer w w := List.suffix_refl w.trace
  exact (quietOp_quiet w).imp (fun _ h => h.longer hw) (fun _ _ h => h.longer hw) (fun _ _ h => h.1.longer hw))

instance : Along Longer (randomUUID o : M ξ R String) := ⟨fun w => List.suffix_refl w.trace⟩

theorem Longer.putState (s : PersistedHostState R) (w : World R) : Longer w (w.putState s) := List.suffix_cons _ _
theorem Longer.putWitness (v : ContinuityWitness) (w : World R) : Longer w (w.putWitness v) := List.suffix_cons _ _

instance (s : PersistedHostState R) (maxBytes : Nat) : Along Longer (writeState o s maxBytes : M ξ R Unit) :=
  .of_sat (fun w => by
    have hp := Longer.putState s w
    refine (writeState_spec s maxBytes w).imp ?_ (fun _ _ h => h.2.longer hp) ?_
    · rintro w' (h | h)
      · exact h.longer (List.suffix_refl _)
      · exact h.2.longer hp
    · rintro e w' (h | h | h)
      · exact h.1.longer (List.suffix_refl _)
      · exact h.2.1.longer hp
      · exact h.2.1.longer (hp.trans (List.suffix_cons _ _)))

instance (v : ContinuityWitness) : Along Longer (writeWitness o v : M ξ R Unit) :=
  .of_sat (fun w => by
    have hp := Longer.putWitness v w
    have hor : ∀ w', Same w w' ∨ Same (w.putWitness v) w' → Longer w w' := by
      rintro w' (h | h)
      · exact h.longer (List.suffix_refl _)
      · exact h.longer hp
    exact (writeWitness_spec v w).imp hor (fun _ _ h => h.longer hp) (fun _ => hor))

instance : Along Longer (createState o : M ξ R (PersistedHostState R)) := by
  have hlog : Along Longer (Eff.modify (·.log .creates) : M ξ R Unit) := .modify (fun w => List.suffix_cons _ _)
  unfold createState
  infer_instance

instance {α : Type} (file : World R → File α) (parse : α → Bool) :
    Along Longer (inspectJsonFile o file parse : M ξ R (Option α)) := by
  have hmatch : ∀ f : File α, Along Longer (match f with
      | .holds a => do
        quietOp o
        return if parse a then some a else none
      | _ => return none : M ξ R (Option α)) := fun f => by
    cases f <;> infer_instance
  unfold inspectJsonFile
  infer_instance

/-- A load only adds to the trace. -/
instance : Along Longer (loadOrCreateState o : M ξ R (PersistedHostState R)) := by
  have hmatch : ∀ (s : Option (PersistedHostState R)) (v : Option ContinuityWitness), Along Longer (match s, v with
      | some s, some v =>
        if witnessMatchesState v s then return s
        else do
          let follows ← Eff.ofExcept (stateImmediatelyFollowsWitness s v)
          if follows then do
            writeWitness o (witnessFor s)
            return s
          else createState o
      | _, _ => createState o : M ξ R (PersistedHostState R)) := fun s v => by
    cases s <;> cases v <;> infer_instance
  unfold loadOrCreateState readState readWitness
  infer_instance

def File.parsed {α : Type} (parse : α → Bool) : File α → Option α
  | .holds a => if parse a then some a else none
  | _ => none

theorem inspectJsonFile_spec {α : Type} {file : World R → File α} (parse : α → Bool) {f : File α}
    (hf : ∀ w', Same w w' → file w' = f) :
    Sat (Same w) (inspectJsonFile o file parse : M ξ R (Option α)) w (fun r w' => r = f.parsed parse ∧ Same w w')
      (fun _ => Same w) := by
  refine Sat.step (P := fun _ => Same w) ((quietOp_quiet w).mono (fun _ _ h => h) (fun _ _ h => h.1)) ?_
  intro _ w₁ h₁
  refine Sat.next (x := Eff.get) rfl ?_
  rw [hf w₁ h₁]
  cases f with
  | missing => exact ⟨rfl, h₁⟩
  | malformed => exact ⟨rfl, h₁⟩
  | holds a =>
    refine Sat.step (P := fun _ => Same w) ((quietOp_quiet w₁).imp (fun _ h => h₁.trans h) (fun _ _ h => h₁.trans h)
      (fun _ _ h => h₁.trans h.1)) (fun _ w₂ h₂ => ?_)
    exact ⟨rfl, h₂⟩

/-- **The state file holds `s`, and the witness vouches for it**: it was written for `s` or for the commit before it. -/
structure Vouched (o : Outside R) (s : PersistedHostState R) (w : World R) : Prop where
  state : w.state = .holds s
  valid : Sealed o s
  witness : ∃ v, w.witness = .holds v ∧ o.codec.witnessBytes v ≤ maxContinuityBytes ∧ parseContinuityWitness v = true ∧
    (witnessMatchesState v s = true ∨
      (s.hostEpoch = v.hostEpoch ∧ s.commitSeq = v.commitSeq + 1 ∧ s.parentCommitId = some v.commitId))

theorem witnessMatchesState_witnessFor (s : PersistedHostState R) : witnessMatchesState (witnessFor s) s = true := by
  simp [witnessMatchesState, witnessFor]

theorem stateImmediatelyFollowsWitness_of {s : PersistedHostState R} {v : ContinuityWitness} (hmax : s.commitSeq ≤ maxCounter)
    (h : s.hostEpoch = v.hostEpoch ∧ s.commitSeq = v.commitSeq + 1 ∧ s.parentCommitId = some v.commitId) :
    (stateImmediatelyFollowsWitness s v : Except (HostError ξ) Bool) = .ok true := by
  obtain ⟨he, hs, hp⟩ := h
  have hlt : ¬ maxCounter < v.commitSeq + 1 := by omega
  simp [stateImmediatelyFollowsWitness, he, nextCounter, hlt, hs, hp, Bind.bind, Except.bind, Pure.pure, Except.pure]

def WitnessFits (o : Outside R) : Prop :=
  ∀ s, parseHostState o.codec s = true → o.codec.witnessBytes (witnessFor s) ≤ maxContinuityBytes

theorem parse_witnessFor {s : PersistedHostState R} (h : parseHostState o.codec s = true) :
    parseContinuityWitness (witnessFor s) = true := decide_eq_true (parseHostState_iff.1 h).1

theorem Lineage.vouched (hfit : WitnessFits o) (h : Lineage o w.state w.witness w.trace) {s : PersistedHostState R}
    (hr : lastRenamed w.trace = some s) (hm : w.witness ≠ .missing) : Vouched o s w := by
  cases h with
  | fresh hs hw hr' hu ha => exact absurd hw hm
  | unfinished s' hs hw hv hr' hu ha => exact absurd hw hm
  | behind s' s₀ hs hw hv hp hf hr' hu =>
    obtain rfl := Option.some.inj (hr'.symm.trans hr)
    exact ⟨hs, hv, _, hw, hfit s₀ hp, parse_witnessFor hp, .inr hf⟩
  | level s' hs hw hv hr' =>
    obtain rfl := Option.some.inj (hr'.symm.trans hr)
    exact ⟨hs, hv, _, hw, hfit _ hv.1, parse_witnessFor hv.1, .inl (witnessMatchesState_witnessFor _)⟩

theorem Vouched.readState {s : PersistedHostState R} (h : Vouched o s w) :
    Sat (Same w) (Host.readState o : M ξ R _) w (fun r w' => r = some s ∧ Same w w') (fun _ => Same w) := by
  refine (inspectJsonFile_spec _ (f := .holds s) (fun w' hw' => hw'.state.trans h.state)).mono (fun r w' hr => ?_)
    (fun _ _ h => h)
  have hp : (decide (o.codec.stateBytes s ≤ o.codec.maxPersistedBytes) && parseHostState o.codec s) = true := by
    simp [h.valid.1, h.valid.2]
  exact ⟨hr.1.trans (if_pos hp), hr.2⟩

theorem readWitness_spec {v : ContinuityWitness} (hw : w.witness = .holds v)
    (hb : o.codec.witnessBytes v ≤ maxContinuityBytes) (hp : parseContinuityWitness v = true) :
    Sat (Same w) (readWitness o : M ξ R _) w (fun r w' => r = some v ∧ Same w w') (fun _ => Same w) := by
  refine (inspectJsonFile_spec _ (f := .holds v) (fun w' hw' => hw'.witness.trans hw)).mono (fun r w' hr => ?_)
    (fun _ _ h => h)
  have hp : (decide (o.codec.witnessBytes v ≤ maxContinuityBytes) && parseContinuityWitness v) = true := by
    simp [hb, hp]
  exact ⟨hr.1.trans (if_pos hp), hr.2⟩

/-- **A load of a state that is vouched for** returns it; at most the witness is replaced. -/
theorem Vouched.load {s : PersistedHostState R} (h : Vouched o s w) :
    Sat (fun w' => Same w w' ∨ Same (w.putWitness (witnessFor s)) w') (loadOrCreateState o : M ξ R _) w
      (fun r w' => r = s ∧ (Same w w' ∨ Same (w.putWitness (witnessFor s)) w'))
      (fun _ w' => Same w w' ∨ Same (w.putWitness (witnessFor s)) w') := by
  have quiet : ∀ {w₁ : World R}, Same w w₁ → Sat (fun w' => Same w w' ∨ Same (w.putWitness (witnessFor s)) w')
      (quietOp o : M ξ R Unit) w₁ (fun _ => Same w) (fun _ w' => Same w w' ∨ Same (w.putWitness (witnessFor s)) w') :=
    fun h₁ => (quietOp_quiet _).imp (fun _ h => .inl (h₁.trans h)) (fun _ _ h => h₁.trans h)
      (fun _ _ h => .inl (h₁.trans h.1))
  obtain ⟨v, hwit, hbytes, hparse, hfollows⟩ := h.witness
  refine Sat.step (quiet (Same.refl w)) (fun _ w₁ h₁ => Sat.step (quiet h₁) (fun _ w₂ h₂ => ?_))
  have hv₂ : Vouched o s w₂ := ⟨h₂.state.trans h.state, h.valid, v, h₂.witness.trans hwit, hbytes, hparse, hfollows⟩
  refine Sat.step (P := fun r w' => r = some s ∧ Same w w') (hv₂.readState.imp (fun _ h => .inl (h₂.trans h))
    (fun _ _ h => ⟨h.1, h₂.trans h.2⟩) (fun _ _ h => .inl (h₂.trans h))) ?_
  rintro _ w₃ ⟨rfl, h₃⟩
  refine Sat.step (P := fun r w' => r = some v ∧ Same w w') ((readWitness_spec (h₃.witness.trans hwit) hbytes hparse).imp
    (fun _ h => .inl (h₃.trans h)) (fun _ _ h => ⟨h.1, h₃.trans h.2⟩) (fun _ _ h => .inl (h₃.trans h))) ?_
  rintro _ w₄ ⟨rfl, h₄⟩
  refine Sat.ite (fun _ => ⟨rfl, .inl h₄⟩) (fun hne => ?_)
  have hf := hfollows.resolve_left hne
  refine Sat.next (a := true) (by rw [stateImmediatelyFollowsWitness_of (parseHostState_iff.1 h.valid.1).1 hf]; rfl) ?_
  have hput : Same (w.putWitness (witnessFor s)) (w₄.putWitness (witnessFor s)) := (putWitness_timeless _).same h₄
  exact Sat.step ((writeWitness_spec (witnessFor s) w₄).imp (fun _ h => h.imp (fun h => h₄.trans h) (fun h => hput.trans h))
    (fun _ _ h => hput.trans h) (fun _ _ h => h.imp (fun h => h₄.trans h) (fun h => hput.trans h)))
    (fun _ _ h => ⟨rfl, .inr h⟩)

theorem Good.putWitness (h : Good o false w) {s : PersistedHostState R} (hr : lastRenamed w.trace = some s) :
    Good o false (w.putWitness (witnessFor s)) := by
  obtain ⟨hs, hv⟩ := h.lineage.sealed hr
  exact ⟨.level s hs rfl hv hr, h.chain, h.told⟩

theorem Good.create {s : PersistedHostState R} (h : Good o false w) (hm : w.witness = .missing) (hv : Sealed o s)
    (hc : Careful (w.putState s).trace) : Good o false (w.putState s) := by
  have hu : unwitnessed w.trace = false := hc.1
  cases h.lineage with
  | fresh hs hw hr hu' ha =>
    refine ⟨.unfinished s rfl hw hv rfl rfl ha, ⟨h.chain, fun s' hs' => ?_⟩, fun t ht => ?_⟩
    · rw [hr] at hs'
      cases hs'
    · exact absurd (ha.symm.trans ht) (by simp)
  | unfinished s' hs hw hv' hr hu' ha => exact absurd (hu.symm.trans hu') (by simp)
  | behind s' s₀ hs hw hv' hp hf hr hu' => exact absurd (hu.symm.trans hu') (by simp)
  | level s' hs hw hv' hr => exact absurd (hm.symm.trans hw) (by simp)

theorem writeFresh_spec {s : PersistedHostState R} (h : Good o false w) (hm : w.witness = .missing)
    (hp : parseHostState o.codec s = true) :
    Sat (fun w' => Careful w'.trace → Good o false w')
      (do
        writeState o s o.codec.maxPersistedBytes
        writeWitness o (witnessFor s)
        return s : M ξ R _) w
      (fun s w' => Careful w'.trace → Good o false w' ∧ lastRenamed w'.trace = some s ∧ w'.witness ≠ .missing)
      (fun _ w' => Careful w'.trace → Good o false w') := by
  have hput : ∀ {w'}, o.codec.stateBytes s ≤ o.codec.maxPersistedBytes → Same (w.putState s) w' → Careful w'.trace →
      Good o false w' := fun hb hw' hc => by
    rw [hw'.trace] at hc
    exact (h.create hm ⟨hp, hb⟩ hc).same hw'
  refine Sat.step (P := fun _ w' => Same (w.putState s) w' ∧ (Careful w'.trace → Good o false w'))
    ((writeState_spec s _ w).imp ?_ (fun _ _ h => ⟨h.2, hput h.1 h.2⟩) ?_) ?_
  · rintro w' (hw' | ⟨hb, hw'⟩)
    · exact fun _ => h.same hw'
    · exact hput hb hw'
  · rintro e w' (⟨hw', -⟩ | ⟨hb, hw', -⟩ | ⟨-, hw', -⟩)
    · exact fun _ => h.same hw'
    · exact hput (hb _ rfl) hw'
    · intro hc
      rw [hw'.trace] at hc
      exact hc.elim
  · rintro _ w₁ ⟨hw₁, hg⟩
    have hr : lastRenamed w₁.trace = some s := by rw [hw₁.trace]; rfl
    -- the witness may have become the new one
    have hwit : ∀ {w'}, Same (w₁.putWitness (witnessFor s)) w' → Careful w'.trace → Good o false w' := fun hw' hc => by
      rw [hw'.trace] at hc
      exact ((hg hc).putWitness hr).same hw'
    have hor : ∀ w', Same w₁ w' ∨ Same (w₁.putWitness (witnessFor s)) w' → Careful w'.trace → Good o false w' := by
      rintro w' (hw' | hw') hc
      · rw [hw'.trace] at hc
        exact (hg hc).same hw'
      · exact hwit hw' hc
    refine Sat.step ((writeWitness_spec (witnessFor s) w₁).imp hor (fun _ _ h => h) (fun _ => hor)) ?_
    refine fun _ w₂ hw₂ hc => ⟨hwit hw₂ hc, by rw [hw₂.trace]; exact hr, ?_⟩
    rw [hw₂.witness]
    exact fun hm => by cases hm

/-- **A creation**: there was no witness, hence no answer. -/
theorem createState_spec (h : Good o false w) (hm : w.witness = .missing) :
    Sat (fun w' => Careful w'.trace → Good o false w') (createState o : M ξ R _) w
      (fun s w' => Careful w'.trace → Good o false w' ∧ lastRenamed w'.trace = some s ∧ w'.witness ≠ .missing)
      (fun _ w' => Careful w'.trace → Good o false w') := by
  refine Sat.next (x := randomUUID o) rfl (Sat.next (x := randomUUID o) rfl (Sat.next rfl ?_))
  have hg : Good o false (({ w with tick := w.tick + 1 + 1 } : World R).log .creates) := (h.same (Same.tick w _)).log rfl
  exact writeFresh_spec hg hm (parse_freshState _ _)

theorem load_missing (h : Good o false w) (hm : w.witness = .missing) :
    Sat (fun w' => Careful w'.trace → Good o false w') (loadOrCreateState o : M ξ R _) w
      (fun s w' => Careful w'.trace → Good o false w' ∧ lastRenamed w'.trace = some s ∧ w'.witness ≠ .missing)
      (fun _ w' => Careful w'.trace → Good o false w') := by
  have quiet : ∀ {w₁ : World R}, Same w w₁ → Sat (fun w' => Careful w'.trace → Good o false w') (quietOp o : M ξ R Unit) w₁
      (fun _ => Same w) (fun _ w' => Careful w'.trace → Good o false w') :=
    fun h₁ => (quietOp_quiet _).imp (fun _ h' _ => h.same (h₁.trans h')) (fun _ _ h => h₁.trans h)
      (fun _ _ h' _ => h.same (h₁.trans h'.1))
  refine Sat.step (quiet (Same.refl w)) (fun _ w₁ h₁ => Sat.step (quiet h₁) (fun _ w₂ h₂ => ?_))
  refine Sat.step (P := fun _ => Same w) ((inspectJsonFile_spec _ (f := w₂.state) (fun w' hw' => hw'.state)).imp
    (fun _ h' _ => h.same (h₂.trans h')) (fun _ _ h => h₂.trans h.2) (fun _ _ h' _ => h.same (h₂.trans h'))) ?_
  intro s w₃ h₃
  refine Sat.step (P := fun r w' => r = none ∧ Same w w') ((inspectJsonFile_spec _ (f := .missing)
    (fun w' hw' => (h₃.trans hw').witness.trans hm)).imp (fun _ h' _ => h.same (h₃.trans h'))
    (fun _ _ h => ⟨h.1, h₃.trans h.2⟩) (fun _ _ h' _ => h.same (h₃.trans h'))) ?_
  rintro _ w₄ ⟨rfl, h₄⟩
  cases s <;> exact createState_spec (h.same h₄) (h₄.witness.trans hm)

/-- **A load.** -/
theorem loadOrCreateState_spec (hfit : WitnessFits o) (h : Careful w.trace → Good o false w) :
    Sat (fun w' => Careful w'.trace → Good o false w') (loadOrCreateState o : M ξ R _) w
      (fun s w' => Careful w'.trace → Good o false w' ∧ lastRenamed w'.trace = some s ∧ w'.witness ≠ .missing)
      (fun _ w' => Careful w'.trace → Good o false w') := by
  by_cases hc : Careful w.trace
  swap
  · -- a trace that is not careful does not become so
    exact Sat.of_along (R := Longer) (fun w' hl hc' => absurd (hc'.suffix hl) hc)
      (fun _ w' hl hc' => absurd (hc'.suffix hl) hc) (fun _ w' hl hc' => absurd (hc'.suffix hl) hc)
  have hg := h hc
  by_cases hm : w.witness = .missing
  · exact load_missing hg hm
  · obtain ⟨s, hr⟩ : ∃ s, lastRenamed w.trace = some s := by
      cases hg.lineage with
      | fresh hs hw hr hu ha => exact absurd hw hm
      | unfinished s hs hw hv hr hu ha => exact ⟨s, hr⟩
      | behind s s₀ hs hw hv hp hf hr hu => exact ⟨s, hr⟩
      | level s hs hw hv hr => exact ⟨s, hr⟩
    have hor : ∀ w', Same w w' ∨ Same (w.putWitness (witnessFor s)) w' →
        Good o false w' ∧ lastRenamed w'.trace = some s ∧ w'.witness ≠ .missing := by
      rintro w' (hw' | hw')
      · refine ⟨hg.same hw', by rw [hw'.trace]; exact hr, ?_⟩
        rw [hw'.witness]
        exact hm
      · refine ⟨(hg.putWitness hr).same hw', by rw [hw'.trace]; exact hr, ?_⟩
        rw [hw'.witness]
        exact fun hm => by cases hm
    refine (hg.lineage.vouched hfit hr hm).load.imp (fun w' h _ => (hor w' h).1) ?_ (fun _ w' h _ => (hor w' h).1)
    rintro _ w' ⟨rfl, h⟩ _
    exact hor w' h

/-! ## Runs -/

/-- **A serialized section.** -/
theorem serialize_spec (hfit : WitnessFits o) (h : Careful w.trace → Good o false w) (calls : List (SectionCall ξ R)) :
    Sat (fun w' => Careful w'.trace → Good o true w') (serialize o calls) w
      (fun _ w' => Careful w'.trace → Good o false w') (fun _ w' => Careful w'.trace → Good o false w') := by
  refine Sat.step ((loadOrCreateState_spec hfit h).imp (fun _ h hc => (h hc).cut) (fun _ _ h => h) (fun _ _ h => h)) ?_
  intro s w₁ h₁
  refine Sat.next rfl ((runCalls_spec calls (fun hc => ⟨s, ?_⟩)).mono ?_ (fun _ _ h => h.elim))
  · obtain ⟨hg, hr, hm⟩ := h₁ hc
    exact hg.cut.answer hr (.inr (.inr rfl)) hm
  · intro _ w₂ h₂ hc
    obtain ⟨s', hs'⟩ := h₂ hc
    exact hs'.good false

theorem Good.stop (h : Good o true w) : Good o false { w with current := none, trace := .stopped :: w.trace } := by
  have hl : Lineage o w.state w.witness (.stopped :: w.trace) := by
    cases h.lineage with
    | fresh hs hw hr hu ha => exact .fresh hs hw hr hu ha
    | unfinished s hs hw hv hr hu ha => exact .unfinished s hs hw hv hr hu ha
    | behind s s₀ hs hw hv hp hf hr hu => exact .behind s s₀ hs hw hv hp hf hr hu
    | level s hs hw hv hr => exact .level s hs hw hv hr
  refine ⟨hl, h.chain, fun t ht => ?_⟩
  rcases h.told t ht with ht | ht | ⟨-, ht⟩
  · exact .inl ht
  · exact .inr (.inl (by simp [interrupted, ht]))
  · exact .inr (.inl (by simp [interrupted, ht]))

theorem runSection_good (hfit : WitnessFits o) (h : Careful w.trace → Good o false w) (calls : List (SectionCall ξ R)) :
    Careful (runSection o w calls).trace → Good o false (runSection o w calls) := by
  have hs := serialize_spec hfit h calls
  unfold Sat at hs
  unfold runSection
  rcases hx : serialize o calls w with ⟨a | e | _, w'⟩ <;> rw [hx] at hs
  · exact fun hc => ⟨(hs hc).lineage, (hs hc).chain, (hs hc).told⟩
  · exact fun hc => ⟨(hs hc).lineage, (hs hc).chain, (hs hc).told⟩
  · exact fun hc => (hs hc).stop

theorem init_good : Good o false (World.init : World R) :=
  ⟨.fresh rfl rfl rfl rfl rfl, trivial, fun _ ht => by cases ht⟩

/-- **Every run.** -/
theorem run_good (hfit : WitnessFits o) (sections : List (List (SectionCall ξ R))) :
    Careful (run o sections).trace → Good o false (run o sections) := by
  have h : ∀ (sections : List (List (SectionCall ξ R))) (w : World R), (Careful w.trace → Good o false w) →
      Careful (sections.foldl (runSection o) w).trace → Good o false (sections.foldl (runSection o) w) := by
    intro sections
    induction sections with
    | nil => exact fun _ h => h
    | cons calls sections ih => exact fun w h => ih _ (runSection_good hfit h calls)
  exact h sections World.init (fun _ => init_good)

/-! ## Loads without faults -/

def Calm (o : Outside R) (w : World R) : Prop := ∀ n, w.tick ≤ n → o.fault n = .none

def Sure {α : Type} (o : Outside R) (x : M ξ R α) : Prop :=
  ∀ w, Calm o w → Sat (fun _ => False) x w (fun _ => Calm o) (fun _ _ => False)

theorem Sure.pure {α : Type} (a : α) : Sure o (Pure.pure a : M ξ R α) := fun _ h => h

theorem Sure.bind {α β : Type} {x : M ξ R α} {f : α → M ξ R β} (hx : Sure o x) (hf : ∀ a, Sure o (f a)) :
    Sure o (x >>= f) := fun w h => Sat.step (hx w h) (fun a w' h' => hf a w' h')

theorem Sure.tryCatch {α : Type} {x : M ξ R α} {f : HostError ξ → M ξ R α} (hx : Sure o x) :
    Sure o (MonadExcept.tryCatch x f) := fun w h => Sat.tryCatch (hx w h) (fun _ _ h => h.elim)

theorem Sure.attempt {α β : Type} {x : M ξ R α} {f : Except (HostError ξ) α → M ξ R β} (hx : Sure o x)
    (hf : ∀ a, Sure o (f (.ok a))) : Sure o (Eff.attempt x >>= f) := by
  intro w h
  refine Sat.step (P := fun r w' => (∃ a, r = .ok a) ∧ Calm o w')
    (Sat.attempt ((hx w h).mono (fun a _ h => ⟨⟨a, rfl⟩, h⟩) (fun _ _ h => h.elim))) ?_
  rintro _ w' ⟨⟨a, rfl⟩, h'⟩
  exact hf a w' h'

theorem fileOp_sure {effect : World R → World R} (he : ∀ w, (effect w).tick = w.tick) :
    Sure o (fileOp o effect : M ξ R Unit) := by
  intro w h
  refine Sat.next rfl ?_
  rw [h w.tick (Nat.le_refl _)]
  intro n hn
  rw [he] at hn
  exact h n (by simp only at hn; omega)

theorem quietOp_sure : Sure o (quietOp o : M ξ R Unit) := fileOp_sure (fun _ => rfl)

theorem writeLoop_sure : ∀ turns remaining, Sure o (writeLoop o turns remaining : M ξ R Unit)
  | 0, _ => .pure ()
  | _ + 1, 0 => .pure ()
  | turns + 1, _ + 1 =>
    Sure.bind (fun _ h => h) (fun _ => Sure.bind quietOp_sure (fun _ => writeLoop_sure turns _))

theorem writeTemporary_sure (bytes : Nat) : Sure o (writeTemporary o bytes : M ξ R Unit) :=
  quietOp_sure.bind (fun _ => (writeLoop_sure _ _).bind (fun _ => quietOp_sure.bind (fun _ => quietOp_sure)))

theorem fsyncDirectory_sure : Sure o (fsyncDirectory o : M ξ R Unit) :=
  quietOp_sure.bind (fun _ => quietOp_sure.attempt (fun _ => quietOp_sure.bind (fun _ => .pure ())))

theorem writeWitness_sure (v : ContinuityWitness) : Sure o (writeWitness o v : M ξ R Unit) := by
  have hpub : Sure o (fileOp o (World.putWitness v) : M ξ R Unit) := fileOp_sure (fun _ => rfl)
  refine Sure.bind (.pure ()) (fun _ => quietOp_sure.bind (fun _ => Sure.attempt ?_ (fun _ => ?_)))
  · exact ((writeTemporary_sure _).bind (fun _ => hpub)).tryCatch.bind
      (fun _ => (quietOp_sure.bind (fun _ => fsyncDirectory_sure)).tryCatch)
  · exact quietOp_sure.tryCatch.bind (fun _ => .pure ())

theorem inspectJsonFile_sure {α : Type} (file : World R → File α) (parse : α → Bool) :
    Sure o (inspectJsonFile o file parse : M ξ R (Option α)) := by
  refine quietOp_sure.bind (fun _ => Sure.bind (fun _ h => h) (fun w => ?_))
  cases file w with
  | missing => exact .pure none
  | malformed => exact .pure none
  | holds a => exact quietOp_sure.bind (fun _ => .pure _)

theorem Sure.next {α β : Type} {x : M ξ R α} {f : α → M ξ R β} (hx : Sure o x) (hc : Calm o w) {C : World R → Prop}
    {P : α → World R → Prop} {E : HostError ξ → World R → Prop} (hP : Sat C x w P E)
    {Q : β → World R → Prop} (hf : ∀ a w', P a w' → Calm o w' → Sat (fun _ => False) (f a) w' Q (fun _ _ => False)) :
    Sat (fun _ => False) (x >>= f) w Q (fun _ _ => False) :=
  Sat.step ((hP.and (hx w hc)).imp (fun _ h => h.2) (fun _ _ h => h) (fun _ _ h => h.2)) (fun a w' h => hf a w' h.1 h.2)

/-- **Without faults a load returns** the state that is vouched for. -/
theorem Vouched.load_sure {s : PersistedHostState R} (h : Vouched o s w) (hc : Calm o w) :
    Sat (fun _ => False) (loadOrCreateState o : M ξ R _) w (fun _ _ => True) (fun _ _ => False) := by
  obtain ⟨v, hwit, hbytes, hparse, hfollows⟩ := h.witness
  refine quietOp_sure.next hc (quietOp_quiet w) (fun _ w₁ h₁ hc₁ => ?_)
  refine quietOp_sure.next hc₁ (quietOp_quiet w₁) (fun _ w₂ h₂ hc₂ => ?_)
  have h₂ := h₁.trans h₂
  have hv₂ : Vouched o s w₂ := ⟨h₂.state.trans h.state, h.valid, v, h₂.witness.trans hwit, hbytes, hparse, hfollows⟩
  refine Sure.next (inspectJsonFile_sure _ _) hc₂ hv₂.readState ?_
  rintro _ w₃ ⟨rfl, h₃⟩ hc₃
  refine Sure.next (inspectJsonFile_sure _ _) hc₃ (readWitness_spec ((h₂.trans h₃).witness.trans hwit) hbytes hparse) ?_
  rintro _ w₄ ⟨rfl, -⟩ hc₄
  refine Sat.ite (fun _ => trivial) (fun hne => ?_)
  have hf := hfollows.resolve_left hne
  refine Sat.next (a := true) (by rw [stateImmediatelyFollowsWitness_of (parseHostState_iff.1 h.valid.1).1 hf]; rfl) ?_
  exact Sat.step (writeWitness_sure _ w₄ hc₄) (fun _ _ _ => trivial)

/-- **The next load returns `s`**: it returns nothing else, and without faults it returns. -/
def LoadsTo (ξ : Type) (o : Outside R) (s : PersistedHostState R) (w : World R) : Prop :=
  (∀ s' w', (loadOrCreateState o : M ξ R _) w = (.ok s', w') → s' = s) ∧
    (Calm o w → ∃ w', (loadOrCreateState o : M ξ R _) w = (.ok s, w'))

theorem Vouched.loadsTo {s : PersistedHostState R} (h : Vouched o s w) : LoadsTo ξ o s w := by
  have hload := h.load (ξ := ξ)
  unfold Sat at hload
  refine ⟨fun s' w' hx => ?_, fun hc => ?_⟩
  · rw [hx] at hload
    exact hload.1
  · have hsure := h.load_sure (ξ := ξ) hc
    unfold Sat at hsure
    rcases hx : (loadOrCreateState o : M ξ R _) w with ⟨a | e | _, w'⟩
    · rw [hx] at hload
      obtain rfl := hload.1
      exact ⟨w', rfl⟩
    · rw [hx] at hsure
      exact hsure.elim
    · rw [hx] at hsure
      exact hsure.elim

theorem Lineage.witness_of_answered (h : Lineage o w.state w.witness w.trace) {t : PersistedHostState R}
    (ht : answered w.trace = some t) : (∃ s, lastRenamed w.trace = some s) ∧ w.witness ≠ .missing := by
  cases h with
  | fresh hs hw hr hu ha => exact absurd (ha.symm.trans ht) (by simp)
  | unfinished s hs hw hv hr hu ha => exact absurd (ha.symm.trans ht) (by simp)
  | behind s s₀ hs hw hv hp hf hr hu => exact ⟨⟨s, hr⟩, by rw [hw]; simp⟩
  | level s hs hw hv hr => exact ⟨⟨s, hr⟩, by rw [hw]; simp⟩

/-- **Host state commits are all or nothing.**  In a run that is `Careful`, the next load returns the state of the last
transaction that returned or was reported uncertain (or, if the process stopped after a rename that it had not answered
for yet, the state that was renamed), every state that replaced another is its next commit, so that no fresh epoch ever
does, and a call that fails in any other way leaves the state file as it was. -/
theorem host_commits_all_or_nothing (ξ : Type) (o : Outside R) (hfit : WitnessFits o)
    (sections : List (List (SectionCall ξ R))) (hc : Careful (run o sections).trace) :
    (∀ t, answered (run o sections).trace = some t →
      ∃ s, (s = t ∨ (interrupted (run o sections).trace = true ∧ lastRenamed (run o sections).trace = some s)) ∧
        LoadsTo ξ o s (run o sections)) ∧
    Chained (run o sections).trace ∧
    ∀ (call : SectionCall ξ R) (s : PersistedHostState R) (w w' : World R) (e : HostError ξ),
      call.run o s w = (.err e, w') → e ≠ .commitUncertain → Careful w'.trace → w'.state = w.state := by
  have hg := run_good hfit sections hc
  refine ⟨fun t ht => ?_, hg.chain, fun call s w w' e hx => ?_⟩
  · obtain ⟨⟨s, hr⟩, hm⟩ := hg.lineage.witness_of_answered ht
    refine ⟨s, ?_, (hg.lineage.vouched hfit hr hm).loadsTo⟩
    rcases hg.told t ht with h | h | ⟨h, -⟩
    · exact .inl (Option.some.inj (hr.symm.trans h))
    · exact .inr ⟨h, hr⟩
    · cases h
  · have h := SectionCall.run_untouched (o := o) s call w
    unfold Sat at h
    rw [hx] at h
    exact h

instance : ∀ tr : List (Event R), Decidable (Careful tr)
  | [] => .isTrue trivial
  | .renamed _ :: tr => by
    have := instDecidableCareful tr
    exact inferInstanceAs (Decidable (_ ∧ _))
  | .cleanupFailed :: _ => .isFalse id
  | .witnessed :: tr | .creates :: tr | .loaded _ :: tr | .begins :: tr | .returned _ :: tr | .uncertain _ :: tr
  | .failed :: tr | .stopped :: tr => instDecidableCareful tr

/-- An outside where the file operations go wrong at the given times. -/
def outsideWith (faults : List (Nat × Fault)) : Outside Nat where
  codec := ⟨fun _ => true, fun _ => "sum", fun _ => 1, fun _ => 1, 4096⟩
  fault n := (faults.lookup n).getD .none
  randomUUID n := ["e0", "c0", "c1", "c2", "e1", "c3"].getD ([4, 5, 34, 47, 66, 67].idxOf n) "c"
  wrote _ := 1

theorem outsideWith_fits (faults : List (Nat × Fault)) : WitnessFits (outsideWith faults) := fun _ _ =>
  (by decide : 1 ≤ maxContinuityBytes)

def countEvent : SectionCall Unit Nat := .transaction ⟨fun _ => [.allocateEventSeq], fun _ => none⟩

/-- A commit after which the directory could not be synced was reported uncertain, and is there. -/
theorem host_commits_all_or_nothing_uncertain :
    ∃ s, s.eventSeq = 1 ∧ LoadsTo Unit (outsideWith [(43, .fails "EIO")]) s
      (run (outsideWith [(43, .fails "EIO")]) [[], [countEvent]]) := by
  have hseq : (answered (run (outsideWith [(43, .fails "EIO")]) [[], [countEvent]]).trace).map (·.eventSeq) = some 1 := by
    decide +kernel
  obtain ⟨t, ht, hone⟩ := Option.map_eq_some_iff.1 hseq
  obtain ⟨s, hs, hload⟩ := (host_commits_all_or_nothing Unit (outsideWith [(43, .fails "EIO")]) (outsideWith_fits _)
    [[], [countEvent]] (by decide +kernel)).1 t ht
  rcases hs with rfl | ⟨hint, -⟩
  · exact ⟨s, hone, hload⟩
  · exact absurd hint (by decide +kernel)

def nextLoad (o : Outside R) (w : World R) : Option (PersistedHostState R) :=
  match (loadOrCreateState o : M Unit R _) w with
  | (.ok s, _) => some s
  | _ => none

/-- Two ways to lose a commit.  The removal of the temporary file fails after the rename: the transaction throws the
file system's error, which is classified as a storage fault, and the next load finds what it has written.  And two commits
of one section after which the witness could not be replaced: the second is reported uncertain with two events counted,
and the next load finds a fresh epoch with none. -/
theorem commit_hidden_or_lost :
    (answered (run (outsideWith [(39, .fails "EIO")]) ([[]] : List (List (SectionCall Unit Nat)))).trace).map (fun s =>
        (s.eventSeq, (countEvent.run (outsideWith [(39, .fails "EIO")]) s
          (run (outsideWith [(39, .fails "EIO")]) ([[]] : List (List (SectionCall Unit Nat))))).1)) =
      some (0, .err (.fs "EIO")) ∧
    (HostError.fs "EIO" : HostError Unit).isStorageFault = true ∧
    (answered (run (outsideWith [(39, .fails "EIO")]) ([[]] : List (List (SectionCall Unit Nat)))).trace).map (fun s =>
        (nextLoad (outsideWith [(39, .fails "EIO")]) (countEvent.run (outsideWith [(39, .fails "EIO")]) s
          (run (outsideWith [(39, .fails "EIO")]) ([[]] : List (List (SectionCall Unit Nat))))).2).map (·.eventSeq)) =
      some (some 1) ∧
    (answered (run (outsideWith [(46, .fails "EIO"), (59, .fails "EIO")]) [[], [countEvent, countEvent]]).trace).map
      (fun s => (s.hostEpoch, s.eventSeq)) = some ("e0", 2) ∧
    interrupted (run (outsideWith [(46, .fails "EIO"), (59, .fails "EIO")]) [[], [countEvent, countEvent]]).trace = false ∧
    (nextLoad (outsideWith [(46, .fails "EIO"), (59, .fails "EIO")])
      (run (outsideWith [(46, .fails "EIO"), (59, .fails "EIO")]) [[], [countEvent, countEvent]])).map
      (fun s => (s.hostEpoch, s.eventSeq)) = some ("e1", 0) := by
  refine ⟨?_, ?_, ?_, ?_, ?_, ?_⟩ <;> decide +kernel

end Host
end TmuxWorktree
