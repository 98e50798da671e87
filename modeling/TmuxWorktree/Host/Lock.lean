import Mathlib.Data.List.Basic
import Mathlib.Data.List.GetD
import Mathlib.Algebra.Order.Ring.Int
import Mathlib.Algebra.Order.Ring.Nat
/-!
# Lock — the directory lock of the host state

`acquireStoreLock`, `lockIsStale`, `discardStaleLock` and `releaseStoreLock`, cut at every file operation.  A step of a
run is one operation of one process, and any other process may run between two of them; a process may die at any point,
and every operation may fail.  `mkdir`, `rename` and the exclusive create are atomic; `rmSync` of a directory is two
steps, since it empties the directory first.
-/
namespace TmuxWorktree
namespace Lock

def lockStaleMs : Int := 60000
def lockWaitMs : Int := 5000

/-- `StoreLockOwner`.  An owner id is the process id and a `randomUUID`, here the process's own counter. -/
structure StoreLockOwner where
  owner : Nat × Nat
  pid : Nat
  createdAt : Int
  deriving DecidableEq, Repr

/-- A lock directory: its owner file, its `mtimeMs`, and the process that made it, which no code reads. -/
structure Dir where
  ownerFile : Option StoreLockOwner
  mtimeMs : Int
  maker : Nat
  deriving DecidableEq, Repr

/-- Where a process stands. -/
inductive Pc where
  | idle
  /-- at the top of `while (true)`, before `mkdirSync` -/
  | loop
  /-- the directory is made, `createdAt` is not read yet -/
  | made
  | stamped (createdAt : Int)
  /-- the owner file could not be written: `rmSync` of the directory -/
  | scrapFile
  | scrapDir
  /-- in the `catch`, before `existsSync` -/
  | failed
  /-- `lockIsStale`, before `readLockOwner` -/
  | inspect
  | judge (owner : Option StoreLockOwner)
  /-- `discardStaleLock`, before the first `renameSync` -/
  | discard
  | recheck (quarantine : Dir)
  | putBack (quarantine : Dir)
  | purge (quarantine : Dir)
  | waiting
  | holding
  /-- `releaseStoreLock`, before `readLockOwner` -/
  | releasing
  | dropFile
  | dropDir
  deriving DecidableEq, Repr

/-- A process: `owner` is the id of its current turn, `active` is `activeStoreLockOwners`, `since` is when its last
`mkdirSync` succeeded. -/
structure Proc where
  live : Bool
  pc : Pc
  owner : Nat × Nat
  deadline : Int
  active : List (Nat × Nat)
  issued : Nat
  since : Int
  deriving DecidableEq, Repr

/-- The lock path, the processes by their ids, and the clock. -/
structure State where
  path : Option Dir
  procs : List Proc
  clock : Int
  deriving DecidableEq, Repr

def Proc.fresh : Proc := ⟨true, .idle, (0, 0), 0, [], 0, 0⟩
def Proc.none : Proc := { Proc.fresh with live := false }

/-- `n` processes, and no lock. -/
def State.init (n : Nat) : State := ⟨.none, List.replicate n Proc.fresh, 0⟩

namespace State

variable (s : State)

def proc (p : Nat) : Proc := s.procs.getD p Proc.none

def setProc (p : Nat) (x : Proc) : State := { s with procs := s.procs.set p x }

def goto (p : Nat) (pc : Pc) : State := s.setProc p { s.proc p with pc := pc }

def processExists (pid : Nat) : Bool := (s.proc pid).live

/-- `lockIsStale` of an owner file, as the process `self` judges it. -/
def ownerIsStale (self : Nat) (o : StoreLockOwner) : Bool :=
  (o.pid = self && !(s.proc self).active.contains o.owner) || !s.processExists o.pid || lockStaleMs < s.clock - o.createdAt

/-- `lockIsStale` of a directory that does not change meanwhile. -/
def lockIsStale (self : Nat) (d : Dir) : Bool :=
  match d.ownerFile with
  | some o => s.ownerIsStale self o
  | .none => lockStaleMs < s.clock - d.mtimeMs

def ownerAtPath : Option StoreLockOwner := s.path.bind (·.ownerFile)

/-- `unlink` of the owner file. -/
def emptied : Option Dir := s.path.map (fun d => { d with ownerFile := .none, mtimeMs := s.clock })

/-- `rmdir` of the lock path: a directory that is not empty stays. -/
def removed : Option Dir := s.path.bind (fun d => if d.ownerFile.isSome then some d else .none)

/-- The next operation of a live process; `fault` says that it fails with a code of the outside. -/
def next (p : Nat) (fault : Bool) : State :=
  match (s.proc p).pc with
  | .idle =>
    if fault then s
    else s.setProc p { s.proc p with
      pc := .loop, owner := (p, (s.proc p).issued), issued := (s.proc p).issued + 1, deadline := s.clock + lockWaitMs }
  | .loop =>
    if fault || s.path.isSome then s.goto p .failed
    else { s.setProc p { s.proc p with pc := .made, since := s.clock } with path := some ⟨.none, s.clock, p⟩ }
  | .made => s.goto p (.stamped s.clock)
  | .stamped createdAt =>
    match s.path with
    | .none => s.goto p .scrapFile
    | some d =>
      if fault then s.goto p .scrapFile
      else if d.ownerFile.isSome then s.goto p .failed
      else
        { s.setProc p { s.proc p with pc := .holding, active := (s.proc p).owner :: (s.proc p).active } with
          path := some { d with ownerFile := some ⟨(s.proc p).owner, p, createdAt⟩, mtimeMs := s.clock } }
  | .scrapFile => if fault then s.goto p .failed else { s.goto p .scrapDir with path := s.emptied }
  | .scrapDir => if fault then s.goto p .failed else { s.goto p .failed with path := s.removed }
  | .failed => if s.path.isSome then s.goto p .inspect else s.goto p .idle
  | .inspect => if fault then s.goto p (.judge .none) else s.goto p (.judge s.ownerAtPath)
  | .judge (some o) => if s.ownerIsStale p o then s.goto p .discard else s.goto p .waiting
  | .judge .none =>
    if !fault && s.path.any (fun d => lockStaleMs < s.clock - d.mtimeMs) then s.goto p .discard else s.goto p .waiting
  | .discard =>
    if fault then s.goto p .idle
    else
      match s.path with
      | .none => s.goto p .loop
      | some d => { s.goto p (.recheck d) with path := .none }
  | .recheck d => if s.lockIsStale p d then s.goto p (.purge d) else s.goto p (.putBack d)
  | .putBack d =>
    if fault || s.ownerAtPath.isSome then s.goto p .idle else { s.goto p .loop with path := some d }
  | .purge _ => if fault then s.goto p .idle else s.goto p .loop
  | .waiting => if (s.proc p).deadline ≤ s.clock then s.goto p .idle else s.goto p .loop
  | .holding => s.setProc p { s.proc p with pc := .releasing, active := (s.proc p).active.erase (s.proc p).owner }
  | .releasing =>
    if !fault && s.ownerAtPath.any (fun o => o.owner = (s.proc p).owner) then s.goto p .dropFile else s.goto p .idle
  | .dropFile => if fault then s.goto p .idle else { s.goto p .dropDir with path := s.emptied }
  | .dropDir => if fault then s.goto p .idle else { s.goto p .idle with path := s.removed }

end State

/-- A step: a process runs one operation, or dies.  The clock does not go back. -/
inductive Act where
  | run (pid elapsedMs : Nat) (fault : Bool)
  | die (pid : Nat)
  deriving DecidableEq, Repr

/-- The clock moves on to the act. -/
def State.tick (s : State) : Act → State
  | .run _ elapsedMs _ => { s with clock := s.clock + elapsedMs }
  | .die _ => s

def State.perform (s : State) : Act → State
  | .run p _ fault => if (s.proc p).live then s.next p fault else s
  | .die p => s.setProc p { s.proc p with live := false }

def State.step (s : State) (a : Act) : State := (s.tick a).perform a

def State.exec (s : State) (acts : List Act) : State := acts.foldl State.step s

/-- Every act of the run is made in a state that satisfies `P`. -/
def Always (P : State → Act → Prop) : State → List Act → Prop
  | _, [] => True
  | s, a :: acts => P (s.tick a) a ∧ Always P (s.step a) acts

/-! ## Holding the lock -/

/-- The process made the lock directory and is not done with it. -/
def Pc.owns : Pc → Bool
  | .made | .stamped _ | .scrapFile | .scrapDir | .holding | .releasing | .dropFile | .dropDir => true
  | _ => false

/-- The process is in its critical section. -/
def State.Holds (s : State) (p : Nat) : Prop := (s.proc p).live = true ∧ (s.proc p).pc = .holding

instance (s : State) (p : Nat) : Decidable (s.Holds p) := inferInstanceAs (Decidable (_ ∧ _))

/-- **No live process keeps the lock for longer than `LOCK_STALE_MS`.** -/
def State.Timely (s : State) (_ : Act) : Prop :=
  ∀ x ∈ s.procs, x.live = true → x.pc.owns = true → s.clock - x.since ≤ lockStaleMs

instance (s : State) (a : Act) : Decidable (s.Timely a) := inferInstanceAs (Decidable (∀ x ∈ s.procs, _))

/-- **What is renamed away is stale**: the directory that `discardStaleLock` quarantines is one that `lockIsStale` says
is stale at that moment. -/
def State.Careful (s : State) : Act → Prop
  | .run p _ _ => (s.proc p).pc = .discard → ∀ d ∈ s.path, s.lockIsStale p d = true
  | .die _ => True

instance (s : State) : (a : Act) → Decidable (s.Careful a)
  | .run p _ _ => inferInstanceAs (Decidable ((s.proc p).pc = .discard → ∀ d ∈ s.path, s.lockIsStale p d = true))
  | .die _ => inferInstanceAs (Decidable True)

instance decidableAlways (P : State → Act → Prop) [∀ s a, Decidable (P s a)] :
    (s : State) → (acts : List Act) → Decidable (Always P s acts)
  | _, [] => inferInstanceAs (Decidable True)
  | s, a :: acts =>
    have := decidableAlways P (s.step a) acts
    inferInstanceAs (Decidable (_ ∧ _))

/-! ## Processes -/

namespace State

variable {s : State} {p q : Nat}

theorem lt_of_live (h : (s.proc p).live = true) : p < s.procs.length := by
  by_contra hge
  rw [proc, List.getD_eq_default _ _ (not_lt.1 hge)] at h
  cases h

theorem mem_procs (s : State) {p : Nat} (h : (s.proc p).live = true) : s.proc p ∈ s.procs := by
  have hlt := lt_of_live h
  rw [proc, List.getD_eq_getElem _ _ hlt]
  exact List.getElem_mem hlt

theorem proc_setProc_self (h : (s.proc p).live = true) (x : Proc) : (s.setProc p x).proc p = x := by
  have hlt := lt_of_live h
  simp [proc, setProc, List.getD_eq_getElem?_getD, hlt]

theorem proc_setProc_ne (h : q ≠ p) (x : Proc) : (s.setProc p x).proc q = s.proc q := by
  simp [proc, setProc, List.getD_eq_getElem?_getD, List.getElem?_set_ne h.symm]

theorem proc_setProc_live (x : Proc) (h : x.live = true → (s.proc p).live = true)
    (hq : ((s.setProc p x).proc q).live = true) : (s.proc q).live = true := by
  by_cases hqp : q = p
  · subst hqp
    by_cases hl : (s.proc q).live = true
    · exact hl
    · rcases le_or_gt s.procs.length q with hge | hlt
      · simp [proc, setProc, List.getD_eq_getElem?_getD, hge, Proc.none] at hq
      · have he : (s.setProc q x).proc q = x := by
          simp [proc, setProc, List.getD_eq_getElem?_getD, hlt]
        rw [he] at hq
        exact h hq
  · rwa [proc_setProc_ne hqp] at hq

theorem lockIsStale_mono {s' : State} {d : Dir} (hlive : ∀ r, (s'.proc r).live = true → (s.proc r).live = true)
    (hactive : (s'.proc q).active = (s.proc q).active) (hclock : s.clock ≤ s'.clock) (h : s.lockIsStale q d = true) :
    s'.lockIsStale q d = true := by
  unfold lockIsStale at h ⊢
  cases hd : d.ownerFile with
  | none =>
    rw [hd] at h
    simp only [decide_eq_true_eq] at h ⊢
    omega
  | some o =>
    rw [hd] at h
    simp only [ownerIsStale, processExists, Bool.or_eq_true, decide_eq_true_eq, hactive] at h ⊢
    rcases h with (h | h) | h
    · exact .inl (.inl h)
    · refine .inl (.inr ?_)
      rw [Bool.not_eq_true'] at h ⊢
      by_contra hne
      rw [hlive _ (by simpa using hne)] at h
      cases h
    · exact .inr (by omega)

end State

/-! ## The invariant -/

/-- The directory is as its owner left it. -/
def Matches (p : Nat) (x : Proc) (d : Dir) : Prop :=
  match x.pc with
  | .made | .scrapFile | .scrapDir | .dropDir => d.ownerFile = none ∧ x.since ≤ d.mtimeMs
  | .stamped createdAt => d.ownerFile = none ∧ x.since ≤ d.mtimeMs ∧ x.since ≤ createdAt
  | .holding | .releasing | .dropFile => ∃ c, d.ownerFile = some ⟨x.owner, p, c⟩ ∧ x.since ≤ c
  | _ => True

theorem Matches.cases {p : Nat} {x : Proc} {d : Dir} (h : Matches p x d) (ho : x.pc.owns = true) :
    (d.ownerFile = none ∧ x.since ≤ d.mtimeMs) ∨ ∃ c, d.ownerFile = some ⟨x.owner, p, c⟩ ∧ x.since ≤ c := by
  unfold Matches at h
  split at h
  · exact .inl h
  · exact .inl h
  · exact .inl h
  · exact .inl h
  · exact .inl ⟨h.1, h.2.1⟩
  · exact .inr h
  · exact .inr h
  · exact .inr h
  · cases hpc : x.pc <;> simp_all [Pc.owns]

/-- The lock directory is the one that `p` made. -/
def Owned (path : Option Dir) (clock : Int) (p : Nat) (x : Proc) : Prop :=
  ∃ d, path = some d ∧ d.maker = p ∧ Matches p x d ∧ x.since ≤ clock

structure Inv (s : State) : Prop where
  owned : ∀ p, (s.proc p).live = true → (s.proc p).pc.owns = true → Owned s.path s.clock p (s.proc p)
  quarantined : ∀ p d, (s.proc p).live = true → (s.proc p).pc = .recheck d → s.lockIsStale p d = true
  settled : ∀ p d, (s.proc p).live = true → (s.proc p).pc ≠ .putBack d

variable {s : State} {p q : Nat}

theorem Inv.unique (h : Inv s) (hp : (s.proc p).live = true) (hop : (s.proc p).pc.owns = true)
    (hq : (s.proc q).live = true) (hoq : (s.proc q).pc.owns = true) : p = q := by
  obtain ⟨d, hd, hm, -⟩ := h.owned p hp hop
  obtain ⟨d', hd', hm', -⟩ := h.owned q hq hoq
  rw [hd] at hd'
  rw [← hm, ← hm', Option.some.inj hd']

theorem Inv.update (h : Inv s) (hp : (s.proc p).live = true) {x : Proc} {path : Option Dir}
    (hothers : ∀ q, q ≠ p → (s.proc q).live = true → (s.proc q).pc.owns = true → path = s.path)
    (howned : x.pc.owns = true → Owned path s.clock p x)
    (hq : ∀ d, x.pc = .recheck d → x.active = (s.proc p).active ∧ s.lockIsStale p d = true)
    (hput : ∀ d, x.pc ≠ .putBack d) : Inv { s.setProc p x with path := path } := by
  have hself : ({ s.setProc p x with path := path } : State).proc p = x := State.proc_setProc_self hp x
  have hne : ∀ {q}, q ≠ p → ({ s.setProc p x with path := path } : State).proc q = s.proc q :=
    fun hqp => State.proc_setProc_ne hqp x
  have hlive : ∀ r, (({ s.setProc p x with path := path } : State).proc r).live = true → (s.proc r).live = true :=
    fun r hr => State.proc_setProc_live x (fun _ => hp) hr
  refine ⟨fun q hlq hoq => ?_, fun q d hlq hpc => ?_, fun q d hlq => ?_⟩
  · by_cases hqp : q = p
    · subst hqp
      rw [hself] at hoq ⊢
      exact howned hoq
    · rw [hne hqp] at hlq hoq ⊢
      show Owned path _ _ _
      rw [hothers q hqp hlq hoq]
      exact h.owned q hlq hoq
  · by_cases hqp : q = p
    · subst hqp
      rw [hself] at hpc
      exact State.lockIsStale_mono hlive (by rw [hself]; exact (hq d hpc).1) le_rfl (hq d hpc).2
    · rw [hne hqp] at hlq hpc
      exact State.lockIsStale_mono hlive (by rw [hne hqp]) le_rfl (h.quarantined q d hlq hpc)
  · by_cases hqp : q = p
    · subst hqp
      rw [hself]
      exact hput d
    · rw [hne hqp] at hlq ⊢
      exact h.settled q d hlq

theorem Inv.goto (h : Inv s) (hp : (s.proc p).live = true) {pc : Pc} (howns : pc.owns = true →
    Owned s.path s.clock p { s.proc p with pc := pc })
    (hq : ∀ d, pc ≠ .recheck d) (hput : ∀ d, pc ≠ .putBack d) : Inv (s.goto p pc) :=
  h.update hp (fun _ _ _ _ => rfl) howns (fun d he => absurd he (hq d)) hput

theorem Inv.ofOwner (h : Inv s) (hp : (s.proc p).live = true) (ho : (s.proc p).pc.owns = true) {pc : Pc}
    {path : Option Dir} (howns : pc.owns = true → Owned path s.clock p { s.proc p with pc := pc })
    (hq : ∀ d, pc ≠ .recheck d) (hput : ∀ d, pc ≠ .putBack d) : Inv { s.goto p pc with path := path } :=
  h.update hp (fun _ hqp hlq hoq => absurd (h.unique hlq hoq hp ho) hqp) howns (fun d he => absurd he (hq d)) hput

theorem Inv.not_stale (h : Inv s) {a : Act} (htimely : s.Timely a) (hqp : p ≠ q) (hlq : (s.proc q).live = true)
    (hoq : (s.proc q).pc.owns = true) {d : Dir} (hd : s.path = some d) : s.lockIsStale p d = false := by
  obtain ⟨d', hd', hm, hmatch, -⟩ := h.owned q hlq hoq
  obtain rfl : d = d' := Option.some.inj (hd.symm.trans hd')
  have hage : s.clock - (s.proc q).since ≤ lockStaleMs := htimely _ (s.mem_procs hlq) hlq hoq
  rcases hmatch.cases hoq with ⟨hof, hs⟩ | ⟨c, hof, hs⟩
  · simp only [State.lockIsStale, hof, decide_eq_false_iff_not]
    omega
  · have hpq : ¬ q = p := fun he => hqp he.symm
    simp only [State.lockIsStale, hof, State.ownerIsStale, State.processExists, hlq, hpq, decide_false, Bool.false_and,
      Bool.not_true, Bool.or_false, Bool.false_or, decide_eq_false_iff_not]
    omega

/-! ## Steps -/

/-- **One operation.**  All that is asked of it is that what it renames away is stale. -/
theorem Inv.next (h : Inv s) (hp : (s.proc p).live = true) (htimely : ∀ a, s.Timely a)
    (hcareful : (s.proc p).pc = .discard → ∀ d ∈ s.path, s.lockIsStale p d = true) (fault : Bool) :
    Inv (s.next p fault) := by
  have hown := h.owned p hp
  have away : ∀ {pc : Pc}, pc.owns = false → (∀ d, pc ≠ .recheck d) → (∀ d, pc ≠ .putBack d) → Inv (s.goto p pc) :=
    fun hn => h.goto hp (fun ho => by rw [hn] at ho; cases ho)
  unfold State.next
  cases hpc : (s.proc p).pc with
  | idle =>
    dsimp only
    split
    · exact h
    · exact h.update hp (fun _ _ _ _ => rfl) (fun ho => by cases ho) (fun d he => by cases he) (fun d he => by cases he)
  | loop =>
    dsimp only
    split
    · exact away rfl (by simp) (by simp)
    · rename_i hc
      simp only [Bool.or_eq_true, not_or, Bool.not_eq_true, Option.isSome_eq_false_iff, Option.isNone_iff_eq_none] at hc
      refine h.update hp (fun q _ hlq hoq => ?_) (fun _ => ?_) (fun d he => by cases he) (fun d he => by cases he)
      · obtain ⟨d, hd, -⟩ := h.owned q hlq hoq
        rw [hc.2] at hd
        cases hd
      · exact ⟨_, rfl, rfl, ⟨rfl, le_rfl⟩, le_rfl⟩
  | made =>
    dsimp only
    rw [hpc] at hown
    obtain ⟨d, hd, hm, hmatch, hs⟩ := hown rfl
    refine h.goto hp (fun _ => ⟨d, hd, hm, ?_, hs⟩) (by simp) (by simp)
    rw [Matches, hpc] at hmatch
    exact ⟨hmatch.1, hmatch.2, hs⟩
  | stamped createdAt =>
    dsimp only
    rw [hpc] at hown
    obtain ⟨d, hd, hm, hmatch, hs⟩ := hown rfl
    rw [Matches, hpc] at hmatch
    rw [hd]
    dsimp only
    split
    · refine h.goto hp (fun _ => ⟨d, hd, hm, ⟨hmatch.1, hmatch.2.1⟩, hs⟩) (by simp) (by simp)
    · split
      · exact away rfl (by simp) (by simp)
      · refine h.update hp (fun q hqp hlq hoq => ?_) (fun _ => ?_) (fun d he => by cases he) (fun d he => by cases he)
        · exact absurd (h.unique hlq hoq hp (by rw [hpc]; rfl)) hqp
        · exact ⟨_, rfl, hm, ⟨createdAt, rfl, hmatch.2.2⟩, hs⟩
  | scrapFile =>
    dsimp only
    rw [hpc] at hown
    obtain ⟨d, hd, hm, -, hs⟩ := hown rfl
    split
    · exact away rfl (by simp) (by simp)
    · refine h.ofOwner hp (by rw [hpc]; rfl) (fun _ => ?_) (by simp) (by simp)
      rw [State.emptied, hd]
      exact ⟨_, rfl, hm, ⟨rfl, hs⟩, hs⟩
  | scrapDir =>
    dsimp only
    split
    · exact away rfl (by simp) (by simp)
    · exact h.ofOwner hp (by rw [hpc]; rfl) (fun ho => by cases ho) (by simp) (by simp)
  | failed =>
    dsimp only
    split
    · exact away rfl (by simp) (by simp)
    · exact away rfl (by simp) (by simp)
  | inspect =>
    dsimp only
    split
    · exact away rfl (by simp) (by simp)
    · exact away rfl (by simp) (by simp)
  | judge owner =>
    cases owner with
    | some o =>
      dsimp only
      split
      · exact away rfl (by simp) (by simp)
      · exact away rfl (by simp) (by simp)
    | none =>
      dsimp only
      split
      · exact away rfl (by simp) (by simp)
      · exact away rfl (by simp) (by simp)
  | discard =>
    dsimp only
    split
    · exact away rfl (by simp) (by simp)
    · cases hd : s.path with
      | none => exact away rfl (by simp) (by simp)
      | some d =>
        have hstale := hcareful hpc d hd
        refine h.update hp (fun q hqp hlq hoq => ?_) (fun ho => by cases ho) (fun d' he => ?_) (fun d he => by cases he)
        · exact absurd hstale (by simp [h.not_stale (htimely (.die 0)) hqp.symm hlq hoq hd])
        · obtain rfl := Pc.recheck.inj he
          exact ⟨rfl, hstale⟩
  | recheck d =>
    dsimp only
    rw [if_pos (h.quarantined p d hp hpc)]
    exact away rfl (by simp) (by simp)
  | putBack d => exact absurd hpc (h.settled p d hp)
  | purge d =>
    dsimp only
    split
    · exact away rfl (by simp) (by simp)
    · exact away rfl (by simp) (by simp)
  | waiting =>
    dsimp only
    split
    · exact away rfl (by simp) (by simp)
    · exact away rfl (by simp) (by simp)
  | holding =>
    dsimp only
    rw [hpc] at hown
    obtain ⟨d, hd, hm, hmatch, hs⟩ := hown rfl
    rw [Matches, hpc] at hmatch
    exact h.update hp (fun _ _ _ _ => rfl) (fun _ => ⟨d, hd, hm, hmatch, hs⟩) (fun d he => by cases he)
      (fun d he => by cases he)
  | releasing =>
    dsimp only
    rw [hpc] at hown
    obtain ⟨d, hd, hm, hmatch, hs⟩ := hown rfl
    rw [Matches, hpc] at hmatch
    split
    · exact h.goto hp (fun _ => ⟨d, hd, hm, hmatch, hs⟩) (by simp) (by simp)
    · exact away rfl (by simp) (by simp)
  | dropFile =>
    dsimp only
    rw [hpc] at hown
    obtain ⟨d, hd, hm, -, hs⟩ := hown rfl
    split
    · exact away rfl (by simp) (by simp)
    · refine h.ofOwner hp (by rw [hpc]; rfl) (fun _ => ?_) (by simp) (by simp)
      rw [State.emptied, hd]
      exact ⟨_, rfl, hm, ⟨rfl, hs⟩, hs⟩
  | dropDir =>
    dsimp only
    split
    · exact away rfl (by simp) (by simp)
    · exact h.ofOwner hp (by rw [hpc]; rfl) (fun ho => by cases ho) (by simp) (by simp)

theorem Inv.tick (h : Inv s) (a : Act) : Inv (s.tick a) := by
  cases a with
  | die => exact h
  | run p elapsedMs fault =>
    have hle : s.clock ≤ s.clock + (elapsedMs : Int) := by omega
    refine ⟨fun q hlq hoq => ?_, fun q d hlq hpc => ?_, h.settled⟩
    · obtain ⟨d, hd, hm, hmatch, hs⟩ := h.owned q hlq hoq
      exact ⟨d, hd, hm, hmatch, hs.trans hle⟩
    · exact State.lockIsStale_mono (s := s) (fun _ hr => hr) rfl hle (h.quarantined q d hlq hpc)

theorem Inv.die (h : Inv s) (p : Nat) : Inv (s.setProc p { s.proc p with live := false }) := by
  have hlive : ∀ r, ((s.setProc p { s.proc p with live := false }).proc r).live = true → (s.proc r).live = true :=
    fun r hr => State.proc_setProc_live _ (fun hf => by cases hf) hr
  have hother : ∀ r, ((s.setProc p { s.proc p with live := false }).proc r).live = true →
      (s.setProc p { s.proc p with live := false }).proc r = s.proc r := by
    intro r hr
    by_cases hrp : r = p
    · subst hrp
      rw [State.proc_setProc_self (hlive r hr)] at hr
      cases hr
    · exact State.proc_setProc_ne hrp _
  refine ⟨fun q hlq hoq => ?_, fun q d hlq hpc => ?_, fun q d hlq => ?_⟩
  · have hq := hlive q hlq
    rw [hother q hlq] at hoq ⊢
    exact h.owned q hq hoq
  · have hq := hlive q hlq
    rw [hother q hlq] at hpc
    exact State.lockIsStale_mono hlive (by rw [hother q hlq]) le_rfl (h.quarantined q d hq hpc)
  · rw [hother q hlq]
    exact h.settled q d (hlive q hlq)

theorem Inv.step (h : Inv s) {a : Act} (htimely : (s.tick a).Timely a) (hcareful : (s.tick a).Careful a) :
    Inv (s.step a) := by
  have ht := h.tick a
  cases a with
  | die p => exact ht.die p
  | run p elapsedMs fault =>
    unfold State.step State.perform
    dsimp only
    split
    · exact ht.next (by assumption) (fun _ => htimely) hcareful fault
    · exact ht

theorem Inv.init (n : Nat) : Inv (.init n) := by
  have hidle : ∀ p, ((State.init n).proc p).pc = .idle := by
    intro p
    simp only [State.proc, State.init, List.getD_eq_getElem?_getD, List.getElem?_replicate]
    split <;> rfl
  refine ⟨fun p _ ho => ?_, fun p d _ hpc => ?_, fun p d _ hpc => ?_⟩
  · rw [hidle] at ho
    cases ho
  · rw [hidle] at hpc
    cases hpc
  · rw [hidle] at hpc
    cases hpc

theorem Inv.exec {acts : List Act} (h : Inv s) (hruns : Always (fun s a => s.Timely a ∧ s.Careful a) s acts) :
    Inv (s.exec acts) := by
  induction acts generalizing s with
  | nil => exact h
  | cons a acts ih => exact ih (h.step hruns.1.1 hruns.1.2) hruns.2

/-! ## Mutual exclusion -/

/-- **Mutual exclusion.**  In a run in which no live process keeps the lock for longer than `LOCK_STALE_MS` and every
directory that is renamed away is stale at that moment, no two live processes hold the lock, and what a release removes
is the directory of its own process. -/
theorem lock_mutual_exclusion (n : Nat) (acts : List Act)
    (h : Always (fun s a => s.Timely a ∧ s.Careful a) (.init n) acts) :
    (∀ p q, ((State.init n).exec acts).Holds p → ((State.init n).exec acts).Holds q → p = q) ∧
    (∀ p, (((State.init n).exec acts).proc p).live = true →
      (((State.init n).exec acts).proc p).pc = .dropFile ∨ (((State.init n).exec acts).proc p).pc = .dropDir →
      ∃ d, ((State.init n).exec acts).path = some d ∧ d.maker = p ∧
        ∀ o ∈ d.ownerFile, o.owner = (((State.init n).exec acts).proc p).owner) := by
  have hinv : Inv ((State.init n).exec acts) := (Inv.init n).exec h
  refine ⟨fun p q hp hq => ?_, fun p hp hpc => ?_⟩
  · exact hinv.unique hp.1 (by rw [hp.2]; rfl) hq.1 (by rw [hq.2]; rfl)
  · have howns : (((State.init n).exec acts).proc p).pc.owns = true := by
      rcases hpc with hpc | hpc <;> rw [hpc] <;> rfl
    obtain ⟨d, hd, hm, hmatch, -⟩ := hinv.owned p hp howns
    refine ⟨d, hd, hm, fun o ho => ?_⟩
    rcases hpc with hpc | hpc <;> rw [Matches, hpc] at hmatch
    · obtain ⟨c, hc, -⟩ := hmatch
      rw [hc] at ho
      rw [← Option.some.inj ho]
    · rw [hmatch.1] at ho
      cases ho

/-- `n` operations of the process `p`, a millisecond each. -/
def runs (p n : Nat) : List Act := List.replicate n (.run p 1 false)

/-- Process 0 dies with the lock, process 1 takes it over, and process 2 waits. -/
def takeover : List Act := runs 0 4 ++ [.die 0] ++ runs 1 11 ++ runs 2 6

/-- After the takeover only process 1 holds the lock. -/
theorem lock_mutual_exclusion_takeover : ((State.init 3).exec takeover).Holds 1 ∧
    ∀ q, ((State.init 3).exec takeover).Holds q → 1 = q := by
  have hholds : ((State.init 3).exec takeover).Holds 1 := by decide +kernel
  exact ⟨hholds, fun q => (lock_mutual_exclusion 3 takeover (by decide +kernel)).1 1 q hholds⟩

/-- Processes 1 and 2 both find the lock of a dead process stale; 2 discards it and takes the lock, then 1 renames the
lock of 2 away, and 3 takes it. -/
def staleRace : List Act := runs 0 4 ++ [.die 0] ++ runs 1 5 ++ runs 2 11 ++ runs 1 1 ++ runs 3 4

/-- Processes 2 and 3 hold the lock at once, and nobody has held it for longer than `LOCK_STALE_MS`. -/
theorem stale_lock_race : Always State.Timely (.init 4) staleRace ∧
    ((State.init 4).exec staleRace).Holds 2 ∧ ((State.init 4).exec staleRace).Holds 3 := by
  decide +kernel

end Lock
end TmuxWorktree
