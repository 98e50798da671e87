import TmuxWorktree.Terminal.Exact
/-!
# Protocol — what the authority may do to a record, and what it may hand out

The abstract side.  A `Move` is everything one mutation of a record can be: output bookkeeping, fencing, retirement, a
new lease, a lease given back, a change on the same lease, one of the three ways out of recovery, and the three ends of
a write under way.  A `LedgerStep` puts a move, a load or a save on a `Ledger` (the state file, the section's copy, the
trace), or notes an event whose guard holds.  The guards are the protocol: a lease is only issued as it stands on disk,
a write call is only made under a durable in-flight marker, and only the process that put an operation in flight takes it
out again.

Every handler is shown to take only such steps; what holds of every reachable ledger holds of every run.
-/
namespace TmuxWorktree
namespace Terminal

/-! ## Events by target -/

def Event.names (id : String) : Event → Prop
  | .saved s => ∃ t ∈ s.targets, t.controlTargetId = id
  | .created target => target = id
  | .issued lease => lease.controlTargetId = id
  | .validated target .. => target = id
  | .started target _ => target = id
  | .write target .. => target = id
  | .provenNotApplied target _ => target = id
  | .evicted target _ => target = id
  | .retired target => target = id
  | .fenced target .. => target = id
  | .activated target _ => target = id
  | .released target _ => target = id
  | .rebound target _ => target = id
  | _ => False

def Event.writes (id operationId : String) : Event → Bool
  | .write target op .. => target = id && op = operationId
  | _ => false

/-- The event takes the operation off the books: proved not applied, dropped from the journal, or retired with its
target. -/
def Event.settles (id operationId : String) : Event → Bool
  | .provenNotApplied target op => target = id && op = operationId
  | .evicted target op => target = id && op = operationId
  | .retired target => target = id
  | _ => false

/-- **A write call of this operation is on the books**: it was made, and nothing has settled it since. -/
def owed (id operationId : String) : List Event → Bool
  | [] => false
  | e :: tr => e.writes id operationId || (!e.settles id operationId && owed id operationId tr)

/-- **The operation was put in flight by the process that runs.** -/
def underway (id operationId : String) : List Event → Bool
  | [] => false
  | .restarted :: _ => false
  | .started target op :: tr => (target = id && op = operationId) || underway id operationId tr
  | _ :: tr => underway id operationId tr

/-! ## Moves of a record -/

/-- **One mutation of a record**, with the events it leaves. -/
inductive Move : TargetRecord → List Event → TargetRecord → Prop
  | touch (t : TargetRecord) (g : String) (r : Nat) (u : Int) :
      Move t [] { t with outputGeneration := g, revision := r, updatedAt := u }
  | fence (t : TargetRecord) (epoch : String) (reason : RecoveryReason) (options : TargetRecord.RecoveryOptions)
      (completedAt since updatedAt : Int) :
      Move t (t.fenceEvents reason options completedAt since)
        (t.markRecovery epoch reason options completedAt since updatedAt)
  | retire (t : TargetRecord) (u : Int) : Move t [.retired t.controlTargetId] (t.invalidateTarget u)
  | grant (t : TargetRecord) (owner : Owner) (leaseId : String) (x : Int) (r : Nat) (u : Int)
      (ha : t.lifecycle = .active) :
      Move t [] { t with ownership := .held (t.fence + 1) owner leaseId x, revision := r, updatedAt := u }
  | free (t : TargetRecord) (r : Nat) (u : Int) (ha : t.lifecycle = .active) :
      Move t [] { t with ownership := .free (t.fence + 1), revision := r, updatedAt := u }
  | sameLease (t : TargetRecord) (o : Ownership) (r : Nat) (u : Int) (ha : t.lifecycle = .active)
      (hf : o.fence = t.fence) (hl : o.leaseId? = t.ownership.leaseId?) (ho : o.owner? = t.ownership.owner?) :
      Move t [] { t with ownership := o, revision := r, updatedAt := u }
  | reconcile (t : TargetRecord) (r : Nat) (u : Int) (h : t.isAutoRecoverableNonFeishuState = true) :
      Move t [.activated t.controlTargetId .reconciled]
        { t with lifecycle := .active, recovery := none, ownership := .free t.fence, revision := r, updatedAt := u }
  | acknowledge (t : TargetRecord) (r : Nat) (u : Int) (h : isExactInDoubt t = true) :
      Move t [.activated t.controlTargetId .exactPreparation]
        { t with lifecycle := .active, recovery := none, ownership := .free t.fence, revision := r, updatedAt := u }
  | force (t : TargetRecord) (owner : Owner) (leaseId : String) (x : Int) (r : Nat) (u : Int)
      (h : t.lifecycle = .recoveryRequired) :
      Move t [.activated t.controlTargetId .forced]
        { t with
          lifecycle := .active, recovery := none, ownership := .held (t.fence + 1) owner leaseId x
          revision := r, updatedAt := u }
  | start (t : TargetRecord) (op : InFlightOperation) (r : Nat) (u : Int) (ha : t.lifecycle = .active)
      (hn : t.inFlight = none) (hf : op.operationId ∉ t.operationIds) :
      Move t [.started t.controlTargetId op.operationId] { t with inFlight := some op, revision := r, updatedAt := u }
  | abandon (t : TargetRecord) (op : InFlightOperation) (h : t.inFlight = some op) :
      Move t [.provenNotApplied t.controlTargetId op.operationId] { t with inFlight := none }
  | commit (t : TargetRecord) (op : InFlightOperation) (record : OperationRecord) (h : t.inFlight = some op)
      (hid : record.operationId = op.operationId) :
      Move t (t.evictions record) { t.appendOperation record with inFlight := none }

/-- An operation of a live record comes out of flight only in the process that put it there. -/
def Lands (t t' : TargetRecord) (tr : List Event) : Prop :=
  t'.lifecycle = .active → t'.inFlight = none → ∀ op ∈ t.inFlight,
    underway t.controlTargetId op.operationId tr = true

theorem Lands.same {t t' : TargetRecord} {tr : List Event} (h : t'.inFlight = t.inFlight) : Lands t t' tr := by
  intro _ hn op hop
  rw [← h, hn] at hop
  cases hop

theorem Lands.idle {t t' : TargetRecord} {tr : List Event} (h : t.inFlight = none) : Lands t t' tr := by
  intro _ _ op hop
  rw [h] at hop
  cases hop

theorem Lands.parked {t t' : TargetRecord} {tr : List Event} (h : t'.lifecycle ≠ .active) : Lands t t' tr :=
  fun ha => absurd ha h

/-! ## The ledger -/

structure Ledger where
  disk : Option ControlState
  mem : ControlState
  trace : List Event

def Alone (s : ControlState) (t : TargetRecord) : Prop :=
  ∀ u ∈ s.targets, u.lifecycle ≠ .targetGone → u.managedSession.name = t.managedSession.name →
    u.controlTargetId = t.controlTargetId

/-- The lease stands in the state: its epoch, identity and fence, and an owner of its class. -/
def Stands (s : ControlState) (lease : Lease) : Prop :=
  ∃ t o, s.get? lease.controlTargetId = some t ∧ t.leaseMatches s.controlEpoch lease = true ∧
    t.ownership.owner? = some o ∧ sameInputOwnerClass o lease.owner = true

/-- The lease is what `leaseMatches` says of the target's record. -/
def Agrees (s : ControlState) (target : String) (lease : Lease) (agrees : Bool) : Prop :=
  ∃ t, s.get? target = some t ∧ t.leaseMatches s.controlEpoch lease = agrees

def Ledger.Notes (l : Ledger) : Event → Prop
  | .saveFailed => True
  | .saveRejected _ => parseTerminalControlState l.mem ≠ .ok l.mem ∨
      parseTerminalControlState (compact l.mem) ≠ .ok (compact l.mem)
  | .issued lease => (Stands l.mem lease ∧ ∃ d, l.disk = some d ∧ Stands d lease) ∨
      ∃ first, Event.issued first ∈ l.trace ∧ lease = { first with owner := lease.owner } ∧
        isInteractiveOwner first.owner = true ∧ isInteractiveOwner lease.owner = true
  | .validated target lease agrees accepted => Agrees l.mem target lease agrees ∧
      (∃ d, l.disk = some d ∧ Agrees d target lease agrees) ∧
      (accepted = true → agrees = true ∧ target = lease.controlTargetId)
  | .write target operationId _ _ fence _ => owed target operationId l.trace = false ∧
      underway target operationId l.trace = true ∧
      ∃ d t op, l.disk = some d ∧ d.get? target = some t ∧ l.mem.get? target = some t ∧ t.inFlight = some op ∧
        op.operationId = operationId ∧ t.fence = fence ∧ t.ownership.isFree = false
  | .released target _ => ∃ t ∈ l.mem.targets, t.controlTargetId = target
  | .rebound target _ => ∃ first, Event.issued first ∈ l.trace ∧ first.controlTargetId = target
  | _ => False

/-- **One step of the protocol.**  `B` bounds the scalars that may enter a record. -/
inductive LedgerStep (B : Bounds) (l : Ledger) : Ledger → Prop
  | load (s : ControlState) (h : l.disk = some s) : LedgerStep B l { l with mem := s }
  | create (epoch : String) (h : l.disk = none) (hB : B.stored epoch 128 = true) :
      LedgerStep B l { l with mem := ⟨epoch, []⟩ }
  | move (t : TargetRecord) (events : List Event) (t' : TargetRecord)
      (hepoch : ∀ d ∈ l.disk, d.controlEpoch = l.mem.controlEpoch)
      (hget : l.mem.get? t.controlTargetId = some t) (hmove : Move t events t') (hB : B.target t' = true)
      (halone : t.lifecycle = .targetGone → t'.lifecycle ≠ .targetGone → Alone l.mem t)
      (hlands : Lands t t' l.trace) :
      LedgerStep B l
        { l with mem := l.mem.update t.controlTargetId (fun _ => t'), trace := events ++ l.trace }
  | push (id generation : String) (session : ManagedSession) (tmuxInstanceId : String) (u : Int)
      (hfresh : Event.created id ∉ l.trace) (hB : B.target (newTarget id generation session tmuxInstanceId u) = true)
      (hname : ∀ t ∈ l.mem.targets, t.lifecycle ≠ .targetGone → t.managedSession.name ≠ session.name) :
      LedgerStep B l
        { l with
          mem := l.mem.push (newTarget id generation session tmuxInstanceId u), trace := .created id :: l.trace }
  | restart (env : Env) (tick : Nat) (epoch : String) (hload : ∀ d ∈ l.disk, d = l.mem) (hB : B.stored epoch 128 = true)
      (hBt : ∀ t ∈ (restartTargets env l.mem.controlEpoch tick l.mem.targets).1, B.target t = true) :
      LedgerStep B l
        { l with
          mem := ⟨epoch, (restartTargets env l.mem.controlEpoch tick l.mem.targets).1⟩
          trace := (restartTargets env l.mem.controlEpoch tick l.mem.targets).2 ++ l.trace }
  | save : LedgerStep B l
      { l with disk := some (compact l.mem), trace := .saved (compact l.mem) :: l.trace }
  | note (e : Event) (h : l.Notes e) : LedgerStep B l { l with trace := e :: l.trace }
  | reset : LedgerStep B l { l with mem := ⟨"-", []⟩, trace := .restarted :: l.trace }

def Ledger.init : Ledger := ⟨none, ⟨"-", []⟩, []⟩

/-- **What the protocol reaches.** -/
def Ledger.Reachable (B : Bounds) : Ledger → Prop := Relation.ReflTransGen (LedgerStep B) Ledger.init

/-- The invariant rule: what holds at the start and over every step from a reachable ledger holds of every reachable
ledger. -/
theorem Ledger.Reachable.induct {B : Bounds} {P : Ledger → Prop} (h0 : P Ledger.init)
    (hs : ∀ l l', Ledger.Reachable B l → P l → LedgerStep B l l' → P l') {l : Ledger} (h : Ledger.Reachable B l) :
    P l := by
  induction h with
  | refl => exact h0
  | tail hl hstep ih => exact hs _ _ hl ih hstep

end Terminal
end TmuxWorktree
