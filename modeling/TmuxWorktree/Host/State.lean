import Mathlib.Data.List.AList
import Mathlib.Algebra.Order.Ring.Nat
/-!
# State — the persisted host state and its transactions

`PersistedHostState` is the contents of `state-v1.json`, `ContinuityWitness` that of the witness beside it.  The records
are generic: of a record the store only asks whether it is plain JSON, which is a parameter of the `Codec`, with the
checksum and the sizes of the two files.  A counter is its value; an id is its text.
-/
namespace TmuxWorktree
namespace Host

/-- A string-keyed object. -/
abbrev Dict (α : Type) := AList (fun _ : String => α)

/-! ## Errors -/

/-- What the store throws.  `callback` is an error of the caller's own, thrown through a transaction. -/
inductive HostError (ξ : Type) where
  /-- a file operation's error and its `code` -/
  | fs (code : String)
  | atomicPublish (published : Bool) (original : HostError ξ)
  | commitUncertain
  | capacity (actualBytes maxBytes : Nat)
  | plain (message : String)
  | callback (x : ξ)
  deriving DecidableEq, Repr

/-- `RELAY_V2_HOST_STATE_STORAGE_FAULT_CODES`. -/
def storageFaultCodes : List String := ["EACCES", "EPERM", "EROFS", "ENOSPC", "EDQUOT", "EIO", "ESTALE"]

variable {ξ R : Type}

def HostError.storageFaultCode : HostError ξ → Option String
  | fs code => some code
  | atomicPublish _ (fs code) => some code
  | _ => none

def HostError.isStorageFault : HostError ξ → Bool
  | commitUncertain | capacity .. | atomicPublish true _ => false
  | plain message => "timed out waiting for Relay v2 host state lock".isPrefixOf message
  | e => e.storageFaultCode.any storageFaultCodes.contains

/-! ## Counters and keys -/

def maxCounter : Nat := 18446744073709551615

def nextCounter (n : Nat) : Except (HostError ξ) Nat :=
  if maxCounter < n + 1 then .error (.plain "Relay v2 host state counter exhausted") else .ok (n + 1)

def validStoreKey (key : String) : Bool :=
  0 < key.length && key.utf8ByteSize ≤ 256 && key.toList.all (fun c => c ≠ '\x00' && c ≠ '\r' && c ≠ '\n')

/-! ## The two files -/

inductive FenceReason where
  | persistedCapacityExceeded | reconcileGenerationConflict | materializedAuthorityConflict
  deriving DecidableEq, Repr

/-- `RelayV2MaterializedReadinessFence`. -/
structure Fence where
  hostEpoch : String
  reason : FenceReason
  deriving DecidableEq, Repr

/-- `PersistedHostStateUnsigned`: the state but for its checksum. -/
structure Draft (R : Type) where
  hostEpoch : String
  commitSeq : Nat
  commitId : String
  parentCommitId : Option String
  eventSeq : Nat
  revisions : Dict Nat
  commands : Dict R
  materialized : Dict R
  materializedReadinessFence : Option Fence
  deriving DecidableEq

structure PersistedHostState (R : Type) extends Draft R where
  checksum : String
  deriving DecidableEq

structure ContinuityWitness where
  hostEpoch : String
  commitSeq : Nat
  commitId : String
  stateChecksum : String
  deriving DecidableEq, Repr

/-- What the store needs to know of the texts it writes. -/
structure Codec (R : Type) where
  /-- `validateJson` passes -/
  validJson : R → Bool
  stateChecksum : Draft R → String
  /-- the length of the text of `state-v1.json` -/
  stateBytes : PersistedHostState R → Nat
  witnessBytes : ContinuityWitness → Nat
  maxPersistedBytes : Nat

def fenceReserveBytes : Nat := 1024
def maxContinuityBytes : Nat := 16 * 1024

variable (c : Codec R)

def sealState (d : Draft R) : PersistedHostState R := { d with checksum := c.stateChecksum d }

/-- `parseHostState` accepts: counters in range, a parent exactly for a later commit, valid keys and records, a fence of
this epoch, and the checksum. -/
def parseHostState (s : PersistedHostState R) : Bool :=
  s.commitSeq ≤ maxCounter && s.eventSeq ≤ maxCounter &&
    (s.commitSeq = 0 ↔ s.parentCommitId = none) &&
    s.revisions.entries.all (fun e => validStoreKey e.1 && e.2 ≤ maxCounter) &&
    s.commands.entries.all (fun e => validStoreKey e.1 && c.validJson e.2) &&
    s.materialized.entries.all (fun e => validStoreKey e.1 && c.validJson e.2) &&
    s.materializedReadinessFence.all (fun f => f.hostEpoch = s.hostEpoch) &&
    c.stateChecksum s.toDraft = s.checksum

/-- `parseContinuityWitness` accepts. -/
def parseContinuityWitness (w : ContinuityWitness) : Bool := w.commitSeq ≤ maxCounter

def witnessFor (s : PersistedHostState R) : ContinuityWitness := ⟨s.hostEpoch, s.commitSeq, s.commitId, s.checksum⟩

def witnessMatchesState (w : ContinuityWitness) (s : PersistedHostState R) : Bool :=
  w.hostEpoch = s.hostEpoch && w.commitSeq = s.commitSeq && w.commitId = s.commitId && w.stateChecksum = s.checksum

def stateImmediatelyFollowsWitness (s : PersistedHostState R) (w : ContinuityWitness) : Except (HostError ξ) Bool :=
  if s.hostEpoch = w.hostEpoch then do
    let next ← nextCounter w.commitSeq
    return s.commitSeq = next && s.parentCommitId = some w.commitId
  else .ok false

def freshState (hostEpoch commitId : String) : PersistedHostState R :=
  sealState c ⟨hostEpoch, 0, commitId, none, 0, ∅, ∅, ∅, none⟩

/-! ## Transactions -/

/-- A call of a mutation on its `HostStateTransaction`, those that write. -/
inductive TxOp (R : Type) where
  | putCommandRecord (key : String) (value : R)
  | deleteCommandRecord (key : String)
  | putMaterializedRecord (key : String) (value : R)
  | deleteMaterializedRecord (key : String)
  | allocateRevision (revisionKey : String)
  | allocateEventSeq
  | clearMaterializedReadinessFence
  | latchMaterializedReadinessFence (reason : FenceReason)

def checkKey (key label : String) : Except (HostError ξ) Unit :=
  if validStoreKey key then .ok () else .error (.plain ("invalid Relay v2 host state " ++ label))

/-- `cloneJson`, of the records that are plain JSON. -/
def cloneJson (value : R) : Except (HostError ξ) R :=
  if c.validJson value then .ok value else .error (.plain "Relay v2 host state records must contain only JSON values")

def TxOp.apply (d : Draft R) : TxOp R → Except (HostError ξ) (Draft R)
  | .putCommandRecord key value => do
    checkKey key "command key"
    let value ← cloneJson c value
    return { d with commands := d.commands.insert key value }
  | .deleteCommandRecord key => do
    checkKey key "command key"
    return { d with commands := d.commands.erase key }
  | .putMaterializedRecord key value => do
    checkKey key "materialized key"
    let value ← cloneJson c value
    return { d with materialized := d.materialized.insert key value }
  | .deleteMaterializedRecord key => do
    checkKey key "materialized key"
    return { d with materialized := d.materialized.erase key }
  | .allocateRevision key => do
    checkKey key "revision key"
    let next ← nextCounter ((d.revisions.lookup key).getD 0)
    return { d with revisions := d.revisions.insert key next }
  | .allocateEventSeq => do
    let next ← nextCounter d.eventSeq
    return { d with eventSeq := next }
  | .clearMaterializedReadinessFence => return { d with materializedReadinessFence := none }
  | .latchMaterializedReadinessFence reason =>
    return { d with materializedReadinessFence := some ⟨d.hostEpoch, reason⟩ }

/-- A mutation: the calls it makes on the draft it is given, and what it throws at its end. -/
structure Mutation (ξ R : Type) where
  calls : Draft R → List (TxOp R)
  throws : Draft R → Option (HostError ξ)

/-- The calls of a mutation in order; a call that throws leaves the draft as it is. -/
def applyCalls (ξ : Type) (d : Draft R) (calls : List (TxOp R)) : Draft R :=
  calls.foldl (fun d op => ((op.apply c d : Except (HostError ξ) (Draft R)).toOption).getD d) d

/-- The state that a commit publishes. -/
def nextState (current : PersistedHostState R) (draft : Draft R) (commitId : String) : PersistedHostState R :=
  sealState c { draft with
    commitSeq := current.commitSeq + 1, commitId := commitId, parentCommitId := some current.commitId }

/-! ## What a transaction keeps -/

/-- The parts of a draft that a mutation can change are well formed. -/
structure ValidDraft (d : Draft R) : Prop where
  eventSeq : d.eventSeq ≤ maxCounter
  revisions : ∀ e ∈ d.revisions.entries, validStoreKey e.1 = true ∧ e.2 ≤ maxCounter
  commands : ∀ e ∈ d.commands.entries, validStoreKey e.1 = true ∧ c.validJson e.2 = true
  materialized : ∀ e ∈ d.materialized.entries, validStoreKey e.1 = true ∧ c.validJson e.2 = true
  fence : ∀ f ∈ d.materializedReadinessFence, f.hostEpoch = d.hostEpoch

variable {c}

theorem parseHostState_iff {s : PersistedHostState R} : parseHostState c s = true ↔
    s.commitSeq ≤ maxCounter ∧ (s.commitSeq = 0 ↔ s.parentCommitId = none) ∧ ValidDraft c s.toDraft ∧
      c.stateChecksum s.toDraft = s.checksum := by
  unfold parseHostState
  simp only [Bool.and_eq_true, decide_eq_true_eq, List.all_eq_true, Option.all_eq_true]
  constructor
  · rintro ⟨⟨⟨⟨⟨⟨⟨h1, h2⟩, h3⟩, h4⟩, h5⟩, h6⟩, h7⟩, h8⟩
    exact ⟨h1, h3, ⟨h2, h4, h5, h6, h7⟩, h8⟩
  · rintro ⟨h1, h3, ⟨h2, h4, h5, h6, h7⟩, h8⟩
    exact ⟨⟨⟨⟨⟨⟨⟨h1, h2⟩, h3⟩, h4⟩, h5⟩, h6⟩, h7⟩, h8⟩

theorem nextCounter_ok {n m : Nat} (h : (nextCounter n : Except (HostError ξ) Nat) = .ok m) : m = n + 1 ∧ m ≤ maxCounter := by
  unfold nextCounter at h
  split at h
  · cases h
  · obtain rfl := Except.ok.inj h
    exact ⟨rfl, by omega⟩

theorem checkKey_ok {key label : String} (h : (checkKey key label : Except (HostError ξ) Unit) = .ok ()) :
    validStoreKey key = true := by
  unfold checkKey at h
  split at h
  · assumption
  · cases h

theorem cloneJson_ok {r r' : R} (h : (cloneJson c r : Except (HostError ξ) R) = .ok r') : r' = r ∧ c.validJson r = true := by
  unfold cloneJson at h
  split at h
  · exact ⟨(Except.ok.inj h).symm, by assumption⟩
  · cases h

theorem mem_insert_entries {α : Type} {d : Dict α} {key : String} {a : α} {e : Sigma (fun _ : String => α)}
    (h : e ∈ (d.insert key a).entries) : e = ⟨key, a⟩ ∨ e ∈ d.entries := by
  rw [AList.entries_insert] at h
  rcases List.mem_cons.1 h with h | h
  · exact .inl h
  · exact .inr ((List.kerase_sublist _ _).subset h)

theorem mem_erase_entries {α : Type} {d : Dict α} {key : String} {e : Sigma (fun _ : String => α)}
    (h : e ∈ (d.erase key).entries) : e ∈ d.entries := (List.kerase_sublist _ _).subset h

/-- **One call of a mutation.** -/
theorem TxOp.apply_valid {op : TxOp R} {d d' : Draft R} (hd : ValidDraft c d)
    (h : (op.apply c d : Except (HostError ξ) (Draft R)) = .ok d') : ValidDraft c d' ∧ d'.hostEpoch = d.hostEpoch := by
  cases op with
  | putCommandRecord key value =>
    simp only [TxOp.apply, bind, Except.bind] at h
    split at h
    · cases h
    · rename_i hk
      split at h
      · cases h
      · rename_i hv
        obtain ⟨rfl, hj⟩ := cloneJson_ok hv
        obtain rfl := Except.ok.inj h
        refine ⟨⟨hd.eventSeq, hd.revisions, fun e he => ?_, hd.materialized, hd.fence⟩, rfl⟩
        rcases mem_insert_entries he with rfl | he
        · exact ⟨checkKey_ok hk, hj⟩
        · exact hd.commands e he
  | deleteCommandRecord key =>
    simp only [TxOp.apply, bind, Except.bind] at h
    split at h
    · cases h
    · obtain rfl := Except.ok.inj h
      exact ⟨⟨hd.eventSeq, hd.revisions, fun e he => hd.commands e (mem_erase_entries he), hd.materialized, hd.fence⟩, rfl⟩
  | putMaterializedRecord key value =>
    simp only [TxOp.apply, bind, Except.bind] at h
    split at h
    · cases h
    · rename_i hk
      split at h
      · cases h
      · rename_i hv
        obtain ⟨rfl, hj⟩ := cloneJson_ok hv
        obtain rfl := Except.ok.inj h
        refine ⟨⟨hd.eventSeq, hd.revisions, hd.commands, fun e he => ?_, hd.fence⟩, rfl⟩
        rcases mem_insert_entries he with rfl | he
        · exact ⟨checkKey_ok hk, hj⟩
        · exact hd.materialized e he
  | deleteMaterializedRecord key =>
    simp only [TxOp.apply, bind, Except.bind] at h
    split at h
    · cases h
    · obtain rfl := Except.ok.inj h
      exact ⟨⟨hd.eventSeq, hd.revisions, hd.commands, fun e he => hd.materialized e (mem_erase_entries he), hd.fence⟩, rfl⟩
  | allocateRevision key =>
    simp only [TxOp.apply, bind, Except.bind] at h
    split at h
    · cases h
    · rename_i hk
      split at h
      · cases h
      · rename_i hn
        obtain rfl := Except.ok.inj h
        refine ⟨⟨hd.eventSeq, fun e he => ?_, hd.commands, hd.materialized, hd.fence⟩, rfl⟩
        rcases mem_insert_entries he with rfl | he
        · exact ⟨checkKey_ok hk, (nextCounter_ok hn).2⟩
        · exact hd.revisions e he
  | allocateEventSeq =>
    simp only [TxOp.apply, bind, Except.bind] at h
    split at h
    · cases h
    · rename_i hn
      obtain rfl := Except.ok.inj h
      exact ⟨⟨(nextCounter_ok hn).2, hd.revisions, hd.commands, hd.materialized, hd.fence⟩, rfl⟩
  | clearMaterializedReadinessFence =>
    obtain rfl := Except.ok.inj h
    exact ⟨⟨hd.eventSeq, hd.revisions, hd.commands, hd.materialized, fun f hf => by cases hf⟩, rfl⟩
  | latchMaterializedReadinessFence reason =>
    obtain rfl := Except.ok.inj h
    refine ⟨⟨hd.eventSeq, hd.revisions, hd.commands, hd.materialized, fun f hf => ?_⟩, rfl⟩
    obtain rfl := Option.some.inj hf
    rfl

/-- **All calls of a mutation.** -/
theorem applyCalls_valid {calls : List (TxOp R)} : ∀ {d : Draft R}, ValidDraft c d →
    ValidDraft c (applyCalls c ξ d calls) ∧ (applyCalls c ξ d calls).hostEpoch = d.hostEpoch := by
  induction calls with
  | nil => exact fun hd => ⟨hd, rfl⟩
  | cons op calls ih =>
    intro d hd
    have hstep : ValidDraft c (((op.apply c d : Except (HostError ξ) (Draft R)).toOption).getD d) ∧
        (((op.apply c d : Except (HostError ξ) (Draft R)).toOption).getD d).hostEpoch = d.hostEpoch := by
      cases ha : (op.apply c d : Except (HostError ξ) (Draft R)) with
      | error e => exact ⟨hd, rfl⟩
      | ok d' => exact TxOp.apply_valid hd ha
    obtain ⟨h1, h2⟩ := ih hstep.1
    exact ⟨h1, h2.trans hstep.2⟩

theorem parse_nextState {s : PersistedHostState R} {d : Draft R} (hd : ValidDraft c d)
    (hseq : s.commitSeq + 1 ≤ maxCounter) (commitId : String) : parseHostState c (nextState c s d commitId) = true := by
  refine parseHostState_iff.2 ⟨hseq, ?_, ⟨hd.eventSeq, hd.revisions, hd.commands, hd.materialized, hd.fence⟩, rfl⟩
  simp [nextState, sealState]

theorem parse_freshState (hostEpoch commitId : String) : parseHostState c (freshState c hostEpoch commitId) = true := by
  refine parseHostState_iff.2 ⟨Nat.zero_le _, by simp [freshState, sealState], ⟨Nat.zero_le _, ?_, ?_, ?_, ?_⟩, rfl⟩
  · exact fun e he => (List.not_mem_nil he).elim
  · exact fun e he => (List.not_mem_nil he).elim
  · exact fun e he => (List.not_mem_nil he).elim
  · exact fun f hf => by cases hf

end Host
end TmuxWorktree
