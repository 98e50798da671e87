import TmuxWorktree.Lib.Effect
import TmuxWorktree.Host.State
/-!
# Files — how the host state gets to disk

`atomicWriteJson`, `loadOrCreateState`, `publishState` and `HostStateCriticalSection`, with every file operation a
question to the outside: it succeeds, it fails with a code, or the process stops right after it.  A file holds one of
its complete texts, since only the rename puts one there.

The trace records the renames and what the caller was told.
-/
namespace TmuxWorktree
namespace Host

open Effect

/-- How a file operation ends. -/
inductive Fault where
  | none
  | fails (code : String)
  | stops
  deriving DecidableEq, Repr

/-- A file: missing, with a text that is not one of ours, or with one that is. -/
inductive File (α : Type) where
  | missing
  | malformed
  | holds (a : α)
  deriving DecidableEq

/-- What happens to the two files, and what the caller is told. -/
inductive Event (R : Type) where
  /-- the state file was replaced -/
  | renamed (s : PersistedHostState R)
  /-- the witness was replaced -/
  | witnessed
  /-- the state file was replaced, and the removal of the temporary file failed -/
  | cleanupFailed
  /-- a fresh state is about to replace what there was -/
  | creates
  | loaded (s : PersistedHostState R)
  /-- a transaction, or a latch, is about to publish -/
  | begins
  | returned (s : PersistedHostState R)
  | uncertain (s : PersistedHostState R)
  | failed
  | stopped

structure Outside (R : Type) where
  codec : Codec R
  fault : Nat → Fault
  randomUUID : Nat → String
  /-- what `writeSync` writes, at least a byte -/
  wrote : Nat → Nat

structure World (R : Type) where
  state : File (PersistedHostState R)
  witness : File ContinuityWitness
  /-- `current` of the critical section -/
  current : Option (PersistedHostState R)
  tick : Nat
  trace : List (Event R)

variable {ξ R : Type}

abbrev M (ξ R : Type) := Eff (World R) (HostError ξ)

def World.log (w : World R) (e : Event R) : World R := { w with trace := e :: w.trace }

def nextTick : M ξ R Nat := fun w => (.ok w.tick, { w with tick := w.tick + 1 })

variable (o : Outside R)

/-- A file operation with its effect. -/
def fileOp (effect : World R → World R) : M ξ R Unit := do
  let n ← nextTick
  match o.fault n with
  | .none => Eff.modify effect
  | .fails code => throw (.fs code)
  | .stops => do
    Eff.modify effect
    Eff.crashIf true

/-- A file operation on something that nobody reads. -/
def quietOp : M ξ R Unit := fileOp o id

def randomUUID : M ξ R String := do
  let n ← nextTick
  return o.randomUUID n

/-- The loop of `writeSync`s.  Every one writes at least a byte, so as many turns as there are bytes are enough. -/
def writeLoop : (turns remaining : Nat) → M ξ R Unit
  | 0, _ | _, 0 => pure ()
  | turns + 1, remaining + 1 => do
    let w ← Eff.get
    quietOp o
    writeLoop turns (remaining - o.wrote w.tick)

/-- Up to the rename: open, write, `fsyncSync`, `closeSync`. -/
def writeTemporary (bytes : Nat) : M ξ R Unit := do
  quietOp o
  writeLoop o bytes bytes
  quietOp o
  quietOp o

def fsyncDirectory : M ξ R Unit := do
  quietOp o
  let synced ← Eff.attempt (quietOp o)
  quietOp o
  Eff.ofExcept synced

/-- The temporary file has become the file. -/
def isPublished : Except (HostError ξ) Unit → Bool
  | .ok _ => true
  | .error (.atomicPublish published _) => published
  | .error _ => false

/-- `rmSync` of the temporary file, in the `finally`. -/
def removeTemporary (published : Bool) (slip : World R → World R) : M ξ R Unit := do
  tryCatch (quietOp o) (fun e => do
    Eff.modify (if published then slip else id)
    throw e)

/-- `atomicWriteJson`; `publish` is what its rename does, `slip` records a clean-up that failed after it. -/
def atomicWriteJson (bytes : Nat) (maxBytes : Option Nat) (publish slip : World R → World R) : M ξ R Unit := do
  (match maxBytes with
    | some m => if m < bytes then throw (.capacity bytes m) else pure ()
    | none => pure ())
  quietOp o
  let result ← Eff.attempt (do
    tryCatch (do
      writeTemporary o bytes
      fileOp o publish) (fun e => throw (.atomicPublish false e))
    tryCatch (do
      quietOp o
      fsyncDirectory o) (fun e => throw (.atomicPublish true e)))
  removeTemporary o (isPublished result) slip
  Eff.ofExcept result

/-! ## The two files -/

def World.putState (s : PersistedHostState R) (w : World R) : World R :=
  { w with state := .holds s, trace := .renamed s :: w.trace }

def World.putWitness (v : ContinuityWitness) (w : World R) : World R :=
  { w with witness := .holds v, trace := .witnessed :: w.trace }

def writeState (s : PersistedHostState R) (maxBytes : Nat) : M ξ R Unit :=
  atomicWriteJson o (o.codec.stateBytes s) (some maxBytes) (World.putState s) (fun w => w.log .cleanupFailed)

def writeWitness (v : ContinuityWitness) : M ξ R Unit :=
  atomicWriteJson o (o.codec.witnessBytes v) none (World.putWitness v) id

/-- `inspectJsonFile`: a file that is too long or whose text does not parse is as good as none. -/
def inspectJsonFile {α : Type} (file : World R → File α) (parse : α → Bool) : M ξ R (Option α) := do
  quietOp o
  let w ← Eff.get
  match file w with
  | .holds a => do
    quietOp o
    return if parse a then some a else none
  | _ => return none

def readState : M ξ R (Option (PersistedHostState R)) :=
  inspectJsonFile o (·.state) (fun s => o.codec.stateBytes s ≤ o.codec.maxPersistedBytes && parseHostState o.codec s)

def readWitness : M ξ R (Option ContinuityWitness) :=
  inspectJsonFile o (·.witness) (fun v => o.codec.witnessBytes v ≤ maxContinuityBytes && parseContinuityWitness v)

/-- The lineage break of `loadOrCreateState`: a fresh state replaces what there was. -/
def createState : M ξ R (PersistedHostState R) := do
  let epoch ← randomUUID o
  let commitId ← randomUUID o
  Eff.modify (·.log .creates)
  let replacement := freshState o.codec epoch commitId
  writeState o replacement o.codec.maxPersistedBytes
  writeWitness o (witnessFor replacement)
  return replacement

def loadOrCreateState : M ξ R (PersistedHostState R) := do
  quietOp o
  quietOp o
  let state ← readState o
  let witness ← readWitness o
  match state, witness with
  | some s, some v =>
    if witnessMatchesState v s then return s
    else do
      let follows ← Eff.ofExcept (stateImmediatelyFollowsWitness s v)
      if follows then do
        writeWitness o (witnessFor s)
        return s
      else createState o
  | _, _ => createState o

def publishState (s : PersistedHostState R) (emergencyFence : Bool) : M ξ R Unit := do
  tryCatch
    (writeState o s (if emergencyFence then o.codec.maxPersistedBytes else o.codec.maxPersistedBytes - fenceReserveBytes))
    (fun e =>
      match e with
      | .atomicPublish true _ => throw .commitUncertain
      | .atomicPublish false original => throw original
      | e => throw e)
  tryCatch (writeWitness o (witnessFor s)) (fun _ => throw .commitUncertain)

/-! ## Critical sections -/

def commit (current : PersistedHostState R) (draft : Draft R) (emergencyFence : Bool) : M ξ R Unit := do
  let _ ← Eff.ofExcept (nextCounter current.commitSeq)
  let commitId ← randomUUID o
  let next := nextState o.codec current draft commitId
  Eff.modify (·.log .begins)
  tryCatch
    (do
      publishState o next emergencyFence
      Eff.modify (fun w => { w with current := some next, trace := .returned next :: w.trace }))
    (fun e =>
      match e with
      | .commitUncertain => do
        Eff.modify (fun w => { w with current := some next, trace := .uncertain next :: w.trace })
        throw e
      | e => do
        Eff.modify (·.log .failed)
        throw e)

/-- One thing that a section does: a transaction or a latch. -/
inductive SectionCall (ξ R : Type) where
  | transaction (mutation : Mutation ξ R)
  | latchMaterializedReadinessFence (reason : FenceReason)

def SectionCall.run (current : PersistedHostState R) : SectionCall ξ R → M ξ R Unit
  | .transaction mutation =>
    match mutation.throws current.toDraft with
    | some e => throw e
    | none => commit o current (applyCalls o.codec ξ current.toDraft (mutation.calls current.toDraft)) false
  | .latchMaterializedReadinessFence reason =>
    if current.materializedReadinessFence.any (fun f => f.reason = reason) then pure ()
    else commit o current (applyCalls o.codec ξ current.toDraft [.latchMaterializedReadinessFence reason]) true

/-- The calls of a section that catches what they throw. -/
def runCalls : List (SectionCall ξ R) → M ξ R Unit
  | [] => pure ()
  | call :: calls => do
    let w ← Eff.get
    match w.current with
    | some current => do
      let _ ← Eff.attempt (call.run o current)
      runCalls calls
    | none => pure ()

/-- A serialized section: the state is loaded, and the section makes its calls. -/
def serialize (calls : List (SectionCall ξ R)) : M ξ R Unit := do
  let s ← loadOrCreateState o
  Eff.modify (fun w => { w with current := some s, trace := .loaded s :: w.trace })
  runCalls o calls

/-- The world after a section; the process may have stopped in it. -/
def runSection (w : World R) (calls : List (SectionCall ξ R)) : World R :=
  match serialize o calls w with
  | (.crash, w') => { w' with current := none, trace := .stopped :: w'.trace }
  | (_, w') => { w' with current := none }

/-- No file yet. -/
def World.init : World R := ⟨.missing, .missing, none, 0, []⟩

def run (sections : List (List (SectionCall ξ R))) : World R := sections.foldl (runSection o) World.init

end Host
end TmuxWorktree
