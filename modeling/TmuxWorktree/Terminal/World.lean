import TmuxWorktree.Lib.Effect
import TmuxWorktree.Terminal.Local
/-!
# World — what a locked section reads and writes

An `Env` answers every question the authority puts to the outside: the clock, `randomUUID`, the SHA-256 digests, the
tmux backend, the file system under `saveTerminalControlState`, the store lock, which synchronous calls run at an
`await`, and whether the process dies there.  A run is a function of its `Env`, so "every run" is "every `Env`".

`World` is the state file, the section's own copy of it (`mem`, which `loadTerminalControlState` makes and the section
mutates), the process memory and the trace.
-/
namespace TmuxWorktree
namespace Terminal

open Effect

/-! ## Answers of the outside -/

structure Position where
  generation : String
  cursor : Nat
  retainedStartCursor : Option Nat
  deriving DecidableEq, Repr

structure Chunk where
  generation : String
  cursor : Nat
  dataBase64 : String
  nextCursor : Nat
  deriving DecidableEq, Repr

structure ResolvedBackend where
  managedSession : ManagedSession
  tmuxInstanceId : String
  deriving DecidableEq, Repr

/-- `TerminalControlExactTargetObservation`. -/
structure ExactObservation where
  managedSession : ManagedSession
  managedIncarnation : String
  tmuxInstanceId : Option String
  paneIdentity : String
  deriving DecidableEq, Repr

structure RenderedSnapshot where
  dataBase64 : String
  truncated : Bool
  deriving DecidableEq, Repr

/-- What an agent probe reports; the authority passes it on as it is. -/
structure AgentReport where
  text : String
  running : Bool
  deriving DecidableEq, Repr

structure RuntimeSettings where
  model : Option String
  reasoningEffort : Option String
  planMode : Bool
  deriving DecidableEq, Repr

inductive InputPayload where
  | raw (data : List UInt8)
  | agentMessage (message : String) (submit : Bool) (runtime : Option RuntimeSettings)
  | scroll (up : Bool) (lines : Nat)
  | resize (cols rows : Nat)
  deriving DecidableEq, Repr

def InputPayload.kind : InputPayload → OperationKind
  | raw _ => .raw
  | agentMessage .. => .agentMessage
  | scroll .. => .scroll
  | resize .. => .resize

/-- What is hashed: the three texts that the authority feeds to `createHash("sha256")`. -/
inductive DigestInput where
  | input (pane : String) (payload : InputPayload)
  | kill (pane sessionName : String)
  | outputRecovery (t : TargetRecord) (recovery : RecoveryRecord)
  | exactTarget (request : ExactInput) (controlEpoch : String) (t : TargetRecord) (paneIdentity : String)

/-- An error of `saveTerminalControlState` after its own validation: `ensurePrivateDirectory`, or a file operation. -/
inductive SaveError where
  | directory (message : String)
  | file (message : String)
  deriving DecidableEq, Repr

def SaveError.toError : SaveError → ControlError
  | directory m => .protocol .recoveryRequired m false
  | file m => .plain m

/-- How a save ends: the rename is its commit point. -/
inductive SaveAnswer where
  | done
  | failedBeforeRename (e : SaveError)
  | failedAfterRename (e : SaveError)
  | diedBeforeRename
  | diedAfterRename
  deriving DecidableEq, Repr

structure Env where
  now : Nat → Int
  randomUUID : Nat → String
  digest : DigestInput → String
  relayV2ExactTargetTtlMs : Int
  save : Nat → SaveAnswer
  lock : Nat → Except ControlError Unit
  dies : Nat → Bool
  interleaved : Nat → List (Sync × Int)
  /-- the optional methods the backend has -/
  hasRawFenced : Bool
  hasMessageFenced : Bool
  hasInspectExactTarget : Bool
  hasObserveExactTarget : Bool
  hasEstablishExactTarget : Bool
  done : Nat → Except ControlError Unit
  position : Nat → Except ControlError Position
  chunk : Nat → Except ControlError Chunk
  resolved : Nat → Except ControlError ResolvedBackend
  observed : Nat → Except ControlError ExactObservation
  rendered : Nat → Except ControlError RenderedSnapshot
  report : Nat → Except ControlError AgentReport

/-! ## The world -/

structure World where
  disk : Option ControlState
  mem : ControlState
  loc : Local
  running : Running
  tick : Nat
  trace : List Event

abbrev M := Eff World ControlError

/-- Nothing on disk, a process that has just started; `mem` is a placeholder until the first load. -/
def World.init : World := ⟨none, ⟨"-", []⟩, Local.fresh, .none, 0, []⟩

/-- Events are kept newest first. -/
def World.log (w : World) (e : Event) : World := { w with trace := e :: w.trace }

def logEvent (e : Event) : M Unit := Eff.modify (·.log e)

def modifyLocal (f : Local → Local) : M Unit := Eff.modify (fun w => { w with loc := f w.loc })

def modifyTarget (id : String) (f : TargetRecord → TargetRecord) : M Unit :=
  Eff.modify (fun w => { w with mem := w.mem.update id f })

/-- Each question to the outside has its own number. -/
def nextTick : M Nat := fun w => (.ok w.tick, { w with tick := w.tick + 1 })

/-- The synchronous calls that run while the section is suspended. -/
def World.interleave (ttlMs : Int) (w : World) : List (Sync × Int) → World
  | [] => w
  | (call, nowMs) :: rest =>
    let r := call.run ttlMs nowMs w.running w.loc
    World.interleave ttlMs { w with loc := r.1, trace := r.2 ++ w.trace } rest

variable (env : Env)

def isoNow : M Int := do
  let n ← nextTick
  return env.now n

def expiresAt (ttlMs : Int) : M Int := do
  let now ← isoNow env
  return now + ttlMs

def randomUUID : M String := do
  let n ← nextTick
  return env.randomUUID n

/-- An `await` on the outside: other calls run, the process may die, and the answer comes. -/
def await {α : Type} (answer : Nat → Except ControlError α) : M α := do
  let n ← nextTick
  Eff.modify (fun w => w.interleave env.relayV2ExactTargetTtlMs (env.interleaved n))
  Eff.crashIf (env.dies n)
  Eff.ofExcept (answer n)

/-! ## The store -/

/-- The state file holds `s` from here on. -/
def World.persist (w : World) (s : ControlState) : World := { w with disk := some s, trace := .saved s :: w.trace }

/-- The end of a save whose contents passed the checks. -/
def commitSave (s : ControlState) : SaveAnswer → M Unit
  | .done => Eff.modify (·.persist s)
  | .failedBeforeRename e => do
    logEvent .saveFailed
    throw e.toError
  | .failedAfterRename e => do
    Eff.modify (·.persist s)
    logEvent .saveFailed
    throw e.toError
  | .diedBeforeRename => Eff.crashIf true
  | .diedAfterRename => do
    Eff.modify (·.persist s)
    Eff.crashIf true

/-- `saveTerminalControlState` of the section's state. -/
def saveTerminalControlState : M Unit := do
  let w ← Eff.get
  match parseTerminalControlState w.mem with
  | .error e => do
    logEvent (.saveRejected w.mem)
    throw e
  | .ok validated =>
    match parseTerminalControlState (compact validated) with
    | .error e => do
      logEvent (.saveRejected w.mem)
      throw e
    | .ok compacted => do
      let n ← nextTick
      commitSave compacted (env.save n)

/-- `loadTerminalControlState` into the section. -/
def loadTerminalControlState : M Unit := do
  let w ← Eff.get
  match w.disk with
  | none => do
    let epoch ← randomUUID env
    Eff.modify (fun w => { w with mem := ⟨epoch, []⟩ })
  | some s =>
    match parseTerminalControlState s with
    | .error e => throw (denied .recoveryRequired
        ("refusing to use invalid terminal-control state; original file preserved: " ++ e.message))
    | .ok state => Eff.modify (fun w => { w with mem := state })

/-- `locked`: one section at a time, on a fresh copy of the state file. -/
def locked {α : Type} (operation : M α) : M α := do
  await env env.lock
  loadTerminalControlState env
  operation

end Terminal
end TmuxWorktree
