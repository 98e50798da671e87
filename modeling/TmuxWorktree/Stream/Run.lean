import TmuxWorktree.Stream.Open
/-!
# Run — runs of the terminal manager (`terminalManager.ts`)

The manager's operations in any order, with any answers of its environment.  A run ends early if an answer cuts it off.
-/
namespace TmuxWorktree
namespace Stream

open Effect

/-- The public operations, the backend's callbacks, and the timers. -/
inductive Op where
  | open (request : OpenRequest)
  | replay (request : Request) (generation fromOffset : Nat)
  | ack (key : StreamKey) (route generation nextOffset : Nat)
  | input (key : StreamKey) (route generation seq : Nat) (data : Bytes)
  | resize (key : StreamKey) (route generation seq cols rows : Nat)
  | retry (kind : Kind) (key : StreamKey)
  | close (request : CloseRequest)
  | unbind (auth route : Nat)
  | sweep
  | shutdown
  | bytes (key : StreamKey) (generation : Nat) (data : Bytes)
  | backendClosed (key : StreamKey) (generation : Nat) (reason : CloseReason) (exitCode : Option Int)
  | backendReset (key : StreamKey) (generation : Nat)
  deriving DecidableEq

/-- A callback of a generation's backend: there is none before the generation was issued. -/
def callback (generation : Nat) (x : Act Unit) : Act Unit := do
  let m ← Eff.get
  if generation < m.generations then x else pure ()

def Op.run (C : Config) : Op → Act Unit
  | .open r => openInternal C r
  | .replay r generation offset => replayInternal C r generation offset
  | .ack key route generation offset => outputAckInternal C key route generation offset
  | .input key route generation seq data => inputInternal C key route generation seq data
  | .resize key route generation seq cols rows => resizeInternal C key route generation seq cols rows
  | .retry kind key => retryFires C kind key
  | .close r => closeInternal C r
  | .unbind auth route => Stream.unbind C.limits auth route
  | .sweep => sweepInternal C.limits true
  | .shutdown => Stream.shutdown
  | .bytes key generation data => callback generation (onBytes C.limits key generation data)
  | .backendClosed key generation reason exitCode =>
    callback generation (Stream.backendClosed C.limits key generation reason exitCode)
  | .backendReset key generation => callback generation (backendResetRequired C.limits key generation)

/-- The manager of a host that has issued `generations` before, with the closes its lineage remembers of them. -/
def Manager.start (generations : Nat) (closes : List CloseRecord) (answers : Nat → Answer) : Manager :=
  { generations := generations, durableCloses := closes.filter fun r => r.generation < generations, answers := answers }

/-- The state after a list of operations. -/
def run (C : Config) : List Op → Manager → Manager
  | [], m => m
  | op :: ops, m =>
    match op.run C m with
    | (.crash, m') => m'
    | (_, m') => run C ops m'

end Stream
end TmuxWorktree
