import TmuxWorktree.Stream.State
/-!
# Control — the producer lease and the control windows of a stream (`terminalManager.ts`)

A stream writes to its terminal under a lease of the control authority.  These are the programs that take, renew, give
up and reconcile it, and the ones that keep the windows of the two control sequences.  The authority's answers are
arbitrary.
-/
namespace TmuxWorktree
namespace Stream

open Effect

/-! ## Windows and their retry timers -/

/-- `cancelInputRetry`, `cancelResizeRetry`. -/
def Window.cancelRetry (w : Window) : Window := { w with retry := none, retryAttempt := 0 }

/-- `clearControlWindows` for one sequence. -/
def Window.clear (w : Window) : Window := { w.cancelRetry with retained := [], floor := w.acked, pending := none }

/-- `scheduleInputRetry`, `scheduleResizeRetry`: a timer for the same sequence number is kept.  The delay is left out;
the timer may fire at any later moment. -/
def Window.scheduleRetry (w : Window) (seq : Nat) (payload : Payload) (route : Nat) : Window :=
  if w.retry.any (fun r => r.sequence = seq) then w
  else { w.cancelRetry with retry := some ⟨seq, payload, route⟩, retryAttempt := min (w.retryAttempt + 1) 4 }

/-- `trimInputWindow`, `trimResizeWindow`: each pass of the loop forgets the number above the floor.  The fuel is the
window's size: one pass removes one entry. -/
def Window.trimLoop (limit : Nat) : Nat → Window → Window
  | 0, w => w
  | fuel + 1, w =>
    if limit < w.retained.length then
      trimLoop limit fuel { w with retained := w.retained.filter (fun e => e.1 ≠ w.floor + 1), floor := w.floor + 1 }
    else w

def Window.trim (limit : Nat) (w : Window) : Window := w.trimLoop limit w.retained.length

/-- `inputHashes.get(seq)`, `resizes.get(seq)`. -/
def Window.fingerprintAt (w : Window) (seq : Nat) : Option Fingerprint :=
  (w.retained.find? fun e => e.1 = seq).map Prod.snd

def updateWindow (key : StreamKey) (kind : Kind) (f : Window → Window) : Act Unit :=
  updateControl key fun c => c.setWindow kind (f (c.window kind))

def Control.clearWindows (c : Control) : Control :=
  { c with input := c.input.clear, resize := c.resize.clear, controlInDoubt := none }

def clearControlWindows (key : StreamKey) : Act Unit := updateControl key Control.clearWindows

/-! ## The producer lease -/

/-- `RelayV2TerminalLeaseResult`. -/
inductive LeaseResult where
  | accepted (lease : Lease)
  | rejected (error : StructuredError)
  | uncertain (error : StructuredError)
  deriving DecidableEq, Repr

/-- `ProducerReleaseResult`. -/
inductive ReleaseResult where
  | released
  | rejected (error : StructuredError)
  | uncertain (error : StructuredError)
  deriving DecidableEq, Repr

def unconfirmed : StructuredError := ⟨.commandInDoubt, "terminal-control operation could not be confirmed", false⟩

/-- `controlFailure` of a rejected call. -/
def Answer.failure (a : Answer) : LeaseResult :=
  match a.verdict with
  | .rejected e => .rejected e
  | .uncertain e => .uncertain e
  | .accepted => .uncertain unconfirmed

def setInDoubt (key : StreamKey) (e : StructuredError) : Act Unit :=
  updateControl key fun c => { c with controlInDoubt := some e }

def dropProducerLease (key : StreamKey) : Act Unit :=
  updateControl key fun c => { c with producerLease := none, renewLeaseAfter := 0 }

def setRetiringLease (key : StreamKey) (lease : Option Lease) : Act Unit :=
  updateControl key fun c => { c with retiringLease := lease }

/-- The end of `releaseProducerLease`, once the authority has answered. -/
def settleRelease (key : StreamKey) (lease : Lease) (a : Answer) : Act ReleaseResult :=
  if a.resolves then do
    setRetiringLease key none
    pure .released
  else match a.failure with
    | .uncertain e => do
      setRetiringLease key (some lease)
      pure (.uncertain e)
    | .rejected e => do
      setRetiringLease key none
      pure (.rejected e)
    | .accepted _ => pure .released

def releaseProducerLease (key : StreamKey) : Act ReleaseResult := do
  let s ← streamAt key
  dropProducerLease key
  match s with
  | none => pure .released
  | some s =>
    match s.control.producerLease with
    | some lease => do
      let a ← ask
      settleRelease key lease a
    | none =>
      match s.control.retiringLease with
      | none => pure .released
      | some _ => pure (.uncertain (s.control.controlInDoubt.getD
          ⟨.commandInDoubt, "terminal-control release has not converged", false⟩))

/-- The windows go, and a release that was not confirmed leaves the stream in doubt. -/
def clearAfterRelease (key : StreamKey) (result : ReleaseResult) : Act Unit := do
  clearControlWindows key
  match result with
  | .uncertain e => setInDoubt key e
  | _ => pure ()

def endRouteControl (key : StreamKey) : Act Unit := do
  let result ← releaseProducerLease key
  clearAfterRelease key result

def setProducerLease (key : StreamKey) (lease : Lease) : Act Unit := do
  let t ← now
  updateControl key fun c => { c with
    producerLease := some lease, renewLeaseAfter := t + max 1 ((lease.expiresAt - t) / 2) }

/-- A lease the authority granted, past `validateProducerLease`. -/
def takeLease (key : StreamKey) (expiresAt : Nat) : Act LeaseResult := do
  let t ← now
  if expiresAt ≤ t then
    setInDoubt key ⟨.commandInDoubt, "terminal-control lease is stale or mismatched", false⟩
    pure (.uncertain ⟨.commandInDoubt, "terminal-control lease is stale or mismatched", false⟩)
  else
    setProducerLease key ⟨expiresAt⟩
    pure (.accepted ⟨expiresAt⟩)

def acquireProducerLease (key : StreamKey) : Act LeaseResult := do
  let a ← ask
  match a.verdict with
  | .accepted => takeLease key a.time
  | .rejected e => pure (.rejected e)
  | .uncertain e => do
    setInDoubt key e
    pure (.uncertain e)

def settleProducerLeaseFailure (key : StreamKey) (failure : LeaseResult) : Act LeaseResult := do
  let result ← releaseProducerLease key
  clearControlWindows key
  match failure, result with
  | .rejected e, .uncertain e' => pure (if e.code = .internal then .rejected e else .uncertain e')
  | .uncertain e, .uncertain e' => pure (if e.code = .internal then .uncertain e else .uncertain e')
  | failure, _ => pure failure

/-- A failed call on the lease: an `INTERNAL` error is thrown on, anything else settles the lease as failed. -/
def failedLeaseCall (key : StreamKey) (a : Answer) : Act LeaseResult :=
  if a.fault.code = .internal then do
    let result ← releaseProducerLease key
    clearAfterRelease key result
    throw a.fault
  else settleProducerLeaseFailure key a.failure

/-- The lease has expired: it is given up and another one asked for. -/
def replaceExpiredLease (key : StreamKey) : Act LeaseResult := do
  let result ← releaseProducerLease key
  clearAfterRelease key result
  match result with
  | .uncertain e => pure (.uncertain e)
  | _ => acquireProducerLease key

def renewProducerLease (key : StreamKey) : Act LeaseResult := do
  let a ← ask
  if a.resolves then
    match a.verdict with
    | .accepted => do
      setProducerLease key ⟨a.time⟩
      pure (.accepted ⟨a.time⟩)
    | .rejected e => settleProducerLeaseFailure key (.rejected e)
    | .uncertain e => settleProducerLeaseFailure key (.uncertain e)
  else failedLeaseCall key a

def continuityLost : StructuredError :=
  ⟨.permissionDenied, "terminal-control producer lease continuity was lost", false⟩

/-- The lease is held: the authority is asked whether it still is, and it is renewed past its half-life. -/
def keepProducerLease (key : StreamKey) (c : Control) (lease : Lease) : Act LeaseResult := do
  let a ← ask
  if a.resolves then
    if a.flag then
      let t ← now
      if t < c.renewLeaseAfter then pure (.accepted lease) else renewProducerLease key
    else settleProducerLeaseFailure key (.rejected continuityLost)
  else failedLeaseCall key a

def ensureProducerLease (key : StreamKey) : Act LeaseResult := do
  let s ← streamAt key
  match s.bind fun s => s.control.producerLease.map fun lease => (s.control, lease) with
  | none => acquireProducerLease key
  | some (c, lease) => do
    let t ← now
    if lease.expiresAt ≤ t then replaceExpiredLease key else keepProducerLease key c lease

/-- The end of `reconcileRetiringLease`: the old lease is gone. -/
def settleRetired (key : StreamKey) : Act Unit :=
  updateControl key fun c => { c with retiringLease := none, controlInDoubt := none }

def failedReconcile (key : StreamKey) (a : Answer) : Act Unit :=
  match a.failure with
  | .uncertain e => setInDoubt key e
  | _ => settleRetired key

def reconcileRetiringLease (key : StreamKey) : Act Unit := do
  let s ← streamAt key
  match s.bind fun s => s.control.retiringLease with
  | none => pure ()
  | some _ => do
    let a ← ask
    if a.resolves then
      if a.flag then
        let b ← ask
        if b.resolves then settleRetired key else failedReconcile key b
      else settleRetired key
    else failedReconcile key a

end Stream
end TmuxWorktree
