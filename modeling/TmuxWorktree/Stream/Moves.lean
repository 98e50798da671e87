import TmuxWorktree.Stream.Run
/-!
# Moves — what the programs of the manager do to its state

`Move` lists the changes an operation is made of, each with what the code has checked when it makes the change.  An
invariant is then a fact about moves, and a program needs to be walked only once, to show that it makes moves.
`Birth` is the publication of a new generation, which only an open makes, and `Intake` has the changes that take bytes
from a backend, which only `onBytes` makes.

`Calm` says that a stretch of a program leaves alone what the code has read of the streams.
-/
namespace TmuxWorktree
namespace Stream

open Effect

/-! ## Reading the state -/

section
variable {m : Manager} {key key' : StreamKey} {f : TerminalStream → TerminalStream}

theorem stream_update_self (hf : ∀ s, (f s).key = s.key) : (m.update key f).stream key = (m.stream key).map f :=
  Keyed.find_update_self fun s hs => (hf s).trans hs

theorem stream_update_ne (hf : ∀ s, (f s).key = s.key) (h : key' ≠ key) :
    (m.update key f).stream key' = m.stream key' :=
  Keyed.find_update_ne (fun s hs => (hf s).trans hs) h

theorem stream_update_none (h : m.stream key = none) (hf : ∀ s, (f s).key = s.key) :
    (m.update key f).stream key' = m.stream key' := by
  by_cases hk : key' = key
  · rw [hk, stream_update_self hf, h, Option.map_none]
  · exact stream_update_ne hf hk

theorem of_stream_update {s : TerminalStream} (h : (m.update key f).stream key = some s) (hf : ∀ s, (f s).key = s.key) :
    ∃ s₀, m.stream key = some s₀ ∧ f s₀ = s := by
  rw [stream_update_self hf] at h
  exact Option.map_eq_some_iff.mp h

theorem stream_updated {s : TerminalStream} (hs : m.stream key = some s) (hf : ∀ s, (f s).key = s.key) :
    (m.update key f).stream key = some (f s) := by
  rw [stream_update_self hf, hs, Option.map_some]

theorem key_of_stream {s : TerminalStream} (h : m.stream key = some s) : s.key = key := Keyed.key_of_find h

@[simp] theorem stream_emit (e : Event) : (m.emit e).stream key = m.stream key := rfl

theorem stream_update_cases {s : TerminalStream} (h : (m.update key f).stream key' = some s)
    (hf : ∀ s, (f s).key = s.key) :
    (key' ≠ key ∧ m.stream key' = some s) ∨ (key' = key ∧ ∃ s₀, m.stream key = some s₀ ∧ f s₀ = s) := by
  by_cases hk : key' = key
  · subst hk
    exact .inr ⟨rfl, of_stream_update h hf⟩
  · rw [stream_update_ne hf hk] at h
    exact .inl ⟨hk, h⟩

theorem stream_put_self (s : TerminalStream) : (m.put s).stream s.key = some s := Keyed.find_put_self

theorem stream_put_ne {s : TerminalStream} (h : key ≠ s.key) : (m.put s).stream key = m.stream key :=
  Keyed.find_put_ne h

theorem stream_delete_self : (m.delete key).stream key = none := Keyed.find_erase_self

theorem stream_delete_ne (h : key' ≠ key) : (m.delete key).stream key' = m.stream key' := Keyed.find_erase_ne h

theorem stream_of_delete {s : TerminalStream} (h : (m.delete key).stream key' = some s) :
    key' ≠ key ∧ m.stream key' = some s := by
  by_cases hk : key' = key
  · subst hk
    rw [stream_delete_self] at h
    cases h
  · rw [stream_delete_ne hk] at h
    exact ⟨hk, h⟩

theorem stream_clearRing (retained : Bool) : (m.clearRing key retained).stream key' =
    (m.update key fun s => { s with ring := s.ring.clear.2, ringRetained := retained }).stream key' := by
  unfold Manager.clearRing
  cases hs : m.stream key with
  | none =>
    refine (stream_update_none hs ?_).symm
    exact fun _ => rfl
  | some s => rfl

theorem stream_acknowledge (next : Nat) : (m.acknowledge key next).stream key' =
    (m.update key fun s => { s with
      binding := s.binding.map fun b => { b with ackedOffset := next }
      ring := (s.ring.discardBefore next).2 }).stream key' := by
  unfold Manager.acknowledge
  cases hs : m.stream key with
  | none =>
    refine (stream_update_none hs ?_).symm
    exact fun _ => rfl
  | some s => rfl

theorem stream_appendRing (data : Bytes) : (m.appendRing key data).stream key' =
    (m.update key fun s => { s with ring := s.ring.append data, ringRetained := true }).stream key' := by
  unfold Manager.appendRing
  cases hs : m.stream key with
  | none =>
    refine (stream_update_none hs ?_).symm
    exact fun _ => rfl
  | some s => rfl

end

/-! ## The trace -/

/-- The bytes the backend has delivered to a generation. -/
def delivered : List Event → StreamKey → Nat → Bytes
  | [], _, _ => []
  | .delivered k g data :: past, key, generation =>
    if k = key ∧ g = generation then delivered past key generation ++ data else delivered past key generation
  | _ :: past, key, generation => delivered past key generation

/-- What a binding was made for: stream, generation and first offset. -/
def boundAt : List Event → Nat → Option (StreamKey × Nat × Nat)
  | [], _ => none
  | .bound i key generation offset :: past, id => if i = id then some (key, generation, offset) else boundAt past id
  | _ :: past, id => boundAt past id

def sentThrough : List Event → Nat → Option Nat
  | [], _ => none
  | .bound i _ _ offset :: past, id => if i = id then some offset else sentThrough past id
  | .output i _ _ offset data :: past, id => if i = id then some (offset + data.length) else sentThrough past id
  | _ :: past, id => sentThrough past id

/-- Whether a binding has told its client that the stream is closed. -/
def toldClosed : List Event → Nat → Bool
  | [], _ => false
  | .closed i _ _ _ :: past, id => i = id || toldClosed past id
  | _ :: past, id => toldClosed past id

def wasAbandoned : List Event → Nat → Bool
  | [], _ => false
  | .abandoned i _ _ _ _ _ :: past, id => i = id || wasAbandoned past id
  | _ :: past, id => wasAbandoned past id

/-- The control frames of a generation that were accepted, in the order of the calls. -/
def accepted : List Event → Kind → StreamKey → Nat → List (Nat × Payload)
  | [], _, _, _ => []
  | .wrote k key' g seq _ payload .accepted :: past, kind, key, generation =>
    if k = kind ∧ key' = key ∧ g = generation then accepted past kind key generation ++ [(seq, payload)]
    else accepted past kind key generation
  | _ :: past, kind, key, generation => accepted past kind key generation

/-! ## Streams -/

/-- What the code reads of a stream and uses after an await. -/
structure Face where
  generation : Nat
  status : Status
  ring : ByteRing
  ringRetained : Bool
  close : Option Condition
  binding : Option Binding
  acked : Kind → Nat

def TerminalStream.face (s : TerminalStream) : Face :=
  ⟨s.generation, s.status, s.ring, s.ringRetained, s.close, s.binding, fun kind => (s.control.window kind).acked⟩

/-- A window keeps its numbers: the retained fingerprints stay, or they all go and the floor rises. -/
def WindowMove (w w' : Window) : Prop :=
  w'.acked = w.acked ∧ ((w'.retained = w.retained ∧ w'.floor = w.floor) ∨ (w'.retained = [] ∧ w'.floor = w.acked))

def ControlMove (c c' : Control) : Prop := ∀ kind, WindowMove (c.window kind) (c'.window kind)

/-- The part of a stream that no move below touches. -/
structure Keeps (s s' : TerminalStream) : Prop where
  key : s'.key = s.key
  generation : s'.generation = s.generation
  ring : s'.ring = s.ring
  ringRetained : s'.ringRetained = s.ringRetained

/-- A binding that stays the same but for its phase and its close notification. -/
structure SameCursor (b b' : Binding) : Prop where
  id : b'.id = b.id
  acked : b'.ackedOffset = b.ackedOffset
  sent : b'.sentThroughOffset = b.sentThroughOffset
  boundary : b'.replayBoundary = b.replayBoundary

/-- **What happens to one stream without a byte or a frame.** -/
inductive StreamMove (s s' : TerminalStream) : Prop
  | stay (keeps : Keeps s s') (status : s'.status = s.status) (close : s'.close = s.close)
      (binding : s'.binding = s.binding) (control : ControlMove s.control s'.control)
  | rephase (keeps : Keeps s s') (status : s'.status = s.status) (close : s'.close = s.close)
      (binding : ∀ b', s'.binding = some b' → ∃ b, s.binding = some b ∧ SameCursor b b')
      (control : s'.control = s.control)
  | unbind (keeps : Keeps s s') (status : s'.status = s.status) (close : s'.close = s.close) (binding : s'.binding = none)
      (control : s'.control = s.control)
  | detach (keeps : Keeps s s') (was : s.status = .live) (status : s'.status = .detached) (close : s'.close = s.close)
      (unbound : s.binding = none) (binding : s'.binding = none) (control : s'.control = s.control)
  | restore (keeps : Keeps s s') (was : s.status ≠ .lost) (status : s'.status = if s.close.isSome then .closed else .live)
      (close : s'.close = s.close) (binding : s'.binding = s.binding) (control : s'.control = s.control)
  | commit (keeps : Keeps s s') (alive : s.status ≠ .lost) (was : s.close = none) (status : s'.status = .closed)
      (close : ∃ c, s'.close = some c ∧ c.finalOffset = s.ring.tail) (binding : s'.binding = s.binding)
      (control : s'.control = s.control)

/-- What is left of a stream that is lost. -/
structure Loses (s s' : TerminalStream) : Prop where
  keeps : Keeps s s'
  status : s'.status = .lost
  close : s'.close = s.close
  binding : s'.binding = s.binding ∨ s'.binding = none
  control : ∀ kind, (s'.control.window kind).acked = (s.control.window kind).acked ∧
    (s'.control.window kind).floor = (s.control.window kind).floor ∧
    ((s'.control.window kind).retained = (s.control.window kind).retained ∨ (s'.control.window kind).retained = [])

/-! ## Moves -/

/-- A close record is of a generation that was issued, and its final offset is not beyond that stream's end. -/
def RecordOk (m : Manager) (r : CloseRecord) : Prop :=
  r.generation < m.generations ∧
    ∀ s, m.stream r.streamKey = some s → s.generation = r.generation → r.finalOffset ≤ s.through

/-- Nothing about the streams changes; a close record that comes into the cache fits them. -/
structure Quiet (m m' : Manager) : Prop where
  streams : m'.streams = m.streams
  trace : m'.trace = m.trace
  generations : m'.generations = m.generations
  bindings : m'.bindings = m.bindings
  inbox : m'.inbox = m.inbox
  durable : m'.durableCloses = m.durableCloses
  ringBytes : m'.ringBytes = m.ringBytes
  answers : m'.answers = m.answers
  tick : m.tick ≤ m'.tick
  cached : ∀ r ∈ m'.closeRecords, r ∈ m.closeRecords ∨ RecordOk m r

/-- What must hold for a frame, a call or a mark to enter the trace on its own. -/
def Says (m : Manager) : Event → Prop
  | .opened id key generation offset | .replayStarted id key generation offset =>
    boundAt m.trace id = some (key, generation, offset)
  | .closed id key generation final =>
    ∃ k s b c, m.stream k = some s ∧ s.binding = some b ∧ b.id = id ∧ s.close = some c ∧
      b.sentThroughOffset = c.finalOffset ∧
      ((key = k ∧ generation = s.generation ∧ final = c.finalOffset) ∨
        ∃ r ∈ m.closeRecords, key = r.streamKey ∧ generation = r.generation ∧ final = r.finalOffset)
  | .controlAck kind key generation _ acked | .controlError kind key generation _ acked _ =>
    ∃ s, m.stream key = some s ∧ s.generation = generation ∧ acked = (s.control.window kind).acked
  | .reset id _ _ _ => wasAbandoned m.trace id = true
  | .closedElsewhere .. | .resetResponse .. | .lost .. => True
  | .delivered .. | .bound .. | .output .. | .abandoned .. | .wrote .. => False

/-- **The changes the manager's programs are made of.** -/
inductive Move (C : Config) : Manager → Manager → Prop
  | quiet {m m' : Manager} (h : Quiet m m') : Move C m m'
  | issue {m : Manager} : Move C m { m with generations := m.generations + 1 }
  | store {m : Manager} {s : TerminalStream} {r : CloseRecord} (hs : m.stream r.streamKey = some s)
      (hg : r.generation = s.generation) (hf : r.finalOffset = s.through) : Move C m (m.storeClose r)
  | stream {m : Manager} {key : StreamKey} {f : TerminalStream → TerminalStream} (hf : ∀ s, (f s).key = s.key)
      (h : ∀ s, m.stream key = some s → StreamMove s (f s)) : Move C m (m.update key f)
  | say {m : Manager} {e : Event} (h : Says m e) : Move C m (m.emit e)
  | clear {m : Manager} {key : StreamKey} {retained : Bool}
      (h : ∀ s, m.stream key = some s →
        (s.status = .detached ∧ retained = true) ∨ (s.status = .closed ∨ s.status = .lost)) :
      Move C m (m.clearRing key retained)
  | abandon {m : Manager} {key : StreamKey} {s : TerminalStream} {b : Binding} {reason : ResetReason}
      {origin : ResetOrigin} (hs : m.stream key = some s) (hb : s.binding = some b)
      (hpump : origin = .pump → s.pumpThrough b > b.sentThroughOffset ∧
        (b.sentThroughOffset < s.ring.start ∨ s.ringRetained = false ∨
          0 < b.credit C.limits ∧ s.ring.read b.sentThroughOffset (min (b.credit C.limits) C.limits.maxFrameBytes)
            (s.pumpThrough b) = [])) :
      Move C m (m.abandon key s b reason origin)
  | output {m : Manager} {key : StreamKey} {s : TerminalStream} {b : Binding} {data : Bytes}
      (hs : m.stream key = some s) (hb : s.binding = some b) (hthrough : b.sentThroughOffset < s.pumpThrough b)
      (hdata : data = s.ring.read b.sentThroughOffset (min (b.credit C.limits) C.limits.maxFrameBytes) (s.pumpThrough b))
      (hne : data ≠ []) : Move C m (m.advance key b s.generation data)
  | bind {m : Manager} {key : StreamKey} {s : TerminalStream} {route offset : Nat} {notification : Bool}
      (hs : m.stream key = some s) (hlost : s.status ≠ .lost) (hbound : s.status = .detached → s.binding ≠ none)
      (hreplay : s.canReplay offset s.through = true) :
      Move C m (m.bind key route s.generation offset s.through notification)
  | acknowledge {m : Manager} {key : StreamKey} {s : TerminalStream} {b : Binding} {next : Nat}
      (hs : m.stream key = some s) (hb : s.binding = some b) (hle : next ≤ b.sentThroughOffset)
      (hlt : b.ackedOffset < next) : Move C m (m.acknowledge key next)
  | drop {m : Manager} {key : StreamKey} {ringBytes : Int} {quarantinedBackends : List Nat}
      (h : ringBytes = m.ringBytes ∨ ∃ s, m.stream key = some s ∧ ringBytes = m.ringBytes - s.ring.byteLength) :
      Move C m { m.delete key with ringBytes := ringBytes, quarantinedBackends := quarantinedBackends }
  | write {m : Manager} {kind : Kind} {f : Frame} {s : TerminalStream} {verdict : Verdict}
      (hs : m.stream f.key = some s) (hg : s.generation = f.generation) (hlive : s.status ≠ .lost)
      (hseq : f.seq = (s.control.window kind).acked + 1) : Move C m (m.wrote C kind f verdict)

/-- A stream is lost.  Its windows may be left in disorder: the program that loses a stream goes on to clear them. -/
inductive Loss : Manager → Manager → Prop
  | lose {m : Manager} {key : StreamKey} {f : TerminalStream → TerminalStream} (hf : ∀ s, (f s).key = s.key)
      (h : ∀ s, m.stream key = some s → Loses s (f s)) : Loss m (m.update key f)

/-- Nothing has happened to a generation yet. -/
structure Untouched (generation : Nat) (m : Manager) : Prop where
  delivered : ∀ key, delivered m.trace key generation = []
  accepted : ∀ kind key, accepted m.trace kind key generation = []
  records : ∀ r ∈ m.closeRecords ++ m.durableCloses, r.generation ≠ generation
  streams : ∀ key s, m.stream key = some s → s.generation ≠ generation

/-- A stream of a new generation is published. -/
inductive Birth (C : Config) : Manager → Manager → Prop
  | publish {m : Manager} {r : OpenRequest} {generation canonicalBinding tokenHash t : Nat}
      (hg : generation < m.generations) (hfresh : Untouched generation m) :
      Birth C m (m.put (newStream C r generation canonicalBinding tokenHash t))

/-- The changes that take bytes from a backend. -/
inductive Intake : Manager → Manager → Prop
  | deliver {m : Manager} {key : StreamKey} {generation : Nat} {data : Bytes} (hg : generation < m.generations)
      (hfree : m.inbox = none) : Intake m (m.deliver key generation data)
  | append {m : Manager} {key : StreamKey} {s : TerminalStream} {data rest : Bytes} (hs : m.stream key = some s)
      (hlive : s.producing = true) (hin : m.inbox = some (key, s.generation, data ++ rest))
      (hroom : s.overtakes data.length = false) : Intake m (m.appendRing key data)
  | settle {m : Manager} (h : ∀ key generation rest, m.inbox = some (key, generation, rest) → rest ≠ [] →
      ∀ s, m.stream key = some s → s.generation = generation → s.producing = false) :
      Intake m { m with inbox := none }

end Stream
end TmuxWorktree
