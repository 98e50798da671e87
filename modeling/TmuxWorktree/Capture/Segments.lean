import Mathlib.Data.List.Sort
/-!
# Segments — the capture of a pane on file (`outputCapture.ts`)

A generation of output is a directory of segments, each named by the offset of its first byte.  One process at a time
appends to the newest, opens the next when it is full, and unlinks the oldest; the readers look at the directory between
any two of its steps.
-/
namespace TmuxWorktree
namespace Capture

abbrev Bytes := List UInt8

def maxSafeInteger : Nat := 9007199254740991

/-- What the capture command is started with, and what the reader keeps to. -/
structure Limits where
  /-- `OUTPUT_SEGMENT_BYTES` -/
  segmentBytes : Nat
  /-- the fifth argument of the script -/
  retain : Nat
  /-- `MAX_OUTPUT_SEGMENTS` -/
  maxSegments : Nat
  segmentBytes_pos : 0 < segmentBytes
  segmentBytes_safe : segmentBytes ≤ maxSafeInteger
  two_le_retain : 2 ≤ retain
  maxSegments_pos : 0 < maxSegments

/-- A file of the directory. -/
structure Segment where
  start : Nat
  bytes : Bytes
  deriving DecidableEq

def Segment.size (g : Segment) : Nat := g.bytes.length

/-! ## The writer (`SEGMENTED_CAPTURE_SCRIPT`) -/

/-- Where the script stands: `rest` are the bytes of its chunk from `offset` on. -/
inductive Phase where
  | waiting
  /-- at `while(offset<chunk.length)` -/
  | filling (rest : Bytes)
  /-- at `while(written<length)` -/
  | writing (rest : Bytes) (length written : Nat)
  /-- in `rotate`, before `openSync` -/
  | opening (rest : Bytes)
  /-- in `cleanup`, with the files it still has to unlink -/
  | unlinking (rest : Bytes) (doomed : List Nat)
  | exited
  deriving DecidableEq

/-- The bytes of the chunk that are not on file. -/
def Phase.unwritten : Phase → Bytes
  | .filling rest | .opening rest | .unlinking rest _ => rest
  | .writing rest _ written => rest.drop written
  | .waiting | .exited => []

/-- The directory, the variables of the script, and the stream: the chunks that were taken, without the bytes that a
script had not written when it was stopped. -/
structure World where
  dir : List Segment
  start : Nat
  size : Nat
  phase : Phase
  stream : Bytes
  deriving DecidableEq

/-- The offset after the last byte on file. -/
def World.stop (w : World) : Nat := w.stream.length - w.phase.unwritten.length

/-- The script ends; what it has not written goes with it. -/
def World.halt (w : World) : World := { w with phase := .exited, stream := w.stream.take w.stop }

/-- The files that `cleanup` unlinks: all but the newest. -/
def doomed (retain : Nat) (dir : List Segment) : List Nat :=
  let starts := (dir.map (·.start)).insertionSort (· ≤ ·)
  starts.take (starts.length - retain)

def append (start : Nat) (chunk : Bytes) (dir : List Segment) : List Segment :=
  dir.map fun g => if g.start = start then { g with bytes := g.bytes ++ chunk } else g

def unlink (start : Nat) (dir : List Segment) : List Segment := dir.filter (·.start ≠ start)

/-- **The next step of the script**; a `writeSync` may write fewer bytes than it is given. -/
def turn (c : Limits) (count : Nat) (w : World) : World :=
  match w.phase with
  | .waiting | .exited => w
  | .filling rest =>
    if rest = [] then { w with phase := .waiting }
    else if w.size = c.segmentBytes then
      if maxSafeInteger < w.start + w.size then w.halt
      else { w with start := w.start + w.size, phase := .opening rest }
    else { w with phase := .writing rest (min (c.segmentBytes - w.size) rest.length) 0 }
  | .writing rest length written =>
    if written < length then
      let n := min count (length - written)
      { w with
        dir := append w.start ((rest.drop written).take n) w.dir
        phase := .writing rest length (written + n) }
    else { w with size := w.size + length, phase := .filling (rest.drop length) }
  | .opening rest =>
    if w.dir.any (·.start = w.start) then w.halt
    else
      let dir := w.dir ++ [⟨w.start, []⟩]
      { w with dir := dir, size := 0, phase := .unlinking rest (doomed c.retain dir) }
  | .unlinking rest [] => { w with phase := .filling rest }
  | .unlinking rest (d :: ds) => { w with dir := unlink d w.dir, phase := .unlinking rest ds }

/-! ## The readers -/

/-- The codes of `TerminalControlProtocolError` that a read throws. -/
inductive ErrorCode where
  | recoveryRequired | staleOutputCursor
  deriving DecidableEq, Repr

structure Denied where
  code : ErrorCode
  message : String
  deriving DecidableEq, Repr

/-- The check of `scanOutputSegments` on one file. -/
def checkSegment (c : Limits) (g : Segment) : Except Denied Unit :=
  if maxSafeInteger < g.start then throw ⟨.recoveryRequired, "terminal output capture segment cursor is invalid"⟩
  else if c.segmentBytes < g.size then
    throw ⟨.recoveryRequired, "terminal output capture segment exceeded its bounded size"⟩
  else return ()

/-- Each segment but the last is full, and the next starts where it ends. -/
def contiguous (c : Limits) : List Segment → Bool
  | g :: h :: rest => g.size = c.segmentBytes && h.start = g.start + g.size && contiguous c (h :: rest)
  | _ => true

/-- `scanOutputSegments`, of the names in the order in which the directory gave them.  The directory does not change
meanwhile, so no file is missing and the first attempt is the last. -/
def scanOutputSegments (c : Limits) (names : List Segment) : Except Denied (List Segment) := do
  names.forM (checkSegment c)
  let segments := names.insertionSort fun left right => left.start ≤ right.start
  if contiguous c segments then return segments
  else throw ⟨.recoveryRequired, "terminal output capture segments are not contiguous"⟩

def currentOutputSegments (c : Limits) (names : List Segment) : Except Denied (List Segment) := do
  let segments ← scanOutputSegments c names
  return segments.drop (segments.length - c.maxSegments)

/-- The cursors of `outputPositionFromSegments`: of the oldest byte, and after the newest. -/
def outputPositionFromSegments (segments : List Segment) : Except Denied (Nat × Nat) :=
  match segments.head?, segments.getLast? with
  | some oldest, some current =>
    if maxSafeInteger < current.start + current.size then
      throw ⟨.recoveryRequired, "terminal output cursor exceeded the supported range"⟩
    else return (oldest.start, current.start + current.size)
  | _, _ => throw ⟨.recoveryRequired, "terminal output capture has no retained segment"⟩

/-- The loop of `readSegmentedOutput`: `out` are the bytes read, up to `nextCursor`. -/
def readLoop (length : Nat) : List Segment → Bytes → Nat → Except Denied (Bytes × Nat)
  | [], out, nextCursor => return (out, nextCursor)
  | g :: rest, out, nextCursor =>
    if length ≤ out.length then return (out, nextCursor)
    else if g.start + g.size ≤ nextCursor then readLoop length rest out nextCursor
    else if nextCursor < g.start then
      throw ⟨.recoveryRequired, "terminal output capture contains a retained cursor gap"⟩
    else
      let fileOffset := nextCursor - g.start
      let available := min (g.size - fileOffset) (length - out.length)
      let read := (g.bytes.drop fileOffset).take available
      if read.length ≠ available then
        throw ⟨.recoveryRequired, "terminal output capture changed during a retained read"⟩
      else readLoop length rest (out ++ read) (nextCursor + read.length)

/-- **`readSegmentedOutput`**: the bytes, and the next cursor. -/
def readSegmentedOutput (c : Limits) (names : List Segment) (cursor maxBytes : Nat) : Except Denied (Bytes × Nat) := do
  let segments ← currentOutputSegments c names
  let (floor, stop) ← outputPositionFromSegments segments
  if cursor < floor || stop < cursor then throw ⟨.staleOutputCursor, "terminal output cursor is stale"⟩
  let length := min maxBytes (stop - cursor)
  let (out, nextCursor) ← readLoop length segments [] cursor
  if out.length ≠ length then
    throw ⟨.recoveryRequired, "terminal output capture could not satisfy a retained read"⟩
  return (out, nextCursor)

/-! ## Runs -/

/-- The script is started on the newest segment; one that ran before is stopped where it stands. -/
def restart (c : Limits) (w : World) : World :=
  match (currentOutputSegments c w.dir).map List.getLast? with
  | .ok (some current) =>
    let w := w.halt
    if c.segmentBytes < current.size then w
    else { w with start := current.start, size := current.size, phase := .unlinking [] (doomed c.retain w.dir) }
  | _ => w

inductive Action where
  /-- tmux delivers a chunk; a script takes one when it waits for one -/
  | chunk (bytes : Bytes)
  | turn (count : Nat)
  | restart

def step (c : Limits) (w : World) : Action → World
  | .chunk bytes => if w.phase = .waiting then { w with phase := .filling bytes, stream := w.stream ++ bytes } else w
  | .turn count => turn c count w
  | .restart => restart c w

/-- `createInitialOutputSegment`, and no script yet. -/
def World.initial : World := ⟨[⟨0, []⟩], 0, 0, .exited, []⟩

def run (c : Limits) (actions : List Action) : World := actions.foldl (step c) .initial

end Capture
end TmuxWorktree
