import Mathlib.Data.List.Basic
import Mathlib.Algebra.Order.Group.Nat
import Mathlib.Algebra.Order.Ring.Nat
/-!
# Ring — the output limits and the replay ring of one stream (`terminalManager.ts`)

A stream's output has 64-bit offsets that only grow.  `ByteRing` keeps the newest bytes, at most `limit` of them, as a
queue of chunks: `chunks` holds the bytes `[start, tail)`.  The fields carry that the counts agree, so the underflow
error of `discardPrefixBytes` has no value to be thrown at.
-/
namespace TmuxWorktree
namespace Stream

abbrev Bytes := List UInt8

def maxCounter : Nat := 18446744073709551615

/-! ## Limits -/

/-- The overrides of `resolveLimits`; a missing one takes the default. -/
structure Overrides where
  streamRingBytes : Option Nat := none
  hostRingBytes : Option Nat := none
  maxUnackedBytes : Option Nat := none
  detachedLeaseMs : Option Nat := none
  controlRetentionMs : Option Nat := none
  maxFrameBytes : Option Nat := none
  inputDedupeEntries : Option Nat := none
  resizeDedupeEntries : Option Nat := none
  maxStreams : Option Nat := none
  maxControlRecords : Option Nat := none
  deriving DecidableEq, Repr

/-- **The limits a manager runs with**: positive, under the frozen ceilings, and nested. -/
structure Limits where
  streamRingBytes : Nat
  hostRingBytes : Nat
  maxUnackedBytes : Nat
  detachedLeaseMs : Nat
  controlRetentionMs : Nat
  maxFrameBytes : Nat
  inputDedupeEntries : Nat
  resizeDedupeEntries : Nat
  maxStreams : Nat
  maxControlRecords : Nat
  frame_pos : 0 < maxFrameBytes
  dedupe_pos : 0 < inputDedupeEntries ∧ 0 < resizeDedupeEntries
  frame_le_unacked : maxFrameBytes ≤ maxUnackedBytes
  unacked_le_ring : maxUnackedBytes ≤ streamRingBytes
  ring_le_host : streamRingBytes ≤ hostRingBytes

/-- `positiveInteger` and the ceiling of one limit. -/
def boundedLimit (value : Option Nat) (default ceiling : Nat) : Option {n : Nat // 0 < n} :=
  let n := value.getD default
  if h : 0 < n then (if n ≤ ceiling then some ⟨n, h⟩ else none) else none

/-- `resolveLimits`: `none` is a thrown error. -/
def resolveLimits (o : Overrides) : Option Limits := do
  let stream ← boundedLimit o.streamRingBytes 4194304 4194304
  let host ← boundedLimit o.hostRingBytes 67108864 67108864
  let unacked ← boundedLimit o.maxUnackedBytes 65536 524288
  let lease ← boundedLimit o.detachedLeaseMs 120000 120000
  let retention ← boundedLimit o.controlRetentionMs 600000 600000
  let frame ← boundedLimit o.maxFrameBytes 65536 65536
  let inputs ← boundedLimit o.inputDedupeEntries 512 512
  let resizes ← boundedLimit o.resizeDedupeEntries 256 256
  let streams ← boundedLimit o.maxStreams 256 256
  let records ← boundedLimit o.maxControlRecords 4096 4096
  if hh : stream.1 ≤ host.1 then
    if hu : unacked.1 ≤ stream.1 then
      if hf : frame.1 ≤ unacked.1 then
        some ⟨stream.1, host.1, unacked.1, lease.1, retention.1, frame.1, inputs.1, resizes.1, streams.1, records.1,
          frame.2, ⟨inputs.2, resizes.2⟩, hf, hu, hh⟩
      else none
    else none
  else none

/-! ## Chunk queues -/

/-- The size up to which `append` fills the newest chunk. -/
def chunkBytes : Nat := 65536

/-- The queue after `append` has put `data` at its end: the newest chunk is filled first. -/
def pushChunk (chunks : List Bytes) (data : Bytes) : List Bytes :=
  match chunks.getLast? with
  | none => chunks ++ [data]
  | some last =>
    if last.length < chunkBytes then
      let joinedBytes := min data.length (chunkBytes - last.length)
      if 0 < joinedBytes then
        let joined := chunks.dropLast ++ [last ++ data.take joinedBytes]
        if joinedBytes < data.length then joined ++ [data.drop joinedBytes] else joined
      else chunks ++ [data]
    else chunks ++ [data]

def discardChunks : List Bytes → Nat → List Bytes
  | [], _ => []
  | first :: rest, remaining =>
    if remaining = 0 then first :: rest
    else if first.length ≤ remaining then discardChunks rest (remaining - first.length)
    else first.drop remaining :: rest

def readChunks : List Bytes → (skip remaining : Nat) → Bytes
  | [], _, _ => []
  | chunk :: rest, skip, remaining =>
    if chunk.length ≤ skip then readChunks rest (skip - chunk.length) remaining
    else
      let take := min remaining (chunk.length - skip)
      let part := (chunk.drop skip).take take
      if remaining - take = 0 then part else part ++ readChunks rest 0 (remaining - take)

theorem pushChunk_flatten (chunks : List Bytes) (data : Bytes) :
    (pushChunk chunks data).flatten = chunks.flatten ++ data := by
  unfold pushChunk
  split
  · simp
  · rename_i last hlast
    have hsplit : chunks = chunks.dropLast ++ [last] := (List.dropLast_append_getLast? last hlast).symm
    dsimp only
    split_ifs
    · nth_rewrite 2 [hsplit]
      simp [List.append_assoc]
    · have hall : data.take (min data.length (chunkBytes - last.length)) = data :=
        List.take_of_length_le (by omega)
      nth_rewrite 2 [hsplit]
      simp [hall]
    · simp
    · simp

theorem discardChunks_flatten (chunks : List Bytes) (n : Nat) :
    (discardChunks chunks n).flatten = chunks.flatten.drop n := by
  induction chunks generalizing n with
  | nil => simp [discardChunks]
  | cons first rest ih =>
    unfold discardChunks
    split_ifs with h0 hle
    · simp [h0]
    · rw [ih, List.flatten_cons, List.drop_append, List.drop_of_length_le hle, List.nil_append]
    · rw [List.flatten_cons, List.flatten_cons, List.drop_append, Nat.sub_eq_zero_of_le (by omega), List.drop_zero]

theorem readChunks_eq (chunks : List Bytes) (skip n : Nat) :
    readChunks chunks skip n = (chunks.flatten.drop skip).take n := by
  induction chunks generalizing skip n with
  | nil => simp [readChunks]
  | cons chunk rest ih =>
    unfold readChunks
    dsimp only
    split_ifs with hskip
    · rw [ih, List.flatten_cons, List.drop_append, List.drop_of_length_le hskip, List.nil_append]
    · have hfits : n ≤ (chunk.drop skip).length := by rw [List.length_drop]; omega
      rw [List.flatten_cons, List.drop_append, List.take_append_of_le_length hfits,
        Nat.min_eq_left (by rw [List.length_drop] at hfits; omega)]
    · have hover : chunk.length - skip < n := by omega
      have hwhole : (chunk.drop skip).take (min n (chunk.length - skip)) = chunk.drop skip :=
        List.take_of_length_le (by rw [List.length_drop]; omega)
      have hin : skip - chunk.length = 0 := by omega
      have hlen : (chunk.drop skip).length ≤ n := by rw [List.length_drop]; omega
      rw [ih, hwhole, List.drop_zero, List.flatten_cons, List.drop_append, hin, List.drop_zero, List.take_append,
        List.take_of_length_le hlen, List.length_drop, Nat.min_eq_right hover.le]

/-! ## The ring -/

/-- **The newest bytes of a stream**: `chunks` is the queue of the bytes at the offsets `[start, tail)`. -/
structure ByteRing where
  limit : Nat
  chunks : List Bytes
  byteLength : Nat
  start : Nat
  tail : Nat
  byteLength_eq : byteLength = chunks.flatten.length
  tail_eq : tail = start + byteLength
  byteLength_le : byteLength ≤ limit
  deriving DecidableEq

namespace ByteRing

def bytes (r : ByteRing) : Bytes := r.chunks.flatten

/-- A ring with no byte in it. -/
def new (limit : Nat) : ByteRing := ⟨limit, [], 0, 0, 0, rfl, rfl, Nat.zero_le _⟩

def predictedStartAfter (r : ByteRing) (byteCount : Nat) : Nat :=
  r.tail + byteCount - min r.limit (r.byteLength + byteCount)

/-- `append`.  Its count of overwritten bytes is left out: no caller reads it. -/
def append (r : ByteRing) (data : Bytes) : ByteRing :=
  if data.length = 0 then r
  else if h : r.limit ≤ data.length then
    ⟨r.limit, [data.drop (data.length - r.limit)], r.limit, r.tail + data.length - r.limit, r.tail + data.length,
      by simp; omega, by omega, Nat.le_refl _⟩
  else
    let overflow := r.byteLength + data.length - r.limit
    ⟨r.limit, discardChunks (pushChunk r.chunks data) overflow, r.byteLength + data.length - overflow,
      r.start + overflow, r.tail + data.length,
      by rw [discardChunks_flatten, pushChunk_flatten, List.length_drop, List.length_append, ← r.byteLength_eq],
      by have := r.tail_eq; have := r.byteLength_le; omega, by omega⟩

/-- `clear`: the offsets go on from `tail`. -/
def clear (r : ByteRing) : Nat × ByteRing :=
  (r.byteLength, ⟨r.limit, [], 0, r.tail, r.tail, rfl, rfl, Nat.zero_le _⟩)

/-- `discardPrefixBytes` of a count the ring holds. -/
def discardPrefixBytes (r : ByteRing) (n : Nat) (h : n ≤ r.byteLength) : ByteRing :=
  ⟨r.limit, discardChunks r.chunks n, r.byteLength - n, r.start + n, r.tail,
    by rw [discardChunks_flatten, List.length_drop, ← r.byteLength_eq],
    by have := r.tail_eq; omega, by have := r.byteLength_le; omega⟩

def discardBefore (r : ByteRing) (offset : Nat) : Nat × ByteRing :=
  if offset ≤ r.start then (0, r)
  else
    let through := if r.tail < offset then r.tail else offset
    (through - r.start, r.discardPrefixBytes (through - r.start) (by
      have := r.tail_eq
      dsimp only [through]
      split_ifs <;> omega))

def hasRange (r : ByteRing) (first through : Nat) : Bool :=
  r.start ≤ first && first ≤ through && through ≤ r.tail

def read (r : ByteRing) (first maxBytes through : Nat) : Bytes :=
  if !r.hasRange first through || first == through || maxBytes == 0 then []
  else readChunks r.chunks (first - r.start) (min (through - first) maxBytes)

theorem length_bytes (r : ByteRing) : r.bytes.length = r.byteLength := r.byteLength_eq.symm

theorem start_le_tail (r : ByteRing) : r.start ≤ r.tail := by
  have := r.tail_eq
  omega

@[simp] theorem append_tail (r : ByteRing) (data : Bytes) : (r.append data).tail = r.tail + data.length := by
  unfold append
  split_ifs with h0 <;> simp [h0]

theorem append_limit (r : ByteRing) (data : Bytes) : (r.append data).limit = r.limit := by
  unfold append
  split_ifs <;> rfl

theorem append_start (r : ByteRing) (data : Bytes) : (r.append data).start = r.predictedStartAfter data.length := by
  have h1 := r.tail_eq
  have h2 := r.byteLength_le
  unfold append predictedStartAfter
  split_ifs with h0 hl
  · simp only [h0]
    omega
  · simp only
    omega
  · simp only
    omega

theorem append_bytes (r : ByteRing) (data : Bytes) :
    (r.append data).bytes = (r.bytes ++ data).drop ((r.append data).start - r.start) := by
  have h1 := r.tail_eq
  have h2 := r.byteLength_le
  have hlen := r.length_bytes
  rw [append_start]
  unfold append predictedStartAfter
  split_ifs with h0 hl
  · rw [List.eq_nil_of_length_eq_zero h0, List.append_nil, List.length_nil]
    have : r.tail + 0 - min r.limit (r.byteLength + 0) - r.start = 0 := by omega
    rw [this, List.drop_zero]
  · show [data.drop (data.length - r.limit)].flatten = _
    have hall : r.bytes.length ≤ r.tail + data.length - min r.limit (r.byteLength + data.length) - r.start := by omega
    rw [List.flatten_singleton, List.drop_append, List.drop_of_length_le hall, List.nil_append]
    congr 1
    omega
  · show (discardChunks (pushChunk r.chunks data) _).flatten = _
    rw [discardChunks_flatten, pushChunk_flatten]
    show (r.bytes ++ data).drop _ = _
    congr 1
    omega

@[simp] theorem clear_tail (r : ByteRing) : r.clear.2.tail = r.tail := rfl
@[simp] theorem clear_start (r : ByteRing) : r.clear.2.start = r.tail := rfl
@[simp] theorem clear_bytes (r : ByteRing) : r.clear.2.bytes = [] := rfl

@[simp] theorem discardBefore_tail (r : ByteRing) (n : Nat) : (r.discardBefore n).2.tail = r.tail := by
  unfold discardBefore
  split_ifs <;> rfl

theorem discardBefore_start {r : ByteRing} {n : Nat} (h : n ≤ r.tail) :
    (r.discardBefore n).2.start = max r.start n := by
  unfold discardBefore
  by_cases h1 : n ≤ r.start
  · rw [if_pos h1]
    exact (Nat.max_eq_left h1).symm
  · rw [if_neg h1]
    show r.start + ((if r.tail < n then r.tail else n) - r.start) = _
    rw [if_neg (Nat.not_lt.mpr h)]
    omega

theorem discardBefore_count (r : ByteRing) (n : Nat) :
    (r.discardBefore n).2.byteLength + (r.discardBefore n).1 = r.byteLength := by
  have htail := r.tail_eq
  unfold discardBefore
  by_cases h : n ≤ r.start
  · rw [if_pos h]
    rfl
  · rw [if_neg h]
    refine Nat.sub_add_cancel ?_
    split <;> omega

theorem discardBefore_bytes (r : ByteRing) (n : Nat) :
    (r.discardBefore n).2.bytes = r.bytes.drop ((r.discardBefore n).2.start - r.start) := by
  unfold discardBefore
  split_ifs with h1
  · simp
  all_goals
    show (discardChunks r.chunks _).flatten = r.bytes.drop (r.start + _ - r.start)
    rw [discardChunks_flatten, Nat.add_sub_cancel_left]
    rfl

theorem hasRange_iff {r : ByteRing} {a b : Nat} : r.hasRange a b = true ↔ r.start ≤ a ∧ a ≤ b ∧ b ≤ r.tail := by
  simp [hasRange, and_assoc]

theorem read_eq (r : ByteRing) (first maxBytes through : Nat) :
    r.read first maxBytes through =
      if r.hasRange first through then (r.bytes.drop (first - r.start)).take (min (through - first) maxBytes) else [] := by
  unfold read
  by_cases hr : r.hasRange first through = true
  · rw [if_pos hr]
    split_ifs with h
    · have : min (through - first) maxBytes = 0 := by
        simp only [hr, Bool.not_true, Bool.false_or, Bool.or_eq_true, beq_iff_eq] at h
        omega
      rw [this, List.take_zero]
    · exact readChunks_eq _ _ _
  · simp [hr]

end ByteRing
end Stream
end TmuxWorktree
