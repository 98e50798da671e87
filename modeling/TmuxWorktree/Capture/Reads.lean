import TmuxWorktree.Capture.Stream
/-!
# Reads — what the readers of a capture get

A read between two steps of the script finds the row of segments, and takes its bytes from it: those of the stream from
the cursor on.  Reads that follow each other by their cursors lose nothing and repeat nothing, whatever is written and
unlinked in between.
-/
namespace TmuxWorktree
namespace Capture

section Row

variable {c : Limits} {w : World} {gone : Bytes} {old : List Segment} {cur : Segment}

theorem Row.suffix (h : Row c w gone old cur) (n : Nat) (hn : n ≤ old.length) :
    ∃ floor front, (old.drop n ++ [cur]).head?.map (·.start) = some floor ∧ Tiled floor (old.drop n ++ [cur]) ∧
      front.length = floor ∧ w.saved = front ++ contents (old.drop n ++ [cur]) := by
  have hsplit : old ++ [cur] = old.take n ++ (old.drop n ++ [cur]) := by
    rw [← List.append_assoc, List.take_append_drop]
  have htiled := h.tiled
  rw [hsplit, tiled_append] at htiled
  refine ⟨gone.length + (contents (old.take n)).length, gone ++ contents (old.take n), ?_, htiled.2, List.length_append, ?_⟩
  · cases hkept : old.drop n ++ [cur] with
    | nil => cases List.append_ne_nil_of_right_ne_nil _ (List.cons_ne_nil _ _) hkept
    | cons g rest =>
      rw [hkept] at htiled
      rw [List.head?_cons, Option.map_some, htiled.2.1]
  · rw [h.saved_eq, hsplit, contents_append, List.append_assoc]

/-- **A read of a row.** -/
theorem Row.read (h : Row c w gone old cur) {names : List Segment} (hn : names.Perm w.dir) :
    ∃ oldest, (old.drop (old.length + 1 - c.maxSegments) ++ [cur]).head? = some oldest ∧ ∀ cursor maxBytes,
      readSegmentedOutput c names cursor maxBytes =
        if maxSafeInteger < w.stop then
          .error ⟨.recoveryRequired, "terminal output cursor exceeded the supported range"⟩
        else if cursor < oldest.start ∨ w.stop < cursor then
          .error ⟨.staleOutputCursor, "terminal output cursor is stale"⟩
        else .ok ((w.stream.drop cursor).take (min (cursor + maxBytes) w.stop - cursor), min (cursor + maxBytes) w.stop) := by
  have hpos := c.maxSegments_pos
  obtain ⟨floor, front, hfloor, htiled, hfront, hsaved⟩ := h.suffix (old.length + 1 - c.maxSegments) (by omega)
  obtain ⟨oldest, holdest, rfl⟩ := Option.map_eq_some_iff.1 hfloor
  refine ⟨oldest, holdest, fun cursor maxBytes => ?_⟩
  have hlast : (old.drop (old.length + 1 - c.maxSegments) ++ [cur]).getLast? = some cur := List.getLast?_concat
  rw [readSegmentedOutput, h.current hn]
  simp only [bind, Except.bind, outputPositionFromSegments, holdest, hlast, h.cur_stop]
  by_cases hsafe : maxSafeInteger < w.stop
  · rw [if_pos hsafe, if_pos hsafe]
    rfl
  rw [if_neg hsafe, if_neg hsafe]
  simp only [pure, Except.pure, Bool.or_eq_true, decide_eq_true_eq]
  by_cases hstale : cursor < oldest.start ∨ w.stop < cursor
  · rw [if_pos hstale, if_pos hstale]
    rfl
  rw [if_neg hstale, if_neg hstale]
  rw [not_or, not_lt, not_lt] at hstale
  have hlength : w.saved.length = w.stop := by
    rw [World.saved, List.length_take, World.stop]
    omega
  have hreach : oldest.start + (contents (old.drop (old.length + 1 - c.maxSegments) ++ [cur])).length = w.stop := by
    rw [← hlength, hsaved, List.length_append, hfront]
  have hloop := @readLoop_tiled (min maxBytes (w.stop - cursor)) _ _ [] _ htiled hstale.1 (Nat.zero_le _)
    (by rw [List.length_nil, hreach]; omega)
  rw [List.nil_append, List.length_nil, Nat.sub_zero] at hloop
  have hbytes : ((contents (old.drop (old.length + 1 - c.maxSegments) ++ [cur])).drop (cursor - oldest.start)).take
      (min maxBytes (w.stop - cursor)) = (w.stream.drop cursor).take (min maxBytes (w.stop - cursor)) := by
    have hfront' : front.length ≤ cursor := hfront.trans_le hstale.1
    have hdrop : w.saved.drop cursor =
        (contents (old.drop (old.length + 1 - c.maxSegments) ++ [cur])).drop (cursor - oldest.start) := by
      rw [hsaved, List.drop_append, List.drop_eq_nil_of_le hfront', hfront, List.nil_append]
    rw [← hdrop, World.saved, List.drop_take, List.take_take, Nat.min_eq_left (Nat.min_le_right ..)]
  have hout : ((w.stream.drop cursor).take (min maxBytes (w.stop - cursor))).length = min maxBytes (w.stop - cursor) := by
    have hstop : w.stop ≤ w.stream.length := Nat.sub_le ..
    rw [List.length_take, List.length_drop]
    omega
  have hnext : cursor + min maxBytes (w.stop - cursor) = min (cursor + maxBytes) w.stop := by omega
  have hcount : min (cursor + maxBytes) w.stop - cursor = min maxBytes (w.stop - cursor) := by omega
  rw [hbytes, hnext] at hloop
  rw [hloop, hcount]
  dsimp only
  rw [if_neg (not_not.2 hout)]

end Row

/-! ## Reads that follow each other -/

/-- **Chained reads of a run**: each starts at the next cursor of the one before, after further steps. -/
inductive Reads (c : Limits) (past : List Action) (cursor : Nat) : Bytes → Nat → List Action → Prop
  | none : Reads c past cursor [] cursor past
  | read {bytes more : Bytes} {next next' : Nat} {now later : List Action} {names : List Segment} {maxBytes : Nat}
      (before : Reads c past cursor bytes next now) (listing : names.Perm (run c (now ++ later)).dir)
      (answer : readSegmentedOutput c names next maxBytes = .ok (more, next')) :
      Reads c past cursor (bytes ++ more) next' (now ++ later)

theorem World.saved_slice (w : World) {first last : Nat} (hlast : last ≤ w.stop) :
    (w.saved.drop first).take (last - first) = (w.stream.drop first).take (last - first) := by
  rw [World.saved, List.drop_take, List.take_take, Nat.min_eq_left (by omega)]

theorem World.saved_length (w : World) : w.saved.length = w.stop := by
  rw [World.saved, List.length_take, World.stop]
  omega

theorem run_slice (c : Limits) (past more : List Action) (first : Nat) {last : Nat} (hlast : last ≤ (run c past).stop) :
    last ≤ (run c (past ++ more)).stop ∧
      ((run c (past ++ more)).saved.drop first).take (last - first) = ((run c past).saved.drop first).take (last - first) := by
  obtain ⟨rest, hrest⟩ := run_saved c past more
  have hlength := (run c past).saved_length
  refine ⟨?_, ?_⟩
  · rw [← (run c (past ++ more)).saved_length, ← hrest, List.length_append]
    omega
  · rcases Nat.le_total first last with hle | hle
    · rw [← hrest, List.drop_append_of_le_length (by omega), List.take_append_of_le_length (by rw [List.length_drop]; omega)]
    · rw [Nat.sub_eq_zero_of_le hle, List.take_zero, List.take_zero]

/-- **Chained reads get the stream**, each byte once. -/
theorem Reads.bytes_eq {c : Limits} {past now : List Action} {cursor next : Nat} {bytes : Bytes}
    (h : Reads c past cursor bytes next now) (hcursor : cursor ≤ (run c past).stop) :
    cursor ≤ next ∧ next ≤ (run c now).stop ∧ bytes = ((run c now).saved.drop cursor).take (next - cursor) := by
  induction h with
  | none => exact ⟨Nat.le_refl _, hcursor, by rw [Nat.sub_self, List.take_zero]⟩
  | @read bytes more next next' now later names maxBytes before listing answer ih =>
    obtain ⟨hle, hstop, hbytes⟩ := ih
    obtain ⟨hlater, hsame⟩ := run_slice c now later cursor hstop
    obtain ⟨gone, old, cur, hrow⟩ := run_rowed c (now ++ later)
    obtain ⟨oldest, -, hread⟩ := hrow.read listing
    rw [hread] at answer
    split at answer
    next => cases answer
    split at answer
    next => cases answer
    next hstale =>
      simp only [Except.ok.injEq, Prod.mk.injEq] at answer
      obtain ⟨rfl, rfl⟩ := answer
      have hnext' : min (next + maxBytes) (run c (now ++ later)).stop ≤ (run c (now ++ later)).stop := Nat.min_le_right ..
      refine ⟨by omega, hnext', ?_⟩
      rw [← World.saved_slice _ hnext', hbytes, ← hsame]
      have hjoin : min (next + maxBytes) (run c (now ++ later)).stop - cursor =
          (next - cursor) + (min (next + maxBytes) (run c (now ++ later)).stop - next) := by omega
      rw [hjoin, List.take_add, List.drop_drop, Nat.add_sub_cancel' hle]

/-! ## The chunks -/

def delivered (c : Limits) : World → List Action → Bytes
  | _, [] => []
  | w, .chunk bytes :: rest =>
    if w.phase = .waiting then bytes ++ delivered c (step c w (.chunk bytes)) rest else delivered c w rest
  | w, .turn count :: rest => delivered c (step c w (.turn count)) rest
  | w, .restart :: rest => delivered c (step c w .restart) rest

/-- No script is stopped with a chunk that it has not written. -/
def Undisturbed (c : Limits) : World → List Action → Prop
  | _, [] => True
  | w, a :: rest => (a = .restart → w.phase.unwritten = []) ∧ Undisturbed c (step c w a) rest

theorem World.halt_stream {w : World} (h : w.phase.unwritten = []) : w.halt.stream = w.stream := by
  rw [World.halt, World.stop, h, List.length_nil, Nat.sub_zero, List.take_length]

theorem Row.turn_stream {c : Limits} {w : World} {gone : Bytes} {old : List Segment} {cur : Segment}
    (h : Row c w gone old cur) (count : Nat) (hsafe : w.stream.length ≤ maxSafeInteger) :
    (Capture.turn c count w).stream = w.stream := by
  have hagrees := h.agrees
  have hstop : w.stop ≤ w.stream.length := Nat.sub_le ..
  unfold Capture.turn
  cases hp : w.phase with
  | waiting | exited => rfl
  | filling rest =>
    rw [hp] at hagrees
    dsimp only
    split
    next => rfl
    split
    next =>
      have hcur := h.cur_stop
      rw [if_neg (by rw [hagrees.1, hagrees.2]; omega)]
    next => rfl
  | writing rest length written =>
    dsimp only
    split <;> rfl
  | opening rest =>
    rw [hp] at hagrees
    obtain ⟨hstart, -, hfull⟩ := hagrees
    have hpos := c.segmentBytes_pos
    dsimp only
    rw [if_neg]
    · rw [h.dir, List.any_eq_true]
      rintro ⟨g, hg, hstart⟩
      rw [decide_eq_true_eq] at hstart
      rcases List.mem_append.1 hg with hold | hcur
      · have := h.lt_cur g hold
        omega
      · obtain rfl := List.mem_singleton.1 hcur
        omega
  | unlinking rest ds =>
    cases ds <;> rfl

theorem Row.restart_stream {c : Limits} {w : World} {gone : Bytes} {old : List Segment} {cur : Segment}
    (h : Row c w gone old cur) (hp : w.phase.unwritten = []) : (Capture.restart c w).stream = w.stream := by
  unfold Capture.restart
  rw [h.current (List.Perm.refl _)]
  simp only [Except.map, List.getLast?_concat]
  rw [if_neg h.fits.not_gt]
  exact World.halt_stream hp

/-- **No byte of a chunk is lost.** -/
theorem stream_eq (c : Limits) (actions : List Action) {w : World} (hrow : Rowed c w) (hu : Undisturbed c w actions)
    (hsafe : (w.stream ++ delivered c w actions).length ≤ maxSafeInteger) :
    (actions.foldl (step c) w).stream = w.stream ++ delivered c w actions := by
  induction actions generalizing w with
  | nil => exact (List.append_nil _).symm
  | cons a rest ih =>
    obtain ⟨gone, old, cur, h⟩ := hrow
    have hrow' := (h.step a).1
    have hlength : w.stream.length ≤ maxSafeInteger := by
      rw [List.length_append] at hsafe
      omega
    rw [List.foldl_cons]
    cases a with
    | chunk bytes =>
      by_cases hp : w.phase = .waiting
      · have hstep : (step c w (.chunk bytes)).stream = w.stream ++ bytes := by simp only [step, if_pos hp]
        rw [delivered, if_pos hp, ← List.append_assoc, ← hstep] at hsafe ⊢
        exact ih hrow' hu.2 hsafe
      · have hstep : step c w (.chunk bytes) = w := by simp only [step, if_neg hp]
        rw [delivered, if_neg hp] at hsafe ⊢
        have hu' := hu.2
        rw [hstep] at hrow' hu' ⊢
        exact ih hrow' hu' hsafe
    | turn count =>
      have hstep : (step c w (.turn count)).stream = w.stream := h.turn_stream count hlength
      rw [delivered, ← hstep] at hsafe ⊢
      exact ih hrow' hu.2 hsafe
    | restart =>
      have hstep : (step c w .restart).stream = w.stream := h.restart_stream (hu.1 rfl)
      rw [delivered, ← hstep] at hsafe ⊢
      exact ih hrow' hu.2 hsafe

/-! ## The claims of a capture -/

/-- **A segmented capture reads back the stream.**  In every state of every run a scan finds no gap, and a read from a
cursor between the oldest retained segment and the end gets the stream from there on, as long as the end is a safe
integer; chained reads get it without loss or repetition; and the stream is the chunks that were taken. -/
theorem capture_reads_stream (c : Limits) :
    (∀ actions names, names.Perm (run c actions).dir → ∃ segments oldest, scanOutputSegments c names = .ok segments ∧
      (segments.drop (segments.length - c.maxSegments)).head? = some oldest ∧ ∀ cursor maxBytes,
        readSegmentedOutput c names cursor maxBytes =
          if maxSafeInteger < (run c actions).stop then
            .error ⟨.recoveryRequired, "terminal output cursor exceeded the supported range"⟩
          else if cursor < oldest.start ∨ (run c actions).stop < cursor then
            .error ⟨.staleOutputCursor, "terminal output cursor is stale"⟩
          else
            .ok (((run c actions).stream.drop cursor).take (min (cursor + maxBytes) (run c actions).stop - cursor),
              min (cursor + maxBytes) (run c actions).stop)) ∧
    (∀ past cursor bytes next now, Reads c past cursor bytes next now → cursor ≤ (run c past).stop →
      next ≤ (run c now).stop ∧ bytes = ((run c now).stream.drop cursor).take (next - cursor)) ∧
    (∀ actions, Undisturbed c .initial actions → (delivered c .initial actions).length ≤ maxSafeInteger →
      (run c actions).stream = delivered c .initial actions) := by
  refine ⟨fun actions names hn => ?_, fun past cursor bytes next now hreads hcursor => ?_, fun actions hu hsafe => ?_⟩
  · obtain ⟨gone, old, cur, h⟩ := run_rowed c actions
    obtain ⟨oldest, holdest, hread⟩ := h.read hn
    refine ⟨old ++ [cur], oldest, h.scan hn, ?_, hread⟩
    have hpos := c.maxSegments_pos
    rw [List.length_append, List.length_singleton, List.drop_append_of_le_length (by omega)]
    exact holdest
  · obtain ⟨-, hnext, hbytes⟩ := hreads.bytes_eq hcursor
    exact ⟨hnext, hbytes.trans (World.saved_slice _ hnext)⟩
  · exact (stream_eq c actions (run_rowed c []) hu hsafe).trans (List.nil_append _)

def sampleLimits : Limits := ⟨4, 2, 2, by decide, by decide, by decide, by decide⟩

/-- Two chunks, of which the second fills the second segment and opens the third. -/
def sampleActions : List Action :=
  .restart :: .turn 0 :: .turn 0 :: .chunk [1, 2, 3] :: List.replicate 4 (.turn 3) ++
    .chunk [4, 5, 6, 7, 8, 9] :: List.replicate 12 (.turn 3)

/-- The first segment is still there, and a read of the two newest goes on into the third. -/
example : (run sampleLimits sampleActions).dir = [⟨0, [1, 2, 3, 4]⟩, ⟨4, [5, 6, 7, 8]⟩, ⟨8, []⟩] ∧
    readSegmentedOutput sampleLimits (run sampleLimits (sampleActions ++ List.replicate 4 (.turn 3))).dir 6 9 =
      .ok ([7, 8, 9], 9) := by
  decide

/-! ## Past the safe integers -/

theorem run_started (c : Limits) : run c [.restart, .turn 0, .turn 0] = { World.initial with phase := .waiting } := by
  have hr := c.two_le_retain
  have hrow : Row c .initial [] [] ⟨0, []⟩ :=
    ⟨rfl, ⟨rfl, trivial⟩, fun _ hg => (List.not_mem_nil hg).elim, Nat.zero_le _, Nat.zero_le _, rfl, trivial⟩
  have hdoomed : doomed c.retain [⟨0, []⟩] = [] := by
    simp only [doomed, List.map_cons, List.map_nil, List.insertionSort_cons, List.insertionSort_nil, List.orderedInsert_nil,
      List.length_singleton]
    rw [Nat.sub_eq_zero_of_le (by omega), List.take_zero]
  have hstart : Capture.restart c .initial = { World.initial with phase := .unlinking [] [] } := by
    rw [Capture.restart, hrow.current (List.Perm.refl _)]
    simp only [Except.map, List.getLast?_concat]
    rw [if_neg hrow.fits.not_gt]
    show World.mk _ _ _ (.unlinking [] (doomed c.retain [⟨0, []⟩])) _ = _
    rw [hdoomed]
    rfl
  rw [run, List.foldl_cons, step, hstart]
  rfl

theorem run_overlong (c : Limits) (chunk : Bytes) (hlength : chunk.length = c.segmentBytes + 1) :
    (run c ([.restart, .turn 0, .turn 0] ++ [.chunk chunk, .turn 0, .turn c.segmentBytes, .turn 0, .turn 0, .turn 0, .turn 0,
      .turn 0, .turn 1])).stop = c.segmentBytes + 1 := by
  have hpos := c.segmentBytes_pos
  have hsafe := c.segmentBytes_safe
  have hr := c.two_le_retain
  have hne : chunk ≠ [] := List.ne_nil_of_length_pos (by omega)
  have hrest : (chunk.drop c.segmentBytes).length = 1 := by
    rw [List.length_drop]
    omega
  have hrestNe : chunk.drop c.segmentBytes ≠ [] := List.ne_nil_of_length_pos (by omega)
  have h1 : turn c 0 ⟨[⟨0, []⟩], 0, 0, .filling chunk, chunk⟩ =
      ⟨[⟨0, []⟩], 0, 0, .writing chunk c.segmentBytes 0, chunk⟩ := by
    simp only [turn, if_neg hne, if_neg hpos.ne, Nat.sub_zero, hlength, Nat.min_eq_left (Nat.le_succ _)]
  have h2 : turn c c.segmentBytes ⟨[⟨0, []⟩], 0, 0, .writing chunk c.segmentBytes 0, chunk⟩ =
      ⟨[⟨0, chunk.take c.segmentBytes⟩], 0, 0, .writing chunk c.segmentBytes c.segmentBytes, chunk⟩ := by
    simp [turn, hpos, append]
  have h3 : turn c 0 ⟨[⟨0, chunk.take c.segmentBytes⟩], 0, 0, .writing chunk c.segmentBytes c.segmentBytes, chunk⟩ =
      ⟨[⟨0, chunk.take c.segmentBytes⟩], 0, c.segmentBytes, .filling (chunk.drop c.segmentBytes), chunk⟩ := by
    simp [turn]
  have h4 : turn c 0 ⟨[⟨0, chunk.take c.segmentBytes⟩], 0, c.segmentBytes, .filling (chunk.drop c.segmentBytes), chunk⟩ =
      ⟨[⟨0, chunk.take c.segmentBytes⟩], c.segmentBytes, c.segmentBytes, .opening (chunk.drop c.segmentBytes), chunk⟩ := by
    simp only [turn, if_neg hrestNe, if_true, Nat.zero_add, if_neg hsafe.not_gt]
  have hdoomed : doomed c.retain [⟨0, chunk.take c.segmentBytes⟩, ⟨c.segmentBytes, []⟩] = [] := by
    rw [doomed, List.length_insertionSort, List.length_map]
    exact List.take_eq_nil_iff.2 (.inl (Nat.sub_eq_zero_of_le hr))
  have h5 : turn c 0 ⟨[⟨0, chunk.take c.segmentBytes⟩], c.segmentBytes, c.segmentBytes,
        .opening (chunk.drop c.segmentBytes), chunk⟩ =
      ⟨[⟨0, chunk.take c.segmentBytes⟩, ⟨c.segmentBytes, []⟩], c.segmentBytes, 0,
        .unlinking (chunk.drop c.segmentBytes) [], chunk⟩ := by
    simp only [turn, List.any_cons, List.any_nil, decide_eq_false hpos.ne, Bool.or_self, Bool.false_eq_true, if_false,
      List.singleton_append, hdoomed]
  have h6 : turn c 0 ⟨[⟨0, chunk.take c.segmentBytes⟩, ⟨c.segmentBytes, []⟩], c.segmentBytes, 0,
        .filling (chunk.drop c.segmentBytes), chunk⟩ =
      ⟨[⟨0, chunk.take c.segmentBytes⟩, ⟨c.segmentBytes, []⟩], c.segmentBytes, 0,
        .writing (chunk.drop c.segmentBytes) 1 0, chunk⟩ := by
    simp only [turn, if_neg hrestNe, if_neg hpos.ne, Nat.sub_zero, hrest, Nat.min_eq_right hpos]
  have h7 : (turn c 1 ⟨[⟨0, chunk.take c.segmentBytes⟩, ⟨c.segmentBytes, []⟩], c.segmentBytes, 0,
      .writing (chunk.drop c.segmentBytes) 1 0, chunk⟩).stop = c.segmentBytes + 1 := by
    simp [turn, World.stop, Phase.unwritten, hlength]
  rw [run, List.foldl_append, ← run, run_started]
  simp only [List.foldl_cons, List.foldl_nil, step, World.initial, if_true, List.nil_append, h1, h2, h3, h4, h5, h7]
  rw [show turn c 0 ⟨[⟨0, chunk.take c.segmentBytes⟩, ⟨c.segmentBytes, []⟩], c.segmentBytes, 0,
        .unlinking (chunk.drop c.segmentBytes) [], chunk⟩ =
      ⟨[⟨0, chunk.take c.segmentBytes⟩, ⟨c.segmentBytes, []⟩], c.segmentBytes, 0,
        .filling (chunk.drop c.segmentBytes), chunk⟩ from rfl, h6, h7]

def longLimits : Limits := ⟨maxSafeInteger, 2, 2, by decide, by decide, by decide, by decide⟩

/-- **A capture that has outgrown the safe integers is not read any more.** -/
theorem capture_outgrown :
    ¬ ∀ (c : Limits) (actions : List Action) (names segments : List Segment) (oldest : Segment) (cursor maxBytes : Nat),
      names.Perm (run c actions).dir → scanOutputSegments c names = .ok segments →
      (segments.drop (segments.length - c.maxSegments)).head? = some oldest →
      oldest.start ≤ cursor → cursor ≤ (run c actions).stop →
      readSegmentedOutput c names cursor maxBytes =
        .ok (((run c actions).stream.drop cursor).take (min (cursor + maxBytes) (run c actions).stop - cursor),
          min (cursor + maxBytes) (run c actions).stop) := by
  intro hall
  generalize hchunk : List.replicate (maxSafeInteger + 1) (0 : UInt8) = chunk at *
  have hlength : chunk.length = longLimits.segmentBytes + 1 := by rw [← hchunk, List.length_replicate]; rfl
  have hstop := run_overlong longLimits chunk hlength
  generalize ([.restart, .turn 0, .turn 0] ++ [.chunk chunk, .turn 0, .turn longLimits.segmentBytes, .turn 0, .turn 0, .turn 0,
      .turn 0, .turn 0, .turn 1] : List Action) = actions at hstop
  obtain ⟨gone, old, cur, h⟩ := run_rowed longLimits actions
  obtain ⟨oldest, holdest, hread⟩ := h.read (List.Perm.refl _)
  have hcur := h.cur_stop
  have hcurrent : oldest.start ≤ (run longLimits actions).stop := by
    rcases List.mem_append.1 (List.mem_of_mem_head? (Option.mem_def.2 holdest)) with hold | hc
    · exact (h.lt_cur oldest (List.mem_of_mem_drop hold)).le.trans (by omega)
    · rw [List.mem_singleton.1 hc]
      omega
  have hclaim := hall longLimits actions (run longLimits actions).dir (old ++ [cur]) oldest (run longLimits actions).stop 1
    (List.Perm.refl _) (h.scan (List.Perm.refl _)) ?_ hcurrent (Nat.le_refl _)
  · rw [hread, if_pos (by rw [hstop]; exact Nat.lt_succ_self _)] at hclaim
    cases hclaim
  · have hpos := longLimits.maxSegments_pos
    rw [List.length_append, List.length_singleton, List.drop_append_of_le_length (by omega)]
    exact holdest

end Capture
end TmuxWorktree
