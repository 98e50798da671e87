import TmuxWorktree.Capture.Segments
import Mathlib.Data.List.Induction
/-!
# Stream — a capture reads back what was written

The segments on file follow each other without a gap, all but the newest full, and their bytes are a part of the stream:
each step of the script keeps that, wherever it is stopped.  So a scan finds no gap, and a read finds the bytes of the
stream.
-/
namespace TmuxWorktree
namespace Capture

/-! ## Segments in a row -/

def Tiled : Nat → List Segment → Prop
  | _, [] => True
  | s, g :: rest => g.start = s ∧ Tiled (s + g.size) rest

def contents (segments : List Segment) : Bytes := segments.flatMap (·.bytes)

@[simp] theorem contents_nil : contents [] = [] := rfl

@[simp] theorem contents_cons (g : Segment) (rest : List Segment) : contents (g :: rest) = g.bytes ++ contents rest := rfl

@[simp] theorem contents_append (a b : List Segment) : contents (a ++ b) = contents a ++ contents b := List.flatMap_append

theorem tiled_append {a b : List Segment} {s : Nat} : Tiled s (a ++ b) ↔ Tiled s a ∧ Tiled (s + (contents a).length) b := by
  induction a generalizing s with
  | nil => simp [Tiled]
  | cons g a ih =>
    rw [List.cons_append, Tiled, Tiled, ih, contents_cons, List.length_append, ← Nat.add_assoc, and_assoc]
    rfl

theorem Tiled.le_start {segments : List Segment} {s : Nat} (h : Tiled s segments) : ∀ g ∈ segments, s ≤ g.start := by
  induction segments generalizing s with
  | nil => exact fun _ hg => (List.not_mem_nil hg).elim
  | cons g segments ih =>
    intro g' hg'
    rcases List.mem_cons.1 hg' with rfl | hg'
    · exact h.1.ge
    · exact (Nat.le_add_right s g.size).trans (ih h.2 g' hg')

theorem Tiled.append_bytes {s : Nat} {cur : Segment} {old : List Segment} (h : Tiled s (old ++ [cur])) (chunk : Bytes) :
    Tiled s (old ++ [{ cur with bytes := cur.bytes ++ chunk }]) := by
  rw [tiled_append] at h ⊢
  exact ⟨h.1, h.2.1, trivial⟩

theorem Tiled.pairwise {cur : Segment} {old : List Segment} {s : Nat} (h : Tiled s (old ++ [cur]))
    (hpos : ∀ g ∈ old, 0 < g.size) : (old ++ [cur]).Pairwise fun a b => a.start < b.start := by
  induction old generalizing s with
  | nil => exact List.pairwise_singleton ..
  | cons g old ih =>
    refine List.Pairwise.cons (fun g' hg' => ?_) (ih h.2 fun a ha => hpos a (List.mem_cons_of_mem g ha))
    have hle := h.2.le_start g' hg'
    have hg := h.1
    have := hpos g List.mem_cons_self
    omega

theorem readLoop_done {length : Nat} {segments : List Segment} {out : Bytes} {nextCursor : Nat} (h : length ≤ out.length) :
    readLoop length segments out nextCursor = .ok (out, nextCursor) := by
  cases segments with
  | nil => rfl
  | cons g rest =>
    unfold readLoop
    rw [if_pos h]
    rfl

/-- **The loop reads on** in segments that follow each other and reach far enough. -/
theorem readLoop_tiled {length : Nat} {segments : List Segment} {s : Nat} {out : Bytes} {nextCursor : Nat}
    (h : Tiled s segments) (hs : s ≤ nextCursor) (hout : out.length ≤ length)
    (hstop : nextCursor + (length - out.length) ≤ s + (contents segments).length) :
    readLoop length segments out nextCursor =
      .ok (out ++ ((contents segments).drop (nextCursor - s)).take (length - out.length),
        nextCursor + (length - out.length)) := by
  induction segments generalizing s out nextCursor with
  | nil =>
    have hz : length - out.length = 0 := by
      rw [contents_nil, List.length_nil] at hstop
      omega
    simp [readLoop, hz, pure, Except.pure]
  | cons g rest ih =>
    obtain ⟨rfl, hrest⟩ := h
    by_cases hdone : length ≤ out.length
    · rw [readLoop_done hdone, Nat.sub_eq_zero_of_le hdone]
      simp
    rw [contents_cons, List.length_append] at hstop
    have hsize : g.size = g.bytes.length := rfl
    unfold readLoop
    rw [if_neg hdone]
    by_cases hskip : g.start + g.size ≤ nextCursor
    · -- the cursor is past this segment
      have hdrop : (g.bytes ++ contents rest).drop (nextCursor - g.start) =
          (contents rest).drop (nextCursor - (g.start + g.size)) := by
        rw [List.drop_append, List.drop_eq_nil_of_le (by omega), List.nil_append]
        congr 1
        omega
      rw [if_pos hskip, ih hrest hskip hout (by omega), contents_cons, hdrop]
    rw [if_neg hskip, if_neg (by omega)]
    dsimp only
    have hread : ((g.bytes.drop (nextCursor - g.start)).take
        (min (g.size - (nextCursor - g.start)) (length - out.length))).length =
          min (g.size - (nextCursor - g.start)) (length - out.length) := by
      rw [List.length_take, List.length_drop]
      omega
    rw [if_neg (not_not.2 hread), hread]
    rcases Nat.le_total (length - out.length) (g.size - (nextCursor - g.start)) with hlast | hmore
    · -- the read ends in this segment
      rw [Nat.min_eq_right hlast] at hread ⊢
      rw [readLoop_done (by rw [List.length_append, hread]; omega), contents_cons,
        List.drop_append_of_le_length (by omega), List.take_append_of_le_length (by rw [List.length_drop]; omega)]
    · rw [Nat.min_eq_left hmore] at hread ⊢
      have hlen : (g.bytes.drop (nextCursor - g.start)).length = g.size - (nextCursor - g.start) := by
        rw [List.length_drop, hsize]
      have hwhole : (g.bytes.drop (nextCursor - g.start)).take (g.size - (nextCursor - g.start)) =
          g.bytes.drop (nextCursor - g.start) := List.take_of_length_le hlen.le
      have hdrop : ((g.bytes ++ contents rest).drop (nextCursor - g.start)).take (length - out.length) =
          g.bytes.drop (nextCursor - g.start) ++
            (contents rest).take (length - out.length - (g.size - (nextCursor - g.start))) := by
        rw [List.drop_append_of_le_length (by omega), List.take_append, hlen, List.take_of_length_le (by omega)]
      have hnext : nextCursor + (g.size - (nextCursor - g.start)) = g.start + g.size := by omega
      have hrestLength : length - (out.length + (g.size - (nextCursor - g.start))) =
          length - out.length - (g.size - (nextCursor - g.start)) := by omega
      rw [hwhole, hnext, ih hrest (Nat.le_refl _) (by rw [List.length_append, hlen]; omega)
        (by rw [List.length_append, hlen]; omega), contents_cons, hdrop, List.length_append, hlen, hrestLength,
        Nat.sub_self, List.drop_zero, List.append_assoc]
      congr 2
      omega

/-! ## The invariant -/

/-- The variables of the script, against the newest segment. -/
def Phase.Agrees (c : Limits) (w : World) (old : List Segment) (cur : Segment) : Phase → Prop
  | .exited => True
  | .waiting | .filling _ => w.start = cur.start ∧ w.size = cur.size
  | .unlinking _ ds => w.start = cur.start ∧ w.size = cur.size ∧ ds <+: old.map (·.start)
  | .writing rest length written => w.start = cur.start ∧ w.size + written = cur.size ∧ written ≤ length ∧
      length ≤ rest.length ∧ w.size + length ≤ c.segmentBytes
  | .opening _ => w.start = cur.start + cur.size ∧ w.start ≤ maxSafeInteger ∧ cur.size = c.segmentBytes

/-- **The directory is a row of segments**, full but for the newest, and its bytes are the end of what is on file. -/
structure Row (c : Limits) (w : World) (gone : Bytes) (old : List Segment) (cur : Segment) : Prop where
  dir : w.dir = old ++ [cur]
  tiled : Tiled gone.length (old ++ [cur])
  full : ∀ g ∈ old, g.size = c.segmentBytes
  fits : cur.size ≤ c.segmentBytes
  safe : cur.start ≤ maxSafeInteger
  stream : w.stream = gone ++ contents (old ++ [cur]) ++ w.phase.unwritten
  agrees : w.phase.Agrees c w old cur

def Rowed (c : Limits) (w : World) : Prop := ∃ gone old cur, Row c w gone old cur

def World.saved (w : World) : Bytes := w.stream.take w.stop

section Row

variable {c : Limits} {w : World} {gone : Bytes} {old : List Segment} {cur : Segment}

theorem Row.stop_eq (h : Row c w gone old cur) : w.stop = gone.length + (contents (old ++ [cur])).length := by
  rw [World.stop, h.stream, List.length_append, List.length_append, Nat.add_sub_cancel]

theorem Row.saved_eq (h : Row c w gone old cur) : w.saved = gone ++ contents (old ++ [cur]) := by
  rw [World.saved, h.stop_eq, h.stream, ← List.length_append, List.take_left]

theorem Row.cur_stop (h : Row c w gone old cur) : cur.start + cur.size = w.stop := by
  have hcur := (tiled_append.1 h.tiled).2.1
  rw [h.stop_eq, hcur, contents_append, List.length_append, contents_cons, contents_nil, List.append_nil, Nat.add_assoc]
  rfl

theorem Row.pairwise (h : Row c w gone old cur) : (old ++ [cur]).Pairwise fun a b => a.start < b.start :=
  h.tiled.pairwise fun g hg => by
    rw [h.full g hg]
    exact c.segmentBytes_pos

theorem Row.lt_cur (h : Row c w gone old cur) : ∀ g ∈ old, g.start < cur.start := fun g hg =>
  (List.pairwise_append.1 h.pairwise).2.2 g hg cur List.mem_cons_self

theorem Row.append_cur (h : Row c w gone old cur) (chunk : Bytes) :
    append cur.start chunk w.dir = old ++ [{ cur with bytes := cur.bytes ++ chunk }] := by
  have hold : old.map (fun g => if g.start = cur.start then { g with bytes := g.bytes ++ chunk } else g) = old := by
    rw [List.map_congr_left fun g hg => if_neg (h.lt_cur g hg).ne, List.map_id']
  rw [append, h.dir, List.map_append, hold, List.map_singleton, if_pos rfl]

theorem Row.unlink_head {g : Segment} (h : Row c w gone (g :: old) cur) : unlink g.start w.dir = old ++ [cur] := by
  have hne : ∀ g' ∈ old ++ [cur], decide (g'.start ≠ g.start) = true := fun g' hg' =>
    decide_eq_true ((List.pairwise_cons.1 h.pairwise).1 g' hg').ne'
  rw [unlink, h.dir, List.cons_append, List.filter_cons_of_neg (by simp), List.filter_eq_self.2 hne]

/-! ## Scans -/

theorem doomed_prefix {retain : Nat} {dir : List Segment} (hs : dir.Pairwise fun a b => a.start < b.start)
    (hretain : 0 < retain) : doomed retain dir <+: dir.dropLast.map (·.start) := by
  have hsorted : (dir.map (·.start)).insertionSort (· ≤ ·) = dir.map (·.start) :=
    ((List.pairwise_map.2 hs).imp fun hlt => le_of_lt hlt).insertionSort_eq
  rw [doomed, hsorted, List.map_dropLast, List.dropLast_eq_take]
  exact List.take_prefix_take_left (by omega)

theorem contiguous_of_tiled {old : List Segment} {s : Nat} (ht : Tiled s (old ++ [cur]))
    (hfull : ∀ g ∈ old, g.size = c.segmentBytes) : contiguous c (old ++ [cur]) = true := by
  induction old generalizing s with
  | nil => rfl
  | cons g old ih =>
    have hg := hfull g List.mem_cons_self
    have hrest := ih ht.2 fun a ha => hfull a (List.mem_cons_of_mem g ha)
    cases old with
    | nil =>
      have hcur : cur.start = s + g.size := ht.2.1
      simp [contiguous, hg, hcur, ht.1]
    | cons g' old =>
      have hcur : g'.start = s + g.size := ht.2.1
      simp only [List.cons_append] at hrest ⊢
      rw [contiguous, hrest]
      simp [hg, hcur, ht.1]

theorem checkSegment_ok {g : Segment} (hsafe : g.start ≤ maxSafeInteger) (hfits : g.size ≤ c.segmentBytes) :
    checkSegment c g = .ok () := by
  rw [checkSegment, if_neg hsafe.not_gt, if_neg hfits.not_gt]
  rfl

/-- **A scan finds the row**, in whatever order the directory gives the names. -/
theorem Row.scan (h : Row c w gone old cur) {names : List Segment} (hn : names.Perm w.dir) :
    scanOutputSegments c names = .ok (old ++ [cur]) := by
  have hsort : names.insertionSort (fun left right => left.start ≤ right.start) = old ++ [cur] := by
    have hperm : (names.insertionSort fun left right => left.start ≤ right.start).Perm (old ++ [cur]) :=
      (List.perm_insertionSort _ names).trans (h.dir ▸ hn)
    refine hperm.eq_of_pairwise (fun a b ha hb hab hba => ?_) (List.pairwise_insertionSort _ names)
      (h.pairwise.imp fun hlt => le_of_lt hlt)
    have hnodup : ((old ++ [cur]).map (·.start)).Nodup := List.pairwise_map.2 (h.pairwise.imp fun hlt => ne_of_lt hlt)
    exact List.inj_on_of_nodup_map hnodup (hperm.mem_iff.1 ha) hb (le_antisymm hab hba)
  have hcheck : ∀ g ∈ names, checkSegment c g = .ok () := fun g hg => by
    have hmem := hn.mem_iff.1 hg
    rw [h.dir, List.mem_append, List.mem_singleton] at hmem
    rcases hmem with hold | rfl
    · exact checkSegment_ok ((h.lt_cur g hold).le.trans h.safe) (h.full g hold).le
    · exact checkSegment_ok h.safe h.fits
  have hall : names.forM (checkSegment c) = .ok () := by
    clear hn hsort
    induction names with
    | nil => rfl
    | cons g names ih =>
      have htail := ih fun a ha => hcheck a (List.mem_cons_of_mem g ha)
      simp only [List.forM, hcheck g List.mem_cons_self]
      exact htail
  rw [scanOutputSegments, hall]
  simp only [hsort]
  rw [if_pos (contiguous_of_tiled h.tiled h.full)]
  rfl

theorem Row.current (h : Row c w gone old cur) {names : List Segment} (hn : names.Perm w.dir) :
    currentOutputSegments c names = .ok (old.drop (old.length + 1 - c.maxSegments) ++ [cur]) := by
  have hpos := c.maxSegments_pos
  rw [currentOutputSegments, h.scan hn]
  simp only [bind, Except.bind, pure, Except.pure, List.length_append, List.length_singleton]
  rw [List.drop_append_of_le_length (by omega)]

/-! ## Steps -/

theorem Row.halt (h : Row c w gone old cur) : Row c w.halt gone old cur where
  dir := h.dir
  tiled := h.tiled
  full := h.full
  fits := h.fits
  safe := h.safe
  stream := by
    rw [← h.saved_eq]
    exact (List.append_nil _).symm
  agrees := trivial

theorem Row.goto (h : Row c w gone old cur) {start size : Nat} {phase : Phase} (hrest : phase.unwritten = w.phase.unwritten)
    (hagrees : phase.Agrees c { w with start := start, size := size, phase := phase } old cur) :
    Row c { w with start := start, size := size, phase := phase } gone old cur where
  dir := h.dir
  tiled := h.tiled
  full := h.full
  fits := h.fits
  safe := h.safe
  stream := by rw [h.stream, hrest]
  agrees := hagrees

theorem Row.write (h : Row c w gone old cur) {rest : Bytes} {length written n : Nat}
    (hp : w.phase = .writing rest length written) (hn : n ≤ length - written) :
    Row c { w with
        dir := append w.start ((rest.drop written).take n) w.dir
        phase := .writing rest length (written + n) } gone old
      { cur with bytes := cur.bytes ++ (rest.drop written).take n } := by
  have hagrees := h.agrees
  rw [hp] at hagrees
  obtain ⟨hstart, hsize, hwritten, hlength, hfits⟩ := hagrees
  have hlen : ((rest.drop written).take n).length = n := by
    rw [List.length_take, List.length_drop]
    omega
  have hcur : ({ cur with bytes := cur.bytes ++ (rest.drop written).take n } : Segment).size = cur.size + n := by
    rw [Segment.size, List.length_append, hlen]
    rfl
  refine ⟨by rw [hstart]; exact h.append_cur _, h.tiled.append_bytes _, h.full, by rw [hcur]; omega, h.safe, ?_, hstart, ?_,
    by omega, hlength, hfits⟩
  · have hstream := h.stream
    have hsplit : rest.drop written = (rest.drop written).take n ++ rest.drop (written + n) := by
      rw [← List.drop_drop, List.take_append_drop]
    rw [hp, Phase.unwritten, contents_append] at hstream
    rw [hstream, contents_append, Phase.unwritten]
    simp only [contents_cons, contents_nil, List.append_nil, List.append_assoc]
    rw [← hsplit]
  · rw [hcur, ← hsize, Nat.add_assoc]

theorem Row.open (h : Row c w gone old cur) {rest : Bytes} (hp : w.phase = .opening rest) :
    Row c { w with
        dir := w.dir ++ [⟨w.start, []⟩]
        size := 0
        phase := .unlinking rest (doomed c.retain (w.dir ++ [⟨w.start, []⟩])) } gone (old ++ [cur]) ⟨w.start, []⟩ := by
  have hagrees := h.agrees
  rw [hp] at hagrees
  obtain ⟨hstart, hsafe, hfull⟩ := hagrees
  have htiled : Tiled gone.length (old ++ [cur] ++ [⟨w.start, []⟩]) := by
    refine tiled_append.2 ⟨h.tiled, ?_, trivial⟩
    rw [hstart, h.cur_stop, h.stop_eq]
  have hfulls : ∀ g ∈ old ++ [cur], g.size = c.segmentBytes := fun g hg => by
    rcases List.mem_append.1 hg with hg | hg
    · exact h.full g hg
    · rw [List.mem_singleton.1 hg, hfull]
  have hsorted := htiled.pairwise fun g hg => (hfulls g hg).symm ▸ c.segmentBytes_pos
  refine ⟨by rw [h.dir], htiled, hfulls, Nat.zero_le _, hsafe, ?_, rfl, rfl, ?_⟩
  · have hstream := h.stream
    rw [hp, Phase.unwritten] at hstream
    rw [hstream, contents_append (old ++ [cur]), Phase.unwritten]
    simp
  · have hd := doomed_prefix hsorted (Nat.lt_of_lt_of_le Nat.zero_lt_two c.two_le_retain)
    rw [h.dir]
    rwa [List.dropLast_concat] at hd

theorem Row.unlink (h : Row c w gone old cur) {rest : Bytes} {d : Nat} {ds : List Nat}
    (hp : w.phase = .unlinking rest (d :: ds)) :
    ∃ g old', old = g :: old' ∧
      Row c { w with dir := unlink d w.dir, phase := .unlinking rest ds } (gone ++ g.bytes) old' cur := by
  have hagrees := h.agrees
  rw [hp] at hagrees
  obtain ⟨hstart, hsize, hprefix⟩ := hagrees
  cases old with
  | nil => cases List.prefix_nil.1 hprefix
  | cons g old =>
    rw [List.map_cons, List.cons_prefix_cons] at hprefix
    obtain ⟨rfl, hprefix⟩ := hprefix
    refine ⟨g, old, rfl, h.unlink_head, ?_, fun a ha => h.full a (List.mem_cons_of_mem g ha), h.fits, h.safe, ?_, hstart,
      hsize, hprefix⟩
    · rw [List.length_append]
      exact h.tiled.2
    · have hstream := h.stream
      rw [hp, Phase.unwritten] at hstream
      rw [hstream, List.cons_append, contents_cons, Phase.unwritten]
      simp

def Row.Kept (c : Limits) (w w' : World) : Prop := Rowed c w' ∧ w.saved <+: w'.saved

theorem Row.kept {w' : World} {gone' : Bytes} {old' : List Segment} {cur' : Segment} (h : Row c w gone old cur)
    (h' : Row c w' gone' old' cur')
    (hsaved : gone ++ contents (old ++ [cur]) <+: gone' ++ contents (old' ++ [cur'])) : Row.Kept c w w' :=
  ⟨⟨gone', old', cur', h'⟩, by rwa [h.saved_eq, h'.saved_eq]⟩

theorem Row.kept_same {w' : World} (h : Row c w gone old cur) (h' : Row c w' gone old cur) : Row.Kept c w w' :=
  h.kept h' (List.prefix_refl _)

/-- **A step of the script keeps the row.** -/
theorem Row.turn (h : Row c w gone old cur) (count : Nat) : Row.Kept c w (turn c count w) := by
  have hagrees := h.agrees
  unfold Capture.turn
  cases hp : w.phase with
  | waiting => exact h.kept_same h
  | exited => exact h.kept_same h
  | filling rest =>
    rw [hp] at hagrees
    dsimp only
    by_cases hrest : rest = []
    · rw [if_pos hrest]
      exact h.kept_same (h.goto (by rw [hp, hrest]; rfl) hagrees)
    rw [if_neg hrest]
    by_cases hfull : w.size = c.segmentBytes
    · rw [if_pos hfull]
      split
      next => exact h.kept_same h.halt
      next hsafe =>
        refine h.kept_same (h.goto (by rw [hp]; rfl) ⟨?_, not_lt.1 hsafe, hagrees.2.symm.trans hfull⟩)
        rw [hagrees.1, hagrees.2]
    · rw [if_neg hfull]
      have hfits := h.fits
      refine h.kept_same (h.goto (by rw [hp]; rfl) ⟨hagrees.1, hagrees.2, Nat.zero_le _, Nat.min_le_right .., ?_⟩)
      rw [hagrees.2] at hfull ⊢
      omega
  | writing rest length written =>
    rw [hp] at hagrees
    dsimp only
    by_cases hmore : written < length
    · rw [if_pos hmore]
      refine h.kept (h.write hp (Nat.min_le_right ..)) ?_
      rw [contents_append, contents_append]
      simp
    · rw [if_neg hmore]
      obtain ⟨hstart, hsize, hwritten, -, -⟩ := hagrees
      obtain rfl : written = length := le_antisymm hwritten (not_lt.1 hmore)
      exact h.kept_same (h.goto (by rw [hp]; rfl) ⟨hstart, hsize⟩)
  | opening rest =>
    dsimp only
    split
    next => exact h.kept_same h.halt
    next =>
      refine h.kept (h.open hp) ?_
      rw [contents_append (old ++ [cur])]
      simp
  | unlinking rest ds =>
    rw [hp] at hagrees
    cases ds with
    | nil => exact h.kept_same (h.goto (by rw [hp]; rfl) ⟨hagrees.1, hagrees.2.1⟩)
    | cons d ds =>
      obtain ⟨g, old', rfl, h'⟩ := h.unlink hp
      refine h.kept h' ?_
      rewrite [List.cons_append, contents_cons, List.append_assoc]
      exact List.prefix_refl _

theorem Row.restart (h : Row c w gone old cur) : Row.Kept c w (restart c w) := by
  unfold Capture.restart
  rw [h.current (List.Perm.refl _)]
  simp only [Except.map, List.getLast?_concat]
  rw [if_neg h.fits.not_gt]
  refine h.kept_same (h.halt.goto rfl ⟨rfl, rfl, ?_⟩)
  have hd := doomed_prefix (h.dir ▸ h.pairwise) (Nat.lt_of_lt_of_le Nat.zero_lt_two c.two_le_retain)
  rwa [h.dir, List.dropLast_concat, ← h.dir] at hd

theorem Row.step (h : Row c w gone old cur) (a : Action) : Row.Kept c w (step c w a) := by
  cases a with
  | chunk bytes =>
    simp only [Capture.step]
    split
    next hp =>
      have hagrees := h.agrees
      have hstream := h.stream
      rw [hp] at hagrees hstream
      refine h.kept_same ⟨h.dir, h.tiled, h.full, h.fits, h.safe, ?_, hagrees⟩
      rw [hstream]
      simp [Phase.unwritten]
    next => exact h.kept_same h
  | turn count => exact h.turn count
  | restart => exact h.restart

end Row

theorem run_concat (c : Limits) (actions : List Action) (a : Action) :
    run c (actions ++ [a]) = step c (run c actions) a := List.foldl_concat ..

/-- **The directory is a row after every run.** -/
theorem run_rowed (c : Limits) (actions : List Action) : Rowed c (run c actions) := by
  induction actions using List.reverseRecOn with
  | nil =>
    exact ⟨[], [], ⟨0, []⟩, rfl, ⟨rfl, trivial⟩, fun _ hg => (List.not_mem_nil hg).elim, Nat.zero_le _, Nat.zero_le _, rfl,
      trivial⟩
  | append_singleton actions a ih =>
    obtain ⟨gone, old, cur, h⟩ := ih
    rw [run_concat]
    exact (h.step a).1

theorem run_saved (c : Limits) (past more : List Action) : (run c past).saved <+: (run c (past ++ more)).saved := by
  induction more using List.reverseRecOn with
  | nil =>
    rewrite [List.append_nil]
    exact List.prefix_refl _
  | append_singleton more a ih =>
    obtain ⟨gone, old, cur, h⟩ := run_rowed c (past ++ more)
    rw [← List.append_assoc, run_concat]
    exact ih.trans (h.step a).2

end Capture
end TmuxWorktree
