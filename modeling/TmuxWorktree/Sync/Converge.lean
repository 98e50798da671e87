import TmuxWorktree.Sync.Cut
import TmuxWorktree.Sync.Obligations
/-!
# Converge — the cache is always a copy of the state at its cursor

Whatever the host sends, and in whatever order, the cache of its epoch is an exact copy of the host's state at the cursor.
A live cache has reached its watermark, and the cursor only goes back with a fresh hello or with a commit that is not below
the watermark.
-/
namespace TmuxWorktree
namespace Sync

variable {C : Core} {H : Host} {s s' : Store} {n : Namespace} {a a' : Authority} {t t' : Tables} {op : Op}

/-! ## The invariant -/

/-- The cache of a living epoch. -/
structure Cached (H : Host) (a : Authority) (t : Tables) : Prop where
  copy : ∀ c, a.cursorEventSeq = some c → c ≤ H.history.last ∧ Counted a t (H.history.states c)
  live : a.phase = .live → ∃ c, a.cursorEventSeq = some c ∧ a.requiredThroughEventSeq ≤ c
  staging : Staging H t
  events : ∀ e ∈ t.events, H.Event e

def Kept (H : Host) (n : Namespace) (s : Store) : Prop := ∀ a, s.authority n = some a → Cached H a (s.tables n)

theorem Counted.carry {h : HostState} (hc : Counted a t h) (hcache : Cache a a' t t') : Counted a' t' h := by
  have hrecords : t'.recordsOf = t.recordsOf := by
    unfold Tables.recordsOf
    rw [hcache.scopes, hcache.sessions]
  refine ⟨⟨⟨?_, ?_⟩, ?_, ?_⟩, hcache.scopesRevision.trans hc.scopesRevision, ?_, ?_⟩
  · rw [hcache.scopes]
    exact hc.copies.distinct.1
  · rw [hcache.sessions]
    exact hc.copies.distinct.2
  · unfold Tables.scope
    rw [hcache.scopes]
    exact hc.copies.scopes
  · unfold Tables.sessionAt
    rw [hcache.sessions]
    exact hc.copies.sessions
  · rw [hcache.count, hrecords]
    exact hc.count
  · rw [hcache.bytes, hrecords]
    exact hc.bytes

theorem Cached.carry (hc : Cached H a t) (hcache : Cache a a' t t') :
    ∀ c, a'.cursorEventSeq = some c → c ≤ H.history.last ∧ Counted a' t' (H.history.states c) := by
  intro c hcur
  obtain ⟨hle, hcount⟩ := hc.copy c (hcache.cursor.symm.trans hcur)
  exact ⟨hle, hcount.carry hcache⟩

theorem Reset.copy (hr : Reset a' t') :
    ∀ c, a'.cursorEventSeq = some c → c ≤ H.history.last ∧ Counted a' t' (H.history.states c) := by
  intro c hcur
  rw [hr.cursor] at hcur
  cases hcur

theorem staging_none (hnone : t.snapshot = none) (hrecords : t.records = []) : Staging H t := by
  refine ⟨fun _ => hrecords, fun st hst => ?_⟩
  rw [hnone] at hst
  cases hst

theorem Staging.same (hs : Staging H t) (hsnapshot : t'.snapshot = t.snapshot) (hrecords : t'.records = t.records) :
    Staging H t' := by
  refine ⟨fun hnone => hrecords.trans (hs.idle (hsnapshot.symm.trans hnone)), fun st hst => ?_⟩
  obtain ⟨cut, hf⟩ := hs.cut st (hsnapshot.symm.trans hst)
  refine ⟨cut, hf.named, hf.through, hf.scopesRevision, hf.next, hf.complete, ?_, ?_, ?_, ?_⟩
  · rw [hrecords]
    exact hf.records
  · rw [hrecords]
    exact hf.indices
  · rw [hrecords]
    exact hf.ids
  · rw [hrecords]
    exact hf.received

/-- **The next event of the host leads to the next copy.** -/
theorem Counted.event {e : Event} {c : Nat} (he : H.Event e) (hcur : a.cursorEventSeq = some c)
    (hc : Counted a t (H.history.states c)) (hadv : Advances a t e a' t') :
    e.eventSeq ≤ H.history.last ∧ Counted a' t' (H.history.states e.eventSeq) := by
  obtain ⟨c', hc', hseq⟩ := hadv.next
  obtain rfl := Option.some.inj (hcur.symm.trans hc')
  have hlast := he.within
  have hfollows := H.history.follows c (by omega)
  rw [← hseq, ← he.change, ← he.resulting] at hfollows
  exact ⟨hlast, hc.advance hfollows hadv⟩

theorem AdvancesAll.counted {events : List Event} (hall : AdvancesAll a t events a' t') (hevents : ∀ e ∈ events, H.Event e)
    {c : Nat} (hcur : a.cursorEventSeq = some c) (hle : c ≤ H.history.last) (hc : Counted a t (H.history.states c)) :
    lastSeqOf c events ≤ H.history.last ∧ Counted a' t' (H.history.states (lastSeqOf c events)) := by
  induction hall generalizing c with
  | nil => exact ⟨hle, hc⟩
  | cons first _ ih =>
    rename_i e rest _
    obtain ⟨hle', hc'⟩ := hc.event (hevents e List.mem_cons_self) hcur first
    exact ih (fun e he => hevents e (List.mem_cons_of_mem _ he)) first.same.2.2.2.2.2 hle' hc'

/-- **A move of a living epoch keeps the cache a copy.** -/
theorem Moved.cached (hs : s.Sound) (ha : s.authority n = some a) (hc : Cached H a (s.tables n)) (hsends : H.Sends n op)
    (hj : a'.Journal) (hmoved : Moved C s n a (s.tables n) op a' t') : Cached H a' t' := by
  cases hmoved with
  | kept held pending phase required staging events =>
    refine ⟨?_, fun hl => ?_, hc.staging.same staging.1 staging.2, fun e he => ?_⟩
    · exact held.elim hc.carry fun hr => hr.2.copy
    · rw [phase] at hl
      cases hl
    · rcases events with hsame | hnil | ⟨e', hop, hn, happ, -⟩
      · exact hc.events e (hsame ▸ he)
      · rw [hnil] at he
        cases he
      · rw [happ] at he
        rcases List.mem_append.mp he with he | he
        · exact hc.events e he
        · subst hop
          rw [List.mem_singleton.mp he]
          exact hsends hn
  | released o held idle pending names required cleared =>
    refine ⟨held.elim hc.carry fun hr => hr.2.copy, fun hl => ?_, staging_none cleared.1 cleared.2.1, fun e he => ?_⟩
    · have := hj.resyncing (by rw [pending]; rfl)
      rw [this] at hl
      cases hl
    · rw [cleared.2.2] at he
      cases he
  | dropped cache idle pending gone phase required =>
    refine ⟨hc.carry cache, fun hl => ?_, staging_none rfl rfl, by simp [Tables.cleared]⟩
    rcases phase with hr | hsame
    · rw [hr] at hl
      cases hl
    · subst hsame
      exact hc.live hl
  | matched cache idle pending unstaged phase required reached =>
    exact ⟨hc.carry cache, fun _ => reached, staging_none rfl rfl, by simp [Tables.cleared]⟩
  | staged place idle phase taken =>
    obtain ⟨cut, hchunk⟩ := hsends place
    exact ⟨hc.carry ⟨rfl, rfl, rfl, rfl, rfl, rfl⟩, hc.live, hc.staging.chunk hchunk taken, hc.events⟩
  | applied place idle phase advances =>
    rename_i e
    have he : H.Event e := hsends place
    obtain ⟨c, hcur, hle⟩ := hc.live phase
    obtain ⟨hlast, hcount⟩ := hc.copy c hcur
    obtain ⟨hsnapshot, hrecords, hevents⟩ := advances.keeps
    obtain ⟨-, hrequired, -, -, -, hcursor⟩ := advances.same
    obtain ⟨c', hc', hseq⟩ := advances.next
    have hnext : e.eventSeq = c + 1 := by
      obtain rfl := Option.some.inj (hcur.symm.trans hc')
      exact hseq
    have hraised : Counted (a.raised e.eventSeq) (s.tables n) (H.history.states c) := hcount.carry (raised_cache _)
    refine ⟨fun c₁ hc₁ => ?_, fun _ => ⟨e.eventSeq, hcursor, ?_⟩, hc.staging.same hsnapshot hrecords, ?_⟩
    · obtain rfl := Option.some.inj (hcursor.symm.trans hc₁)
      exact Counted.event (a := a.raised e.eventSeq) he hcur hraised advances
    · rw [hrequired]
      refine max_le ?_ (le_refl _)
      omega
    · rw [hevents]
      exact hc.events
  | committed idle staging sound written advanced names =>
    rename_i st rows t₂ a₂ o
    obtain ⟨hlast, hcount⟩ := hc.staging.commit staging sound written
    have hbuffered : ∀ e ∈ s.bufferedAfter n st, H.Event e := fun e he =>
      hc.events e (bufferedEvents_mem (List.mem_of_mem_filter he))
    obtain ⟨hlast', hcount'⟩ := advanced.counted hbuffered rfl hlast hcount
    have hcursor := advanced.cursor (c := st.throughEventSeq) rfl
    refine ⟨fun c hc₁ => ?_, fun hl => ?_, staging_none rfl rfl, by simp [Tables.cleared]⟩
    · obtain rfl := Option.some.inj (hcursor.symm.trans hc₁)
      exact ⟨hlast', hcount'.carry ⟨rfl, rfl, rfl, rfl, rfl, rfl⟩⟩
    · cases hl
  | completed pending planned =>
    rename_i o plan
    refine ⟨hc.carry ⟨rfl, rfl, rfl, rfl, rfl, rfl⟩, fun hl => ?_, hc.staging, hc.events⟩
    cases plan with
    | restartSnapshot => cases hl
    | queryPendingCommands => exact (hs.journal_of ha).query planned

theorem Founded.cached {h : Hello} (hf : Founded s h s' a') : Cached H a' (s'.tables h.namespace) := by
  rw [hf.rows]
  refine ⟨hf.reset.copy, fun hl => ?_, staging_none rfl rfl, by simp⟩
  rw [hf.phase] at hl
  cases hl

/-- **A turn keeps the epoch a copy.** -/
theorem Turn.kept (hs : s.Sound) (hk : Kept H n s) (hsends : H.Sends n op) (ht : Turn C s op s') : Kept H n s' := by
  intro b hb
  cases ht with
  | stays => exact hk b hb
  | moved before place journal moved =>
    rename_i m a a' t'
    by_cases hm : n = m
    · subst hm
      obtain rfl := Option.some.inj (hb.symm.trans place.here)
      rw [place.rows]
      exact moved.cached hs before (hk a before) hsends journal
    · rw [(place.elsewhere n hm).1] at hb
      rw [(place.elsewhere n hm).2]
      exact hk b hb
  | founded journal founded =>
    rename_i plan h a'
    by_cases hm : n = h.namespace
    · subst hm
      obtain rfl := Option.some.inj (hb.symm.trans founded.here)
      exact founded.cached
    · by_cases hi : n.connectIdentity = h.namespace.connectIdentity
      · rw [(founded.others n hm hi).1] at hb
        cases hb
      · rw [(founded.elsewhere n hi).1] at hb
        rw [(founded.elsewhere n hi).2]
        exact hk b hb
  | cleared profileId =>
    rw [authority_cleared] at hb
    rw [tables_cleared]
    split at hb
    · cases hb
    · rename_i hm
      rw [if_neg hm]
      exact hk b hb

theorem after_kept (hs : s.Sound) (hk : Kept H n s) (hsends : H.Sends n op) : Kept H n (after C s op) := by
  unfold after
  split
  · rename_i h
    exact Turn.kept hs hk hsends ((step_turns hs op).value h)
  · exact hk

theorem run_kept (C : Core) {ops : List Op} (hsends : ∀ op ∈ ops, H.Sends n op) : Kept H n (run C ops) := by
  have hfold : ∀ (l : List Op) s, (∀ op ∈ l, H.Sends n op) → s.Sound → Kept H n s → Kept H n (l.foldl (after C) s) := by
    intro l
    induction l with
    | nil => exact fun s _ _ hk => hk
    | cons op l ih =>
      intro s hl hs hk
      have hop := hl op List.mem_cons_self
      exact ih _ (fun op hm => hl op (List.mem_cons_of_mem _ hm)) (after_sound hs op) (after_kept hs hk hop)
  refine hfold ops Store.empty hsends Store.sound_empty fun a ha => ?_
  cases ha

/-! ## The cursor -/

/-- How an operation may leave the cursor of a living epoch: not before where it was, but for a fresh hello, and for a
commit, which is never below the watermark. -/
def CursorKept (n : Namespace) (op : Op) (a a' : Authority) : Prop :=
  ∀ c, a.cursorEventSeq = some c → (∃ c', a'.cursorEventSeq = some c' ∧ c ≤ c') ∨
    op.fresh n ∧ a'.cursorEventSeq = none ∨
    ∃ snapshotId c', op = .commitSnapshot n snapshotId ∧ a'.cursorEventSeq = some c' ∧ a.requiredThroughEventSeq ≤ c'

theorem Moved.cursorKept (hmoved : Moved C s n a t op a' t') : CursorKept n op a a' := by
  intro c hc
  have hheld : ∀ {b : Authority} {u : Tables}, Held n op a b t u →
      (∃ c', b.cursorEventSeq = some c' ∧ c ≤ c') ∨ op.fresh n ∧ b.cursorEventSeq = none ∨
        ∃ snapshotId c', op = .commitSnapshot n snapshotId ∧ b.cursorEventSeq = some c' ∧ a.requiredThroughEventSeq ≤ c' := by
    intro b u hh
    rcases hh with hcache | ⟨hfresh, hreset⟩
    · exact .inl ⟨c, hcache.cursor.trans hc, le_refl c⟩
    · exact .inr (.inl ⟨hfresh, hreset.cursor⟩)
  cases hmoved with
  | kept held => exact hheld held
  | released o held => exact hheld held
  | dropped cache => exact hheld (.inl cache)
  | matched cache => exact hheld (.inl cache)
  | staged => exact .inl ⟨c, hc, le_refl c⟩
  | applied place idle phase advances =>
    obtain ⟨c', hc', hseq⟩ := advances.next
    obtain rfl := Option.some.inj (hc.symm.trans hc')
    exact .inl ⟨_, advances.same.2.2.2.2.2, by omega⟩
  | committed idle staging sound written advanced names =>
    exact .inr (.inr ⟨_, _, rfl, advanced.cursor rfl, (commitFailure_ends.value sound).2 rfl⟩)
  | completed => exact .inl ⟨c, hc, le_refl c⟩

/-- **A turn keeps the cursor of an epoch that lives on.** -/
theorem Turn.cursorKept (hs : s.Sound) (ht : Turn C s op s') (ha : s.authority n = some a)
    (ha' : s'.authority n = some a') : CursorKept n op a a' := by
  cases ht with
  | stays =>
    obtain rfl := Option.some.inj (ha.symm.trans ha')
    exact fun c hc => .inl ⟨c, hc, le_refl c⟩
  | moved before place journal moved =>
    rename_i m b b' t'
    by_cases hm : n = m
    · subst hm
      obtain rfl := Option.some.inj (ha.symm.trans before)
      obtain rfl := Option.some.inj (ha'.symm.trans place.here)
      exact moved.cursorKept
    · rw [(place.elsewhere n hm).1, ha] at ha'
      obtain rfl := Option.some.inj ha'
      exact fun c hc => .inl ⟨c, hc, le_refl c⟩
  | founded journal founded =>
    rename_i plan h b'
    by_cases hm : n = h.namespace
    · subst hm
      obtain rfl := Option.some.inj (ha'.symm.trans founded.here)
      rcases founded.disposition with hfresh | hnone
      · exact fun c _ => .inr (.inl ⟨⟨rfl, hfresh⟩, founded.reset.cursor⟩)
      · rw [hnone] at ha
        cases ha
    · by_cases hi : n.connectIdentity = h.namespace.connectIdentity
      · rw [(founded.others n hm hi).1] at ha'
        cases ha'
      · rw [(founded.elsewhere n hi).1, ha] at ha'
        obtain rfl := Option.some.inj ha'
        exact fun c hc => .inl ⟨c, hc, le_refl c⟩
  | cleared profileId =>
    rw [authority_cleared] at ha'
    split at ha'
    · cases ha'
    · rw [ha] at ha'
      obtain rfl := Option.some.inj ha'
      exact fun c hc => .inl ⟨c, hc, le_refl c⟩

theorem after_cursorKept (hs : s.Sound) (ha : s.authority n = some a) (ha' : (after C s op).authority n = some a') :
    CursorKept n op a a' := by
  unfold after at ha'
  split at ha'
  · rename_i h
    exact Turn.cursorKept hs ((step_turns hs op).value h) ha ha'
  · rw [ha] at ha'
    obtain rfl := Option.some.inj ha'
    exact fun c hc => .inl ⟨c, hc, le_refl c⟩

/-! ## The convergence -/

/-- The cache of the epoch is a copy of the host's state at its cursor, and has reached its watermark when it is live. -/
structure Converged (H : Host) (n : Namespace) (s : Store) : Prop where
  mirrors : ∀ a c, s.authority n = some a → a.cursorEventSeq = some c →
    c ≤ H.history.last ∧ Mirrors a (s.tables n) (H.history.states c)
  live : ∀ a, s.authority n = some a → a.phase = .live → ∃ c, a.cursorEventSeq = some c ∧ a.requiredThroughEventSeq ≤ c

/-- **The cache converges to the host**: after every run whose events and snapshots are the host's, it is a copy of the state
at its cursor, and no operation takes the cursor back but a fresh hello and a commit at or above the watermark. -/
theorem cache_converges (C : Core) (H : Host) (n : Namespace) (ops : List Op) (hsends : ∀ op ∈ ops, H.Sends n op) :
    Converged H n (run C ops) ∧ ∀ op a a', (run C ops).authority n = some a →
      (after C (run C ops) op).authority n = some a' → CursorKept n op a a' := by
  have hkept := run_kept C hsends
  refine ⟨⟨fun a c ha hc => ?_, fun a ha hl => (hkept a ha).live hl⟩, fun op a a' ha ha' => ?_⟩
  · obtain ⟨hle, hcount⟩ := (hkept a ha).copy c hc
    exact ⟨hle, hcount.mirrors⟩
  · exact after_cursorKept (run_sound C ops) ha ha'

/-! ## A cut above the watermark, and one below the cursor -/

namespace Sample

def epoch : Namespace := ⟨"p", "u", "c", "h", "e"⟩

def item : ScopeItem := ⟨"x", "home", .local, .online, []⟩

def bare (revision : Nat) : HostState := ⟨fun _ => none, fun _ => none, revision, by simp, by simp⟩

/-- A scope comes with the first event and goes with the second. -/
def state (n : Nat) : HostState :=
  if n = 1 then
    { scopes := fun id => if id = item.scopeId then some ⟨item, 0⟩ else none
      sessions := fun _ => none
      scopesRevision := 1
      scope_key := by
        intro id s h
        split at h
        · rename_i hid
          cases h
          exact hid.symm
        · cases h
      session_key := by simp }
  else bare n

def history : History where
  last := 2
  states := state
  change := fun n => if n = 1 then .scopeUpsert item else .scopeDelete item.scopeId
  resulting := id
  follows := by
    intro n hn
    have hcases : n = 0 ∨ n = 1 := by omega
    rcases hcases with rfl | rfl
    · refine ⟨rfl, rfl, rfl, ?_⟩
      funext id
      by_cases hid : id = item.scopeId
      · subst hid
        simp [state, bare]
      · simp [state, bare, hid]
    · refine ⟨rfl, rfl, ?_, ?_⟩
      · funext k
        simp [state, bare]
      · funext id
        by_cases hid : id = item.scopeId
        · subst hid
          simp [state, bare]
        · simp [state, bare, hid]

theorem bare_lists (revision : Nat) : (bare revision).Lists [] := by
  constructor <;> simp [bare]

def host : Host where
  history := history
  cut := fun requestId snapshotId =>
    if requestId = "r2" ∧ snapshotId = "s2" then some ⟨2, [[]], le_refl 2, bare_lists 2⟩
    else if requestId = "r0" ∧ snapshotId = "s0" then some ⟨0, [[]], Nat.zero_le 2, bare_lists 0⟩
    else none

def digest : String := "T1PNoYwrqgwDVLtfmj7L5e0Sq02OEbqHPC8RFhICuUU"

def core : Core := ⟨fun text => if text = "[]" then digest else ""⟩

def plan : ConnectPlan :=
  ⟨{ identity := epoch.connectIdentity, resume := none, recovery := .empty, durableHostEpoch := none
     requiredThroughEventSeq := none }, rfl⟩

def hello : Hello := ⟨epoch, 0, none, .fresh, rfl⟩

def chunk (requestId snapshotId : String) (through : Nat) : ChunkFields :=
  { «namespace» := epoch, snapshotRequestId := requestId, snapshotId := snapshotId, snapshotCreatedAtMs := 1
    snapshotLeaseExpiresAtMs := 2, snapshotAbsoluteExpiresAtMs := 3, chunkIndex := 0, requestedCursor := none
    isLast := true, nextCursor := none, throughEventSeq := through, scopesRevision := through, totalRecords := 0
    totalCanonicalBytes := 2, cutDigest := digest, records := [], rawUtf8Bytes := 400 }

/-- The snapshot of the last state is committed before any event has come. -/
def ahead : List Op :=
  [.hello plan hello, .stageSnapshotChunk ⟨chunk "r2" "s2" 2, by decide +kernel⟩, .commitSnapshot epoch "s2",
    .completeSnapshotRelease ⟨epoch, "r2", "s2", some 2, .completed⟩]

/-- Then the snapshot of the first state is asked for again. -/
def back : List Op :=
  ahead ++ [.beginManualResync epoch, .stageSnapshotChunk ⟨chunk "r0" "s0" 0, by decide +kernel⟩]

theorem chunk_sent {requestId snapshotId : String} {through : Nat} {cut : Cut history}
    (hnamed : host.cut requestId snapshotId = some cut) (hthrough : through = cut.through) (hparts : cut.parts = [[]])
    (hrevision : through = (state cut.through).scopesRevision) : host.Chunk (chunk requestId snapshotId through) cut where
  named := hnamed
  through := hthrough
  scopesRevision := hrevision
  part := by
    rw [hparts]
    rfl
  isLast := by
    rw [hparts]
    exact ⟨fun _ => rfl, fun _ => rfl⟩

theorem ahead_sent : ∀ op ∈ ahead, host.Sends epoch op := by
  intro op hop
  simp only [ahead, List.mem_cons, List.not_mem_nil, or_false] at hop
  rcases hop with rfl | rfl | rfl | rfl
  · trivial
  · exact fun _ => ⟨⟨2, [[]], le_refl 2, bare_lists 2⟩, chunk_sent rfl rfl rfl rfl⟩
  · trivial
  · trivial

theorem back_sent : ∀ op ∈ back, host.Sends epoch op := by
  intro op hop
  rcases List.mem_append.mp hop with hop | hop
  · exact ahead_sent op hop
  · simp only [List.mem_cons, List.not_mem_nil, or_false] at hop
    rcases hop with rfl | rfl
    · trivial
    · exact fun _ => ⟨⟨0, [[]], Nat.zero_le 2, bare_lists 0⟩, chunk_sent rfl rfl rfl rfl⟩

theorem ahead_ends : (run core ahead).authority epoch =
    some { «namespace» := epoch, cursorEventSeq := some 2, requiredThroughEventSeq := 0, scopesRevision := some 2
           phase := .live, cacheRecordCount := 0, cacheCanonicalBytes := 2 } := by
  decide +kernel

theorem back_ends : (run core back).authority epoch =
      some { «namespace» := epoch, cursorEventSeq := some 2, requiredThroughEventSeq := 0, scopesRevision := some 2
             phase := .resyncing, cacheRecordCount := 0, cacheCanonicalBytes := 2 } ∧
    ((after core (run core back) (.commitSnapshot epoch "s0")).authority epoch).map Authority.cursorEventSeq =
      some (some 0) := by
  decide +kernel

end Sample

theorem cache_converges_ahead :
    Mirrors { «namespace» := Sample.epoch, cursorEventSeq := some 2, requiredThroughEventSeq := 0, scopesRevision := some 2
              phase := .live, cacheRecordCount := 0, cacheCanonicalBytes := 2 }
      ((run Sample.core Sample.ahead).tables Sample.epoch) (Sample.state 2) :=
  ((cache_converges Sample.core Sample.host Sample.epoch Sample.ahead Sample.ahead_sent).1.mirrors _ 2 Sample.ahead_ends
    rfl).2

/-- A live cache may be ahead of its watermark, and a commit may take the cursor back. -/
theorem ahead_and_back :
    ¬ (∀ (C : Core) (H : Host) (n : Namespace) (ops : List Op), (∀ op ∈ ops, H.Sends n op) →
        ∀ a, (run C ops).authority n = some a → a.phase = .live → a.cursorEventSeq = some a.requiredThroughEventSeq) ∧
    ¬ (∀ (C : Core) (H : Host) (n : Namespace) (ops : List Op), (∀ op ∈ ops, H.Sends n op) →
        ∀ op, H.Sends n op → ¬ op.fresh n → ∀ a a' c, (run C ops).authority n = some a →
          (after C (run C ops) op).authority n = some a' → a.cursorEventSeq = some c →
          ∃ c', a'.cursorEventSeq = some c' ∧ c ≤ c') := by
  constructor
  · intro hclaim
    have := hclaim Sample.core Sample.host Sample.epoch Sample.ahead Sample.ahead_sent _ Sample.ahead_ends rfl
    cases this
  · intro hclaim
    obtain ⟨hbefore, hafter⟩ := Sample.back_ends
    obtain ⟨a', ha', hcursor⟩ := Option.map_eq_some_iff.mp hafter
    obtain ⟨c', hc', hle⟩ := hclaim Sample.core Sample.host Sample.epoch Sample.back Sample.back_sent
      (.commitSnapshot Sample.epoch "s0") trivial id _ a' 2 hbefore ha' rfl
    rw [hcursor] at hc'
    cases hc'
    omega

end Sync
end TmuxWorktree
