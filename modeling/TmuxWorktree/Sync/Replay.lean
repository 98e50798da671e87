import TmuxWorktree.Sync.Abreast
/-!
# Replay — when the validation of a buffer is its application

A complete staging is committed with the buffered events after it: they are validated on the staging, and then applied to
the rows of the commit.  The two agree on every list of events, unless an event that both would take is of a session that
the staging has in a scope that an earlier event deleted.
-/
namespace TmuxWorktree
namespace Sync

variable {C : Core} {t rows : Tables} {snapshotId : String} {v v' : Shadows} {gone : List String} {s s' : Store}
  {n : Namespace} {a a' : Authority} {e : Event} {events : List Event}

/-! ## One event -/

/-- The end of a turn of `validateBufferedEvents`. -/
def Event.settles (e : Event) : Except ResyncReason Shadows → Except Fault (Except ResyncReason Shadows)
  | .error reason => .ok (.error reason)
  | .ok changed =>
    if changed.overLimit then .ok (.error .snapshotLimitExceeded) else .ok (.ok { changed with lastSeq := e.eventSeq })

/-- One turn of the loop of `validateBufferedEvents`. -/
def Shadows.take (t : Tables) (snapshotId : String) (v : Shadows) (e : Event) : Except Fault (Except ResyncReason Shadows) := do
  let next ← increment v.lastSeq
  if e.eventSeq ≠ next then return .error .eventGap
  else
    let changed ← v.change t snapshotId e.resultingRevision e.change
    e.settles changed

theorem validateFrom_cons (rest : List Event) : validateFrom t snapshotId v (e :: rest) = (do
    match ← v.take t snapshotId e with
    | .error reason => return ⟨v.lastSeq, some reason⟩
    | .ok v' => validateFrom t snapshotId v' rest) := by
  rw [validateFrom, Shadows.take]
  cases increment v.lastSeq with
  | error f => rfl
  | ok next =>
    dsimp only [bind, Except.bind]
    split
    · rfl
    · cases v.change t snapshotId e.resultingRevision e.change with
      | error f => rfl
      | ok changed =>
        cases changed with
        | error reason => rfl
        | ok changed =>
          dsimp only [Event.settles]
          split <;> rfl

/-- The count and the bytes are within the limits of a snapshot. -/
def Fits (recordCount jsonBytes : Int) : Prop :=
  0 ≤ recordCount ∧ recordCount ≤ maxSnapshotRecords ∧ canonicalArrayBytes recordCount jsonBytes ≤ maxSnapshotCanonicalBytes

instance (recordCount jsonBytes : Int) : Decidable (Fits recordCount jsonBytes) := inferInstanceAs (Decidable (_ ∧ _ ∧ _))

theorem overLimit_iff : v.overLimit = true ↔ ¬ Fits v.recordCount v.jsonBytes := by
  unfold Shadows.overLimit Fits
  simp only [Bool.or_eq_true, decide_eq_true_eq]
  omega

theorem Fits.less {count bytes more : Int} (hcount : 0 ≤ count) (hmore : 0 ≤ more) (h : Fits (count + 1) (bytes + more)) :
    Fits count bytes := by
  unfold Fits canonicalArrayBytes at *
  omega

/-- **The validation and the application stand at one event.** -/
structure Abreast (t : Tables) (snapshotId : String) (gone : List String) (v : Shadows) (s : Store) (n : Namespace)
    (a : Authority) : Prop where
  mirrored : Mirrored t snapshotId gone v (s.tables n)
  cursor : a.cursorEventSeq = some v.lastSeq
  scopesRevision : a.scopesRevision = some v.scopesRevision
  count : a.cacheRecordCount = v.recordCount
  bytes : canonicalJsonBytesFromArray a.cacheCanonicalBytes a.cacheRecordCount = v.jsonBytes
  counted : 0 ≤ v.recordCount

/-- An event strays: the validation would take it for the session that the staging has, and the rows have it no more. -/
def Astray (t : Tables) (snapshotId : String) (gone : List String) (s : Store) (a : Authority) (e : Event) : Prop :=
  ∃ c prior owning, a.cursorEventSeq = some c ∧ increment c = .ok e.eventSeq ∧
    e.change.lost t snapshotId gone = some prior ∧ (s.tables e.namespace).scope e.change.scopeId = some owning ∧
    increment owning.sessionsRevision = .ok e.resultingRevision ∧
    Fits (a.cacheRecordCount + (e.change.replaces prior).1)
      (canonicalJsonBytesFromArray a.cacheCanonicalBytes a.cacheRecordCount + (e.change.replaces prior).2 +
        owning.moved e.resultingRevision)

/-- The end of `applyLiveEvent`. -/
def Event.lands (e : Event) (s : Store) (a : Authority) : Option Effect → Except Fault (Option (Store × Authority))
  | none => .ok none
  | some f =>
    let recordCount := a.cacheRecordCount + f.records
    let jsonBytes := canonicalJsonBytesFromArray a.cacheCanonicalBytes a.cacheRecordCount + f.bytes
    if Fits recordCount jsonBytes then
      .ok (some (s.onTables e.namespace fun _ => f.rows,
        { a with cursorEventSeq := some e.eventSeq, scopesRevision := f.scopesRevision
                 cacheRecordCount := recordCount, cacheCanonicalBytes := canonicalArrayBytes recordCount jsonBytes }))
    else .ok none

theorem applyLiveEvent_eq {c : Nat} (hc : a.cursorEventSeq = some c) : applyLiveEvent s a e = (do
    let next ← increment c
    if e.eventSeq ≠ next then return none
    else
      let effect ← (s.tables e.namespace).applyChange a.scopesRevision e.resultingRevision e.change
      e.lands s a effect) := by
  unfold applyLiveEvent
  rw [hc]
  dsimp only
  cases increment c with
  | error f => rfl
  | ok next =>
    dsimp only [bind, Except.bind]
    split
    · rfl
    · cases (s.tables e.namespace).applyChange a.scopesRevision e.resultingRevision e.change with
      | error f => rfl
      | ok effect =>
        cases effect with
        | none => rfl
        | some effect =>
          dsimp only [Event.lands]
          rw [← ite_not]
          refine if_congr ?_ rfl rfl
          unfold Fits
          simp only [Bool.or_eq_true, decide_eq_true_eq]
          omega

theorem Abreast.next {gone' : List String} {f : Effect} (h : Abreast t snapshotId gone v s n a) (he : e.namespace = n)
    (hs : Shifted t snapshotId gone' v v' f) (hfits : Fits v'.recordCount v'.jsonBytes) :
    Abreast t snapshotId gone' { v' with lastSeq := e.eventSeq } (s.onTables e.namespace fun _ => f.rows) n
      { a with cursorEventSeq := some e.eventSeq, scopesRevision := f.scopesRevision
               cacheRecordCount := a.cacheRecordCount + f.records
               cacheCanonicalBytes := canonicalArrayBytes (a.cacheRecordCount + f.records)
                 (canonicalJsonBytesFromArray a.cacheCanonicalBytes a.cacheRecordCount + f.bytes) } where
  mirrored := by
    subst he
    rw [Store.tables_onTables_self]
    exact ⟨hs.mirrored.distinct, hs.mirrored.housed, hs.mirrored.scope, hs.mirrored.session, hs.mirrored.lost⟩
  cursor := rfl
  scopesRevision := hs.scopesRevision
  count := by rw [hs.count, ← h.count]
  bytes := by rw [fromArray_array, h.bytes, hs.bytes]
  counted := hfits.1

theorem turn_alike (h : Abreast t snapshotId gone v s n a) (he : e.namespace = n)
    (hc : ChangeAlike t snapshotId gone v (s.tables e.namespace) e.resultingRevision e.change) :
    Alike (fun v' sa => Abreast t snapshotId (e.change.deleted ++ gone) v' sa.1 n sa.2)
      (v.change t snapshotId e.resultingRevision e.change >>= e.settles)
      ((s.tables e.namespace).applyChange (some v.scopesRevision) e.resultingRevision e.change >>= e.lands s a) := by
  refine Alike.bind hc (fun reason => .refuses reason) fun v' f hs => ?_
  have hfits : Fits (a.cacheRecordCount + f.records)
      (canonicalJsonBytesFromArray a.cacheCanonicalBytes a.cacheRecordCount + f.bytes) ↔ Fits v'.recordCount v'.jsonBytes := by
    rw [h.bytes, h.count, hs.count, hs.bytes]
  dsimp only [Event.settles, Event.lands]
  by_cases hfit : Fits v'.recordCount v'.jsonBytes
  · rw [if_neg (fun ho => overLimit_iff.mp ho hfit), if_pos (hfits.mpr hfit)]
    exact .takes (h.next he hs hfit)
  · rw [if_pos (overLimit_iff.mpr hfit), if_neg fun hf => hfit (hfits.mp hf)]
    exact .refuses _

/-- **An event that does not stray ends alike.** -/
theorem step_alike (h : Abreast t snapshotId gone v s n a) (he : e.namespace = n)
    (hnot : ¬ Astray t snapshotId gone s a e) :
    Alike (fun v' sa => Abreast t snapshotId (e.change.deleted ++ gone) v' sa.1 n sa.2) (v.take t snapshotId e)
      (applyLiveEvent s a e) := by
  rw [applyLiveEvent_eq h.cursor, h.scopesRevision]
  unfold Shadows.take
  refine Alike.seq fun next hnext => Alike.ite (fun _ => .refuses _) fun hseq => ?_
  have hsucc : increment v.lastSeq = .ok e.eventSeq := hnext.trans (congrArg _ (not_not.mp hseq).symm)
  have hmirrored := h.mirrored
  rw [← he] at hmirrored
  cases hl : e.change.lost t snapshotId gone with
  | none => exact turn_alike h he (change_alike hmirrored hl)
  | some prior =>
    by_cases howner : ∃ owning, (s.tables e.namespace).scope e.change.scopeId = some owning ∧
        increment owning.sessionsRevision = .ok e.resultingRevision
    · obtain ⟨owning, ho, hr⟩ := howner
      obtain ⟨v', hv', hcount, hbytes, heffect⟩ := lost_change hmirrored hl ho hr (some v.scopesRevision)
      -- the validation is over its limit, and the application, which has more, is so too
      have hover : ¬ Fits v'.recordCount v'.jsonBytes := by
        intro hfits
        refine hnot ⟨v.lastSeq, prior, owning, h.cursor, hsucc, hl, ho, hr, ?_⟩
        rw [h.bytes, h.count, ← hcount, ← hbytes]
        exact hfits
      rw [hv']
      dsimp only [bind, Except.bind, Event.settles]
      rw [if_pos (overLimit_iff.mpr hover)]
      rcases heffect with hnone | ⟨f, hf, hzero, hrecords, hbytes'⟩
      · rw [hnone]
        exact .refuses _
      · rw [hf]
        dsimp only [Event.lands]
        rw [if_neg]
        · exact .refuses _
        · intro hfits
          rw [h.bytes, h.count, hrecords, hbytes'] at hfits
          have hsum : v.jsonBytes + ((e.change.replaces prior).2 + prior.canonicalBytes + owning.moved e.resultingRevision) =
              v'.jsonBytes + prior.canonicalBytes := by omega
          rw [hsum] at hfits
          have hsame : v'.recordCount = v.recordCount := by omega
          refine hover (Fits.less ?_ (Int.natCast_nonneg prior.canonicalBytes) ?_)
          · rw [hsame]
            exact h.counted
          · rw [hsame]
            exact hfits
    · exact turn_alike h he (lost_refused hmirrored hl fun owning ho hr => howner ⟨owning, ho, hr⟩)

/-- **An event that strays does not**: the validation takes it, and the application refuses it or adds a record more. -/
theorem step_astray (h : Abreast t snapshotId gone v s n a) (he : e.namespace = n)
    (hastray : Astray t snapshotId gone s a e) : ∃ v', v.take t snapshotId e = .ok (.ok v') ∧
      ∀ sa', applyLiveEvent s a e = .ok (some sa') → sa'.2.cacheRecordCount ≠ v'.recordCount := by
  obtain ⟨c, prior, owning, hc, hnext, hl, ho, hr, hfits⟩ := hastray
  obtain rfl := Option.some.inj (h.cursor.symm.trans hc)
  have hmirrored := h.mirrored
  rw [← he] at hmirrored
  obtain ⟨v', hv', hcount, hbytes, heffect⟩ := lost_change hmirrored hl ho hr (some v.scopesRevision)
  rw [h.bytes, h.count, ← hcount, ← hbytes] at hfits
  refine ⟨{ v' with lastSeq := e.eventSeq }, ?_, fun sa' hsa' => ?_⟩
  · unfold Shadows.take
    rw [hnext]
    dsimp only [bind, Except.bind]
    rw [if_neg (not_not.mpr rfl), hv']
    dsimp only [Event.settles]
    rw [if_neg fun hover => overLimit_iff.mp hover hfits]
  · rw [applyLiveEvent_eq h.cursor, h.scopesRevision, hnext] at hsa'
    dsimp only [bind, Except.bind] at hsa'
    rw [if_neg (not_not.mpr rfl)] at hsa'
    rcases heffect with hnone | ⟨f, hf, hzero, hrecords, -⟩
    · rw [hnone] at hsa'
      cases hsa'
    · rw [hf] at hsa'
      dsimp only [Event.lands] at hsa'
      split at hsa'
      · cases hsa'
        show a.cacheRecordCount + f.records ≠ v'.recordCount
        have := h.count
        omega
      · cases hsa'

/-! ## A list of events -/

/-- The record count and the JSON bytes after each event that the validation takes. -/
def Shadows.totals (t : Tables) (snapshotId : String) : Shadows → List Event → List (Int × Int)
  | _, [] => []
  | v, e :: rest =>
    match v.take t snapshotId e with
    | .ok (.ok v') => (v'.recordCount, v'.jsonBytes) :: v'.totals t snapshotId rest
    | _ => []

/-- The record count and the JSON bytes after each event that is applied. -/
def appliedTotals : Store × Authority → List Event → List (Int × Int)
  | _, [] => []
  | (s, a), e :: rest =>
    match applyLiveEvent s a e with
    | .ok (some (s', a')) =>
      (a'.cacheRecordCount, canonicalJsonBytesFromArray a'.cacheCanonicalBytes a'.cacheRecordCount) ::
        appliedTotals (s', a') rest
    | _ => []

/-- **The validation of a list of events is their application**: it finds no failure just when they can all be applied, it
counts what they count, and when it fails, it names the event before the first that is refused. -/
structure Agree (t : Tables) (snapshotId : String) (v : Shadows) (sa : Store × Authority) (events : List Event) : Prop where
  accepts : (∃ last, validateFrom t snapshotId v events = .ok ⟨last, none⟩) ↔ ∃ sa', applyBuffered sa events = .ok sa'
  totals : v.totals t snapshotId events = appliedTotals sa events
  names : ∀ last reason, validateFrom t snapshotId v events = .ok ⟨last, some reason⟩ →
    ∃ before e rest s' a', events = before ++ e :: rest ∧ applyBuffered sa before = .ok (s', a') ∧
      a'.cursorEventSeq = some last ∧ applyLiveEvent s' a' e = .ok none

/-- An event of the list strays, and all before it are applied. -/
def Strays (t : Tables) (snapshotId : String) : List String → Store × Authority → List Event → Prop
  | _, _, [] => False
  | gone, (s, a), e :: rest => Astray t snapshotId gone s a e ∨
      ∃ sa', applyLiveEvent s a e = .ok (some sa') ∧ Strays t snapshotId (e.change.deleted ++ gone) sa' rest

theorem applyBuffered_cons (rest : List Event) : applyBuffered (s, a) (e :: rest) = (do
    let applied ← applyLiveEvent s a e
    let sa ← present applied .bufferedDiverged
    applyBuffered sa rest) := rfl

theorem Agree.cons {rest : List Event} {gone' : List String} (h : Abreast t snapshotId gone v s n a)
    (hstep : Alike (fun v' sa => Abreast t snapshotId gone' v' sa.1 n sa.2) (v.take t snapshotId e) (applyLiveEvent s a e))
    (hrest : ∀ v' sa', Abreast t snapshotId gone' v' sa'.1 n sa'.2 → applyLiveEvent s a e = .ok (some sa') →
      Agree t snapshotId v' sa' rest) : Agree t snapshotId v (s, a) (e :: rest) := by
  generalize hx : v.take t snapshotId e = x at hstep
  generalize hy : applyLiveEvent s a e = y at hstep hrest
  cases hstep with
  | throws f =>
    refine ⟨⟨?_, ?_⟩, ?_, ?_⟩
    · rintro ⟨last, hlast⟩
      rw [validateFrom_cons, hx] at hlast
      cases hlast
    · rintro ⟨sa', hsa'⟩
      rw [applyBuffered_cons, hy] at hsa'
      cases hsa'
    · rw [Shadows.totals, appliedTotals, hx, hy]
    · intro last reason hlast
      rw [validateFrom_cons, hx] at hlast
      cases hlast
  | refuses reason =>
    refine ⟨⟨?_, ?_⟩, ?_, ?_⟩
    · rintro ⟨last, hlast⟩
      rw [validateFrom_cons, hx] at hlast
      cases hlast
    · rintro ⟨sa', hsa'⟩
      rw [applyBuffered_cons, hy] at hsa'
      cases hsa'
    · rw [Shadows.totals, appliedTotals, hx, hy]
    · intro last reason' hlast
      rw [validateFrom_cons, hx] at hlast
      cases hlast
      exact ⟨[], e, rest, s, a, rfl, rfl, h.cursor, hy⟩
  | takes related =>
    rename_i v' sa'
    obtain ⟨s', a'⟩ := sa'
    have hagree := hrest v' (s', a') related rfl
    refine ⟨?_, ?_, ?_⟩
    · rw [validateFrom_cons, applyBuffered_cons, hx, hy]
      exact hagree.accepts
    · rw [Shadows.totals, appliedTotals, hx, hy]
      have hcount : a'.cacheRecordCount = v'.recordCount := related.count
      have hbytes : canonicalJsonBytesFromArray a'.cacheCanonicalBytes a'.cacheRecordCount = v'.jsonBytes := related.bytes
      dsimp only
      rw [hagree.totals, hbytes, hcount]
    · intro last reason hlast
      rw [validateFrom_cons, hx] at hlast
      obtain ⟨before, e', rest', s₁, a₁, rfl, happlied, hcursor, hnone⟩ := hagree.names last reason hlast
      refine ⟨e :: before, e', rest', s₁, a₁, rfl, ?_, hcursor, hnone⟩
      rw [applyBuffered_cons, hy]
      exact happlied

theorem agree_nil : Agree t snapshotId v (s, a) [] where
  accepts := ⟨fun _ => ⟨(s, a), rfl⟩, fun _ => ⟨v.lastSeq, rfl⟩⟩
  totals := rfl
  names := by
    intro last reason hlast
    cases hlast

theorem totals_differ (h : Abreast t snapshotId gone v s n a) (hevents : ∀ e ∈ events, e.namespace = n)
    (hstrays : Strays t snapshotId gone (s, a) events) : v.totals t snapshotId events ≠ appliedTotals (s, a) events := by
  intro htotals
  induction events generalizing gone v s a with
  | nil => exact hstrays
  | cons e rest ih =>
    have he := hevents e List.mem_cons_self
    rw [Shadows.totals, appliedTotals] at htotals
    by_cases hastray : Astray t snapshotId gone s a e
    · obtain ⟨v', hv', hdiffer⟩ := step_astray h he hastray
      rw [hv'] at htotals
      cases hy : applyLiveEvent s a e with
      | error f =>
        rw [hy] at htotals
        cases htotals
      | ok applied =>
        rw [hy] at htotals
        cases applied with
        | none => cases htotals
        | some sa' =>
          have hcount := congrArg Prod.fst (List.cons.inj htotals).1
          exact hdiffer sa' hy hcount.symm
    · obtain ⟨sa', hsa', hmore⟩ := hstrays.resolve_left hastray
      have hstep := step_alike h he hastray
      rw [hsa'] at hstep htotals
      generalize hx : v.take t snapshotId e = x at hstep htotals
      cases hstep with
      | takes related =>
        exact ih related (fun e he => hevents e (List.mem_cons_of_mem _ he)) hmore (List.cons.inj htotals).2

theorem agree_of_not_strays (h : Abreast t snapshotId gone v s n a) (hevents : ∀ e ∈ events, e.namespace = n)
    (hnot : ¬ Strays t snapshotId gone (s, a) events) : Agree t snapshotId v (s, a) events := by
  induction events generalizing gone v s a with
  | nil => exact agree_nil
  | cons e rest ih =>
    have hstep := step_alike h (hevents e List.mem_cons_self) fun hastray => hnot (.inl hastray)
    refine Agree.cons h hstep fun v' sa' related hsa' => ?_
    refine ih related (fun e he => hevents e (List.mem_cons_of_mem _ he)) fun hmore => hnot (.inr ⟨sa', hsa', hmore⟩)

/-- **The lists agree just when no event strays.** -/
theorem agree_iff (h : Abreast t snapshotId gone v s n a) (hevents : ∀ e ∈ events, e.namespace = n) :
    Agree t snapshotId v (s, a) events ↔ ¬ Strays t snapshotId gone (s, a) events :=
  ⟨fun hagree hstrays => totals_differ h hevents hstrays hagree.totals, agree_of_not_strays h hevents⟩

/-! ## The commit of a run -/

def StoredSnapshot.shadows (st : StoredSnapshot) : Shadows :=
  { lastSeq := st.throughEventSeq, scopesRevision := st.scopesRevision, recordCount := st.totalRecords
    jsonBytes := canonicalJsonBytesFromArray st.totalCanonicalBytes st.totalRecords }

theorem start_abreast {st : StoredSnapshot} (hreads : (s.tables n).Reads st.snapshotId rows) :
    Abreast (s.tables n) st.snapshotId [] st.shadows (s.onTables n fun _ => rows) n (a.committed st) where
  mirrored := by
    rw [Store.tables_onTables_self]
    refine ⟨hreads.distinct, hreads.housed, fun scopeId => ?_, fun scopeId sessionId _ => hreads.session scopeId sessionId,
      fun scopeId sessionId hlost => by cases hlost.1⟩
    show (Option.map _ _) = _
    rw [hreads.scope, hreads.stats]
    refine Option.map_congr fun stored hstored => ?_
    unfold Tables.shadow
    rw [scope_key hstored]
  cursor := rfl
  scopesRevision := rfl
  count := rfl
  bytes := rfl
  counted := Int.natCast_nonneg _

section Calm

def Fault.calm (f : Fault) : Prop := f ≠ .bufferedDiverged

theorem check_calm {c : Bool} {f : Fault} (h : f.calm) : Ends (check c f) (fun _ => True) Fault.calm :=
  Ends.ite (fun _ => Ends.ok trivial) fun _ => Ends.error h

theorem present_calm {α : Type} {x : Option α} {f : Fault} (h : f.calm) : Ends (present x f) (fun _ => True) Fault.calm := by
  cases x with
  | none => exact h
  | some y => trivial

theorem increment_calm {m : Nat} : Ends (increment m) (fun _ => True) Fault.calm := by
  unfold increment
  exact Ends.ite (fun _ => Ends.ok trivial) fun _ => Ends.error (by simp [Fault.calm])

theorem validatedPendingRelease_calm : Ends a.validatedPendingRelease (fun _ => True) Fault.calm := by
  unfold Authority.validatedPendingRelease
  split
  · exact Ends.bind (check_calm (by simp [Fault.calm])) fun _ _ => Ends.pure trivial
  · refine Ends.bind (present_calm (by simp [Fault.calm])) fun plan _ => ?_
    refine Ends.bind (check_calm (by simp [Fault.calm])) fun _ _ => ?_
    refine Ends.bind (check_calm (by simp [Fault.calm])) fun _ _ => ?_
    refine Ends.bind (check_calm (by simp [Fault.calm])) fun _ _ => ?_
    refine Ends.ite (fun _ => ?_) fun _ => Ends.pure trivial
    refine Ends.bind (present_calm (by simp [Fault.calm])) fun cursor _ => ?_
    refine Ends.bind (check_calm (by simp [Fault.calm])) fun _ _ => ?_
    exact Ends.bind (check_calm (by simp [Fault.calm])) fun _ _ => Ends.pure trivial

theorem giveUp_calm {directive : Directive} {reason : ReleaseReason} {plan : PostReleasePhase} :
    Ends (giveUp s a directive reason plan) (fun _ => True) Fault.calm := by
  refine Ends.bind (P := fun _ => True) ?_ fun release _ => ?_
  · refine Ends.bind (check_calm (by simp [Fault.calm])) fun _ _ => ?_
    exact Ends.bind (check_calm (by simp [Fault.calm])) fun _ _ => Ends.pure trivial
  · refine Ends.bind (P := fun _ => True) ?_ fun _ _ => Ends.pure trivial
    exact Ends.bind validatedPendingRelease_calm fun _ _ => Ends.pure trivial

theorem resyncRequired_calm {r : Resync} : Ends (resyncRequired r) (fun _ => True) Fault.calm := by
  refine Ends.bind (check_calm (by simp [Fault.calm])) fun _ _ => ?_
  refine Ends.ite (fun _ => ?_) fun _ => Ends.pure trivial
  refine Ends.bind (present_calm (by simp [Fault.calm])) fun _ _ => ?_
  exact Ends.bind (check_calm (by simp [Fault.calm])) fun _ _ => Ends.pure trivial

theorem reject_calm {directive : Directive} {reason : ResyncReason} :
    Ends (reject s a directive reason) (fun _ => True) Fault.calm := by
  refine Ends.bind (P := fun _ => True) ?_ fun name _ => ?_
  · cases reason <;> first | exact Ends.ok trivial | exact Ends.error (by simp [Fault.calm])
  · refine Ends.bind giveUp_calm fun r _ => ?_
    exact Ends.bind resyncRequired_calm fun _ _ => Ends.pure trivial

theorem change_calm (resulting : Nat) (change : Change) :
    Ends (v.change t snapshotId resulting change) (fun _ => True) Fault.calm := by
  cases change with
  | scopeUpsert item =>
    refine Ends.bind increment_calm fun _ _ => Ends.ite (fun _ => Ends.pure trivial) fun _ => ?_
    split <;> exact Ends.pure trivial
  | scopeDelete scopeId =>
    refine Ends.bind increment_calm fun _ _ => Ends.ite (fun _ => Ends.pure trivial) fun _ => ?_
    split <;> exact Ends.pure trivial
  | sessionUpsert item =>
    rw [Shadows.change]
    split
    · exact Ends.pure trivial
    · exact Ends.bind increment_calm fun _ _ => Ends.ite (fun _ => Ends.pure trivial) fun _ => Ends.pure trivial
  | sessionDelete scopeId sessionId =>
    rw [Shadows.change]
    split
    · exact Ends.pure trivial
    · refine Ends.bind increment_calm fun _ _ => Ends.ite (fun _ => Ends.pure trivial) fun _ => ?_
      split <;> exact Ends.pure trivial

theorem validateFrom_calm : Ends (validateFrom t snapshotId v events) (fun _ => True) Fault.calm := by
  induction events generalizing v with
  | nil => exact Ends.ok trivial
  | cons e rest ih =>
    rw [validateFrom_cons]
    refine Ends.bind (P := fun _ => True) ?_ fun taken _ => ?_
    · refine Ends.bind increment_calm fun _ _ => Ends.ite (fun _ => Ends.pure trivial) fun _ => ?_
      refine Ends.bind (change_calm _ _) fun changed _ => ?_
      cases changed with
      | error reason => exact Ends.ok trivial
      | ok changed => exact Ends.ite (fun _ => Ends.ok trivial) fun _ => Ends.ok trivial
    · cases taken with
      | error reason => exact Ends.pure trivial
      | ok v' => exact ih

theorem commitRecords_calm (rs : List Record) : Ends (commitRecords t rs) (fun _ => True) Fault.calm := by
  refine Ends.bind (P := fun _ => True) ?_ fun _ _ => ?_
  · generalize ({ t with scopes := [], sessions := [] }, (none : Option ScopeItem)) = p
    induction rs generalizing p with
    | nil => exact Ends.pure trivial
    | cons r rest ih =>
      refine Ends.bind (P := fun _ => True) ?_ fun p _ => ih p
      obtain ⟨t, waiting⟩ := p
      cases waiting <;> cases r <;> simp only [commitRecord] <;>
        first
        | exact Ends.ok trivial
        | exact Ends.error (by simp [Fault.calm])
        | exact Ends.ite (fun _ => Ends.ok trivial) fun _ => Ends.error (by simp [Fault.calm])
  · exact Ends.bind (check_calm (by simp [Fault.calm])) fun _ _ => Ends.pure trivial

theorem commitFailure_calm {st : StoredSnapshot} : Ends (commitFailure C t a st snapshotId events) (fun r => r = none →
    ∃ last, validateBufferedEvents t st events = .ok ⟨last, none⟩) Fault.calm := by
  unfold commitFailure
  refine Ends.ite (fun _ => Ends.pure (by simp)) fun _ => Ends.ite (fun _ => Ends.pure (by simp)) fun _ => ?_
  refine Ends.bind (P := fun _ => True) ?_ fun actual _ => ?_
  · exact Ends.bind (check_calm (by simp [Fault.calm])) fun _ _ => Ends.pure trivial
  refine Ends.ite (fun _ => Ends.pure (by simp)) fun _ => Ends.ite (fun _ => Ends.pure (by simp)) fun _ => ?_
  refine Ends.seq (fun validation hvalidation => ?_) fun f hf => validateFrom_calm.fault hf
  refine Ends.ite (fun _ => Ends.pure (by simp)) fun hgood => Ends.pure fun _ => ⟨validation.lastEventSeq, ?_⟩
  rw [hvalidation]
  simp only [Bool.or_eq_true, not_or, Option.not_isSome_iff_eq_none] at hgood
  rw [← hgood.1]

theorem commitSnapshot_calm {st : StoredSnapshot} (ha : s.authority n = some a) (hn : a.namespace = n)
    (hst : s.snapshot n = some st)
    (happlied : ∀ rows, commitRecords (s.tables n) (((s.tables n).staged st.snapshotId).map StoredRecord.record) = .ok rows →
      (∃ last, validateBufferedEvents (s.tables n) st (s.bufferedAfter n st) = .ok ⟨last, none⟩) →
      ∃ sa', applyBuffered (s.onTables n fun _ => rows, a.committed st) (s.bufferedAfter n st) = .ok sa') :
    Ends (commitSnapshot C s n st.snapshotId) (fun _ => True) Fault.calm := by
  unfold commitSnapshot
  rw [ha]
  dsimp only
  split
  · refine Ends.bind (P := fun _ => True) ?_ fun _ _ => Ends.pure trivial
    exact Ends.bind (present_calm (by simp [Fault.calm])) fun _ _ => Ends.pure trivial
  · rw [hst]
    dsimp only
    refine Ends.bind commitFailure_calm fun failure hfailure => ?_
    cases failure with
    | some reason => exact reject_calm
    | none =>
      unfold commitCut
      subst hn
      refine Ends.seq (fun rows hrows => ?_) fun f hf => (commitRecords_calm _).fault hf
      obtain ⟨sa', hsa'⟩ := happlied rows hrows (hfailure rfl)
      refine Ends.next hsa' ?_
      refine Ends.bind giveUp_calm fun _ _ => ?_
      exact Ends.bind (present_calm (by simp [Fault.calm])) fun _ _ => Ends.pure trivial

end Calm

/-! ## A scope that goes and comes back -/

namespace Returning

def epoch : Namespace := ⟨"p", "u", "c", "h", "e"⟩

def scope : ScopeItem := ⟨"s", "home", .local, .online, []⟩

def session : SessionItem := ⟨"s", "x", .terminal, "shell", none, none, none, false, 1, 0, 0⟩

def digest : String := "qE-F3cwPlWand4cyFT71W_6qeSJFtoLkHmdFgFe6w14"

def core : Core := ⟨fun text => if text.utf8ByteSize = 449 then digest else ""⟩

def plan : ConnectPlan :=
  ⟨{ identity := epoch.connectIdentity, resume := none, recovery := .empty, durableHostEpoch := none
     requiredThroughEventSeq := none }, rfl⟩

def chunk : ChunkFields :=
  { «namespace» := epoch, snapshotRequestId := "r1", snapshotId := "s1", snapshotCreatedAtMs := 1
    snapshotLeaseExpiresAtMs := 2, snapshotAbsoluteExpiresAtMs := 3, chunkIndex := 0, requestedCursor := none
    isLast := true, nextCursor := none, throughEventSeq := 0, scopesRevision := 0, totalRecords := 3
    totalCanonicalBytes := 449, cutDigest := digest
    records := [.scope scope, .sessionsScope "s" 0, .session session], rawUtf8Bytes := 900 }

/-- The scope is deleted, it comes back, and the session that the cut had is deleted. -/
def comeback : List Event :=
  [⟨epoch, 1, 1, .scopeDelete "s", 100⟩, ⟨epoch, 2, 2, .scopeUpsert scope, 200⟩, ⟨epoch, 3, 1, .sessionDelete "s" "x", 100⟩]

def ops : List Op :=
  [.hello plan ⟨epoch, 0, none, .fresh, rfl⟩, .stageSnapshotChunk ⟨chunk, by decide +kernel⟩] ++ comeback.map .applyStateEvent

/-- The commit throws that its validation has diverged. -/
def diverges (x : Except Fault (Store × Result)) : Bool :=
  match x with
  | .error f => f = .bufferedDiverged
  | .ok _ => false

theorem ops_end : ((run core ops).authority epoch).isSome ∧
    ((run core ops).snapshot epoch).map (fun st => (st.snapshotId, st.complete)) = some ("s1", true) ∧
    diverges (commitSnapshot core (run core ops) epoch "s1") = true := by
  decide +kernel

theorem commit_throws : commitSnapshot core (run core ops) epoch "s1" = .error .bufferedDiverged := by
  have hdiverges := ops_end.2.2
  unfold diverges at hdiverges
  split at hdiverges
  · rename_i f hf
    rw [hf, of_decide_eq_true hdiverges]
  · cases hdiverges

theorem staged : ∃ a st, (run core ops).authority epoch = some a ∧ (run core ops).snapshot epoch = some st ∧
    st.snapshotId = "s1" ∧ st.complete = true := by
  obtain ⟨hauthority, hsnapshot, -⟩ := ops_end
  obtain ⟨a, ha⟩ := Option.isSome_iff_exists.mp hauthority
  obtain ⟨st, hst, hnamed⟩ := Option.map_eq_some_iff.mp hsnapshot
  obtain ⟨hid, hcomplete⟩ := Prod.mk.inj hnamed
  exact ⟨a, st, ha, hst, hid, hcomplete⟩

end Returning

/-- **When the validation of the buffered events of a run is their application.**  A complete staging can be committed.  On
every list of events after it the validation agrees with the application to the rows of the commit, unless one of them
strays; and when none of the buffered events does, the commit does not diverge. -/
theorem buffer_agrees_iff (C : Core) (ops : List Op) (n : Namespace) (a : Authority) (st : StoredSnapshot)
    (ha : (run C ops).authority n = some a) (hst : (run C ops).snapshot n = some st) (hcomplete : st.complete = true) :
    ∃ rows, commitRecords ((run C ops).tables n)
        ((((run C ops).tables n).staged st.snapshotId).map StoredRecord.record) = .ok rows ∧
      (∀ events : List Event, (∀ e ∈ events, e.namespace = n) →
        (Agree ((run C ops).tables n) st.snapshotId st.shadows ((run C ops).onTables n fun _ => rows, a.committed st) events ↔
          ¬ Strays ((run C ops).tables n) st.snapshotId [] ((run C ops).onTables n fun _ => rows, a.committed st) events)) ∧
      (¬ Strays ((run C ops).tables n) st.snapshotId [] ((run C ops).onTables n fun _ => rows, a.committed st)
          ((run C ops).bufferedAfter n st) →
        commitSnapshot C (run C ops) n st.snapshotId ≠ .error .bufferedDiverged) := by
  have hq := (run_inOrder C ops n a ha).staging st hst
  obtain ⟨rows, hrows, hreads⟩ := hq.reads hcomplete
  have hstart := start_abreast (s := run C ops) (a := a) hreads
  refine ⟨rows, hrows, fun events hevents => agree_iff hstart hevents, fun hnot hdiverged => ?_⟩
  have hevents : ∀ e ∈ (run C ops).bufferedAfter n st, e.namespace = n := fun e he =>
    (run_sound C ops).addressed n e (bufferedEvents_mem (List.mem_of_mem_filter he))
  have hagree := (agree_iff hstart hevents).mpr hnot
  refine (commitSnapshot_calm ha (Store.namespace_of_authority ha) hst fun rows' hrows' hvalid => ?_).fault hdiverged rfl
  obtain rfl := Except.ok.inj (hrows.symm.trans hrows')
  exact hagree.accepts.mp hvalid

/-- In the run of the scope that comes back the buffered events stray. -/
theorem buffer_agrees_returning : ∃ a st rows,
    (run Returning.core Returning.ops).authority Returning.epoch = some a ∧
    (run Returning.core Returning.ops).snapshot Returning.epoch = some st ∧ st.complete = true ∧
    Strays ((run Returning.core Returning.ops).tables Returning.epoch) st.snapshotId []
      ((run Returning.core Returning.ops).onTables Returning.epoch fun _ => rows, a.committed st)
      ((run Returning.core Returning.ops).bufferedAfter Returning.epoch st) := by
  obtain ⟨a, st, ha, hst, hid, hcomplete⟩ := Returning.staged
  obtain ⟨rows, -, -, hcalm⟩ := buffer_agrees_iff Returning.core Returning.ops Returning.epoch a st ha hst hcomplete
  refine ⟨a, st, rows, ha, hst, hcomplete, not_not.mp fun hnot => hcalm hnot ?_⟩
  rw [hid]
  exact Returning.commit_throws

/-- The session of a scope that has come back is deleted in the validation and not in the rows, and the commit throws. -/
theorem buffer_diverges :
    commitSnapshot Returning.core (run Returning.core Returning.ops) Returning.epoch "s1" = .error .bufferedDiverged ∧
    ¬ ∀ (C : Core) (ops : List Op) (n : Namespace) (a : Authority) (st : StoredSnapshot),
        (run C ops).authority n = some a → (run C ops).snapshot n = some st → st.complete = true →
        ∀ rows, commitRecords ((run C ops).tables n)
            ((((run C ops).tables n).staged st.snapshotId).map StoredRecord.record) = .ok rows →
          ∀ events : List Event, (∀ e ∈ events, e.namespace = n ∧ st.throughEventSeq < e.eventSeq) →
            Agree ((run C ops).tables n) st.snapshotId st.shadows ((run C ops).onTables n fun _ => rows, a.committed st)
              events := by
  have hthrows := Returning.commit_throws
  refine ⟨hthrows, fun hclaim => ?_⟩
  obtain ⟨a, st, ha, hst, hid, hcomplete⟩ := Returning.staged
  rw [← hid] at hthrows
  refine (commitSnapshot_calm ha (Store.namespace_of_authority ha) hst fun rows hrows hvalid => ?_).fault hthrows rfl
  refine (hclaim _ _ _ a st ha hst hcomplete rows hrows _ fun e he => ⟨?_, ?_⟩).accepts.mp hvalid
  · exact (run_sound _ _).addressed _ e (bufferedEvents_mem (List.mem_of_mem_filter he))
  · exact of_decide_eq_true (List.mem_filter.mp he).2

end Sync
end TmuxWorktree
