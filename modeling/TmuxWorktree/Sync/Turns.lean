import TmuxWorktree.Sync.Journal
/-!
# Turns — what one operation can do to the store

An operation on a live epoch changes one authority and its tables, and a hello of another epoch replaces them.  `Moved`
lists the ways of the first, and every later invariant of the cache is a walk over its cases.
-/
namespace TmuxWorktree
namespace Sync

/-! ## A change in one place -/

/-- Only the namespace `n` has changed, to `a'` and `t'`. -/
structure Store.At (s s' : Store) (n : Namespace) (a' : Authority) (t' : Tables) : Prop where
  here : s'.authority n = some a'
  rows : s'.tables n = t'
  elsewhere : ∀ m, m ≠ n → s'.authority m = s.authority m ∧ s'.tables m = s.tables m
  keys : (s.authorities.map Authority.namespace).Nodup → (s'.authorities.map Authority.namespace).Nodup

namespace Store

variable {s s₁ s₂ : Store} {n : Namespace} {a a' : Authority} {t : Tables} {E : Fault → Prop}

@[simp] theorem tables_withAuthority : (s.withAuthority a).tables = s.tables := rfl

@[simp] theorem authority_onTables (m : Namespace) (f : Tables → Tables) : (s.onTables m f).authority n = s.authority n := rfl

@[simp] theorem tables_onTables_self (f : Tables → Tables) : (s.onTables n f).tables n = f (s.tables n) := by
  simp [onTables]

theorem tables_onTables_ne {m : Namespace} (f : Tables → Tables) (h : m ≠ n) : (s.onTables n f).tables m = s.tables m := by
  simp [onTables, h]

theorem At.refl (h : s.authority n = some a) : At s s n a (s.tables n) := ⟨h, rfl, fun _ _ => ⟨rfl, rfl⟩, id⟩

theorem At.withAuthority (h : At s s₁ n a t) (hn : a'.namespace = n) : At s (s₁.withAuthority a') n a' t where
  here := by
    rw [← hn]
    exact Keyed.find_put_self
  rows := h.rows
  elsewhere := by
    intro m hm
    refine ⟨?_, (h.elsewhere m hm).2⟩
    rw [← hn] at hm
    exact (Keyed.find_put_ne hm).trans (h.elsewhere m (hn ▸ hm)).1
  keys := fun hk => Keyed.keys_put (h.keys hk)

theorem At.onTables (h : At s s₁ n a t) (f : Tables → Tables) : At s (s₁.onTables n f) n a (f t) where
  here := h.here
  rows := by rw [tables_onTables_self, h.rows]
  elsewhere := by
    intro m hm
    rw [tables_onTables_ne f hm]
    exact h.elsewhere m hm
  keys := h.keys

theorem At.put (h : At s s₁ n a t) (hj : a'.Journal) (hn : a'.namespace = n) :
    Ends (s₁.putAuthority a') (fun s₂ => At s s₂ n a' t) E := by
  unfold putAuthority
  refine Ends.next hj.validated ?_
  exact Ends.pure (h.withAuthority hn)

theorem At.snapshot (h : At s s₁ n a t) : s₁.snapshot n = t.snapshot := by
  unfold Store.snapshot
  rw [h.rows]

end Store

def Tables.cleared (t : Tables) : Tables := { t with snapshot := none, records := [], events := [] }

theorem Store.At.cleared {s s₁ : Store} {n : Namespace} {a : Authority} {t : Tables} (h : s.At s₁ n a t) :
    s.At ((s₁.deleteSnapshot n).deleteBufferedEvents n) n a t.cleared :=
  (h.onTables fun t => { t with snapshot := none, records := [] }).onTables fun t => { t with events := [] }

/-! ## The cases -/

structure Cache (a a' : Authority) (t t' : Tables) : Prop where
  cursor : a'.cursorEventSeq = a.cursorEventSeq
  scopesRevision : a'.scopesRevision = a.scopesRevision
  count : a'.cacheRecordCount = a.cacheRecordCount
  bytes : a'.cacheCanonicalBytes = a.cacheCanonicalBytes
  scopes : t'.scopes = t.scopes
  sessions : t'.sessions = t.sessions

/-- The cache is empty. -/
structure Reset (a' : Authority) (t' : Tables) : Prop where
  cursor : a'.cursorEventSeq = none
  scopesRevision : a'.scopesRevision = none
  count : a'.cacheRecordCount = 0
  bytes : a'.cacheCanonicalBytes = 2
  scopes : t'.scopes = []
  sessions : t'.sessions = []

def Op.fresh (n : Namespace) : Op → Prop
  | .hello _ h => h.namespace = n ∧ h.disposition = .fresh
  | _ => False

/-- A fresh hello may empty the cache; nothing else touches it. -/
def Held (n : Namespace) (op : Op) (a a' : Authority) (t t' : Tables) : Prop := Cache a a' t t' ∨ op.fresh n ∧ Reset a' t'

/-- The next event has been applied. -/
structure Advances (a : Authority) (t : Tables) (e : Event) (a' : Authority) (t' : Tables) : Prop where
  next : ∃ c, a.cursorEventSeq = some c ∧ e.eventSeq = c + 1
  effect : ∃ f, t.applyChange a.scopesRevision e.resultingRevision e.change = .ok (some f) ∧ t' = f.rows ∧
    a' = { a with
      cursorEventSeq := some e.eventSeq
      scopesRevision := f.scopesRevision
      cacheRecordCount := a.cacheRecordCount + f.records
      cacheCanonicalBytes := canonicalArrayBytes (a.cacheRecordCount + f.records)
        (canonicalJsonBytesFromArray a.cacheCanonicalBytes a.cacheRecordCount + f.bytes) }

/-- The events have been applied, one after the other. -/
inductive AdvancesAll : Authority → Tables → List Event → Authority → Tables → Prop where
  | nil (a : Authority) (t : Tables) : AdvancesAll a t [] a t
  | cons {a a₁ a' : Authority} {t t₁ t' : Tables} {e : Event} {rest : List Event} (first : Advances a t e a₁ t₁)
      (more : AdvancesAll a₁ t₁ rest a' t') : AdvancesAll a t (e :: rest) a' t'

def Authority.committed (a : Authority) (staged : StoredSnapshot) : Authority :=
  { a with cursorEventSeq := some staged.throughEventSeq, scopesRevision := some staged.scopesRevision
           phase := .resyncing, cacheRecordCount := staged.totalRecords
           cacheCanonicalBytes := staged.totalCanonicalBytes }

def Store.bufferedAfter (s : Store) (n : Namespace) (staged : StoredSnapshot) : List Event :=
  (s.bufferedEvents n).filter fun e => staged.throughEventSeq < e.eventSeq

/-- **What an operation can do to a living authority `a` with its tables**. -/
inductive Moved (C : Core) (s : Store) (n : Namespace) (a : Authority) (t : Tables) : Op → Authority → Tables → Prop where
  /-- The staging goes on, or there is none; an event may wait. -/
  | kept {op : Op} {a' : Authority} {t' : Tables} (held : Held n op a a' t t')
      (pending : a'.pendingRelease = a.pendingRelease) (phase : a'.phase = .resyncing)
      (required : a.requiredThroughEventSeq ≤ a'.requiredThroughEventSeq)
      (staging : t'.snapshot = t.snapshot ∧ t'.records = t.records)
      (events : t'.events = t.events ∨ t'.events = [] ∨ ∃ e, op = .applyStateEvent e ∧ e.namespace = n ∧
        t'.events = t.events ++ [e] ∧ (∀ e' ∈ t.events, e'.eventSeq ≠ e.eventSeq) ∧
        e.eventSeq ≤ a'.requiredThroughEventSeq) :
      Moved C s n a t op a' t'
  /-- The staging is given up, and its release is due. -/
  | released {op : Op} {a' : Authority} {t' : Tables} (o : Obligation) (held : Held n op a a' t t')
      (idle : a.pendingRelease = none) (pending : a'.pendingRelease = some o)
      (names : ∀ st, t.snapshot = some st → o.directive = st.releaseDirective n)
      (required : a.requiredThroughEventSeq ≤ a'.requiredThroughEventSeq)
      (cleared : t'.snapshot = none ∧ t'.records = [] ∧ t'.events = []) :
      Moved C s n a t op a' t'
  /-- There is no staging, or the host has said that it is gone. -/
  | dropped {op : Op} {a' : Authority} (cache : Cache a a' t t.cleared) (idle : a.pendingRelease = none)
      (pending : a'.pendingRelease = none)
      (gone : ∀ st, t.snapshot = some st → op = .expireSnapshotContinuation n st.snapshotRequestId st.snapshotId)
      (phase : a'.phase = .resyncing ∨ a' = a) (required : a.requiredThroughEventSeq ≤ a'.requiredThroughEventSeq) :
      Moved C s n a t op a' t.cleared
  /-- The welcome is at the cursor, and the cache is live. -/
  | matched {op : Op} {a' : Authority} (cache : Cache a a' t t.cleared) (idle : a.pendingRelease = none)
      (pending : a'.pendingRelease = none) (unstaged : t.snapshot = none) (phase : a'.phase = .live)
      (required : a.requiredThroughEventSeq ≤ a'.requiredThroughEventSeq)
      (reached : ∃ c, a'.cursorEventSeq = some c ∧ a'.requiredThroughEventSeq ≤ c) :
      Moved C s n a t op a' t.cleared
  | staged {c : Chunk} {updated : StoredSnapshot} (place : c.namespace = n) (idle : a.pendingRelease = none) (phase : a.phase = .resyncing)
      (taken : c.staged t.snapshot = .ok updated) :
      Moved C s n a t (.stageSnapshotChunk c) a
        { t with snapshot := some updated
                 records := t.records ++ c.rows (t.snapshot.elim 0 StoredSnapshot.receivedRecords) }
  | applied {e : Event} {a' : Authority} {t' : Tables} (place : e.namespace = n) (idle : a.pendingRelease = none) (phase : a.phase = .live)
      (advances : Advances (a.raised e.eventSeq) t e a' t') :
      Moved C s n a t (.applyStateEvent e) a' t'
  | committed {snapshotId : String} {st : StoredSnapshot} {rows t₂ : Tables} {a₂ : Authority} {o : Obligation}
      (idle : a.pendingRelease = none) (staging : t.snapshot = some st)
      (sound : commitFailure C t a st snapshotId (s.bufferedAfter n st) = .ok none)
      (written : commitRecords t ((t.staged st.snapshotId).map StoredRecord.record) = .ok rows)
      (advanced : AdvancesAll (a.committed st) rows (s.bufferedAfter n st) a₂ t₂)
      (names : o.directive = st.releaseDirective n) :
      Moved C s n a t (.commitSnapshot n snapshotId)
        { a₂ with phase := .resyncing, pendingRelease := some o, afterReleasePhase := some .queryPendingCommands }
        t₂.cleared
  | completed {o : Obligation} (pending : a.pendingRelease = some o) {plan : PostReleasePhase}
      (planned : a.afterReleasePhase = some plan) :
      Moved C s n a t (.completeSnapshotRelease o)
        { a with pendingRelease := none, afterReleasePhase := none, phase := plan.next } t

/-- A hello starts its epoch afresh: the connect identity has this authority and no other. -/
structure Founded (s : Store) (h : Hello) (s' : Store) (a' : Authority) : Prop where
  here : s'.authority h.namespace = some a'
  rows : s'.tables h.namespace = {}
  reset : Reset a' {}
  phase : a'.phase = .resyncing
  idle : ∀ a, s.authority h.namespace = some a → a.pendingRelease = none
  released : ∀ st, s.snapshot h.namespace = some st →
    ∃ o, a'.pendingRelease = some o ∧ o.directive = st.releaseDirective h.namespace
  others : ∀ m, m ≠ h.namespace → m.connectIdentity = h.namespace.connectIdentity →
    s'.authority m = none ∧ s'.snapshot m = none ∧ (s'.tables m).events ⊆ (s.tables m).events
  elsewhere : ∀ m, m.connectIdentity ≠ h.namespace.connectIdentity →
    s'.authority m = s.authority m ∧ s'.tables m = s.tables m
  keys : (s'.authorities.map Authority.namespace).Nodup
  /-- Only a fresh hello replaces an authority. -/
  disposition : h.disposition = .fresh ∨ s.authority h.namespace = none

/-- **What an operation can do.** -/
inductive Turn (C : Core) (s : Store) : Op → Store → Prop where
  | stays (op : Op) : Turn C s op s
  | moved {op : Op} {s' : Store} {n : Namespace} {a a' : Authority} {t' : Tables} (before : s.authority n = some a)
      (place : s.At s' n a' t') (journal : a'.Journal) (moved : Moved C s n a (s.tables n) op a' t') : Turn C s op s'
  | founded {plan : ConnectPlan} {h : Hello} {s' : Store} {a' : Authority} (journal : a'.Journal)
      (founded : Founded s h s' a') : Turn C s (.hello plan h) s'
  | cleared (profileId : String) : Turn C s (.clearProfile profileId) (s.deleteProfileState profileId)

end Sync
end TmuxWorktree
