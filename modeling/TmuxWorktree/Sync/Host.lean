import TmuxWorktree.Sync.Snapshot
/-!
# Host — what the cache is a copy of

A host has one state after the other, and each event leads from one to the next.  A cut lists the records of one state,
and a snapshot is a cut in parts.  This says what the cache is for; nothing here is translated from the source.
-/
namespace TmuxWorktree
namespace Sync

structure HostState where
  scopes : String → Option StoredScope
  sessions : String × String → Option SessionItem
  scopesRevision : Nat
  scope_key : ∀ id s, scopes id = some s → s.item.scopeId = id
  session_key : ∀ k x, sessions k = some x → (x.scopeId, x.sessionId) = k

namespace HostState

/-- The change of one event leads from `h` to `h'`, with the revision it results in. -/
def Follows (h h' : HostState) (resulting : Nat) : Change → Prop
  | .scopeUpsert item =>
    resulting = h.scopesRevision + 1 ∧ h'.scopesRevision = resulting ∧ h'.sessions = h.sessions ∧
      h'.scopes = Function.update h.scopes item.scopeId
        (some ⟨item, (h.scopes item.scopeId).elim 0 StoredScope.sessionsRevision⟩)
  | .scopeDelete scopeId =>
    resulting = h.scopesRevision + 1 ∧ h'.scopesRevision = resulting ∧
      h'.sessions = (fun k => if k.1 = scopeId then none else h.sessions k) ∧
      h'.scopes = Function.update h.scopes scopeId none
  | .sessionUpsert item =>
    ∃ s, h.scopes item.scopeId = some s ∧ resulting = s.sessionsRevision + 1 ∧ h'.scopesRevision = h.scopesRevision ∧
      h'.sessions = Function.update h.sessions (item.scopeId, item.sessionId) (some item) ∧
      h'.scopes = Function.update h.scopes item.scopeId (some ⟨s.item, resulting⟩)
  | .sessionDelete scopeId sessionId =>
    ∃ s, h.scopes scopeId = some s ∧ resulting = s.sessionsRevision + 1 ∧ h'.scopesRevision = h.scopesRevision ∧
      h'.sessions = Function.update h.sessions (scopeId, sessionId) none ∧
      h'.scopes = Function.update h.scopes scopeId (some ⟨s.item, resulting⟩)

/-- The records of a state, each once. -/
structure Lists (h : HostState) (rs : List Record) : Prop where
  nodup : rs.Nodup
  scope : ∀ item, .scope item ∈ rs ↔ ∃ revision, h.scopes item.scopeId = some ⟨item, revision⟩
  sessionsScope : ∀ id revision, .sessionsScope id revision ∈ rs ↔ ∃ item, h.scopes id = some ⟨item, revision⟩
  session : ∀ item, .session item ∈ rs ↔ h.sessions (item.scopeId, item.sessionId) = some item

end HostState

/-- **A history**: the states up to `last`, and the event that leads to each of them but the first. -/
structure History where
  last : Nat
  states : Nat → HostState
  change : Nat → Change
  resulting : Nat → Nat
  follows : ∀ n < last, (states n).Follows (states (n + 1)) (resulting (n + 1)) (change (n + 1))

/-- A snapshot that the host has made: the records of one state, in parts. -/
structure Cut (H : History) where
  through : Nat
  parts : List (List Record)
  within : through ≤ H.last
  lists : (H.states through).Lists parts.flatten

/-- **A host**: its history, and the snapshots by their names. -/
structure Host where
  history : History
  cut : String → String → Option (Cut history)

namespace Host

variable (H : Host)

structure Event (e : Sync.Event) : Prop where
  positive : 0 < e.eventSeq
  within : e.eventSeq ≤ H.history.last
  change : e.change = H.history.change e.eventSeq
  resulting : e.resultingRevision = H.history.resulting e.eventSeq

/-- A part of a snapshot. -/
structure Chunk (c : ChunkFields) (cut : Cut H.history) : Prop where
  named : H.cut c.snapshotRequestId c.snapshotId = some cut
  through : c.throughEventSeq = cut.through
  scopesRevision : c.scopesRevision = (H.history.states cut.through).scopesRevision
  part : cut.parts[c.chunkIndex]? = some c.records
  isLast : c.isLast = true ↔ c.chunkIndex + 1 = cut.parts.length

/-- **What the host sends**: its events and the parts of its snapshots, in any order, each as often as it likes, and
anything else at any time. -/
def Sends (n : Namespace) : Op → Prop
  | .applyStateEvent e => e.namespace = n → H.Event e
  | .stageSnapshotChunk c => c.namespace = n → ∃ cut, H.Chunk c.toChunkFields cut
  | _ => True

end Host

/-! ## The copy -/

def Tables.recordsOf (t : Tables) : List Record :=
  (t.scopes.flatMap fun s => [.scope s.item, .sessionsScope s.item.scopeId s.sessionsRevision]) ++
    t.sessions.map fun s => .session s.item

/-- **The cache is a copy of the state**: its rows, its revision, and the count and bytes of its records. -/
structure Mirrors (a : Authority) (t : Tables) (h : HostState) : Prop where
  scopeKeys : (t.scopes.map fun s => s.item.scopeId).Nodup
  sessionKeys : (t.sessions.map StoredSession.key).Nodup
  scopes : ∀ id, t.scope id = h.scopes id
  sessions : ∀ scopeId sessionId, (t.session scopeId sessionId).map StoredSession.item = h.sessions (scopeId, sessionId)
  scopesRevision : a.scopesRevision = some h.scopesRevision
  count : a.cacheRecordCount = t.recordsOf.length
  bytes : a.cacheCanonicalBytes = (Record.array t.recordsOf).bytes

end Sync
end TmuxWorktree
