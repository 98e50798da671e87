import TmuxWorktree.Terminal.Safety
import TmuxWorktree.Terminal.Claims
import TmuxWorktree.Terminal.Retried
import TmuxWorktree.Host.Lock
import TmuxWorktree.Host.Commits
import TmuxWorktree.Codec.Agreement
import TmuxWorktree.Stream.Sequence
import TmuxWorktree.Stream.Delivery
import TmuxWorktree.Stream.Deadline
import TmuxWorktree.Relay.Retry
import TmuxWorktree.Outbox.Lanes
import TmuxWorktree.Outbox.Retarget
import TmuxWorktree.Sync.Obligations
import TmuxWorktree.Sync.Converge
import TmuxWorktree.Sync.Replay
import TmuxWorktree.Spool.Written
import TmuxWorktree.Lib.Packing
import TmuxWorktree.Terminal.Entries
import TmuxWorktree.Terminal.Episode
import TmuxWorktree.Terminal.Guarded
import TmuxWorktree.Terminal.Planned
import TmuxWorktree.Relay.Lossless
import TmuxWorktree.Relay.Isolated
import TmuxWorktree.Sync.Live
import TmuxWorktree.Relay.Pending
import TmuxWorktree.Relay.Correlation
import TmuxWorktree.Relay.Ledger
import TmuxWorktree.Capture.Reads
import TmuxWorktree.Readiness.Superseded
import TmuxWorktree.Strict.Complete
import TmuxWorktree.Strict.Unique
import TmuxWorktree.Canonical.Canon
import TmuxWorktree.Request.Parser
import TmuxWorktree.Lib.Utf8
import TmuxWorktree.Request.Hash
import TmuxWorktree.Stored.Reload
import TmuxWorktree.Frames.Schema
import TmuxWorktree.Spool.Delivery
