import ReadThrough.Remote.Store
import ReadThrough.Row
import ReadThrough.Session
import ReadThrough.Proofs.Flights.History
import ReadThrough.Proofs.Flights.LateReads
import ReadThrough.Proofs.Freshness.Detached
import ReadThrough.Proofs.Freshness.Reads
import ReadThrough.Proofs.Flights.Delivery
import ReadThrough.Proofs.Reads.Coalescing
import ReadThrough.Proofs.Reads.Failures
import ReadThrough.Proofs.Reads.Answers
import ReadThrough.Proofs.Layout.Separation
import ReadThrough.Proofs.Reads.PointHits
import ReadThrough.Proofs.Freshness.Reach
import ReadThrough.Proofs.Reads.Replay
import ReadThrough.Proofs.Flights.Orphans
import ReadThrough.Proofs.Reads.Tally
import ReadThrough.Proofs.Freshness.Indexes
import ReadThrough.Proofs.Sharing.Isolation
import ReadThrough.Proofs.Sharing.Tables
import ReadThrough.Proofs.Sharing.CachedTables
import ReadThrough.Proofs.Freshness.FailedDeletions
import ReadThrough.Proofs.Reads.Misses
import ReadThrough.Proofs.Store.InProcessMaps
import ReadThrough.Proofs.Store.Deadlines
import ReadThrough.Proofs.Store.InProcessDeadlines
import ReadThrough.Proofs.Store.Retention
import ReadThrough.Proofs.Json.Framing
import ReadThrough.Proofs.Reads.PointEntries
import ReadThrough.Proofs.Store.Keeping
import ReadThrough.Proofs.Reads.Leaves
import ReadThrough.Proofs.Reads.Effects
import ReadThrough.Proofs.Remote.Patterns
import ReadThrough.Proofs.Remote.Sweeps
import ReadThrough.Proofs.Flights.Rejoining
import ReadThrough.Proofs.Store.Batches
import ReadThrough.Proofs.Layout.SearchForms
import ReadThrough.Proofs.Layout.ColumnOrder
import ReadThrough.Proofs.Store.Lifetimes
import ReadThrough.Proofs.Sharing.Reset
