import Durare.Calls
import Durare.Effects
import Durare.Rows
import Durare.Lifecycle
import Durare.Sqlite
import Durare.WriteOnce
import Durare.Checkpoints
import Durare.Ownership
import Durare.Context
import Durare.Execution
import Durare.Positions
import Durare.Replay
import Durare.Observed
import Durare.EventReads
import Durare.Delivery
import Durare.Latch
import Durare.Losers
import Durare.Crowd
import Durare.Patch
import Durare.Verify
import Durare.Verified
import Durare.Soundness
import Durare.Course
import Durare.Executions
import Durare.Commits
import Durare.Transaction
import Durare.Datasource
import Durare.TwoCommit
import Durare.LostReply
import Durare.Migration
import Durare.Statuses
import Durare.Slots
import Durare.Children
import Durare.Streams
import Durare.StreamWrites
import Durare.Dequeue
import Durare.Window
import Durare.RateLimit
import Durare.Snapshot
import Durare.Postgres
import Durare.Contention
import Durare.SharedRate
import Durare.Roles
import Durare.SqlMail
import Durare.Sends
import Durare.Fifo
import Durare.Overwrites
import Durare.Release
import Durare.Records
import Durare.SqlStatus
import Durare.Finalize
import Durare.Observers
import Durare.Filters
import Durare.Closure
import Durare.Descendants
import Durare.Deletion
import Durare.Batches
import Durare.Retention
import Durare.Descent
import Durare.Listing
import Durare.Imports
import Durare.Export
import Durare.Scheduler
import Durare.Ticks
import Durare.Backfill
import Durare.Debounce
import Durare.Collectors
import Durare.Quiet
import Durare.Targets
import Durare.Accepted
import Durare.Payloads
import Durare.Portability
import Durare.Formats
import Durare.Lineage
import Durare.Workers
import Durare.SqlListing
import Durare.Sweeps
import Durare.Enqueue
import Durare.Deadlines
import Durare.Construction
import Durare.ConstructionOrder
import Durare.Sources
import Durare.StreamReaders
import Durare.StreamReads
import Durare.StreamAgreement
import Durare.Backoff
import Durare.Placeholders
import Durare.Timers
import Durare.TimerRuns
import Durare.WorkflowAggregates
import Durare.StepAgreement
import Durare.Publications
import Durare.Mailboxes
import Durare.Wakeups
import Durare.Backends
import Durare.SqlStatuses
import Durare.Reconciler
import Durare.Reconciling
import Durare.Forks
import Durare.Rollout
import Durare.Conductor
