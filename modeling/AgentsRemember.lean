import AgentsRemember.Submission.Ledger
import AgentsRemember.Foundation.Runs
import AgentsRemember.Submission.Authority
import AgentsRemember.Submission.Steps
import AgentsRemember.Submission.Settled
import AgentsRemember.Submission.Head
import AgentsRemember.Submission.History
import AgentsRemember.Submission.Refinement
import AgentsRemember.Submission.Absorbing
import AgentsRemember.Submission.SingleHead
import AgentsRemember.Submission.Completion
import AgentsRemember.Foundation.Json
import AgentsRemember.Foundation.JsonRoundTrip
import AgentsRemember.Foundation.Lines
import AgentsRemember.Gates.Records
import AgentsRemember.Durable.Store
import AgentsRemember.Durable.RoundTrip
import AgentsRemember.Gates.Wire
import AgentsRemember.Durable.Stores
import AgentsRemember.Gates.Policy
import AgentsRemember.Foundation.Newest
import AgentsRemember.Gates.Enforcement
import AgentsRemember.Gates.Log
import AgentsRemember.Gates.Decisions
import AgentsRemember.Gates.Spend
import AgentsRemember.Gates.Rearm
import AgentsRemember.Gates.Retention
import AgentsRemember.Gates.Wait
import AgentsRemember.Foundation.Datum
import AgentsRemember.Projection.Delta
import AgentsRemember.Projection.Store
import AgentsRemember.Projection.Stream
import AgentsRemember.Foundation.Feed
import AgentsRemember.River.Lines
import AgentsRemember.River.Log
import AgentsRemember.Foundation.Base64
import AgentsRemember.Foundation.JsonAscii
import AgentsRemember.River.Cursor
import AgentsRemember.River.Read
import AgentsRemember.River.Resume
import AgentsRemember.Inbox.Records
import AgentsRemember.Inbox.Transitions
import AgentsRemember.Inbox.Store
import AgentsRemember.Inbox.Writers
import AgentsRemember.Inbox.Absorbing
import AgentsRemember.Inbox.Removal
import AgentsRemember.Conversation.Items
import AgentsRemember.Conversation.Store
import AgentsRemember.Conversation.Sound
import AgentsRemember.Conversation.Replica
import AgentsRemember.Conversation.Stream
import AgentsRemember.Conversation.Continuity
import AgentsRemember.Conversation.Echo
import AgentsRemember.Conversation.Turns
import AgentsRemember.Conversation.Zipper
import AgentsRemember.Conversation.Native
import AgentsRemember.Conversation.Rebuild
import AgentsRemember.Conversation.Replay
import AgentsRemember.Conversation.Retry
import AgentsRemember.Conversation.Alike
import AgentsRemember.Conversation.Loud
import AgentsRemember.Conversation.Lost
import AgentsRemember.Conversation.Linked
import AgentsRemember.Conversation.Rehydrate
import AgentsRemember.Foundation.Waiting
import AgentsRemember.Queue.ExecutionGraph
import AgentsRemember.Queue.Placement
import AgentsRemember.Queue.Deadlock
import AgentsRemember.Queue.ProjectionRuns
import AgentsRemember.Queue.Admission
import AgentsRemember.Foundation.Checks
import AgentsRemember.Lifecycle.Record
import AgentsRemember.Lifecycle.Validate
import AgentsRemember.Lifecycle.Recovery
import AgentsRemember.Lifecycle.Transition
import AgentsRemember.Lifecycle.Store
import AgentsRemember.Lifecycle.Evidence
import AgentsRemember.Lifecycle.Terminal
import AgentsRemember.Lifecycle.Worker
import AgentsRemember.Lifecycle.Replacement
import AgentsRemember.Lifecycle.Generations
import AgentsRemember.Control.Refs
import AgentsRemember.Control.Withdrawals
import AgentsRemember.Control.WithdrawalCalls
import AgentsRemember.Control.Ledgers
import AgentsRemember.Control.Disposal
import AgentsRemember.Control.Disposed
import AgentsRemember.Control.Evidence
import AgentsRemember.Control.InterruptCalls
import AgentsRemember.Control.Interrupted
import AgentsRemember.Control.Settlement
import AgentsRemember.Citations.Router
import AgentsRemember.Citations.Reopen
import AgentsRemember.Citations.Agreement
import AgentsRemember.Conversation.Paging
import AgentsRemember.Inbox.Reclamation
import AgentsRemember.Foundation.Ranked
import AgentsRemember.Queue.Members
import AgentsRemember.Queue.MemberOrder
import AgentsRemember.Foundation.Layers
import AgentsRemember.Queue.Waves
import AgentsRemember.Queue.GraphValidation
import AgentsRemember.Queue.GraphExact
import AgentsRemember.Backfill.Selection
import AgentsRemember.Backfill.Largest
import AgentsRemember.Backfill.Replay
import AgentsRemember.Backfill.Rewrite
import AgentsRemember.Backfill.Isomorphism
import AgentsRemember.Conversation.Feeding
import AgentsRemember.Conversation.Blocks
import AgentsRemember.Conversation.Refeed
import AgentsRemember.Conversation.SecondPass
import AgentsRemember.Certification.Records
import AgentsRemember.Certification.Authority
import AgentsRemember.Certification.Chains
import AgentsRemember.Certification.Proving
import AgentsRemember.Inbox.Retention
import AgentsRemember.Inbox.Backoff
import AgentsRemember.Inbox.Redelivery
import AgentsRemember.Inbox.Paced
import AgentsRemember.Foundation.Pages
import AgentsRemember.Foundation.Pacing
import AgentsRemember.Submission.Floor
import AgentsRemember.Submission.Paging
import AgentsRemember.Submission.Responding
import AgentsRemember.Routing.Seats
import AgentsRemember.Routing.Signals
import AgentsRemember.Routing.Owners
import AgentsRemember.Routing.Rerouting
import AgentsRemember.Foundation.Stamps
import AgentsRemember.Notifier.Cooldown
import AgentsRemember.Backfill.Attribution
import AgentsRemember.Attachments.Operations
import AgentsRemember.Attachments.Calls
import AgentsRemember.Attachments.Sheltered
import AgentsRemember.Attachments.OneUse
import AgentsRemember.Queue.LeafPlacement
import AgentsRemember.Queue.Candidates
import AgentsRemember.Lifecycle.Preparation
import AgentsRemember.Lifecycle.Selection
import AgentsRemember.Certification.Invalidation
import AgentsRemember.Citations.Demotion
import AgentsRemember.Certification.Reuse
import AgentsRemember.Backfill.Oldest
import AgentsRemember.Lifecycle.Reconciliation
import AgentsRemember.Certification.Readiness
import AgentsRemember.Certification.Shown
import AgentsRemember.Ledger.Format
import AgentsRemember.Ledger.RoundTrip
import AgentsRemember.Citations.Anchors
import AgentsRemember.Citations.Extents
import AgentsRemember.Citations.Streams
import AgentsRemember.Citations.Quotes
import AgentsRemember.Citations.Generated
import AgentsRemember.Citations.Checked
import AgentsRemember.Citations.SourceCells
import AgentsRemember.Foundation.Spans
import AgentsRemember.Citations.Repair
import AgentsRemember.Citations.Ranges
import AgentsRemember.Citations.Settled
import AgentsRemember.Foundation.Worklist
import AgentsRemember.Scope.Compiler
import AgentsRemember.Scope.Closure
import AgentsRemember.Foundation.Descending
import AgentsRemember.Foundation.LineEnds
import AgentsRemember.History.Order
import AgentsRemember.History.Fixer
import AgentsRemember.History.Blocks
import AgentsRemember.History.Sorted
import AgentsRemember.River.Cuts
