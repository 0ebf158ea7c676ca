import AgentKernel.Adapters.Checkpoint
import AgentKernel.Capabilities.Admission
import AgentKernel.Capabilities.KeyIdentity
import AgentKernel.Capabilities.RateLimit
import AgentKernel.Capabilities.Snapshot
import AgentKernel.Cognitive.OutputParser
import AgentKernel.Cognitive.ScriptRuntime
import AgentKernel.Contracts
import AgentKernel.Dedupe.Healthy
import AgentKernel.Dedupe.Ledger
import AgentKernel.Dedupe.Store
import AgentKernel.Events.Journal
import AgentKernel.Events.Log
import AgentKernel.Execution.Retry
import AgentKernel.Export.EventExporting
import AgentKernel.Export.Migration
import AgentKernel.Export.RunTrace
import AgentKernel.Export.ShortestPath
import AgentKernel.Facade.Approvals
import AgentKernel.Facade.Gates
import AgentKernel.Facade.Grouped
import AgentKernel.Facade.LocalGateway
import AgentKernel.Facade.Memory
import AgentKernel.Facade.Mutations
import AgentKernel.Facade.Notifications
import AgentKernel.Facade.PolicyVersions
import AgentKernel.Facade.Registry
import AgentKernel.Facade.TraceEvents
import AgentKernel.Facade.TraceState
import AgentKernel.Lib.Call
import AgentKernel.Lib.Decimal
import AgentKernel.Lib.Dict
import AgentKernel.Lib.Fifo
import AgentKernel.Lib.Gauge
import AgentKernel.Lib.Json
import AgentKernel.Lib.JsonText
import AgentKernel.Lib.JsonUnique
import AgentKernel.Lib.Latest
import AgentKernel.Lib.Linearizable
import AgentKernel.Lib.Links
import AgentKernel.Lib.Progress
import AgentKernel.Lib.PyValue
import AgentKernel.Lib.Replay
import AgentKernel.Lib.Replica
import AgentKernel.Lib.Run
import AgentKernel.Lib.Search
import AgentKernel.Lib.Sessions
import AgentKernel.Lib.SharedConn
import AgentKernel.Lib.Shortest
import AgentKernel.Lib.Table
import AgentKernel.Lib.Tally
import AgentKernel.Lib.Text
import AgentKernel.Lib.Threads
import AgentKernel.Lib.Trace
import AgentKernel.Lib.Transaction
import AgentKernel.Lib.Value
import AgentKernel.Persistence.AtomicRecord
import AgentKernel.Persistence.Backends
import AgentKernel.Persistence.Colocated
import AgentKernel.Persistence.ConnectionPool
import AgentKernel.Persistence.Counting
import AgentKernel.Persistence.EventLogs
import AgentKernel.Persistence.PgDedupe
import AgentKernel.Persistence.PgDedupeSessions
import AgentKernel.Persistence.PgEventLog
import AgentKernel.Persistence.PooledStores
import AgentKernel.Persistence.ProjectionCache
import AgentKernel.Persistence.RecoveryOutcomes
import AgentKernel.Persistence.SchemaMigrations
import AgentKernel.Persistence.SchemaUpgrades
import AgentKernel.Persistence.SqlDedupe
import AgentKernel.Persistence.SqliteEventLog
import AgentKernel.Persistence.TaskViews
import AgentKernel.Persistence.TurnIntents
import AgentKernel.Projection.Cached
import AgentKernel.Projection.Children
import AgentKernel.Projection.Fold
import AgentKernel.Projection.Precedence
import AgentKernel.Projection.Retention
import AgentKernel.Projection.Service
import AgentKernel.Reconcile.Coverage
import AgentKernel.Reconcile.Histories
import AgentKernel.Reconcile.Outbox
import AgentKernel.Reconcile.Passes
import AgentKernel.Recovery.Backing
import AgentKernel.Recovery.Backoff
import AgentKernel.Recovery.Breaker
import AgentKernel.Recovery.Compensation
import AgentKernel.Recovery.Gate
import AgentKernel.Recovery.PgBreaker
import AgentKernel.Recovery.Planner
import AgentKernel.Recovery.Probe
import AgentKernel.Recovery.Reflection
import AgentKernel.Runtime.Drain
import AgentKernel.Runtime.DrainSafety
import AgentKernel.Runtime.Heartbeat
import AgentKernel.Runtime.Metrics
import AgentKernel.Runtime.Shutdown
import AgentKernel.Runtime.Watchdog
import AgentKernel.Service.Serialization
import AgentKernel.Substrate.Addresses
import AgentKernel.Substrate.ExactlyOnce
import AgentKernel.Substrate.Identity
import AgentKernel.Substrate.Isolation
import AgentKernel.Substrate.WireDecoding
import AgentKernel.Tasks.Beats
import AgentKernel.Tasks.Contracts
import AgentKernel.Tasks.Fate
import AgentKernel.Tasks.Index
import AgentKernel.Tasks.Recovery
import AgentKernel.Tasks.Registry
import AgentKernel.Turns.ActionCounts
import AgentKernel.Turns.Alone
import AgentKernel.Turns.AtMostOnce
import AgentKernel.Turns.Closure
import AgentKernel.Turns.CrossTalk
import AgentKernel.Turns.Effects
import AgentKernel.Turns.Engine
import AgentKernel.Turns.Fidelity
import AgentKernel.Turns.Gate
import AgentKernel.Turns.HostHints
import AgentKernel.Turns.Keys
import AgentKernel.Turns.Ownership
import AgentKernel.Turns.Path
import AgentKernel.Turns.Phases
import AgentKernel.Turns.Policy
import AgentKernel.Turns.Ports
import AgentKernel.Turns.Returned
import AgentKernel.Turns.Subject
import AgentKernel.Workflow.Audit
import AgentKernel.Workflow.CatchUp
import AgentKernel.Workflow.Cluster
import AgentKernel.Workflow.Decisions
import AgentKernel.Workflow.Deliveries
import AgentKernel.Workflow.Driven
import AgentKernel.Workflow.Engine
import AgentKernel.Workflow.Facts
import AgentKernel.Workflow.Freshness
import AgentKernel.Workflow.InFlight
import AgentKernel.Workflow.Peers
import AgentKernel.Workflow.Queries
import AgentKernel.Workflow.Readiness
import AgentKernel.Workflow.Recovery
import AgentKernel.Workflow.Resets
import AgentKernel.Workflow.Rollback
import AgentKernel.Workflow.Rounds
import AgentKernel.Workflow.Sequential
import AgentKernel.Workflow.Sessions
import AgentKernel.Workflow.Signals
import AgentKernel.Workflow.Solo
import AgentKernel.Workflow.Standing
import AgentKernel.Workflow.Steps
import AgentKernel.Workflow.World
