import PgShard.Lib.ThreeValued
import PgShard.Lib.Runs
import PgShard.Lib.CheckpointedLog
import PgShard.Lib.SqlLex
import PgShard.Lib.Checked
import PgShard.Lib.UniqueMatch
import PgShard.Core.Keyspace
import PgShard.Core.ShardFn
import PgShard.Core.VSchema
import PgShard.Sql.Ast
import PgShard.Sql.Serialize
import PgShard.Plan.Catalog
import PgShard.Plan.Extract
import PgShard.Plan.Planner
import PgShard.Sql.Eval
import PgShard.Plan.Bounds
import PgShard.Plan.ReadRouting
import PgShard.Plan.RenamedKey
import PgShard.Plan.WriteRouting
import PgShard.Repl.Message
import PgShard.Repl.Apply
import PgShard.Repl.Source
import PgShard.Repl.ApplyRun
import PgShard.Repl.ExactlyOnce
import PgShard.Repl.Filter
import PgShard.Repl.CopyText
import PgShard.Repl.Copy
import PgShard.Repl.SqlText
import PgShard.Repl.TargetTables
import PgShard.Repl.SourceRows
import PgShard.Repl.RowEffects
import PgShard.Agent.Workflow
import PgShard.Agent.Replica
import PgShard.Agent.StreamRun
import PgShard.Agent.FilteredReplica
import PgShard.Lib.Effects
import PgShard.Lib.Versioned
import PgShard.Operator.Range
import PgShard.Operator.Objects
import PgShard.Operator.Calls
import PgShard.Operator.Targets
import PgShard.Operator.Seeding
import PgShard.Operator.Cutover
import PgShard.Operator.Reconcile
import PgShard.Operator.Routing
import PgShard.Operator.Protocol
import PgShard.Operator.Conduct
import PgShard.Operator.CutoverConduct
import PgShard.Operator.World
import PgShard.Operator.Steps
import PgShard.Operator.Lawful
import PgShard.Operator.Authority
import PgShard.Operator.Scene
import PgShard.Operator.Sound
import PgShard.Operator.Claim
import PgShard.Operator.Exclusive
import PgShard.Operator.Fencing
import PgShard.Operator.Orderly
import PgShard.Operator.Committed
import PgShard.Operator.Stored
import PgShard.Operator.Ownership
import PgShard.Operator.Withdrawal
import PgShard.Operator.Drift
import PgShard.Operator.Failure
import PgShard.Operator.Deletion
import PgShard.Operator.Cleanup
import PgShard.Lib.Allotment
import PgShard.Seq.Cache
import PgShard.Seq.Unique
import PgShard.Failover.Identity
import PgShard.Failover.Election
import PgShard.Failover.Aggregate
import PgShard.Lib.Terms
import PgShard.Failover.Epochs
import PgShard.Agent.Barrier
import PgShard.Agent.Reseed
import PgShard.Agent.EpochGuard
import PgShard.Agent.Journal
import PgShard.Lib.Sweep
import PgShard.Gate.Engine
import PgShard.Lib.Positional
import PgShard.Lib.Hex
import PgShard.Core.KeyRangeText
import PgShard.Core.Partition
import PgShard.Core.Split
import PgShard.Core.IntText
import PgShard.Core.KeyText
import PgShard.Operator.KeyRangeAgree
import PgShard.Topo.Model
import PgShard.Router.Build
import PgShard.Operator.BoundOrder
import PgShard.Router.Lease
import PgShard.Repl.CopyAgree
import PgShard.Lib.Codec
import PgShard.Gate.Conserve
import PgShard.Lib.KeySort
import PgShard.Operator.RoutingVersions
import PgShard.Operator.CompileOrder
import PgShard.Operator.SwitchStates
import PgShard.Failover.Labels
import PgShard.Failover.Prune
import PgShard.Failover.Latch
import PgShard.Failover.Readiness
import PgShard.Failover.LatchOrder
import PgShard.Agent.Fence
import PgShard.Lib.SlotMap
import PgShard.Agent.RestorePoint
import PgShard.Agent.SchemaLog
import PgShard.Agent.Database
import PgShard.Agent.Registry
import PgShard.Agent.Retry
import PgShard.Repl.Descriptors
import PgShard.Repl.KeyPaths
import PgShard.Lib.Selection
import PgShard.Lib.Comparators
import PgShard.Backup.Resolver
import PgShard.Backup.Resolved
import PgShard.Backup.Order
import PgShard.Plan.Scopes
import PgShard.Plan.Sequence
import PgShard.Router.Merge
import PgShard.Router.Scatter
import PgShard.Router.Dispatch
import PgShard.Router.HiddenWrites
import PgShard.Router.MergeRows
import PgShard.Gate.Overdue
import PgShard.Lib.LengthPrefix
import PgShard.Operator.ConfigHash
import PgShard.Agent.XidHorizon
import PgShard.Operator.SeedNames
import PgShard.Repl.Framing
import PgShard.Repl.Feedback
import PgShard.Seq.Waiters
import PgShard.Seq.Store
import PgShard.Router.Forward
import PgShard.Router.Gather
import PgShard.Operator.Progress
