import IrohRaft.Library.Table
import IrohRaft.Library.Run
import IrohRaft.Library.Register
import IrohRaft.Library.Budget
import IrohRaft.Library.Log
import IrohRaft.Library.Stream
import IrohRaft.Library.Text
import IrohRaft.Library.Bincode
import IrohRaft.Library.Protobuf
import IrohRaft.Library.Tasks
import IrohRaft.Storage.Codec
import IrohRaft.Storage.Simple
import IrohRaft.Storage.Redb
import IrohRaft.Storage.Ops
import IrohRaft.Storage.Eraftpb
import IrohRaft.Transport.Protocol
import IrohRaft.Transport.Buffers
import IrohRaft.StateMachine.Generic
import IrohRaft.StateMachine.KeyValue
import IrohRaft.CircuitBreaker
import IrohRaft.Management.Types
import IrohRaft.Management.Auth
import IrohRaft.Management.Protocol
import IrohRaft.Proof.Storage.EntryCodec
import IrohRaft.Proof.Storage.EntryBytes
import IrohRaft.Proof.Storage.StateCodec
import IrohRaft.Proof.Storage.Batch
import IrohRaft.Proof.Storage.Refine
import IrohRaft.Proof.Storage.Compaction
import IrohRaft.Proof.Storage.Window
import IrohRaft.Proof.Storage.Append
import IrohRaft.Proof.Storage.Boundary
import IrohRaft.Proof.Storage.Order
import IrohRaft.Proof.Storage.Recovery
import IrohRaft.Proof.Storage.Install
import IrohRaft.Proof.Transport.Streaming
import IrohRaft.Proof.Transport.Framing
import IrohRaft.Proof.Transport.Limits
import IrohRaft.Proof.StateMachine.KvCodec
import IrohRaft.Proof.StateMachine.Replay
import IrohRaft.Proof.StateMachine.Replicas
import IrohRaft.Proof.StateMachine.Queries
import IrohRaft.Proof.CircuitBreaker.HalfOpen
import IrohRaft.Proof.CircuitBreaker.Closing
import IrohRaft.Proof.Management.Tokens
import IrohRaft.Proof.Management.Revocation
import IrohRaft.Proof.Management.Authorization
import IrohRaft.Proof.CircuitBreaker.FailureTime
import IrohRaft.Proof.CircuitBreaker.Trials
import IrohRaft.CircuitBreakerManager
import IrohRaft.Proof.CircuitBreaker.Shared
import IrohRaft.Backpressure
import IrohRaft.Proof.Backpressure.Moves
import IrohRaft.Proof.Backpressure.Permits
import IrohRaft.Proof.Backpressure.Reception
import IrohRaft.Proof.Backpressure.Counters
import IrohRaft.Proof.Backpressure.Priorities
import IrohRaft.Library.Average
import IrohRaft.Proof.Backpressure.Latency
import IrohRaft.Proof.Management.RequestCodec
import IrohRaft.Management.Client
import IrohRaft.Proof.Management.Exchange
import IrohRaft.Proof.Management.Failover
import IrohRaft.Library.Keyed
import IrohRaft.Management.Discovery
import IrohRaft.Proof.Management.Members
import IrohRaft.Library.Database
import IrohRaft.Library.Session
import IrohRaft.Storage.RedbTables
import IrohRaft.Raft.Snapshot
import IrohRaft.Proof.Storage.Transfer
import IrohRaft.Raft.ConfigManager
import IrohRaft.Proof.Storage.RedbViews
import IrohRaft.Proof.Storage.Membership
import IrohRaft.Proof.Storage.Votes
import IrohRaft.Proof.Storage.Atomicity
import IrohRaft.Proof.Storage.LogStart
import IrohRaft.Proof.Storage.Limit
import IrohRaft.Proof.Storage.Consistency
import IrohRaft.Library.Triple
import IrohRaft.Raft.Ready
import IrohRaft.Raft.Manager
import IrohRaft.Proof.Raft.Handling
import IrohRaft.Proof.Raft.Rounds
import IrohRaft.Proof.Raft.Runs
import IrohRaft.Proof.Raft.Apply
import IrohRaft.Node
import IrohRaft.KeyValueStateMachine
import IrohRaft.Proof.Node.Rounds
import IrohRaft.Proof.Node.Entries
import IrohRaft.Proof.Node.Replay
import IrohRaft.Proof.Raft.Messages
import IrohRaft.Proof.Node.Messages
import IrohRaft.Library.Lanes
import IrohRaft.Library.PriorityQueue
import IrohRaft.Raft.BatchProcessor
import IrohRaft.Proof.Raft.Batching
import IrohRaft.Proof.Raft.Settling
import IrohRaft.Proof.Raft.Proposals
import IrohRaft.Transport.Iroh
import IrohRaft.Proof.Transport.MessageBuffer
import IrohRaft.Transport.Eraftpb
import IrohRaft.Transport.Rpc
import IrohRaft.Proof.Transport.Delivery
import IrohRaft.Transport.Connections
import IrohRaft.Proof.Transport.Connections
import IrohRaft.Proof.Node.Restart
import IrohRaft.TimeoutManager
import IrohRaft.Proof.TimeoutManager.Adaptive
import IrohRaft.Proof.TimeoutManager.Retry
import IrohRaft.Library.Binary64
import IrohRaft.Library.OrderStatistics
import IrohRaft.LockFree
import IrohRaft.Proof.LockFree.Histogram
import IrohRaft.Proof.LockFree.ConnectionPool
import IrohRaft.ActorPatterns
import IrohRaft.Proof.ActorPatterns.ConnectionPool
import IrohRaft.Proof.Management.Heartbeats
import IrohRaft.Management.Events
import IrohRaft.Proof.Management.Events
import IrohRaft.Library.FromStr
import IrohRaft.ClusterApi
import IrohRaft.Proof.ClusterApi.Nodes
import IrohRaft.Config
import IrohRaft.Proof.Config.Overrides
import IrohRaft.Proof.Config.Validation
import IrohRaft.Proof.Config.Builder
import IrohRaft.Proof.Config.Ticks
import IrohRaft.Proof.Storage.SnapshotBounds
import IrohRaft.Proof.Storage.Gaps
import IrohRaft.Library.Oneshot
import IrohRaft.Raft.Handlers
import IrohRaft.Proof.Raft.Waiting
import IrohRaft.Proof.Raft.Bookkeeping
import IrohRaft.Proof.Node.Bookkeeping
import IrohRaft.Proof.Raft.GroupLoop
import IrohRaft.Proof.Raft.Priorities
import IrohRaft.Proof.Raft.Counting
import IrohRaft.Raft.OptimizedProposals
import IrohRaft.Proof.Raft.Deduplication
import IrohRaft.Library.Dispatch
import IrohRaft.Raft.OptimizedProcessing
import IrohRaft.Proof.Raft.Processing
import IrohRaft.Classification
import IrohRaft.Proof.Error.Classification
import IrohRaft.Library.Replication
import IrohRaft.Proof.Node.Answers
import IrohRaft.Proof.Node.Cluster
import IrohRaft.Proof.Backpressure.Delivery
import IrohRaft.Proof.Transport.Network
import IrohRaft.Management.EventStream
import IrohRaft.Proof.Management.EventStreams
import IrohRaft.Proof.Node.Store
import IrohRaft.Proof.Raft.LogCompaction
import IrohRaft.Proof.Node.WriteAhead
import IrohRaft.Proof.Storage.Agreement
import IrohRaft.Proof.Raft.Following
import IrohRaft.Proof.Raft.Durability
import IrohRaft.Proof.Raft.Peers
import IrohRaft.Proof.Raft.Restarts
