import IrohRaft.Library.FromStr
import IrohRaft.Library.Run
import IrohRaft.Management.Types

/-!
# The cluster interface

The list of nodes that `RaftCluster` of `cluster_api.rs` keeps in its status, from `ClusterBuilder::build` on.
`add_node` and `remove_node` hold the lock of the status while they write it. A call reads the clock once here,
and the identifiers it makes up are input.
-/

namespace IrohRaft.ClusterApi

open Rust
open Management (SystemTime)

inductive NodeRole where
  | leader
  | follower
  | candidate
  | learner
  deriving DecidableEq, Repr

inductive NodeStatus where
  | online
  | offline
  | unknown
  deriving DecidableEq, Repr

inductive NodeState where
  | leader
  | follower
  | candidate
  | preCandidate
  | learner
  deriving DecidableEq, Repr

structure NodeInfo where
  id : UInt64
  address : SocketAddr
  role : NodeRole
  status : NodeStatus
  lastContact : Option SystemTime
  metadata : HashMap Str Str

structure ClusterStatus where
  clusterId : String
  leaderId : Option UInt64
  term : UInt64
  commitIndex : UInt64
  appliedIndex : UInt64
  nodes : List NodeInfo
  state : NodeState
  lastUpdated : SystemTime

structure OperationResult where
  success : Bool
  message : String
  operationId : String
  timestamp : SystemTime

namespace ClusterStatus

/-- The status `build` makes. -/
def initial (clusterId : String) (nodeId : UInt64) (bindAddress : SocketAddr) (now : SystemTime) : ClusterStatus where
  clusterId
  leaderId := none
  term := 0
  commitIndex := 0
  appliedIndex := 0
  nodes := [{
    id := nodeId
    address := bindAddress
    role := .follower
    status := .online
    lastContact := some now
    metadata := ∅ }]
  state := .follower
  lastUpdated := now

def addNode (nodeId : UInt64) (address : SocketAddr) (operationId : String) (now : SystemTime) (status : ClusterStatus) :
    OperationResult × ClusterStatus :=
  let node := { id := nodeId, address, role := .learner, status := .unknown, lastContact := none, metadata := ∅ }
  ({ success := true, message := s!"Node {nodeId} added successfully", operationId, timestamp := now },
    { status with nodes := status.nodes ++ [node], lastUpdated := now })

def removeNode (nodeId : UInt64) (operationId : String) (now : SystemTime) (status : ClusterStatus) :
    OperationResult × ClusterStatus :=
  ({ success := true, message := s!"Node {nodeId} removed successfully", operationId, timestamp := now },
    { status with nodes := status.nodes.filter fun node => node.id ≠ nodeId, lastUpdated := now })

inductive Op where
  | addNode (nodeId : UInt64) (address : SocketAddr) (operationId : String) (now : SystemTime)
  | removeNode (nodeId : UInt64) (operationId : String) (now : SystemTime)

def step (status : ClusterStatus) : Op → ClusterStatus
  | .addNode nodeId address operationId now => (status.addNode nodeId address operationId now).2
  | .removeNode nodeId operationId now => (status.removeNode nodeId operationId now).2

end ClusterStatus

end IrohRaft.ClusterApi
