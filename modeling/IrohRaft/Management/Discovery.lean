import IrohRaft.Library.Keyed
import IrohRaft.Library.Run
import IrohRaft.Management.Types

/-!
# Cluster discovery

The cache of `ClusterDiscovery` in `management/discovery.rs`, and what discovery messages, cleanups and active
discovery do to it. Each of them holds the lock of the cache while it writes, and none of them reports an
error. A call reads the clock once here, but a cleanup reads it anew for every member.
-/

namespace IrohRaft.Management

open Rust

inductive HealthStatus where
  | healthy
  | degraded
  | unhealthy
  | unknown
  deriving DecidableEq, Repr

structure ClusterMember where
  nodeId : UInt64
  address : Str
  role : MemberRole
  health : HealthStatus
  lastSeen : SystemTime
  version : Str

structure ClusterInfo where
  clusterId : Str
  members : List ClusterMember
  leader : Option UInt64
  version : Str
  discoveredAt : SystemTime

inductive DiscoveryMessage where
  | announce (nodeId : UInt64) (clusterId : Str) (role : MemberRole) (version : Str) (endpoints : List Str)
      (health : HealthStatus) (raftState : Option RaftState)
  | queryCluster (clusterId : Str) (requestingNode : UInt64)
  | clusterInfo (clusterId : Str) (members : List ClusterMember) (leader : Option UInt64) (respondingNode : UInt64)
  | bootstrapRequest (nodeId : UInt64) (clusterId : Str) (endpoints : List Str) (version : Str)
  | bootstrapResponse (success : Bool) (initialMembers : Option (List ClusterMember)) (leader : Option UInt64) (error : Option Str)
  | heartbeat (nodeId : UInt64) (clusterId : Str) (health : HealthStatus) (timestamp : SystemTime)
  | departure (nodeId : UInt64) (clusterId : Str) (reason : Str)

/-- What the cache needs of `ClusterDiscovery`. -/
structure ClusterDiscovery where
  clusters : HashMap Str ClusterInfo
  localNodeId : Option UInt64
  localClusterId : Option Str

/-- The version every announcement and every cached entry carries. -/
def currentVersion : Str := ⟨"0.1.0", by decide⟩

def unknownAddress : Str := ⟨"unknown", by decide⟩

/-- `Duration::MAX`, in nanoseconds. -/
def maxDuration : Nat := 2 ^ 64 * nanosPerSec - 1

/-- `time.elapsed()` in nanoseconds, if the time is not still to come. -/
def elapsed (time now : SystemTime) : Option Nat :=
  if time.val ≤ now.val then some (now.val - time.val).toNat else none

def ClusterMember.isRecent (maxAge : Duration) (now : SystemTime) (member : ClusterMember) : Bool :=
  (elapsed member.lastSeen now).getD 0 < maxAge.val

namespace ClusterDiscovery

def new : ClusterDiscovery := { clusters := ∅, localNodeId := none, localClusterId := none }

def newForNode (nodeId : UInt64) (clusterId : Str) : ClusterDiscovery :=
  { new with localNodeId := some nodeId, localClusterId := some clusterId }

/-! ### The members of a cluster -/

def updateMemberInfo (clusterId : Str) (nodeId : UInt64) (endpoints : List Str) (role : MemberRole) (health : HealthStatus)
    (now : SystemTime) (discovery : ClusterDiscovery) : ClusterDiscovery :=
  let info := discovery.clusters[clusterId]?.getD
    { clusterId, members := [], leader := none, version := currentVersion, discoveredAt := now }
  let members := Keyed.upsert (fun member => member.nodeId = nodeId)
    (fun member => { member with address := endpoints.head?.getD member.address, role, health, lastSeen := now })
    { nodeId, address := endpoints.head?.getD unknownAddress, role, health, lastSeen := now, version := currentVersion }
    info.members
  { discovery with clusters := discovery.clusters.insert clusterId { info with members } }

def updateMemberHealth (clusterId : Str) (nodeId : UInt64) (health : HealthStatus) (now : SystemTime)
    (discovery : ClusterDiscovery) : ClusterDiscovery :=
  { discovery with
    clusters := discovery.clusters.modify clusterId fun info =>
      match Keyed.updateFirst (fun member => member.nodeId = nodeId)
          (fun member => { member with health, lastSeen := now }) info.members with
      | some members => { info with members }
      | none => info }

def removeMember (clusterId : Str) (nodeId : UInt64) (discovery : ClusterDiscovery) : ClusterDiscovery :=
  { discovery with
    clusters := discovery.clusters.modify clusterId fun info =>
      { info with members := info.members.filter fun member => member.nodeId ≠ nodeId } }

/-- The clock says when the age of each member of each cluster is read. -/
def cleanupStaleMembers (maxAge : Duration) (clock : Str → Nat → SystemTime) (discovery : ClusterDiscovery) : ClusterDiscovery :=
  { discovery with
    clusters := discovery.clusters.map fun clusterId info =>
      { info with
        members := Keyed.retain (fun position member => member.isRecent maxAge (clock clusterId position)) info.members } }

def clearCache (discovery : ClusterDiscovery) : ClusterDiscovery := { discovery with clusters := ∅ }

/-! ### Messages -/

/-- The reply, if there is one, and what becomes of the cache. -/
def processDiscoveryMessage (message : DiscoveryMessage) (now : SystemTime) (discovery : ClusterDiscovery) :
    Option DiscoveryMessage × ClusterDiscovery :=
  match message with
  | .queryCluster clusterId _ =>
      match discovery.clusters[clusterId]? with
      | some info => (some (.clusterInfo clusterId info.members info.leader (discovery.localNodeId.getD 0)), discovery)
      | none => (none, discovery)
  | .clusterInfo clusterId members leader _ =>
      let info := { clusterId, members, leader, version := currentVersion, discoveredAt := now }
      (none, { discovery with clusters := discovery.clusters.insert clusterId info })
  | .announce nodeId clusterId role _ endpoints health _ =>
      (none, discovery.updateMemberInfo clusterId nodeId endpoints role health now)
  | .bootstrapRequest _ clusterId _ _ =>
      if some clusterId = discovery.localClusterId then
        match discovery.clusters[clusterId]? with
        | some info => (some (.bootstrapResponse true (some info.members) info.leader none), discovery)
        | none => (none, discovery)
      else (none, discovery)
  | .heartbeat nodeId clusterId health _ => (none, discovery.updateMemberHealth clusterId nodeId health now)
  | .departure nodeId clusterId _ => (none, discovery.removeMember clusterId nodeId)
  | .bootstrapResponse _ _ _ _ => (none, discovery)

/-! ### Active discovery -/

/-- A member of the result that stands in for active discovery. -/
def placeholderMember (nodeId : UInt64) (address : Str) (now : SystemTime) : ClusterMember :=
  { nodeId, address, role := .voter, health := .healthy, lastSeen := now, version := currentVersion }

def performClusterDiscovery (clusterId : Str) (now : SystemTime) (discovery : ClusterDiscovery) :
    ClusterInfo × ClusterDiscovery :=
  let info := {
    clusterId
    members := [
      placeholderMember 1 ⟨"127.0.0.1:8080", by decide⟩ now,
      placeholderMember 2 ⟨"127.0.0.1:8081", by decide⟩ now,
      placeholderMember 3 ⟨"127.0.0.1:8082", by decide⟩ now]
    leader := some 1
    version := currentVersion
    discoveredAt := now }
  (info, { discovery with clusters := discovery.clusters.insert clusterId info })

def discoverCluster (clusterId : Str) (now : SystemTime) (discovery : ClusterDiscovery) : ClusterInfo × ClusterDiscovery :=
  match discovery.clusters[clusterId]? with
  | some info =>
      if (elapsed info.discoveredAt now).getD maxDuration < 60 * nanosPerSec then (info, discovery)
      else discovery.performClusterDiscovery clusterId now
  | none => discovery.performClusterDiscovery clusterId now

/-! ### Runs -/

/-- What happens to a cache. -/
inductive Event where
  | message (message : DiscoveryMessage) (now : SystemTime)
  | cleanup (maxAge : Duration) (clock : Str → Nat → SystemTime)
  -- discover_cluster, where it found nothing recent some time before
  | discover (clusterId : Str) (now : SystemTime)
  | clear

def step (discovery : ClusterDiscovery) : Event → ClusterDiscovery
  | .message message now => (discovery.processDiscoveryMessage message now).2
  | .cleanup maxAge clock => discovery.cleanupStaleMembers maxAge clock
  | .discover clusterId now => (discovery.performClusterDiscovery clusterId now).2
  | .clear => discovery.clearCache

/-- The discovery of a node, or of a client that is none. -/
def start : Option (UInt64 × Str) → ClusterDiscovery
  | some (nodeId, clusterId) => newForNode nodeId clusterId
  | none => new

/-- The cache after these events. -/
def run (node : Option (UInt64 × Str)) (events : List Event) : ClusterDiscovery := Run.final step (start node) events

end ClusterDiscovery

end IrohRaft.Management
