import IrohRaft.Management.Discovery

/-!
# Heartbeats and the recorded health

A heartbeat says when it was sent, and nothing reads that: the health that is recorded is that of the
heartbeat that came last.
-/

namespace IrohRaft.Management

open Rust

namespace ClusterDiscovery

/-- The entry of a node in what is known of a cluster. -/
def member? (discovery : ClusterDiscovery) (clusterId : Str) (nodeId : UInt64) : Option ClusterMember :=
  discovery.clusters[clusterId]?.bind fun info => info.members.find? fun member => member.nodeId = nodeId

/-- A heartbeat changes the entry of its node, where there is one. -/
theorem member?_updateMemberHealth (clusterId : Str) (nodeId : UInt64) (health : HealthStatus) (now : SystemTime)
    (discovery : ClusterDiscovery) :
    (discovery.updateMemberHealth clusterId nodeId health now).member? clusterId nodeId =
      (discovery.member? clusterId nodeId).map fun member => { member with health, lastSeen := now } := by
  rw [member?, updateMemberHealth, Std.ExtTreeMap.getElem?_modify_self, member?]
  cases hinfo : discovery.clusters[clusterId]? with
  | none => simp
  | some info =>
      simp only [Option.map_some, Option.bind_some]
      split
      · next members hmembers => exact Keyed.find?_updateFirst hmembers fun member => by simp
      · next hnone =>
          have hmissing : info.members.find? (fun member => decide (member.nodeId = nodeId)) = none := by
            simpa using Keyed.updateFirst_eq_none hnone
          simp [hmissing]

theorem member?_heartbeat (nodeId : UInt64) (clusterId : Str) (health : HealthStatus) (sent now : SystemTime)
    (discovery : ClusterDiscovery) :
    (discovery.processDiscoveryMessage (.heartbeat nodeId clusterId health sent) now).2.member? clusterId nodeId =
      (discovery.member? clusterId nodeId).map fun member => { member with health, lastSeen := now } :=
  member?_updateMemberHealth clusterId nodeId health now discovery

/-- The health that is recorded for a node. -/
def recordedHealth (discovery : ClusterDiscovery) (clusterId : Str) (nodeId : UInt64) : Option HealthStatus :=
  (discovery.member? clusterId nodeId).map (·.health)

theorem recordedHealth_heartbeat {discovery : ClusterDiscovery} {clusterId : Str} {nodeId : UInt64}
    (hknown : (discovery.member? clusterId nodeId).isSome) (health : HealthStatus) (sent now : SystemTime) :
    (discovery.processDiscoveryMessage (.heartbeat nodeId clusterId health sent) now).2.recordedHealth clusterId nodeId =
      some health := by
  obtain ⟨member, hmember⟩ := Option.isSome_iff_exists.mp hknown
  rw [recordedHealth, member?_heartbeat, hmember]
  rfl

theorem known_heartbeat {discovery : ClusterDiscovery} {clusterId : Str} {nodeId : UInt64}
    (hknown : (discovery.member? clusterId nodeId).isSome) (health : HealthStatus) (sent now : SystemTime) :
    ((discovery.processDiscoveryMessage (.heartbeat nodeId clusterId health sent) now).2.member? clusterId nodeId).isSome := by
  rw [member?_heartbeat, Option.isSome_map]
  exact hknown

/-- Of two heartbeats of a known node the one processed last decides, whenever they were sent. -/
theorem recordedHealth_of_last {discovery : ClusterDiscovery} {clusterId : Str} {nodeId : UInt64}
    (hknown : (discovery.member? clusterId nodeId).isSome) (first last : HealthStatus) (sent sent' now now' : SystemTime) :
    let between := (discovery.processDiscoveryMessage (.heartbeat nodeId clusterId first sent) now).2
    let after := (between.processDiscoveryMessage (.heartbeat nodeId clusterId last sent') now').2
    after.recordedHealth clusterId nodeId = some last :=
  recordedHealth_heartbeat (known_heartbeat hknown first sent now) last sent' now'

def clusterName : Str := ⟨"cluster-1", by decide⟩

/-- What active discovery has found of a cluster. -/
def discovered : ClusterDiscovery := (new.performClusterDiscovery clusterName unixEpoch).2

theorem known_discovered : (discovered.member? clusterName 1).isSome := by
  simp [discovered, performClusterDiscovery, member?, placeholderMember]

def second : SystemTime := ⟨nanosPerSec, by decide⟩

theorem discovered_of_last :
    let between := (discovered.processDiscoveryMessage (.heartbeat 1 clusterName .degraded unixEpoch) second).2
    let after := (between.processDiscoveryMessage (.heartbeat 1 clusterName .healthy second) second).2
    after.recordedHealth clusterName 1 = some .healthy :=
  recordedHealth_of_last known_discovered .degraded .healthy unixEpoch second second second

/-- A heartbeat of an earlier second that is processed after a newer one takes its place. -/
theorem stale_heartbeat_recorded :
    ¬ ∀ (discovery : ClusterDiscovery) (clusterId : Str) (nodeId : UInt64) (older newer : HealthStatus)
        (sent sent' now now' : SystemTime),
      (discovery.member? clusterId nodeId).isSome → sent.val < sent'.val → older ≠ newer →
      let between := (discovery.processDiscoveryMessage (.heartbeat nodeId clusterId newer sent') now).2
      let after := (between.processDiscoveryMessage (.heartbeat nodeId clusterId older sent) now').2
      after.recordedHealth clusterId nodeId = some newer := by
  intro hnewer
  have hhealthy := hnewer discovered clusterName 1 .unhealthy .healthy unixEpoch second second second known_discovered
    (by decide) (by decide)
  have hlast := recordedHealth_heartbeat (known_heartbeat known_discovered .healthy second second) .unhealthy unixEpoch second
  simp only [hlast] at hhealthy
  simp at hhealthy

end ClusterDiscovery

end IrohRaft.Management
