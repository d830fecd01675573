import IrohRaft.Management.Discovery

/-!
# Who is in a discovered cluster

What an announcement, a heartbeat, a departure and a cleanup do to the members of a cluster is told by the
list of their ids and by the leader. A cluster message replaces both by what its sender says. Besides it only
active discovery writes the leader: a member that leaves or grows stale stays the leader.
-/

namespace IrohRaft.Management

open Rust

def ClusterInfo.memberIds (info : ClusterInfo) : List UInt64 := info.members.map (·.nodeId)

namespace ClusterDiscovery

variable {discovery : ClusterDiscovery} {holds : ClusterInfo → Prop} {info info' : ClusterInfo} {nodeId : UInt64}

/-! ### One event -/

/-- At most this node has joined the members, and only if it was none. -/
structure Grows (nodeId : UInt64) (info info' : ClusterInfo) : Prop where
  leader : info'.leader = info.leader
  ids : info'.memberIds = info.memberIds ∨ nodeId ∉ info.memberIds ∧ info'.memberIds = info.memberIds ++ [nodeId]

/-- A property of what a cache knows of a cluster that an empty cluster has and a new member does not break. -/
structure Lasts (holds : ClusterInfo → Prop) : Prop where
  fresh : ∀ info, info.members = [] → info.leader = none → holds info
  grows : ∀ nodeId info info', holds info → Grows nodeId info info' → holds info'

theorem Lasts.updateMemberInfo (h : Lasts holds) (hall : discovery.clusters.All holds) (clusterId : Str) (nodeId : UInt64)
    (endpoints : List Str) (role : MemberRole) (health : HealthStatus) (now : SystemTime) :
    (discovery.updateMemberInfo clusterId nodeId endpoints role health now).clusters.All holds := by
  refine (hall.insert_iff clusterId _).mpr ?_
  let info := discovery.clusters[clusterId]?.getD
    { clusterId, members := [], leader := none, version := currentVersion, discoveredAt := now }
  have hinfo : holds info := by
    show holds (discovery.clusters[clusterId]?.getD _)
    cases hcached : discovery.clusters[clusterId]? with
    | none => exact h.fresh _ rfl rfl
    | some cached => exact hall clusterId cached hcached
  refine h.grows nodeId info _ hinfo ⟨rfl, Keyed.map_upsert ClusterMember.nodeId ?_ ?_ info.members⟩
  · exact fun _ => rfl
  · exact fun _ hother => of_decide_eq_false hother

theorem Lasts.updateMemberHealth (h : Lasts holds) (hall : discovery.clusters.All holds) (clusterId : Str) (nodeId : UInt64)
    (health : HealthStatus) (now : SystemTime) :
    (discovery.updateMemberHealth clusterId nodeId health now).clusters.All holds := by
  refine (hall.modify_iff clusterId _).mpr fun info hinfo => ?_
  refine h.grows nodeId info _ (hall clusterId info hinfo) ?_
  split
  · next members hmembers => exact ⟨rfl, .inl (Keyed.map_of_updateFirst ClusterMember.nodeId hmembers fun _ => rfl)⟩
  · exact ⟨rfl, .inl rfl⟩

/-- The event does not break such a property, where it replaces what is known of a cluster or takes members away. -/
def Keeps (holds : ClusterInfo → Prop) (discovery : ClusterDiscovery) : Event → Prop
  | .message (.clusterInfo clusterId members leader _) now =>
      holds { clusterId, members, leader, version := currentVersion, discoveredAt := now }
  | .message (.departure nodeId clusterId _) _ => ∀ info, discovery.clusters[clusterId]? = some info →
      holds { info with members := info.members.filter fun member => member.nodeId ≠ nodeId }
  | .cleanup maxAge clock => ∀ (clusterId : Str) (info : ClusterInfo), discovery.clusters[clusterId]? = some info →
      holds { info with
        members := Keyed.retain (fun position member => member.isRecent maxAge (clock clusterId position)) info.members }
  | .discover clusterId now => holds (discovery.performClusterDiscovery clusterId now).1
  | _ => True

theorem step_queryCluster (discovery : ClusterDiscovery) (clusterId : Str) (requestingNode : UInt64) (now : SystemTime) :
    discovery.step (.message (.queryCluster clusterId requestingNode) now) = discovery := by
  rw [step, processDiscoveryMessage]
  split <;> rfl

theorem step_bootstrapRequest (discovery : ClusterDiscovery) (nodeId : UInt64) (clusterId : Str) (endpoints : List Str)
    (version : Str) (now : SystemTime) :
    discovery.step (.message (.bootstrapRequest nodeId clusterId endpoints version) now) = discovery := by
  rw [step, processDiscoveryMessage]
  split
  · split <;> rfl
  · rfl

theorem Lasts.step_iff (h : Lasts holds) (hall : discovery.clusters.All holds) (event : Event) :
    Keeps holds discovery event ↔ (discovery.step event).clusters.All holds := by
  cases event with
  | message message now =>
      cases message with
      | announce nodeId clusterId role _ endpoints health _ =>
          exact iff_of_true trivial (h.updateMemberInfo hall clusterId nodeId endpoints role health now)
      | queryCluster clusterId requestingNode =>
          rw [step_queryCluster]
          exact iff_of_true trivial hall
      | clusterInfo clusterId members leader _ => exact (hall.insert_iff clusterId _).symm
      | bootstrapRequest nodeId clusterId endpoints version =>
          rw [step_bootstrapRequest]
          exact iff_of_true trivial hall
      | bootstrapResponse => exact iff_of_true trivial hall
      | heartbeat nodeId clusterId health _ =>
          exact iff_of_true trivial (h.updateMemberHealth hall clusterId nodeId health now)
      | departure nodeId clusterId _ => exact (hall.modify_iff clusterId _).symm
  | cleanup maxAge clock => exact (HashMap.All.map_iff _).symm
  | discover clusterId now => exact (hall.insert_iff clusterId _).symm
  | clear => exact iff_of_true trivial (HashMap.All.empty holds)

theorem start_all (holds : ClusterInfo → Prop) (node : Option (UInt64 × Str)) : (start node).clusters.All holds := by
  obtain _ | ⟨nodeId, clusterId⟩ := node <;> exact HashMap.All.empty holds

/-- A property of this kind holds of a cache all along exactly if every event keeps it. -/
theorem Lasts.follows_iff (h : Lasts holds) {allowed : ClusterDiscovery → Event → Prop}
    (hallowed : ∀ (discovery : ClusterDiscovery) event, discovery.clusters.All holds → (Keeps holds discovery event ↔ allowed discovery event))
    (node : Option (UInt64 × Str)) (events : List Event) :
    (∀ done, done <+: events → (run node done).clusters.All holds) ↔ Run.Follows step allowed (start node) events := by
  have hstep (discovery : ClusterDiscovery) (event : Event) (hall : discovery.clusters.All holds) :
      allowed discovery event ↔ (discovery.step event).clusters.All holds :=
    (hallowed discovery event hall).symm.trans (h.step_iff hall event)
  exact (Run.follows_iff_forall_prefix (fun discovery : ClusterDiscovery => discovery.clusters.All holds) hstep
    (start_all holds node)).symm

/-! ### One member per node -/

/-- No node is a member twice. -/
def UniqueMembers (info : ClusterInfo) : Prop := info.memberIds.Nodup

theorem uniqueMembers_lasts : Lasts UniqueMembers where
  fresh info hmembers _ := by
    rw [UniqueMembers, ClusterInfo.memberIds, hmembers]
    exact List.nodup_nil
  grows nodeId info info' hunique hgrows := by
    obtain hsame | ⟨hfresh, hmore⟩ := hgrows.ids
    · rw [UniqueMembers, hsame]
      exact hunique
    · rw [UniqueMembers, hmore]
      refine List.nodup_append.mpr ⟨hunique, by simp, fun id hid added hadded => ?_⟩
      rw [List.mem_singleton.mp hadded]
      exact fun hsame => hfresh (hsame ▸ hid)

/-- The event is no cluster message that names a node twice. -/
def Event.NamesOnce : Event → Prop
  | .message (.clusterInfo _ members _ _) _ => (members.map (·.nodeId)).Nodup
  | _ => True

theorem UniqueMembers.of_sublist
    {members : List ClusterMember} (h : UniqueMembers info) (hsublist : members.Sublist info.members) :
    UniqueMembers { info with members } :=
  List.Nodup.sublist (hsublist.map _) h

theorem keeps_uniqueMembers_iff (hall : discovery.clusters.All UniqueMembers) (event : Event) :
    Keeps UniqueMembers discovery event ↔ event.NamesOnce := by
  cases event with
  | message message now =>
      cases message with
      | departure nodeId clusterId _ =>
          exact iff_of_true (fun info hinfo => (hall clusterId info hinfo).of_sublist List.filter_sublist) trivial
      | _ => exact Iff.rfl
  | cleanup maxAge clock =>
      exact iff_of_true (fun clusterId info hinfo => (hall clusterId info hinfo).of_sublist (Keyed.retain_sublist _ _)) trivial
  | discover clusterId now => exact iff_of_true (by decide : [(1 : UInt64), 2, 3].Nodup) trivial
  | clear => exact Iff.rfl

theorem uniqueMembers_iff (node : Option (UInt64 × Str)) (events : List Event) :
    (∀ done, done <+: events → (run node done).clusters.All UniqueMembers) ↔ ∀ event ∈ events, event.NamesOnce := by
  rw [uniqueMembers_lasts.follows_iff (fun _ event hall => keeps_uniqueMembers_iff hall event) node events]
  exact Run.follows_iff_forall

/-- The members of a cluster as a message names them, one of them twice. -/
def memberTwice : DiscoveryMessage :=
  let member := placeholderMember 1 unknownAddress unixEpoch
  .clusterInfo currentVersion [member, member] none 2

theorem not_uniqueMembers : ¬ ∀ (node : Option (UInt64 × Str)) (events : List Event) (done : List Event), done <+: events →
    (run node done).clusters.All UniqueMembers := by
  intro h
  have hunique := h none [.message memberTwice unixEpoch] _ List.prefix_rfl currentVersion _ Std.ExtTreeMap.getElem?_insert_self
  have htwice : [(1 : UInt64), 1].Nodup := hunique
  exact absurd htwice (by decide)

/-! ### The leader among the members -/

def LeaderAmong (leader : Option UInt64) (members : List ClusterMember) : Prop :=
  ∀ nodeId, leader = some nodeId → nodeId ∈ members.map (·.nodeId)

/-- The leader that is recorded is a member that is recorded. -/
def KnowsLeader (info : ClusterInfo) : Prop := LeaderAmong info.leader info.members

theorem knowsLeader_lasts : Lasts KnowsLeader where
  fresh info _ hleader := by
    intro nodeId hnode
    exact nomatch hleader.symm.trans hnode
  grows nodeId info info' hknows hgrows := by
    intro leader hleader
    rw [hgrows.leader] at hleader
    have hmember : leader ∈ info.memberIds := hknows leader hleader
    show leader ∈ info'.memberIds
    obtain hsame | ⟨_, hmore⟩ := hgrows.ids
    · rwa [hsame]
    · rw [hmore]
      exact List.mem_append_left _ hmember

/-- The event does not part a cluster from its leader: a cluster message names its leader as a member, who departs
is not the leader, and a cleanup meets a recent member with the id of the leader. -/
def KeepsLeader (discovery : ClusterDiscovery) : Event → Prop
  | .message (.clusterInfo _ members leader _) _ => LeaderAmong leader members
  | .message (.departure nodeId clusterId _) _ => ∀ info, discovery.clusters[clusterId]? = some info → info.leader ≠ some nodeId
  | .cleanup maxAge clock => ∀ (clusterId : Str) (info : ClusterInfo), discovery.clusters[clusterId]? = some info →
      ∀ leader, info.leader = some leader → ∃ (position : Nat) (member : ClusterMember),
        info.members[position]? = some member ∧ member.isRecent maxAge (clock clusterId position) = true ∧ member.nodeId = leader
  | _ => True

theorem knowsLeader_removed_iff (h : KnowsLeader info) (nodeId : UInt64) :
    LeaderAmong info.leader (info.members.filter fun member => member.nodeId ≠ nodeId) ↔ info.leader ≠ some nodeId := by
  apply Iff.intro
  · intro hamong hleader
    obtain ⟨member, hmember, hid⟩ := List.mem_map.mp (hamong nodeId hleader)
    exact of_decide_eq_true (List.mem_filter.mp hmember).2 hid
  · intro hother leader hleader
    obtain ⟨member, hmember, rfl⟩ := List.mem_map.mp (h leader hleader)
    refine List.mem_map.mpr ⟨member, List.mem_filter.mpr ⟨hmember, decide_eq_true fun hsame => ?_⟩, rfl⟩
    exact hother (hsame ▸ hleader)

theorem leaderAmong_retain_iff (leader : Option UInt64) (members : List ClusterMember) (keep : Nat → ClusterMember → Bool) :
    LeaderAmong leader (Keyed.retain keep members) ↔ ∀ nodeId, leader = some nodeId → ∃ (position : Nat) (member : ClusterMember),
      members[position]? = some member ∧ keep position member = true ∧ member.nodeId = nodeId := by
  refine forall_congr' fun nodeId => imp_congr_right fun _ => ?_
  rw [List.mem_map]
  apply Iff.intro
  · intro h
    obtain ⟨member, hmember, hid⟩ := h
    obtain ⟨position, hposition, hkeep⟩ := Keyed.mem_retain.mp hmember
    exact ⟨position, member, hposition, hkeep, hid⟩
  · intro h
    obtain ⟨position, member, hposition, hkeep, hid⟩ := h
    exact ⟨member, Keyed.mem_retain.mpr ⟨position, hposition, hkeep⟩, hid⟩

theorem keeps_knowsLeader_iff (hall : discovery.clusters.All KnowsLeader) (event : Event) :
    Keeps KnowsLeader discovery event ↔ KeepsLeader discovery event := by
  cases event with
  | message message now =>
      cases message with
      | departure nodeId clusterId _ =>
          refine forall_congr' fun info => forall_congr' fun hinfo => ?_
          exact knowsLeader_removed_iff (hall clusterId info hinfo) nodeId
      | _ => exact Iff.rfl
  | cleanup maxAge clock =>
      refine forall_congr' fun clusterId => forall_congr' fun info => imp_congr_right fun _ => ?_
      exact leaderAmong_retain_iff info.leader info.members fun position => ClusterMember.isRecent maxAge (clock clusterId position)
  | discover clusterId now =>
      refine iff_of_true (fun nodeId hleader => ?_) trivial
      obtain rfl := Option.some.inj hleader
      exact List.mem_cons_self
  | clear => exact Iff.rfl

/-- A message sends nobody to a leader but one of the members it names. -/
def NamesMember : DiscoveryMessage → Prop
  | .clusterInfo _ members leader _ => LeaderAmong leader members
  | .bootstrapResponse _ initialMembers leader _ => LeaderAmong leader (initialMembers.getD [])
  | _ => True

/-- The cache records no leader but a member, and no reply sends a node anywhere else. -/
structure SendsToMembers (discovery : ClusterDiscovery) : Prop where
  recorded : discovery.clusters.All KnowsLeader
  replied : ∀ message now reply, (discovery.processDiscoveryMessage message now).1 = some reply → NamesMember reply

theorem SendsToMembers.of_recorded (h : discovery.clusters.All KnowsLeader) : SendsToMembers discovery := by
  refine ⟨h, fun message now reply hreply => ?_⟩
  cases message with
  | queryCluster clusterId requestingNode =>
      rw [processDiscoveryMessage] at hreply
      split at hreply
      · next info hinfo =>
          obtain rfl := Option.some.inj hreply
          exact h clusterId info hinfo
      · exact nomatch hreply
  | bootstrapRequest nodeId clusterId endpoints version =>
      rw [processDiscoveryMessage] at hreply
      split at hreply
      · split at hreply
        · next info hinfo =>
            obtain rfl := Option.some.inj hreply
            exact h clusterId info hinfo
        · exact nomatch hreply
      · exact nomatch hreply
  | _ => exact nomatch hreply

/-- A client that looks for a cluster learns of no leader but a member, and leaves such a cache behind. -/
theorem knowsLeader_discoverCluster (h : discovery.clusters.All KnowsLeader) (clusterId : Str) (now : SystemTime) :
    KnowsLeader (discovery.discoverCluster clusterId now).1 ∧
    (discovery.discoverCluster clusterId now).2.clusters.All KnowsLeader := by
  have hperformed : KnowsLeader (discovery.performClusterDiscovery clusterId now).1 ∧
      (discovery.performClusterDiscovery clusterId now).2.clusters.All KnowsLeader :=
    ⟨(keeps_knowsLeader_iff h (.discover clusterId now)).mpr trivial,
      (knowsLeader_lasts.step_iff h (.discover clusterId now)).mp ((keeps_knowsLeader_iff h (.discover clusterId now)).mpr trivial)⟩
  rw [discoverCluster]
  split
  · next info hinfo =>
      split
      · exact ⟨h clusterId info hinfo, h⟩
      · exact hperformed
  · exact hperformed

theorem sendsToMembers_iff (node : Option (UInt64 × Str)) (events : List Event) :
    (∀ done, done <+: events → SendsToMembers (run node done)) ↔ Run.Follows step KeepsLeader (start node) events := by
  rw [← knowsLeader_lasts.follows_iff (fun _ event hall => keeps_knowsLeader_iff hall event) node events]
  apply Iff.intro
  · exact fun h done hprefix => (h done hprefix).recorded
  · exact fun h done hprefix => .of_recorded (h done hprefix)

/-- A cluster of one member, which leads it and departs. -/
def leaderDeparts : List Event :=
  [.message (.clusterInfo currentVersion [placeholderMember 1 unknownAddress unixEpoch] (some 1) 2) unixEpoch,
    .message (.departure 1 currentVersion unknownAddress) unixEpoch]

theorem not_sendsToMembers : ¬ ∀ (node : Option (UInt64 × Str)) (events : List Event) (done : List Event), done <+: events →
    SendsToMembers (run node done) := by
  intro h
  have hknows := (h none leaderDeparts _ List.prefix_rfl).recorded currentVersion _ (by
    show (Std.ExtTreeMap.modify (Std.ExtTreeMap.insert ∅ currentVersion _) currentVersion _)[currentVersion]? = _
    rw [Std.ExtTreeMap.getElem?_modify_self, Std.ExtTreeMap.getElem?_insert_self]
    rfl)
  exact absurd (hknows 1 rfl) (by decide)

end ClusterDiscovery

end IrohRaft.Management
