import IrohRaft.Library.Bincode

/-!
# Management requests

The operations of `management/mod.rs` and their bincode encoders and decoders, the roles, and which
operations only read. An enum is encoded as the index of its variant, in the order of declaration. A time
before the epoch cannot be encoded.
-/

namespace IrohRaft.Management

open Rust Bincode

def nanosPerSec : Nat := 1000000000

/-- `std::time::Duration`, in nanoseconds; its seconds are a `u64`. -/
abbrev Duration := { nanos : Nat // nanos / nanosPerSec < 2 ^ 64 }

abbrev FitsI64 (secs : Int) : Prop := -2 ^ 63 ≤ secs ∧ secs < 2 ^ 63

/-- `std::time::SystemTime`, in nanoseconds since the Unix epoch; its seconds are an `i64`. -/
abbrev SystemTime := { nanos : Int // FitsI64 (nanos / nanosPerSec) }

/-- `SystemTime::UNIX_EPOCH`. -/
def unixEpoch : SystemTime := ⟨0, by decide⟩

inductive MemberRole where
  | voter
  | learner
  | observer
  deriving DecidableEq, Repr

inductive MetricCategory where
  | raft
  | transport
  | storage
  | performance
  | system
  deriving DecidableEq, Repr

structure RaftState where
  term : UInt64
  vote : Option UInt64
  leader : Option UInt64
  commitIndex : UInt64
  lastApplied : UInt64
  logLength : UInt64
  deriving DecidableEq

structure ClusterConfig where
  clusterId : Str
  heartbeatInterval : Duration
  electionTimeout : Duration
  maxLogEntries : UInt64
  snapshotThreshold : UInt64
  compactionThreshold : UInt64
  deriving DecidableEq

structure BackupMetadata where
  backupId : Str
  description : Str
  createdAt : SystemTime
  clusterState : RaftState
  deriving DecidableEq

inductive ManagementOperation where
  | getClusterStatus
  | addMember (nodeId : UInt64) (address : Str) (role : MemberRole)
  | removeMember (nodeId : UInt64)
  | updateMemberRole (nodeId : UInt64) (role : MemberRole)
  | transferLeadership (targetNode : Option UInt64)
  | stepDown
  | getConfiguration
  | updateConfiguration (config : ClusterConfig)
  | getMetrics (categories : List MetricCategory)
  | getHealthStatus
  | getLogInfo
  | compactLog (index : UInt64)
  | getLogEntries (start stop : UInt64)
  | triggerSnapshot
  | getSnapshotInfo
  | createBackup (metadata : BackupMetadata)
  | restoreBackup (backupId : Str)
  | listBackups
  deriving DecidableEq

structure ManagementRequest where
  operation : ManagementOperation
  timeout : Option Duration
  authorization : Option Str
  deriving DecidableEq

inductive ManagementRole where
  | admin
  | observer
  | memberManager
  | monitor
  deriving DecidableEq, Repr

def ManagementOperation.isReadOnly : ManagementOperation → Bool
  | .getClusterStatus | .getConfiguration | .getMetrics _ | .getHealthStatus | .getLogInfo | .getLogEntries _ _
  | .getSnapshotInfo | .listBackups => true
  | _ => false

/-! ### Decoding -/

def decodeDuration : Decoder Duration := fun data => do
  let (secs, rest) ← decodeU64 data
  let (nanos, rest) ← decodeU32 rest
  if h : (secs.toNat * nanosPerSec + nanos.toNat) / nanosPerSec < 2 ^ 64 then
    return (⟨secs.toNat * nanosPerSec + nanos.toNat, h⟩, rest)
  else .error "overflow deserializing Duration"

def decodeSystemTime : Decoder SystemTime := fun data => do
  let (secs, rest) ← decodeU64 data
  let (nanos, rest) ← decodeU32 rest
  let total := secs.toNat * nanosPerSec + nanos.toNat
  if 2 ^ 64 ≤ total / nanosPerSec then .error "overflow deserializing SystemTime epoch offset"
  else if h : FitsI64 ((total : Int) / nanosPerSec) then return (⟨total, h⟩, rest)
  else .error "overflow deserializing SystemTime"

def MemberRole.decode : Decoder MemberRole := decodeVariant [.voter, .learner, .observer]

def MetricCategory.decode : Decoder MetricCategory := decodeVariant [.raft, .transport, .storage, .performance, .system]

def RaftState.decode : Decoder RaftState := fun data => do
  let (term, rest) ← decodeU64 data
  let (vote, rest) ← decodeOption decodeU64 rest
  let (leader, rest) ← decodeOption decodeU64 rest
  let (commitIndex, rest) ← decodeU64 rest
  let (lastApplied, rest) ← decodeU64 rest
  let (logLength, rest) ← decodeU64 rest
  return ({ term, vote, leader, commitIndex, lastApplied, logLength }, rest)

def ClusterConfig.decode : Decoder ClusterConfig := fun data => do
  let (clusterId, rest) ← decodeString data
  let (heartbeatInterval, rest) ← decodeDuration rest
  let (electionTimeout, rest) ← decodeDuration rest
  let (maxLogEntries, rest) ← decodeU64 rest
  let (snapshotThreshold, rest) ← decodeU64 rest
  let (compactionThreshold, rest) ← decodeU64 rest
  return ({ clusterId, heartbeatInterval, electionTimeout, maxLogEntries, snapshotThreshold, compactionThreshold }, rest)

def BackupMetadata.decode : Decoder BackupMetadata := fun data => do
  let (backupId, rest) ← decodeString data
  let (description, rest) ← decodeString rest
  let (createdAt, rest) ← decodeSystemTime rest
  let (clusterState, rest) ← RaftState.decode rest
  return ({ backupId, description, createdAt, clusterState }, rest)

def ManagementOperation.decode : Decoder ManagementOperation := fun data => do
  let (variant, rest) ← decodeU32 data
  match variant.toNat with
  | 0 => .ok (.getClusterStatus, rest)
  | 1 => do
      let (nodeId, rest) ← decodeU64 rest
      let (address, rest) ← decodeString rest
      let (role, rest) ← MemberRole.decode rest
      return (.addMember nodeId address role, rest)
  | 2 => do
      let (nodeId, rest) ← decodeU64 rest
      return (.removeMember nodeId, rest)
  | 3 => do
      let (nodeId, rest) ← decodeU64 rest
      let (role, rest) ← MemberRole.decode rest
      return (.updateMemberRole nodeId role, rest)
  | 4 => do
      let (targetNode, rest) ← decodeOption decodeU64 rest
      return (.transferLeadership targetNode, rest)
  | 5 => .ok (.stepDown, rest)
  | 6 => .ok (.getConfiguration, rest)
  | 7 => do
      let (config, rest) ← ClusterConfig.decode rest
      return (.updateConfiguration config, rest)
  | 8 => do
      let (categories, rest) ← decodeSeq MetricCategory.decode rest
      return (.getMetrics categories, rest)
  | 9 => .ok (.getHealthStatus, rest)
  | 10 => .ok (.getLogInfo, rest)
  | 11 => do
      let (index, rest) ← decodeU64 rest
      return (.compactLog index, rest)
  | 12 => do
      let (start, rest) ← decodeU64 rest
      let (stop, rest) ← decodeU64 rest
      return (.getLogEntries start stop, rest)
  | 13 => .ok (.triggerSnapshot, rest)
  | 14 => .ok (.getSnapshotInfo, rest)
  | 15 => do
      let (metadata, rest) ← BackupMetadata.decode rest
      return (.createBackup metadata, rest)
  | 16 => do
      let (backupId, rest) ← decodeString rest
      return (.restoreBackup backupId, rest)
  | 17 => .ok (.listBackups, rest)
  | _ => .error s!"invalid value: integer `{variant}`, expected variant index 0 <= i < 18"

def ManagementRequest.decode : Decoder ManagementRequest := fun data => do
  let (operation, rest) ← ManagementOperation.decode data
  let (timeout, rest) ← decodeOption decodeDuration rest
  let (authorization, rest) ← decodeOption decodeString rest
  return ({ operation, timeout, authorization }, rest)

/-! ### Encoding -/

def encodeDuration (duration : Duration) : Bytes :=
  u64ToLeBytes (UInt64.ofNat (duration.val / nanosPerSec)) ++ u32ToLeBytes (UInt32.ofNat (duration.val % nanosPerSec))

def encodeSystemTime (time : SystemTime) : Except String Bytes :=
  if 0 ≤ time.val then
    .ok (u64ToLeBytes (UInt64.ofNat (time.val.toNat / nanosPerSec)) ++ u32ToLeBytes (UInt32.ofNat (time.val.toNat % nanosPerSec)))
  else .error "SystemTime must be later than UNIX_EPOCH"

def MemberRole.variantIndex : MemberRole → UInt32
  | .voter => 0
  | .learner => 1
  | .observer => 2

def MemberRole.encode (role : MemberRole) : Bytes := u32ToLeBytes role.variantIndex

def MetricCategory.variantIndex : MetricCategory → UInt32
  | .raft => 0
  | .transport => 1
  | .storage => 2
  | .performance => 3
  | .system => 4

def MetricCategory.encode (category : MetricCategory) : Bytes := u32ToLeBytes category.variantIndex

def RaftState.encode (state : RaftState) : Bytes :=
  u64ToLeBytes state.term ++
  (encodeOption u64ToLeBytes state.vote ++
  (encodeOption u64ToLeBytes state.leader ++
  (u64ToLeBytes state.commitIndex ++
  (u64ToLeBytes state.lastApplied ++
  u64ToLeBytes state.logLength))))

def ClusterConfig.encode (config : ClusterConfig) : Bytes :=
  encodeString config.clusterId ++
  (encodeDuration config.heartbeatInterval ++
  (encodeDuration config.electionTimeout ++
  (u64ToLeBytes config.maxLogEntries ++
  (u64ToLeBytes config.snapshotThreshold ++
  u64ToLeBytes config.compactionThreshold))))

def BackupMetadata.encode (metadata : BackupMetadata) : Except String Bytes := do
  let createdAt ← encodeSystemTime metadata.createdAt
  return encodeString metadata.backupId ++ (encodeString metadata.description ++ (createdAt ++ metadata.clusterState.encode))

def ManagementOperation.encode : ManagementOperation → Except String Bytes
  | .getClusterStatus => .ok (u32ToLeBytes 0)
  | .addMember nodeId address role => .ok (u32ToLeBytes 1 ++ (u64ToLeBytes nodeId ++ (encodeString address ++ role.encode)))
  | .removeMember nodeId => .ok (u32ToLeBytes 2 ++ u64ToLeBytes nodeId)
  | .updateMemberRole nodeId role => .ok (u32ToLeBytes 3 ++ (u64ToLeBytes nodeId ++ role.encode))
  | .transferLeadership targetNode => .ok (u32ToLeBytes 4 ++ encodeOption u64ToLeBytes targetNode)
  | .stepDown => .ok (u32ToLeBytes 5)
  | .getConfiguration => .ok (u32ToLeBytes 6)
  | .updateConfiguration config => .ok (u32ToLeBytes 7 ++ config.encode)
  | .getMetrics categories => .ok (u32ToLeBytes 8 ++ encodeSeq MetricCategory.encode categories)
  | .getHealthStatus => .ok (u32ToLeBytes 9)
  | .getLogInfo => .ok (u32ToLeBytes 10)
  | .compactLog index => .ok (u32ToLeBytes 11 ++ u64ToLeBytes index)
  | .getLogEntries start stop => .ok (u32ToLeBytes 12 ++ (u64ToLeBytes start ++ u64ToLeBytes stop))
  | .triggerSnapshot => .ok (u32ToLeBytes 13)
  | .getSnapshotInfo => .ok (u32ToLeBytes 14)
  | .createBackup metadata => do
      let metadata ← metadata.encode
      return u32ToLeBytes 15 ++ metadata
  | .restoreBackup backupId => .ok (u32ToLeBytes 16 ++ encodeString backupId)
  | .listBackups => .ok (u32ToLeBytes 17)

def ManagementRequest.encode (request : ManagementRequest) : Except String Bytes := do
  let operation ← request.operation.encode
  return operation ++ (encodeOption encodeDuration request.timeout ++ encodeOption encodeString request.authorization)

end IrohRaft.Management
