import IrohRaft.Storage.RedbStorage

/-!
# The snapshot manager

`RaftSnapshotManager` of `raft/snapshot.rs`: it installs the snapshot of a `Ready`, first in the storage
and then once more in the state machine's tables, and compacts the log up to a snapshot it takes.
-/

namespace IrohRaft

open Rust Redb

structure RaftSnapshotManager where
  lastCompactionIndex : Option UInt64 := none
  deriving DecidableEq, Repr

namespace RaftSnapshotManager

def clearAndRestoreStringTable (definition : TableDefinition Str) (snapshotData : List (Str × Bytes))
    (writeTxn : Redb.Database) : Redb.Database :=
  { writeTxn with stringTables := writeTxn.stringTables.refill definition snapshotData }

def clearAndRestoreBinaryTable (definition : TableDefinition Bytes) (snapshotData : List (Bytes × Bytes))
    (writeTxn : Redb.Database) : Redb.Database :=
  { writeTxn with bytesTables := writeTxn.bytesTables.refill definition snapshotData }

def clearAndRestoreU64Table (definition : TableDefinition UInt64) (snapshotData : List (UInt64 × Bytes))
    (writeTxn : Redb.Database) : Redb.Database :=
  { writeTxn with u64Tables := writeTxn.u64Tables.refill definition snapshotData }

def applySnapshotToStateMachine (snapshotData : Bytes) : Session Redb.Database RaftError Unit :=
  .commit fun writeTxn => do
    let snapshot ← deserializeSnapshotData "deserialize snapshot" snapshotData
    -- Restore all string-keyed tables
    let writeTxn := clearAndRestoreStringTable vmStateTable snapshot.vmStates writeTxn
    let writeTxn := clearAndRestoreStringTable clusterStateTable snapshot.clusterState writeTxn
    let writeTxn := clearAndRestoreStringTable taskTable snapshot.tasks writeTxn
    let writeTxn := clearAndRestoreStringTable taskAssignmentTable snapshot.taskAssignments writeTxn
    let writeTxn := clearAndRestoreStringTable taskResultTable snapshot.taskResults writeTxn
    -- Restore binary-keyed tables
    let writeTxn := clearAndRestoreBinaryTable workerTable snapshot.workers writeTxn
    let writeTxn := clearAndRestoreBinaryTable workerStatusTable snapshot.workerStatus writeTxn
    -- Restore u64-keyed tables
    let writeTxn := clearAndRestoreU64Table ipPoolTable snapshot.ipPools writeTxn
    -- Restore remaining string-keyed tables
    let writeTxn := clearAndRestoreStringTable ipAllocationTable snapshot.ipAllocations writeTxn
    let writeTxn := clearAndRestoreStringTable vmIpMappingTable snapshot.vmIpMappings writeTxn
    return writeTxn

/-- `snapshot.is_empty()`, of the raft crate. -/
def isEmpty (snapshot : Snapshot) : Bool := (RedbRaftStorage.getMetadata snapshot).index = 0

variable (codec : RaftStateCodec)

/-- Given `ready.snapshot()`. -/
def processSnapshotIfPresent (snapshot : Snapshot) : Session Redb.Database RaftError Unit := do
  unless isEmpty snapshot do
    RedbRaftStorage.applySnapshot codec snapshot
    unless snapshot.data.isEmpty do
      applySnapshotToStateMachine snapshot.data

def compactionThreshold : UInt64 := 1000

/-- A snapshot that cannot be taken and a log that cannot be compacted are logged. -/
def performLogCompaction (manager : RaftSnapshotManager) (appliedIndex : UInt64) (database : Redb.Database) :
    Redb.Database × RaftSnapshotManager :=
  match RedbRaftStorage.snapshot codec database appliedIndex with
  | .ok snapshot =>
      let compactIndex := (RedbRaftStorage.getMetadata snapshot).index
      let compact := RedbRaftStorage.compactLogBefore compactIndex
      match compact.result database with
      | .ok () => (compact.final database, { manager with lastCompactionIndex := some compactIndex })
      | _ => (compact.final database, manager)
  | _ => (database, manager)

/-- With `raft_node.raft.raft_log.applied`. The subtraction overflows where the index went back. -/
def checkAndTriggerLogCompaction (manager : RaftSnapshotManager) (appliedIndex : UInt64) (database : Redb.Database) :
    Outcome RaftError (Redb.Database × RaftSnapshotManager) := do
  if appliedIndex > compactionThreshold then
    let shouldCompact ←
      match manager.lastCompactionIndex with
      | some lastCompactIdx => (fun since => decide (since > compactionThreshold / 2)) <$> u64Sub appliedIndex lastCompactIdx
      | none => pure true
    if shouldCompact then return performLogCompaction codec manager appliedIndex database
    else return (database, manager)
  else return (database, manager)

end RaftSnapshotManager

end IrohRaft
