import IrohRaft.Library.Bincode
import IrohRaft.Library.Database
import IrohRaft.Library.Session
import IrohRaft.Storage.Redb

/-!
# The tables of the older redb storage

The tables `RedbRaftStorage` keeps in its database, and the ten of them that hold the state machine:
copied out as one value for a snapshot, and cleared and refilled from one in a single transaction.
-/

namespace IrohRaft

open Rust Redb Bincode

structure SnapshotData where
  vmStates : List (Str × Bytes)
  clusterState : List (Str × Bytes)
  tasks : List (Str × Bytes)
  taskAssignments : List (Str × Bytes)
  taskResults : List (Str × Bytes)
  workers : List (Bytes × Bytes)
  workerStatus : List (Bytes × Bytes)
  ipPools : List (UInt64 × Bytes)
  ipAllocations : List (Str × Bytes)
  vmIpMappings : List (Str × Bytes)
  deriving DecidableEq

namespace SnapshotData

/-- The records of a table, one after another. -/
def encodeTable {κ : Type} (encodeKey : κ → Bytes) (records : List (κ × Bytes)) : Bytes :=
  encodeSeq (encodePair encodeKey encodeBytes) records

def decodeTable {κ : Type} (decodeKey : Decoder κ) : Decoder (List (κ × Bytes)) :=
  decodeSeq (decodePair decodeKey decodeBytes)

def encode (data : SnapshotData) : Bytes :=
  encodeTable encodeString data.vmStates ++ encodeTable encodeString data.clusterState ++
    encodeTable encodeString data.tasks ++ encodeTable encodeString data.taskAssignments ++
    encodeTable encodeString data.taskResults ++ encodeTable encodeBytes data.workers ++
    encodeTable encodeBytes data.workerStatus ++ encodeTable u64ToLeBytes data.ipPools ++
    encodeTable encodeString data.ipAllocations ++ encodeTable encodeString data.vmIpMappings

def decode : Decoder SnapshotData := fun data => do
  let (vmStates, rest) ← decodeTable decodeString data
  let (clusterState, rest) ← decodeTable decodeString rest
  let (tasks, rest) ← decodeTable decodeString rest
  let (taskAssignments, rest) ← decodeTable decodeString rest
  let (taskResults, rest) ← decodeTable decodeString rest
  let (workers, rest) ← decodeTable decodeBytes rest
  let (workerStatus, rest) ← decodeTable decodeBytes rest
  let (ipPools, rest) ← decodeTable decodeU64 rest
  let (ipAllocations, rest) ← decodeTable decodeString rest
  let (vmIpMappings, rest) ← decodeTable decodeString rest
  return ({ vmStates, clusterState, tasks, taskAssignments, taskResults, workers, workerStatus, ipPools, ipAllocations,
            vmIpMappings }, rest)

def serde : Serde SnapshotData := Serde.ofDecoder encode decode

end SnapshotData

/-! ### Table definitions -/

def vmStateTable : TableDefinition Str := ⟨"vm_states"⟩

def clusterStateTable : TableDefinition Str := ⟨"cluster_state"⟩

def raftLogTable : TableDefinition UInt64 := ⟨"raft_log"⟩

def raftHardStateTable : TableDefinition Str := ⟨"raft_hard_state"⟩

def raftConfStateTable : TableDefinition Str := ⟨"raft_conf_state"⟩

def taskTable : TableDefinition Str := ⟨"tasks"⟩

def taskAssignmentTable : TableDefinition Str := ⟨"task_assignments"⟩

def taskResultTable : TableDefinition Str := ⟨"task_results"⟩

def workerTable : TableDefinition Bytes := ⟨"workers"⟩

def workerStatusTable : TableDefinition Bytes := ⟨"worker_status"⟩

def ipPoolTable : TableDefinition UInt64 := ⟨"ip_pools"⟩

def ipAllocationTable : TableDefinition Str := ⟨"ip_allocations"⟩

def vmIpMappingTable : TableDefinition Str := ⟨"vm_ip_mappings"⟩

/-- `bincode::deserialize(data).map_err(|e| RaftError::Serialization { operation, source })`. -/
def deserializeSnapshotData (operation : String) (data : Bytes) : Outcome RaftError SnapshotData :=
  match SnapshotData.serde.deserialize data with
  | .ok value => .ok value
  | .error e => .err (.serialization operation e)

namespace RedbRaftStorage

/-- The records of a table in order; a table that was never written has none. -/
def readTable {κ : Type} [Ord κ] [Std.TransOrd κ] (tables : Tables κ) (definition : TableDefinition κ) : List (κ × Bytes) :=
  match tables[definition.name]? with
  | some table => table.pairs
  | none => []

def createSnapshotData (database : Redb.Database) : SnapshotData where
  vmStates := readTable database.stringTables vmStateTable
  clusterState := readTable database.stringTables clusterStateTable
  tasks := readTable database.stringTables taskTable
  taskAssignments := readTable database.stringTables taskAssignmentTable
  taskResults := readTable database.stringTables taskResultTable
  workers := readTable database.bytesTables workerTable
  workerStatus := readTable database.bytesTables workerStatusTable
  ipPools := readTable database.u64Tables ipPoolTable
  ipAllocations := readTable database.stringTables ipAllocationTable
  vmIpMappings := readTable database.stringTables vmIpMappingTable

def restoreStringTable (definition : TableDefinition Str) (data : List (Str × Bytes)) (writeTxn : Redb.Database) :
    Redb.Database :=
  { writeTxn with stringTables := writeTxn.stringTables.refill definition data }

def restoreBytesTable (definition : TableDefinition Bytes) (data : List (Bytes × Bytes)) (writeTxn : Redb.Database) :
    Redb.Database :=
  { writeTxn with bytesTables := writeTxn.bytesTables.refill definition data }

def restoreU64Table (definition : TableDefinition UInt64) (data : List (UInt64 × Bytes)) (writeTxn : Redb.Database) :
    Redb.Database :=
  { writeTxn with u64Tables := writeTxn.u64Tables.refill definition data }

def restoreFromSnapshot (data : Bytes) : Session Redb.Database RaftError Unit :=
  .commit fun writeTxn => do
    let snapshotData ← deserializeSnapshotData "deserialize snapshot data" data
    let writeTxn := restoreStringTable vmStateTable snapshotData.vmStates writeTxn
    let writeTxn := restoreStringTable clusterStateTable snapshotData.clusterState writeTxn
    let writeTxn := restoreStringTable taskTable snapshotData.tasks writeTxn
    let writeTxn := restoreStringTable taskAssignmentTable snapshotData.taskAssignments writeTxn
    let writeTxn := restoreStringTable taskResultTable snapshotData.taskResults writeTxn
    let writeTxn := restoreBytesTable workerTable snapshotData.workers writeTxn
    let writeTxn := restoreBytesTable workerStatusTable snapshotData.workerStatus writeTxn
    let writeTxn := restoreU64Table ipPoolTable snapshotData.ipPools writeTxn
    let writeTxn := restoreStringTable ipAllocationTable snapshotData.ipAllocations writeTxn
    let writeTxn := restoreStringTable vmIpMappingTable snapshotData.vmIpMappings writeTxn
    return writeTxn

end RedbRaftStorage

end IrohRaft
