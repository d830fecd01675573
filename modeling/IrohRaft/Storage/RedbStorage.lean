import IrohRaft.Library.Run
import IrohRaft.Storage.Codec
import IrohRaft.Storage.RedbTables

/-!
# The methods of the older redb storage

Each write opens and commits its own transaction, and some calls make several. What redb itself fails
is not told apart from a call that stops before that transaction. The functions of `raft_codec` for the
hard state and the conf state are parameters, like those for entries.
-/

namespace IrohRaft

open Rust Redb

/-- The functions of the `raft_codec` module. An error of a decoder is its text. -/
structure RaftStateCodec extends RaftCodec where
  serializeHardState : HardState → Outcome RaftError Bytes
  deserializeHardState : Bytes → Except String HardState
  serializeConfState : ConfState → Outcome RaftError Bytes
  deserializeConfState : Bytes → Except String ConfState

/-- Hard states are read back as they were written. -/
def RaftStateCodec.PreservesHardStates (codec : RaftStateCodec) : Prop :=
  ∀ hardState data, codec.serializeHardState hardState = .ok data → codec.deserializeHardState data = .ok hardState

namespace RedbRaftStorage

def hardStateRecord : Str := ⟨"hard_state", by decide⟩

def confStateRecord : Str := ⟨"conf_state", by decide⟩

/-- The log of a database. -/
def ofDatabase (database : Redb.Database) : RedbRaftStorage where
  raftLog := database.u64Tables[raftLogTable.name]?

variable (codec : RaftStateCodec)

/-! ### Reads -/

def initialHardState (database : Redb.Database) : HardState :=
  match database.stringTables.get? raftHardStateTable hardStateRecord with
  | some data =>
      match codec.deserializeHardState data with
      | .ok state => state
      | .error _ => {}
  | none => {}

def initialConfState (database : Redb.Database) : ConfState :=
  match database.stringTables.get? raftConfStateTable confStateRecord with
  | some data =>
      match codec.deserializeConfState data with
      | .ok state => state
      | .error _ => {}
  | none => {}

/-- A record that cannot be read counts as missing. -/
def initialState (database : Redb.Database) : RaftState where
  hardState := initialHardState codec database
  confState := initialConfState codec database

def loadConfState (database : Redb.Database) : Outcome RaftError ConfState :=
  match database.stringTables.get? raftConfStateTable confStateRecord with
  | some data =>
      match codec.deserializeConfState data with
      | .ok state => .ok state
      | .error e => .err (.serialization "deserialize conf state" e)
  | none => .ok {}

/-- `for idx in low..high { .. }`, with `count` indices still to visit. An index without an entry is passed over. -/
def entriesLoop (table : Table UInt64) (maxSize : Option UInt64) :
    (count : Nat) → (idx : UInt64) → List Entry → (size : UInt64) → Outcome StorageError (List Entry)
  | 0, _, entries, _ => return entries
  | count + 1, idx, entries, size =>
      match table[idx]? with
      | some entryData => do
          let entrySize := UInt64.ofNat entryData.length
          let full ←
            match maxSize with
            | some max => (fun sizeWith => decide (sizeWith > max)) <$> u64Add size entrySize
            | none => pure false
          if full then return entries
          else
            let entry ← (codec.deserializeEntry entryData).mapErr .codec
            let size ← u64Add size entrySize
            entriesLoop table maxSize count (idx + 1) (entries ++ [entry]) size
      | none => entriesLoop table maxSize count (idx + 1) entries size

/-- `entries(low, high, max_size, context)`: the context makes no difference. -/
def entries (database : Redb.Database) (low high : UInt64) (maxSize : Option UInt64) : Outcome StorageError (List Entry) := do
  let table ← (ofDatabase database).openLog
  -- `high - low`, to size the buffer
  let count ← u64Sub high low
  entriesLoop codec table maxSize count.toNat low [] 0

def term (database : Redb.Database) (idx : UInt64) : Outcome StorageError UInt64 := do
  let table ← (ofDatabase database).openLog
  match table[idx]? with
  | some data => do
      let entry ← (codec.deserializeEntry data).mapErr .codec
      return entry.term
  | none => return 0

/-- `snapshot(request_index, to)`: who asks makes no difference. -/
def snapshot (database : Redb.Database) (requestIndex : UInt64) : Outcome StorageError Snapshot := do
  let confState ← (loadConfState codec database).mapErr .codec
  let lastIndex ← (ofDatabase database).lastIndex
  let term ← (if lastIndex > 0 then term codec database lastIndex else pure 0)
  let metadata : SnapshotMetadata := { confState := some confState, index := min requestIndex lastIndex, term }
  let snapshotData := createSnapshotData database
  return { data := SnapshotData.serde.serialize snapshotData, metadata := some metadata }

/-! ### Writes -/

/-- `append(entries)`. -/
def appendEntries (entries : List Entry) : Session Redb.Database RaftError Unit :=
  .commit fun writeTxn => do
    let table ← insertEntries codec.toRaftCodec (writeTxn.u64Tables.openTable raftLogTable) entries
    return { writeTxn with u64Tables := writeTxn.u64Tables.put raftLogTable table }

def saveHardState (hardState : HardState) : Session Redb.Database RaftError Unit :=
  .commit fun writeTxn => do
    let data ← codec.serializeHardState hardState
    return { writeTxn with stringTables := writeTxn.stringTables.insertInto raftHardStateTable hardStateRecord data }

def saveConfState (confState : ConfState) : Session Redb.Database RaftError Unit :=
  .commit fun writeTxn => do
    let data ← codec.serializeConfState confState
    return { writeTxn with stringTables := writeTxn.stringTables.insertInto raftConfStateTable confStateRecord data }

def initializeSingleNode (nodeId : UInt64) : Session Redb.Database RaftError Unit := do
  let initialized ← .read fun readTxn => return (readTxn.stringTables.get? raftConfStateTable confStateRecord).isSome
  if initialized then return ()
  else saveConfState codec { voters := [nodeId] }

def initializeJoiningNode : Session Redb.Database RaftError Unit := do
  saveConfState codec {}
  saveHardState codec { term := 0, vote := 0, commit := 0 }

/-- An index of zero leaves the log alone. -/
def compactLogBefore (index : UInt64) : Session Redb.Database RaftError Unit :=
  if index = 0 then return ()
  else .commit fun writeTxn =>
    let table := writeTxn.u64Tables.openTable raftLogTable
    let keysToRemove := table.keysIn fun key => key < index
    return { writeTxn with u64Tables := writeTxn.u64Tables.put raftLogTable (table.removeAll keysToRemove) }

/-- `snapshot.get_metadata()`: what is missing reads as the default. -/
def getMetadata (snapshot : Snapshot) : SnapshotMetadata := snapshot.metadata.getD { confState := none, index := 0, term := 0 }

def applySnapshot (snapshot : Snapshot) : Session Redb.Database RaftError Unit := do
  let metadata := getMetadata snapshot
  saveConfState codec (metadata.confState.getD {})
  let hardState : HardState := { term := metadata.term, commit := metadata.index }
  saveHardState codec hardState
  unless snapshot.data.isEmpty do
    restoreFromSnapshot snapshot.data
  compactLogBefore metadata.index

/-- `apply_initial_conf_state(conf_state)` of `raft/core.rs`: a minimal snapshot, at index zero. -/
def applyInitialConfState (confState : ConfState) : Session Redb.Database RaftError Unit :=
  applySnapshot codec { data := [], metadata := some { confState := some confState, index := 0, term := 0 } }

/-! ### Runs -/

inductive Op where
  | append (entries : List Entry)
  | saveHardState (hardState : HardState)
  | compactLogBefore (index : UInt64)
  | applySnapshot (snapshot : Snapshot)
  | initializeJoiningNode
  | applyInitialConfState (confState : ConfState)

def Op.session : Op → Session Redb.Database RaftError Unit
  | .append entries => appendEntries codec entries
  | .saveHardState hardState => RedbRaftStorage.saveHardState codec hardState
  | .compactLogBefore index => RedbRaftStorage.compactLogBefore index
  | .applySnapshot snapshot => RedbRaftStorage.applySnapshot codec snapshot
  | .initializeJoiningNode => RedbRaftStorage.initializeJoiningNode codec
  | .applyInitialConfState confState => RedbRaftStorage.applyInitialConfState codec confState

/-- A call, and the number of its transactions that are committed before it fails or the process stops. -/
structure Call where
  op : Op
  stopAfter : Option Nat := none

/-- What the call leaves for the next one, or for a restart. -/
def exec (database : Redb.Database) (call : Call) : Redb.Database :=
  match call.stopAfter with
  | some transactions => (call.op.session codec).stopped transactions database
  | none => (call.op.session codec).final database

theorem exec_mem_states (database : Redb.Database) (call : Call) :
    exec codec database call ∈ (call.op.session codec).states database := by
  rw [exec]
  cases call.stopAfter with
  | some transactions => exact Session.stopped_mem_states _ transactions
  | none => exact Session.final_mem_states _

end RedbRaftStorage

/-- The encodings of the sibling storage's codec, as such an instance. -/
def RaftStateCodec.ofStorage : RaftStateCodec where
  serializeEntry entry := .ok (IrohRaft.serializeEntry entry)
  deserializeEntry := IrohRaft.deserializeEntry
  serializeHardState hardState := .ok (IrohRaft.serializeHardState hardState)
  deserializeHardState data :=
    match IrohRaft.deserializeHardState data with
    | .ok hardState => .ok hardState
    | _ => .error "invalid hard state"
  serializeConfState confState := .ok (IrohRaft.serializeConfState confState)
  deserializeConfState data :=
    match IrohRaft.deserializeConfState data with
    | .ok confState => .ok confState
    | _ => .error "invalid conf state"

end IrohRaft
