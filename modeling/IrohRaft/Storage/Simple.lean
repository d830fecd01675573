import IrohRaft.Library.Table
import IrohRaft.Storage.Codec

/-!
# The redb-backed storage

`RaftStorage` of `storage/simple.rs`. A method opens one transaction and commits it at the end, so a
call that succeeds is one state change, and one that redb fails leaves the state as it was; the
functions below are the successful calls. `first_index` looks at the snapshot table before the log
table, `last_index` the other way round.
-/

namespace IrohRaft

open Rust Redb

def hardStateKey : String := "hard_state"

def confStateKey : String := "conf_state"

def snapshotKey : String := "snapshot"

/-- `raft.db`: the tables that were created so far. -/
structure Database where
  raftLog : Option (Table UInt64) := none
  hardState : Option (Table String) := none
  confState : Option (Table String) := none
  snapshot : Option (Table String) := none

structure RaftStorage where
  raftLogTable : Table UInt64
  hardStateTable : Table String
  confStateTable : Table String
  snapshotTable : Table String

namespace RaftStorage

/-- Opening a table in a write transaction creates it when it is missing. -/
def new (database : Database) : RaftStorage :=
  { raftLogTable := database.raftLog.getD ∅
    hardStateTable := database.hardState.getD ∅
    confStateTable := database.confState.getD ∅
    snapshotTable := database.snapshot.getD ∅ }

/-- What a storage leaves on disk. -/
def database (storage : RaftStorage) : Database :=
  { raftLog := some storage.raftLogTable
    hardState := some storage.hardStateTable
    confState := some storage.confStateTable
    snapshot := some storage.snapshotTable }

/-! ### Writes -/

def saveHardState (storage : RaftStorage) (hardState : HardState) : RaftStorage :=
  { storage with hardStateTable := storage.hardStateTable.insert hardStateKey (serializeHardState hardState) }

def append (storage : RaftStorage) (entries : List Entry) : RaftStorage :=
  if entries.isEmpty then storage
  else { storage with raftLogTable := Table.insertAll Entry.index serializeEntry storage.raftLogTable entries }

def applySnapshot (prost : ProstCodec Snapshot) (storage : RaftStorage) (snapshot : Snapshot) : RaftStorage :=
  match snapshot.metadata with
  | none => storage
  | some metadata =>
      let entriesToRemove := Table.keysIn storage.raftLogTable (fun key => key ≤ metadata.index)
      { storage with
        raftLogTable := Table.removeAll storage.raftLogTable entriesToRemove
        snapshotTable := storage.snapshotTable.insert snapshotKey (serializeSnapshot prost snapshot)
        confStateTable :=
          match metadata.confState with
          | some confState => storage.confStateTable.insert confStateKey (serializeConfState confState)
          | none => storage.confStateTable }

def compact (storage : RaftStorage) (compactIndex : UInt64) : RaftStorage :=
  let entriesToRemove := Table.keysIn storage.raftLogTable (fun key => key < compactIndex)
  { storage with raftLogTable := Table.removeAll storage.raftLogTable entriesToRemove }

/-! ### Reads -/

def appliedIndex (storage : RaftStorage) : Outcome RaftError UInt64 :=
  match storage.hardStateTable[hardStateKey]? with
  | some data => do
      let hardState ← deserializeHardState data
      return hardState.commit
  | none => return 0

def readHardState (storage : RaftStorage) : Outcome StorageError HardState :=
  match storage.hardStateTable[hardStateKey]? with
  | some data => (deserializeHardState data).mapErr .codec
  | none => return {}

def readConfState (storage : RaftStorage) : Outcome StorageError ConfState :=
  match storage.confStateTable[confStateKey]? with
  | some data => (deserializeConfState data).mapErr .codec
  | none => return {}

def initialState (storage : RaftStorage) : Outcome StorageError RaftState := do
  let hardState ← readHardState storage
  let confState ← readConfState storage
  return { hardState, confState }

/-- `for index in low..high { .. }`, with `count` indices still to visit. -/
def entriesLoop (storage : RaftStorage) (maxSize : UInt64) :
    (count : Nat) → (index : UInt64) → List Entry → (totalSize : UInt64) → Outcome StorageError (List Entry)
  | 0, _, entries, _ => return entries
  | count + 1, index, entries, totalSize =>
      match storage.raftLogTable[index]? with
      | some data => do
          let entrySize := UInt64.ofNat data.length
          let sizeWith ← u64Add totalSize entrySize
          if sizeWith > maxSize then return entries
          else
            let entry ← (deserializeEntry data).mapErr .codec
            let totalSize ← u64Add totalSize entrySize
            entriesLoop storage maxSize count (index + 1) (entries ++ [entry]) totalSize
      | none => throw .unavailable

def entries (storage : RaftStorage) (low high : UInt64) (maxSize : Option UInt64) :
    Outcome StorageError (List Entry) :=
  entriesLoop storage (maxSize.getD (UInt64.ofNat (2 ^ 64 - 1))) (high.toNat - low.toNat) low [] 0

/-- The snapshot table's one record, decoded. -/
def readSnapshot (prost : ProstCodec Snapshot) (storage : RaftStorage) : Outcome StorageError (Option Snapshot) :=
  match storage.snapshotTable[snapshotKey]? with
  | some data => some <$> (deserializeSnapshot prost data).mapErr .codec
  | none => return none

/-- Check log entries for a term. -/
def logTerm (storage : RaftStorage) (index : UInt64) : Outcome StorageError UInt64 :=
  match storage.raftLogTable[index]? with
  | some data => do
      let entry ← (deserializeEntry data).mapErr .codec
      return entry.term
  | none => throw .unavailable

def term (prost : ProstCodec Snapshot) (storage : RaftStorage) (index : UInt64) : Outcome StorageError UInt64 :=
  if index = 0 then return 0
  else do
    match (← readSnapshot prost storage).bind Snapshot.metadata with
    | some metadata => if index = metadata.index then return metadata.term else logTerm storage index
    | none => logTerm storage index

def firstIndex (prost : ProstCodec Snapshot) (storage : RaftStorage) : Outcome StorageError UInt64 := do
  match (← readSnapshot prost storage).bind Snapshot.metadata with
  | some metadata => u64Add metadata.index 1
  | none =>
      match Table.first? storage.raftLogTable with
      | some key => return key
      | none => return 1

def lastIndex (prost : ProstCodec Snapshot) (storage : RaftStorage) : Outcome StorageError UInt64 :=
  match Table.last? storage.raftLogTable with
  | some key => return key
  | none => do
      match (← readSnapshot prost storage).bind Snapshot.metadata with
      | some metadata => return metadata.index
      | none => return 0

def snapshot (prost : ProstCodec Snapshot) (storage : RaftStorage) (requestIndex : UInt64) :
    Outcome StorageError Snapshot := do
  match ← readSnapshot prost storage with
  | some snapshot =>
      match snapshot.metadata with
      | some metadata => if metadata.index ≥ requestIndex then return snapshot else throw .snapshotTemporarilyUnavailable
      | none => throw .snapshotTemporarilyUnavailable
  | none => throw .snapshotTemporarilyUnavailable

end RaftStorage

end IrohRaft
