import IrohRaft.Library.Table
import IrohRaft.Error
import IrohRaft.Storage.Types

/-!
# The older redb storage

The log of `RedbRaftStorage`, of `storage/redb.rs`. Its tables are created by the first write that
opens them. The entry codec it calls, `raft_codec`, is not part of the repository.
-/

namespace IrohRaft

open Rust Redb

/-- The entry functions of the `raft_codec` module. -/
structure RaftCodec where
  serializeEntry : Entry → Outcome RaftError Bytes
  deserializeEntry : Bytes → Outcome RaftError Entry

/-- The codec reads back what it wrote for this entry. -/
def RaftCodec.Preserves (codec : RaftCodec) (entry : Entry) : Prop :=
  ∃ data, codec.serializeEntry entry = .ok data ∧ codec.deserializeEntry data = .ok entry

structure RedbRaftStorage where
  raftLog : Option (Table UInt64)

namespace RedbRaftStorage

/-- `for entry in entries { table.insert(&entry.index, serialize_entry(entry)?)? }`. -/
def insertEntries (codec : RaftCodec) : Table UInt64 → List Entry → Outcome RaftError (Table UInt64)
  | table, [] => return table
  | table, entry :: rest => do
      let data ← codec.serializeEntry entry
      insertEntries codec (table.insert entry.index data) rest

def append (codec : RaftCodec) (storage : RedbRaftStorage) (entries : List Entry) :
    Outcome RaftError RedbRaftStorage := do
  let table ← insertEntries codec (storage.raftLog.getD ∅) entries
  return { storage with raftLog := some table }

/-- A read transaction does not create the table it opens. -/
def openLog (storage : RedbRaftStorage) : Outcome StorageError (Table UInt64) :=
  match storage.raftLog with
  | some table => return table
  | none => throw (.other (.tableDoesNotExist "raft_log"))

def firstIndex (storage : RedbRaftStorage) : Outcome StorageError UInt64 := do
  let table ← storage.openLog
  match Table.first? table with
  | some key => return key
  | none => return 1

def lastIndex (storage : RedbRaftStorage) : Outcome StorageError UInt64 := do
  let table ← storage.openLog
  match Table.last? table with
  | some key => return key
  | none => return 0

end RedbRaftStorage

end IrohRaft
