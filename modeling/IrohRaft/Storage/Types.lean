import IrohRaft.Library.Bytes

/-!
# The raft records a node stores

The messages of the raft crate's protobuf schema that the storage layer reads and writes.
-/

namespace IrohRaft

open Rust

/-- A log entry. The kind of entry is the protobuf enumeration's number, as the crate stores it. -/
structure Entry where
  entryType : Int32
  term : UInt64
  index : UInt64
  data : Bytes
  context : Bytes
  syncLog : Bool
  deriving DecidableEq, Repr

/-- The empty entry a new leader appends. -/
def Entry.noop (index term : UInt64) : Entry := ⟨0, term, index, [], [], false⟩

structure HardState where
  term : UInt64 := 0
  vote : UInt64 := 0
  commit : UInt64 := 0
  deriving DecidableEq, Repr, Inhabited

structure ConfState where
  voters : List UInt64 := []
  learners : List UInt64 := []
  votersOutgoing : List UInt64 := []
  learnersNext : List UInt64 := []
  autoLeave : Bool := false
  deriving DecidableEq, Repr, Inhabited

structure SnapshotMetadata where
  confState : Option ConfState
  index : UInt64
  term : UInt64
  deriving DecidableEq, Repr

structure Snapshot where
  data : Bytes
  metadata : Option SnapshotMetadata
  deriving DecidableEq, Repr

/-- A snapshot of an empty state machine. -/
def Snapshot.bare (index term : UInt64) : Snapshot := ⟨[], some ⟨none, index, term⟩⟩

/-- What a restarted node reads back first. -/
structure RaftState where
  hardState : HardState
  confState : ConfState
  deriving DecidableEq, Repr

end IrohRaft
