import IrohRaft.Library.Run
import IrohRaft.Storage.Simple

/-!
# Runs of the storage

The four writes as operations, and the calls that respect the contract of raft's storage: entries are
appended in one block that starts inside the log or right after it, and nothing is compacted that was
not stored.
-/

namespace IrohRaft

open Rust Redb

/-- Consecutive indices. -/
def Contiguous (entries : List Entry) : Prop := entries.IsChain fun a b => b.index.toNat = a.index.toNat + 1

instance (entries : List Entry) : Decidable (Contiguous entries) := by
  unfold Contiguous
  infer_instance

namespace RaftStorage

inductive Op where
  | saveHardState (hardState : HardState)
  | append (entries : List Entry)
  | applySnapshot (snapshot : Snapshot)
  | compact (compactIndex : UInt64)

def exec (prost : ProstCodec Snapshot) (storage : RaftStorage) : Op → RaftStorage
  | .saveHardState hardState => saveHardState storage hardState
  | .append entries => append storage entries
  | .applySnapshot snapshot => applySnapshot prost storage snapshot
  | .compact compactIndex => compact storage compactIndex

/-- The state after the operations, from an empty data directory. -/
def run (prost : ProstCodec Snapshot) (ops : List Op) : RaftStorage := Run.final (exec prost) (new {}) ops

/-- The batch starts between the first index and one past the last. -/
def AppendsAt (prost : ProstCodec Snapshot) (storage : RaftStorage) (entry : Entry) : Prop :=
  (firstIndex prost storage).Returns (· ≤ entry.index) ∧
    (lastIndex prost storage).Returns fun last => entry.index.toNat ≤ last.toNat + 1

def Legal (prost : ProstCodec Snapshot) (storage : RaftStorage) : Op → Prop
  | .saveHardState _ => True
  | .append entries => Contiguous entries ∧ ∃ entry ∈ entries.head?, AppendsAt prost storage entry
  | .applySnapshot _ => True
  | .compact compactIndex => (lastIndex prost storage).Returns (compactIndex ≤ ·)

instance (prost : ProstCodec Snapshot) (storage : RaftStorage) (entry : Entry) :
    Decidable (AppendsAt prost storage entry) := by
  unfold AppendsAt
  infer_instance

instance (prost : ProstCodec Snapshot) (storage : RaftStorage) (op : Op) : Decidable (Legal prost storage op) := by
  cases op <;> unfold Legal <;> infer_instance

/-- A snapshot without metadata is accepted and ignored. -/
def CarriesMetadata : Op → Prop
  | .applySnapshot snapshot => snapshot.metadata.isSome = true
  | _ => True

instance (op : Op) : Decidable (CarriesMetadata op) := by
  cases op <;> unfold CarriesMetadata <;> infer_instance

/-- The operations on the log and its snapshot. -/
def WritesLog : Op → Prop
  | .saveHardState _ => False
  | _ => True

instance (op : Op) : Decidable (WritesLog op) := by
  cases op <;> unfold WritesLog <;> infer_instance

def SnapshotStored (storage : RaftStorage) : Prop := snapshotKey ∈ storage.snapshotTable

instance (storage : RaftStorage) : Decidable (SnapshotStored storage) := by
  unfold SnapshotStored
  infer_instance

end RaftStorage

end IrohRaft
