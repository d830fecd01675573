import IrohRaft.Proof.Storage.Refine
import IrohRaft.Storage.Eraftpb

/-!
# What a compaction leaves

A compaction drops entries and nothing else. The last index is the last entry's as long as there is one,
and the snapshot's after that: a compaction that passes the end of the log makes `last_index` go back to
the snapshot, or to 0.
-/

namespace IrohRaft

open Rust Redb RaftLog

namespace RaftStorage

/-- The index a storage without entries ends at. -/
def snapshotIndex (prost : ProstCodec Snapshot) (storage : RaftStorage) : Outcome StorageError UInt64 := do
  match (← readSnapshot prost storage).bind Snapshot.metadata with
  | some metadata => return metadata.index
  | none => return 0

/-- A compaction changes neither the last index nor what is stored from its index on. -/
structure KeepsTail (prost : ProstCodec Snapshot) (storage : RaftStorage) (compactIndex : UInt64) : Prop where
  last : lastIndex prost (compact storage compactIndex) = lastIndex prost storage
  entry : ∀ index, compactIndex ≤ index →
    (compact storage compactIndex).raftLogTable[index]? = storage.raftLogTable[index]?

/-- The last entry, if there is one, stays, or the snapshot ends where it does. -/
def LeavesLast (prost : ProstCodec Snapshot) (storage : RaftStorage) (compactIndex : UInt64) : Prop :=
  ∀ last, Table.last? storage.raftLogTable = some last →
    compactIndex ≤ last ∨ snapshotIndex prost storage = .ok last

theorem getElem?_compact (storage : RaftStorage) {compactIndex index : UInt64} (h : compactIndex ≤ index) :
    (compact storage compactIndex).raftLogTable[index]? = storage.raftLogTable[index]? := by
  have hkept : ¬ decide (index < compactIndex) = true := by
    rw [decide_eq_true_iff]
    exact UInt64.not_lt.mpr h
  rw [compact, Table.getElem?_removeAll_keysIn, if_neg hkept]

variable {prost : ProstCodec Snapshot} {storage : RaftStorage} {log : Log UInt64}

theorem Shows.snapshotIndex_iff (h : Shows prost storage log) {index : UInt64} :
    snapshotIndex prost storage = .ok index ↔ index.toNat = log.baseIndex := by
  rw [Log.baseIndex]
  cases hbase : log.base with
  | none =>
      simp only [snapshotIndex, h.readSnapshot_of_none hbase, Outcome.ok_bind, Option.bind_none, Outcome.pure_eq_ok,
        Outcome.ok.injEq]
      exact ⟨fun heq => by rw [← heq]; rfl, fun heq => UInt64.toNat_inj.mp heq.symm⟩
  | some pair =>
      obtain ⟨snapshot, confState, position, hread, hmetadata, hposition⟩ := h.readSnapshot_of_some hbase
      simp only [snapshotIndex, hread, Outcome.ok_bind, Option.bind_some, hmetadata, Outcome.pure_eq_ok, Outcome.ok.injEq]
      rw [← hposition, UInt64.toNat_inj, eq_comm]

/-- What a compaction does to the last index, on any storage that shows a log. -/
theorem Shows.lastIndex_compact_iff (h : Shows prost storage log) (compactIndex : UInt64) :
    lastIndex prost (RaftStorage.compact storage compactIndex) = lastIndex prost storage ↔
      LeavesLast prost storage compactIndex := by
  obtain ⟨last, hread, hlast⟩ := h.exists_lastIndex
  rw [hread, (h.compact compactIndex).lastIndex_iff, hlast.compact_iff, LeavesLast]
  cases h.last?_cases with
  | inl hempty =>
      obtain ⟨hkey, hnone⟩ := hempty
      rw [hkey]
      exact iff_of_true (fun hholds => absurd hholds (hnone _)) (by simp)
  | inr hkeys =>
      obtain ⟨key, hkey, hholds, hgreatest⟩ := hkeys
      have heq : key = last := UInt64.toNat_inj.mp (Log.IsLast.unique (.inl ⟨hholds, hgreatest⟩) hlast)
      rw [heq] at hkey hholds
      rw [hkey]
      simp only [hholds, forall_const, h.snapshotIndex_iff, UInt64.le_iff_toNat_le, Option.some.injEq, forall_eq']

/-- **Compaction.** After every run, a compaction keeps the end of the log exactly when it stops short of
the last entry or the snapshot ends with it. -/
theorem compact_keepsTail_iff (prost : ProstCodec Snapshot) (ops : List Op) (compactIndex : UInt64) :
    KeepsTail prost (run prost ops) compactIndex ↔ LeavesLast prost (run prost ops) compactIndex := by
  rw [← (shows_run prost ops).lastIndex_compact_iff]
  apply Iff.intro
  · intro hkeeps
    exact hkeeps.last
  · intro hlast
    exact ⟨hlast, fun index hle => getElem?_compact _ hle⟩

/-- Three entries without a snapshot, compacted past the last: index 1 is the next to be used again. -/
theorem not_compact_keepsTail :
    ¬ ∀ (prost : ProstCodec Snapshot) (ops : List Op) (compactIndex : UInt64),
      KeepsTail prost (run prost ops) compactIndex := by
  intro hkeeps
  have hlast := (hkeeps prostSnapshot [.append [.noop 1 1, .noop 2 1, .noop 3 1]] 4).last
  have hbefore : lastIndex prostSnapshot (run prostSnapshot [.append [.noop 1 1, .noop 2 1, .noop 3 1]]) = .ok 3 := by
    decide +kernel
  rw [hbefore] at hlast
  revert hlast
  decide +kernel

end RaftStorage

end IrohRaft
