import IrohRaft.Proof.Storage.Consistency
import IrohRaft.Proof.Storage.Limit

/-!
# The index and the term of a snapshot

Raft sends a snapshot to a follower that it has no entries for, and asks for one at index zero or later. The index that
the older storage answers with is the requested one, also where the log starts far after it, and the term is that of the
last entry, whatever the index.
-/

namespace IrohRaft

open Rust Redb

namespace RedbRaftStorage

/-- The term of the entry at an index, and zero where the log holds none. -/
def termAt (codec : RaftStateCodec) (table : Table UInt64) (idx : UInt64) : UInt64 :=
  match table[idx]? with
  | some data =>
      match codec.deserializeEntry data with
      | .ok entry => entry.term
      | _ => 0
  | none => 0

/-- The term of the end of a log. An index of zero is the end of an empty one. -/
def endTerm (codec : RaftStateCodec) (table : Table UInt64) (last : UInt64) : UInt64 :=
  if last > 0 then termAt codec table last else 0

/-- The snapshot reaches as far as it was asked to, and the log continues it from an index whose term it states. -/
structure CoversRequest (codec : RaftStateCodec) (database : Redb.Database) (first requestIndex : UInt64)
    (snapshot : Snapshot) : Prop where
  requested : requestIndex ≤ (getMetadata snapshot).index
  continued : first.toNat ≤ (getMetadata snapshot).index.toNat + 1
  termKnown : term codec database (getMetadata snapshot).index = .ok (getMetadata snapshot).term

section Contiguous

variable {codec : RaftStateCodec} {database : Redb.Database} {table : Table UInt64} {first last idx requestIndex : UInt64}

theorem HasLog.openTable (hlog : HasLog codec database table first last) :
    database.u64Tables[raftLogTable.name]? = some table := hlog.1

theorem HasLog.not_mem_of_lt (hlog : HasLog codec database table first last) (hlt : idx < first) : idx ∉ table := by
  have hfirst : table.first?.getD 1 = first := Outcome.ok.inj ((firstIndex_eq hlog.openTable).symm.trans hlog.2.1)
  intro hmem
  cases hhead : table.first? with
  | none => exact Table.first?_eq_none_iff.mp hhead idx hmem
  | some key =>
      rw [hhead] at hfirst
      have hkey : key = first := hfirst
      have hle := (Table.first?_eq_some_iff.mp hhead).2 idx hmem
      rw [hkey] at hle
      exact UInt64.not_lt.mpr hle hlt

/-- Up to its end a contiguous log has a term for every index. -/
theorem HasLog.term_eq (hlog : HasLog codec database table first last) (hle : idx ≤ last) :
    term codec database idx = .ok (termAt codec table idx) := by
  by_cases hlt : idx < first
  · have hnot := hlog.not_mem_of_lt hlt
    rw [term_of_not_mem hlog.openTable hnot, termAt, Table.not_mem_iff_getElem?.mp hnot]
  · obtain ⟨data, entry, hget, hread⟩ := hlog.2.2.2 idx (UInt64.not_lt.mp hlt) hle
    rw [term, openLog_eq hlog.openTable, Outcome.ok_bind, termAt, hget]
    simp [hread]

/-- The index answered is the requested one, and the term is that of the end of the log. -/
theorem HasLog.metadata_snapshot (hlog : HasLog codec database table first last) (hle : requestIndex ≤ last)
    {snapshot : Snapshot} (htaken : RedbRaftStorage.snapshot codec database requestIndex = .ok snapshot) :
    (getMetadata snapshot).index = requestIndex ∧ (getMetadata snapshot).term = endTerm codec table last := by
  have hend : (if last > 0 then term codec database last else pure 0) = .ok (endTerm codec table last) := by
    rw [endTerm]
    split
    · exact hlog.term_eq (UInt64.le_refl last)
    · simp
  simp only [RedbRaftStorage.snapshot, hlog.2.2.1, Outcome.ok_bind, Outcome.bind_eq_ok] at htaken
  obtain ⟨confState, _, lastTerm, hlastTerm, heq⟩ := htaken
  rw [← Outcome.ok.inj heq, Outcome.ok.inj (hlastTerm.symm.trans hend)]
  refine ⟨?_, by simp [getMetadata]⟩
  simp only [getMetadata, Option.getD_some]
  exact if_pos hle

/-- The snapshot is right exactly if the log starts no later than right after the requested index, and the term there is
the one at the end of the log. -/
theorem coversRequest_iff (hlog : HasLog codec database table first last) (hle : requestIndex ≤ last)
    {snapshot : Snapshot} (htaken : RedbRaftStorage.snapshot codec database requestIndex = .ok snapshot) :
    CoversRequest codec database first requestIndex snapshot ↔
      first.toNat ≤ requestIndex.toNat + 1 ∧ termAt codec table requestIndex = endTerm codec table last := by
  obtain ⟨hindex, hterm⟩ := hlog.metadata_snapshot hle htaken
  have hknown := hlog.term_eq hle
  apply Iff.intro
  · intro hcovers
    obtain ⟨_, hcontinued, htermKnown⟩ := hcovers
    rw [hindex] at hcontinued
    rw [hindex, hknown, hterm] at htermKnown
    exact ⟨hcontinued, Outcome.ok.inj htermKnown⟩
  · intro hcond
    obtain ⟨hcontinued, hsame⟩ := hcond
    refine ⟨?_, ?_, ?_⟩
    · rw [hindex]
      exact UInt64.le_refl requestIndex
    · rwa [hindex]
    · rw [hindex, hknown, hterm, hsame]

end Contiguous

theorem hasLog_oneEntry : HasLog .ofStorage (oneEntry (.noop 6 1)) (logTable (oneEntry (.noop 6 1))) 6 6 := by
  refine ⟨by decide, by decide, by decide, ?_⟩
  intro index hfirst hlast
  obtain rfl : index = 6 := UInt64.le_antisymm hlast hfirst
  exact ⟨serializeEntry (.noop 6 1), .noop 6 1, by decide, by decide⟩

/-- A request for the last entry is answered rightly. -/
theorem coversRequest_last :
    (RedbRaftStorage.snapshot .ofStorage (oneEntry (.noop 6 1)) 6).Returns
      (CoversRequest .ofStorage (oneEntry (.noop 6 1)) 6 6) := by
  have hok : (RedbRaftStorage.snapshot .ofStorage (oneEntry (.noop 6 1)) 6).Returns fun _ => True := by decide
  obtain ⟨snapshot, htaken, _⟩ := Outcome.returns_iff.mp hok
  rw [htaken]
  exact (coversRequest_iff hasLog_oneEntry (by decide) htaken).mpr (by decide)

/-- A follower that lags behind is asked for from index zero. Of a log that was compacted before its sixth entry it gets
an empty snapshot. -/
theorem not_coversRequest :
    ¬ ∀ (codec : RaftStateCodec) (database : Redb.Database) (table : Table UInt64) (first last requestIndex : UInt64)
      (snapshot : Snapshot), HasLog codec database table first last → first ≤ last → requestIndex ≤ last →
      RedbRaftStorage.snapshot codec database requestIndex = .ok snapshot →
      CoversRequest codec database first requestIndex snapshot := by
  intro h
  have hok : (RedbRaftStorage.snapshot .ofStorage (oneEntry (.noop 6 1)) 0).Returns
      fun snapshot => (getMetadata snapshot).index = 0 := by decide
  obtain ⟨snapshot, htaken, hindex⟩ := Outcome.returns_iff.mp hok
  have hcontinued := (h _ _ _ 6 6 0 snapshot hasLog_oneEntry (by decide) (by decide) htaken).continued
  rw [hindex] at hcontinued
  exact absurd hcontinued (by decide)

end RedbRaftStorage

end IrohRaft
