import IrohRaft.Proof.Storage.Append
import IrohRaft.Proof.Storage.LogStart
import IrohRaft.Proof.Storage.Refine
import IrohRaft.Proof.Storage.StateCodec
import IrohRaft.Storage.Eraftpb

/-!
# The two storages agree

`RaftStorage` and the older `RedbRaftStorage` are given the same writes: entries, hard states and compactions. With one
codec for both, they have the same records, so whatever the one reads the other reads as well. They differ in how they say
that an entry is missing: the older storage answers the term zero and passes over the index.
-/

namespace IrohRaft

open Rust Redb RaftLog

/-- The writes that both storages have, with the same meaning. -/
inductive StorageWrite where
  | append (entries : List Entry)
  | saveHardState (hardState : HardState)
  | compact (index : UInt64)

namespace StorageWrite

def onStorage : StorageWrite → RaftStorage.Op
  | append entries => .append entries
  | saveHardState hardState => .saveHardState hardState
  | compact index => .compact index

def onRedb : StorageWrite → RedbRaftStorage.Call
  | append entries => { op := .append entries }
  | saveHardState hardState => { op := .saveHardState hardState }
  | compact index => { op := .compactLogBefore index }

/-- The older storage has a log table after this write. -/
def CreatesLog : StorageWrite → Prop
  | append _ => True
  | saveHardState _ => False
  | compact index => index ≠ 0

def execStorage (prost : ProstCodec Snapshot) (storage : RaftStorage) (write : StorageWrite) : RaftStorage :=
  RaftStorage.exec prost storage write.onStorage

def execRedb (database : Redb.Database) (write : StorageWrite) : Redb.Database :=
  RedbRaftStorage.exec .ofStorage database write.onRedb

/-- Both hold the same records, and no snapshot. -/
structure Agrees (storage : RaftStorage) (database : Redb.Database) : Prop where
  log : RedbRaftStorage.logTable database = storage.raftLogTable
  hardState : RedbRaftStorage.hardRecord database = storage.hardStateTable[hardStateKey]?
  noSnapshot : storage.snapshotTable[snapshotKey]? = none
  hardStateReads : ∀ data ∈ storage.hardStateTable[hardStateKey]?, ∃ hardState, deserializeHardState data = .ok hardState

/-! ### One write -/

variable {prost : ProstCodec Snapshot} {storage : RaftStorage} {database : Redb.Database} {log : Log UInt64}

theorem appendEntries_final (entries : List Entry) (database : Redb.Database) :
    (RedbRaftStorage.appendEntries .ofStorage entries).final database =
      RedbRaftStorage.putLog (Table.insertAll Entry.index serializeEntry (RedbRaftStorage.logTable database) entries) database := by
  have hinsert (table : Table UInt64) : RedbRaftStorage.insertEntries RaftStateCodec.ofStorage.toRaftCodec table entries =
      .ok (Table.insertAll Entry.index serializeEntry table entries) := by
    induction entries generalizing table with
    | nil => rfl
    | cons entry rest ih => exact ih _
  refine Session.final_commit_of_ok ?_
  rw [hinsert, Outcome.ok_bind]
  rfl

theorem execRedb_append (entries : List Entry) :
    execRedb database (append entries) =
      RedbRaftStorage.putLog (Table.insertAll Entry.index serializeEntry (RedbRaftStorage.logTable database) entries) database :=
  appendEntries_final entries database

theorem execRedb_saveHardState (hardState : HardState) :
    execRedb database (saveHardState hardState) = RedbRaftStorage.putHardState (serializeHardState hardState) database := by
  show (RedbRaftStorage.saveHardState .ofStorage hardState).final database = _
  rw [RedbRaftStorage.saveHardState_eq]
  exact (Session.write_of_ok rfl).2.1

theorem execRedb_compact {index : UInt64} (h : index ≠ 0) :
    execRedb database (compact index) =
      RedbRaftStorage.putLog (RedbRaftStorage.logFrom index (RedbRaftStorage.logTable database)) database :=
  RedbRaftStorage.compactLogBefore_final h database

theorem execRedb_compact_zero : execRedb database (compact 0) = database := rfl

theorem Agrees.exec (h : Agrees storage database) (write : StorageWrite) :
    Agrees (execStorage prost storage write) (execRedb database write) := by
  cases write with
  | append entries =>
      refine ⟨?_, ?_, ?_, ?_⟩
      · rw [execRedb_append, RedbRaftStorage.logTable_putLog, h.log]
        exact (RaftStorage.append_raftLogTable storage entries).symm
      · rw [execRedb_append, RedbRaftStorage.hardRecord_putLog, h.hardState, execStorage, onStorage, RaftStorage.exec,
          RaftStorage.append]
        split <;> rfl
      · rw [execStorage, onStorage, RaftStorage.exec, RaftStorage.append_snapshotTable]
        exact h.noSnapshot
      · intro data hdata
        rw [execStorage, onStorage, RaftStorage.exec, RaftStorage.append] at hdata
        split at hdata <;> exact h.hardStateReads data hdata
  | saveHardState hardState =>
      have hrecord : (execStorage prost storage (saveHardState hardState)).hardStateTable[hardStateKey]? =
          some (serializeHardState hardState) := Table.getElem?_insert_self _ _ _
      refine ⟨?_, ?_, h.noSnapshot, fun data hdata => ⟨hardState, ?_⟩⟩
      · rw [execRedb_saveHardState, RedbRaftStorage.logTable_putHardState, h.log]
        rfl
      · rw [execRedb_saveHardState, RedbRaftStorage.hardRecord_putHardState, hrecord]
      · obtain rfl := Option.some.inj (hrecord.symm.trans hdata)
        exact deserializeHardState_serializeHardState hardState
  | compact index =>
      by_cases hzero : index = 0
      · subst hzero
        refine ⟨?_, h.hardState, h.noSnapshot, h.hardStateReads⟩
        rw [execRedb_compact_zero, h.log]
        exact (RedbRaftStorage.logFrom_zero _).symm
      · refine ⟨?_, ?_, h.noSnapshot, h.hardStateReads⟩
        · rw [execRedb_compact hzero, RedbRaftStorage.logTable_putLog, h.log]
          rfl
        · rw [execRedb_compact hzero, RedbRaftStorage.hardRecord_putLog, h.hardState]
          rfl

/-- The log table of the older storage has been created. -/
def Created (database : Redb.Database) : Prop := database.u64Tables[raftLogTable.name]?.isSome = true

theorem created_putLog (table : Table UInt64) (database : Redb.Database) : Created (RedbRaftStorage.putLog table database) := by
  simp [Created, RedbRaftStorage.putLog, Tables.put]

theorem created_exec {write : StorageWrite} (h : Created database ∨ write.CreatesLog) : Created (execRedb database write) := by
  cases write with
  | append entries =>
      rw [execRedb_append]
      exact created_putLog _ _
  | saveHardState hardState =>
      rw [execRedb_saveHardState]
      exact h.resolve_right id
  | compact index =>
      by_cases hzero : index = 0
      · subst hzero
        exact h.resolve_right fun hne => hne rfl
      · rw [execRedb_compact hzero]
        exact created_putLog _ _

theorem Agrees.table (h : Agrees storage database) (hcreated : Created database) :
    database.u64Tables[raftLogTable.name]? = some storage.raftLogTable := by
  obtain ⟨table, htable⟩ := Option.isSome_iff_exists.mp hcreated
  rw [htable, ← h.log, RedbRaftStorage.logTable, Tables.openTable, htable, Option.getD_some]

/-! ### Reads -/

theorem Agrees.readHardState (h : Agrees storage database) :
    RaftStorage.readHardState storage = .ok (RedbRaftStorage.initialHardState .ofStorage database) := by
  rw [RedbRaftStorage.initialHardState, ← RedbRaftStorage.hardRecord, h.hardState, RaftStorage.readHardState]
  cases hrecord : storage.hardStateTable[hardStateKey]? with
  | none => rfl
  | some data =>
      obtain ⟨hardState, hread⟩ := h.hardStateReads data hrecord
      simp [RaftStateCodec.ofStorage, hread]

theorem Agrees.readSnapshot (h : Agrees storage database) : RaftStorage.readSnapshot prost storage = .ok none := by
  rw [RaftStorage.readSnapshot, h.noSnapshot]
  rfl

theorem Agrees.firstIndex (h : Agrees storage database) (hcreated : Created database) :
    (RedbRaftStorage.ofDatabase database).firstIndex = RaftStorage.firstIndex prost storage := by
  rw [RedbRaftStorage.firstIndex_eq (h.table hcreated), RaftStorage.firstIndex, h.readSnapshot, Outcome.ok_bind]
  cases hfirst : storage.raftLogTable.first? <;> simp

theorem Agrees.lastIndex (h : Agrees storage database) (hcreated : Created database) :
    (RedbRaftStorage.ofDatabase database).lastIndex = RaftStorage.lastIndex prost storage := by
  rw [RedbRaftStorage.lastIndex_eq (h.table hcreated), RaftStorage.lastIndex, h.readSnapshot]
  cases hlast : storage.raftLogTable.last? <;> simp

/-- What the older storage makes of a missing entry. -/
def orZero : Outcome StorageError UInt64 → Outcome StorageError UInt64
  | .err .unavailable => .ok 0
  | answer => answer

theorem Agrees.term (h : Agrees storage database) (hcreated : Created database)
    (hstored : RaftStorage.ShowsEntries storage.raftLogTable log.entry) {index : UInt64} (hindex : index ≠ 0) :
    RedbRaftStorage.term .ofStorage database index = orZero (RaftStorage.term prost storage index) := by
  rw [RedbRaftStorage.term, RedbRaftStorage.openLog_eq (h.table hcreated), Outcome.ok_bind, RaftStorage.term, if_neg hindex,
    h.readSnapshot, Outcome.ok_bind, Option.bind_none, RaftStorage.logTerm]
  cases hget : storage.raftLogTable[index]? with
  | none => rfl
  | some data =>
      obtain ⟨entry, hread, -⟩ := hstored.stored index data hget
      simp [RaftStateCodec.ofStorage, hread, orZero]

theorem entriesLoop_agrees (hstored : RaftStorage.ShowsEntries storage.raftLogTable log.entry) (maxSize : Option UInt64)
    (count : Nat) (index : UInt64) (entries : List Entry) (size : UInt64)
    (h : RaftStorage.entriesLoop storage (maxSize.getD (UInt64.ofNat (2 ^ 64 - 1))) count index entries size ≠
      .err .unavailable) :
    RedbRaftStorage.entriesLoop .ofStorage storage.raftLogTable maxSize count index entries size =
      RaftStorage.entriesLoop storage (maxSize.getD (UInt64.ofNat (2 ^ 64 - 1))) count index entries size := by
  induction count generalizing index entries size with
  | zero => rfl
  | succ count ih =>
      rw [RaftStorage.entriesLoop] at h ⊢
      rw [RedbRaftStorage.entriesLoop]
      cases hget : storage.raftLogTable[index]? with
      | none => simp [hget] at h
      | some data =>
          obtain ⟨entry, hread, -⟩ := hstored.stored index data hget
          have hcodec : RaftStateCodec.ofStorage.deserializeEntry data = .ok entry := hread
          simp only [hget] at h ⊢
          cases hadd : (u64Add size (UInt64.ofNat data.length) : Outcome StorageError UInt64) with
          | err e => exact absurd hadd (u64Add_ne_err _ _ e)
          | panic => cases maxSize <;> simp [hcodec]
          | ok sizeWith =>
              simp only [hadd, Outcome.ok_bind, hread, hcodec, Outcome.mapErr_ok, Outcome.pure_eq_ok] at h ⊢
              cases maxSize with
              | none =>
                  have hbelow : ¬ sizeWith > UInt64.ofNat (2 ^ 64 - 1) := by
                    have hlt := sizeWith.toNat_lt
                    have hmax : (UInt64.ofNat (2 ^ 64 - 1)).toNat = 2 ^ 64 - 1 := by simp
                    rw [gt_iff_lt, UInt64.lt_iff_toNat_lt, hmax]
                    omega
                  simp only [Option.getD_none, if_neg hbelow] at h ⊢
                  simpa using ih (index + 1) (entries ++ [entry]) sizeWith h
              | some max =>
                  by_cases hfull : sizeWith > max
                  · simp [hfull]
                  · simp only [Option.getD_some, if_neg hfull] at h ⊢
                    simpa [hfull] using ih (index + 1) (entries ++ [entry]) sizeWith h

theorem Agrees.entries (h : Agrees storage database) (hcreated : Created database)
    (hstored : RaftStorage.ShowsEntries storage.raftLogTable log.entry) {low high : UInt64} (hle : low ≤ high)
    (maxSize : Option UInt64) (hfound : RaftStorage.entries storage low high maxSize ≠ .err .unavailable) :
    RedbRaftStorage.entries .ofStorage database low high maxSize = RaftStorage.entries storage low high maxSize := by
  have hsub : (u64Sub high low : Outcome StorageError UInt64) = .ok (high - low) := if_pos hle
  rw [RedbRaftStorage.entries, RedbRaftStorage.openLog_eq (h.table hcreated), Outcome.ok_bind, hsub, Outcome.ok_bind,
    UInt64.toNat_sub_of_le high low hle]
  exact entriesLoop_agrees hstored maxSize (high.toNat - low.toNat) low [] 0 hfound

/-! ### Runs -/

variable (prost)

/-- Both storages, from an empty directory. -/
theorem agrees_run (writes : List StorageWrite) :
    Agrees (Run.final (execStorage prost) (.new {}) writes) (Run.final execRedb {} writes) := by
  refine Run.final_related (execStorage prost) execRedb Agrees (fun _ _ write h => h.exec write) ⟨?_, ?_, ?_, ?_⟩ writes
  · simp [RedbRaftStorage.logTable, Tables.openTable, RaftStorage.new]
  · simp [RedbRaftStorage.hardRecord, Tables.get?, RaftStorage.new]
  · simp [RaftStorage.new]
  · simp [RaftStorage.new]

theorem created_run {writes : List StorageWrite} (h : ∃ write ∈ writes, write.CreatesLog) :
    Created (Run.final execRedb {} writes) := by
  refine Run.final_history (fun done database => (∃ write ∈ done, write.CreatesLog) → Created database) ?_ ?_ writes h
  · intro done database write hdone hsome
    obtain ⟨other, hmem, hcreates⟩ := hsome
    obtain hold | hnew := List.mem_append.mp hmem
    · exact created_exec (.inl (hdone ⟨other, hold, hcreates⟩))
    · exact created_exec (.inr (List.mem_singleton.mp hnew ▸ hcreates))
  · intro hsome
    simp at hsome

theorem stored_run (writes : List StorageWrite) :
    ∃ log : Log UInt64, RaftStorage.ShowsEntries (Run.final (execStorage prost) (.new {}) writes).raftLogTable log.entry := by
  have hshows : ∃ log, RaftStorage.Shows prost (Run.final (execStorage prost) (.new {}) writes) log := by
    refine Run.final_invariant (fun storage => ∃ log, RaftStorage.Shows prost storage log) ?_ ⟨_, RaftStorage.shows_new⟩
    intro write _ storage h
    obtain ⟨log, hlog⟩ := h
    exact ⟨_, RaftStorage.shows_exec hlog write.onStorage⟩
  obtain ⟨log, hlog⟩ := hshows
  exact ⟨log, hlog.entries⟩

end StorageWrite

open StorageWrite

/-- After the same writes the two storages have the same hard state and, once there is a log, the same first and last
index, the same terms and the same entries, wherever `RaftStorage` has them. -/
theorem storages_agree (prost : ProstCodec Snapshot) (writes : List StorageWrite) :
    let storage := Run.final (execStorage prost) (.new {}) writes
    let database := Run.final execRedb {} writes
    RaftStorage.readHardState storage = .ok (RedbRaftStorage.initialState .ofStorage database).hardState ∧
    ((∃ write ∈ writes, write.CreatesLog) →
      (RedbRaftStorage.ofDatabase database).firstIndex = RaftStorage.firstIndex prost storage ∧
      (RedbRaftStorage.ofDatabase database).lastIndex = RaftStorage.lastIndex prost storage ∧
      (∀ index ≠ 0, RedbRaftStorage.term .ofStorage database index = orZero (RaftStorage.term prost storage index)) ∧
      ∀ low high maxSize, low ≤ high → RaftStorage.entries storage low high maxSize ≠ .err .unavailable →
        RedbRaftStorage.entries .ofStorage database low high maxSize = RaftStorage.entries storage low high maxSize) := by
  intro storage database
  have hagrees := agrees_run prost writes
  obtain ⟨log, hstored⟩ := stored_run prost writes
  refine ⟨hagrees.readHardState, fun hlog => ?_⟩
  have hcreated := created_run hlog
  refine ⟨hagrees.firstIndex hcreated, hagrees.lastIndex hcreated, fun index hindex => ?_,
    fun low high maxSize hle hfound => ?_⟩
  · exact hagrees.term hcreated hstored hindex
  · exact hagrees.entries hcreated hstored hle maxSize hfound

/-- Two entries, of which the first is compacted away. -/
def twoWrites : List StorageWrite := [.append [.noop 1 1, .noop 2 1], .compact 2]

theorem storages_agree_two :
    let storage := Run.final (execStorage prostSnapshot) (.new {}) twoWrites
    let database := Run.final execRedb {} twoWrites
    RaftStorage.readHardState storage = .ok (RedbRaftStorage.initialState .ofStorage database).hardState ∧
    (RedbRaftStorage.ofDatabase database).firstIndex = RaftStorage.firstIndex prostSnapshot storage ∧
    RedbRaftStorage.term .ofStorage database 2 = .ok 1 ∧
    RedbRaftStorage.entries .ofStorage database 2 3 none = .ok [.noop 2 1] := by
  intro storage database
  obtain ⟨hhard, hlog⟩ := storages_agree prostSnapshot twoWrites
  obtain ⟨hfirst, -, hterm, hentries⟩ := hlog ⟨_, List.mem_cons_self, trivial⟩
  have hread : RaftStorage.entries storage 2 3 none = .ok [.noop 2 1] := by decide
  refine ⟨hhard, hfirst, (hterm 2 (by decide)).trans (by decide), ?_⟩
  exact (hentries 2 3 none (by decide) (ne_of_eq_of_ne hread (by simp))).trans hread

end IrohRaft
