import IrohRaft.Proof.Storage.Transfer

/-!
# What each write changes

Four parts of a database are read on their own: the conf state's record, the hard state's record, the
log, and the ten tables of the state machine. Each transaction of the storage writes one of them.
-/

namespace IrohRaft

open Rust Redb

namespace RedbRaftStorage

/-! ### The parts -/

def confRecord (database : Redb.Database) : Option Bytes := database.stringTables.get? raftConfStateTable confStateRecord

def hardRecord (database : Redb.Database) : Option Bytes := database.stringTables.get? raftHardStateTable hardStateRecord

def logTable (database : Redb.Database) : Table UInt64 := database.u64Tables.openTable raftLogTable

def putConfState (data : Bytes) (database : Redb.Database) : Redb.Database :=
  { database with stringTables := database.stringTables.insertInto raftConfStateTable confStateRecord data }

def putHardState (data : Bytes) (database : Redb.Database) : Redb.Database :=
  { database with stringTables := database.stringTables.insertInto raftHardStateTable hardStateRecord data }

def putLog (table : Table UInt64) (database : Redb.Database) : Redb.Database :=
  { database with u64Tables := database.u64Tables.put raftLogTable table }

variable (data : Bytes) (table : Table UInt64) (database : Redb.Database)

@[simp] theorem confRecord_putConfState : confRecord (putConfState data database) = some data :=
  Tables.get?_insertInto_self confStateRecord data

@[simp] theorem confRecord_putHardState : confRecord (putHardState data database) = confRecord database :=
  Tables.get?_insertInto_of_ne (by decide) hardStateRecord confStateRecord data

@[simp] theorem confRecord_putLog : confRecord (putLog table database) = confRecord database := rfl

@[simp] theorem hardRecord_putConfState : hardRecord (putConfState data database) = hardRecord database :=
  Tables.get?_insertInto_of_ne (by decide) confStateRecord hardStateRecord data

@[simp] theorem hardRecord_putHardState : hardRecord (putHardState data database) = some data :=
  Tables.get?_insertInto_self hardStateRecord data

@[simp] theorem hardRecord_putLog : hardRecord (putLog table database) = hardRecord database := rfl

@[simp] theorem logTable_putConfState : logTable (putConfState data database) = logTable database := rfl

@[simp] theorem logTable_putHardState : logTable (putHardState data database) = logTable database := rfl

@[simp] theorem logTable_putLog : logTable (putLog table database) = table := Tables.openTable_put_self table

section Restored

variable (snapshotData : SnapshotData)

@[simp] theorem confRecord_restored : confRecord (StateTables.restored snapshotData database) = confRecord database := by
  rw [confRecord, Tables.get?, (StateTables.restored_sameOutside snapshotData database).strings _ (by decide)]
  rfl

@[simp] theorem hardRecord_restored : hardRecord (StateTables.restored snapshotData database) = hardRecord database := by
  rw [hardRecord, Tables.get?, (StateTables.restored_sameOutside snapshotData database).strings _ (by decide)]
  rfl

@[simp] theorem logTable_restored : logTable (StateTables.restored snapshotData database) = logTable database := by
  rw [logTable, Tables.openTable, (StateTables.restored_sameOutside snapshotData database).numbers _ (by decide)]
  rfl

end Restored

/-- A write outside the ten tables leaves the state machine's part alone. -/
theorem stateTables_of_sameTables (before after : Redb.Database)
    (hstrings : ∀ name ∈ StateTables.stringNames, after.stringTables[name]? = before.stringTables[name]?)
    (hbytes : after.bytesTables = before.bytesTables)
    (hnumbers : ∀ name ∈ StateTables.u64Names, after.u64Tables[name]? = before.u64Tables[name]?) :
    StateTables.ofDatabase after = StateTables.ofDatabase before := by
  have hstring (definition : TableDefinition Str) (hmem : definition.name ∈ StateTables.stringNames) :
      after.stringTables.openTable definition = before.stringTables.openTable definition := by
    rw [Tables.openTable, hstrings _ hmem, Tables.openTable]
  have hnumber : after.u64Tables.openTable ipPoolTable = before.u64Tables.openTable ipPoolTable := by
    rw [Tables.openTable, hnumbers _ (by decide), Tables.openTable]
  simp only [StateTables.ofDatabase, hbytes, hnumber, hstring vmStateTable (by decide), hstring clusterStateTable (by decide),
    hstring taskTable (by decide), hstring taskAssignmentTable (by decide), hstring taskResultTable (by decide),
    hstring ipAllocationTable (by decide), hstring vmIpMappingTable (by decide)]

/-- The records of raft's own tables are kept outside the ten. -/
theorem stateTables_insertInto {definition : TableDefinition Str} (h : definition.name ∉ StateTables.stringNames) (key : Str) :
    StateTables.ofDatabase { database with stringTables := database.stringTables.insertInto definition key data } =
      StateTables.ofDatabase database := by
  refine stateTables_of_sameTables database _ (fun name hname => ?_) rfl (fun _ _ => rfl)
  exact Tables.getElem?_put_of_ne (fun heq => h (heq ▸ hname)) _

@[simp] theorem stateTables_putConfState :
    StateTables.ofDatabase (putConfState data database) = StateTables.ofDatabase database :=
  stateTables_insertInto data database (by decide) confStateRecord

@[simp] theorem stateTables_putHardState :
    StateTables.ofDatabase (putHardState data database) = StateTables.ofDatabase database :=
  stateTables_insertInto data database (by decide) hardStateRecord

@[simp] theorem stateTables_putLog : StateTables.ofDatabase (putLog table database) = StateTables.ofDatabase database := by
  refine stateTables_of_sameTables database _ (fun _ _ => rfl) rfl (fun name hname => ?_)
  have hlog : raftLogTable.name ∉ StateTables.u64Names := by decide
  exact Tables.getElem?_put_of_ne (fun heq => hlog (heq ▸ hname)) _

/-! ### The transactions -/

variable (codec : RaftStateCodec)

theorem saveConfState_eq (confState : ConfState) :
    saveConfState codec confState = .write (codec.serializeConfState confState) putConfState := rfl

theorem saveHardState_eq (hardState : HardState) :
    saveHardState codec hardState = .write (codec.serializeHardState hardState) putHardState := rfl

theorem restoreFromSnapshot_eq_write (bytes : Bytes) :
    restoreFromSnapshot bytes = .write (deserializeSnapshotData "deserialize snapshot data" bytes) StateTables.restored := rfl

/-- The log from an index on. -/
def logFrom (index : UInt64) (table : Table UInt64) : Table UInt64 := table.removeAll (table.keysIn fun key => key < index)

theorem getElem?_logFrom {cut index : UInt64} {table : Table UInt64} :
    (logFrom cut table)[index]? = if index < cut then none else table[index]? := by
  rw [logFrom, Table.getElem?_removeAll_keysIn]
  simp only [decide_eq_true_eq]

theorem logFrom_zero (table : Table UInt64) : logFrom 0 table = table := by
  apply Std.ExtTreeMap.ext_getElem?
  intro other
  rw [getElem?_logFrom, if_neg (by simp)]

theorem compactLogBefore_eq {index : UInt64} (h : index ≠ 0) :
    compactLogBefore index = .write (.ok ()) fun _ writeTxn => putLog (logFrom index (logTable writeTxn)) writeTxn := by
  rw [compactLogBefore, if_neg h]
  rfl

/-! ### What the calls keep -/

section Keeps

variable {codec} {holds : Redb.Database → Prop}

theorem saveConfState_keeps (confState : ConfState) (h : ∀ data start, holds start → holds (putConfState data start)) :
    (saveConfState codec confState).Keeps holds := by
  rw [saveConfState_eq]
  exact .write fun data _ => h data

theorem saveHardState_keeps (hardState : HardState)
    (h : ∀ data, codec.serializeHardState hardState = .ok data → ∀ start, holds start → holds (putHardState data start)) :
    (saveHardState codec hardState).Keeps holds := by
  rw [saveHardState_eq]
  exact .write h

theorem restoreFromSnapshot_keeps (bytes : Bytes)
    (h : ∀ snapshotData start, holds start → holds (StateTables.restored snapshotData start)) :
    (restoreFromSnapshot bytes).Keeps holds := by
  rw [restoreFromSnapshot_eq_write]
  exact .write fun snapshotData _ => h snapshotData

theorem appendEntries_keeps (entries : List Entry) (h : ∀ table start, holds start → holds (putLog table start)) :
    (appendEntries codec entries).Keeps holds := by
  apply Session.Keeps.commit
  intro start next hnext hstart
  obtain ⟨table, -, hput⟩ := Outcome.bind_eq_ok.mp hnext
  exact Outcome.ok.inj hput ▸ h table start hstart

theorem compactLogBefore_keeps (index : UInt64) (h : ∀ table start, holds start → holds (putLog table start)) :
    (compactLogBefore index).Keeps holds := by
  by_cases hzero : index = 0
  · rw [compactLogBefore, if_pos hzero]
    exact .pure ()
  · rw [compactLogBefore_eq hzero]
    exact .write fun _ _ start => h _ start

end Keeps

end RedbRaftStorage

end IrohRaft
