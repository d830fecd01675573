import IrohRaft.Raft.Snapshot

/-!
# The state machine's tables, taken and put back

The ten tables of a snapshot as one value. What is copied out of a database determines them, and what
is put into one depends on nothing it held before, so the second of two implementations that put back
the same tables changes nothing.
-/

namespace IrohRaft

open Rust Redb Bincode

/-! ### The encoding -/

namespace SnapshotData

/-- What a `Vec` can hold. -/
def TableFits {κ : Type} (keyFits : κ → Prop) (records : List (κ × Bytes)) : Prop :=
  records.length < 2 ^ 64 ∧ ∀ record ∈ records, keyFits record.1 ∧ record.2.length < 2 ^ 64

def anyKey {κ : Type} (_ : κ) : Prop := True

def shortKey (key : Bytes) : Prop := key.length < 2 ^ 64

structure Fits (data : SnapshotData) : Prop where
  vmStates : TableFits anyKey data.vmStates
  clusterState : TableFits anyKey data.clusterState
  tasks : TableFits anyKey data.tasks
  taskAssignments : TableFits anyKey data.taskAssignments
  taskResults : TableFits anyKey data.taskResults
  workers : TableFits shortKey data.workers
  workerStatus : TableFits shortKey data.workerStatus
  ipPools : TableFits anyKey data.ipPools
  ipAllocations : TableFits anyKey data.ipAllocations
  vmIpMappings : TableFits anyKey data.vmIpMappings

section Table

variable {κ : Type} {keyFits : κ → Prop} {encodeKey : κ → Bytes} {decodeKey : Decoder κ}

theorem decodeTable_append (hkey : ∀ key, keyFits key → ∀ rest, decodeKey (encodeKey key ++ rest) = .ok (key, rest))
    {records : List (κ × Bytes)} (hfits : TableFits keyFits records) (rest : Bytes) :
    decodeTable decodeKey (encodeTable encodeKey records ++ rest) = .ok (records, rest) := by
  apply decodeSeq_append _ hfits.1
  intro record hrecord
  obtain ⟨hfitsKey, hfitsValue⟩ := hfits.2 record hrecord
  exact decodePair_append (hkey record.1 hfitsKey) (decodeBytes_append hfitsValue)

end Table

theorem decodeStringTable_append {records : List (Str × Bytes)} (hfits : TableFits anyKey records) (rest : Bytes) :
    decodeTable decodeString (encodeTable encodeString records ++ rest) = .ok (records, rest) :=
  decodeTable_append (fun key _ => decodeString_append key) hfits rest

theorem decodeBytesTable_append {records : List (Bytes × Bytes)} (hfits : TableFits shortKey records) (rest : Bytes) :
    decodeTable decodeBytes (encodeTable encodeBytes records ++ rest) = .ok (records, rest) :=
  decodeTable_append (fun _ hkey => decodeBytes_append hkey) hfits rest

theorem decodeU64Table_append {records : List (UInt64 × Bytes)} (hfits : TableFits anyKey records) (rest : Bytes) :
    decodeTable decodeU64 (encodeTable u64ToLeBytes records ++ rest) = .ok (records, rest) :=
  decodeTable_append (fun key _ => decodeU64_append key) hfits rest

theorem serde_roundTrips {data : SnapshotData} (h : data.Fits) : serde.RoundTrips data := by
  have hlast := decodeStringTable_append h.vmIpMappings []
  rw [List.append_nil] at hlast
  apply Serde.ofDecoder_roundTrips
  simp only [encode, decode, List.append_assoc, decodeStringTable_append h.vmStates, decodeStringTable_append h.clusterState,
    decodeStringTable_append h.tasks, decodeStringTable_append h.taskAssignments, decodeStringTable_append h.taskResults,
    decodeBytesTable_append h.workers, decodeBytesTable_append h.workerStatus, decodeU64Table_append h.ipPools,
    decodeStringTable_append h.ipAllocations, hlast, ok_bind, pure_eq_ok]

end SnapshotData

theorem deserializeSnapshotData_serialize {data : SnapshotData} (h : data.Fits) (operation : String) :
    deserializeSnapshotData operation (SnapshotData.serde.serialize data) = .ok data := by
  rw [deserializeSnapshotData, SnapshotData.serde_roundTrips h]

/-- Whether the data decodes does not depend on who asks. -/
theorem deserializeSnapshotData_eq_ok {operation operation' : String} {bytes : Bytes} {data : SnapshotData}
    (h : deserializeSnapshotData operation bytes = .ok data) : deserializeSnapshotData operation' bytes = .ok data := by
  rw [deserializeSnapshotData] at h ⊢
  cases hdecoded : SnapshotData.serde.deserialize bytes with
  | ok value =>
      rw [hdecoded] at h
      exact h
  | error e => simp [hdecoded] at h

/-! ### Ten tables -/

/-- The state machine's part of a database. -/
structure StateTables where
  vmStates : Table Str
  clusterState : Table Str
  tasks : Table Str
  taskAssignments : Table Str
  taskResults : Table Str
  workers : Table Bytes
  workerStatus : Table Bytes
  ipPools : Table UInt64
  ipAllocations : Table Str
  vmIpMappings : Table Str

namespace StateTables

def ofDatabase (database : Redb.Database) : StateTables where
  vmStates := database.stringTables.openTable vmStateTable
  clusterState := database.stringTables.openTable clusterStateTable
  tasks := database.stringTables.openTable taskTable
  taskAssignments := database.stringTables.openTable taskAssignmentTable
  taskResults := database.stringTables.openTable taskResultTable
  workers := database.bytesTables.openTable workerTable
  workerStatus := database.bytesTables.openTable workerStatusTable
  ipPools := database.u64Tables.openTable ipPoolTable
  ipAllocations := database.stringTables.openTable ipAllocationTable
  vmIpMappings := database.stringTables.openTable vmIpMappingTable

def toData (tables : StateTables) : SnapshotData where
  vmStates := tables.vmStates.pairs
  clusterState := tables.clusterState.pairs
  tasks := tables.tasks.pairs
  taskAssignments := tables.taskAssignments.pairs
  taskResults := tables.taskResults.pairs
  workers := tables.workers.pairs
  workerStatus := tables.workerStatus.pairs
  ipPools := tables.ipPools.pairs
  ipAllocations := tables.ipAllocations.pairs
  vmIpMappings := tables.vmIpMappings.pairs

def ofData (data : SnapshotData) : StateTables where
  vmStates := .ofPairs data.vmStates
  clusterState := .ofPairs data.clusterState
  tasks := .ofPairs data.tasks
  taskAssignments := .ofPairs data.taskAssignments
  taskResults := .ofPairs data.taskResults
  workers := .ofPairs data.workers
  workerStatus := .ofPairs data.workerStatus
  ipPools := .ofPairs data.ipPools
  ipAllocations := .ofPairs data.ipAllocations
  vmIpMappings := .ofPairs data.vmIpMappings

/-- No table is lost on the way. -/
theorem ofData_toData (tables : StateTables) : ofData tables.toData = tables := by
  simp only [ofData, toData, Table.ofPairs_pairs]

/-- The tables a snapshot fills, by the type of their keys. -/
def stringContents (data : SnapshotData) : List (TableDefinition Str × List (Str × Bytes)) :=
  [(vmStateTable, data.vmStates), (clusterStateTable, data.clusterState), (taskTable, data.tasks),
    (taskAssignmentTable, data.taskAssignments), (taskResultTable, data.taskResults), (ipAllocationTable, data.ipAllocations),
    (vmIpMappingTable, data.vmIpMappings)]

def bytesContents (data : SnapshotData) : List (TableDefinition Bytes × List (Bytes × Bytes)) :=
  [(workerTable, data.workers), (workerStatusTable, data.workerStatus)]

def u64Contents (data : SnapshotData) : List (TableDefinition UInt64 × List (UInt64 × Bytes)) := [(ipPoolTable, data.ipPools)]

/-- What a committed restore leaves. -/
def restored (data : SnapshotData) (database : Redb.Database) : Redb.Database where
  stringTables := database.stringTables.refillAll (stringContents data)
  bytesTables := database.bytesTables.refillAll (bytesContents data)
  u64Tables := database.u64Tables.refillAll (u64Contents data)

def stringNames : List String :=
  [vmStateTable, clusterStateTable, taskTable, taskAssignmentTable, taskResultTable, ipAllocationTable, vmIpMappingTable].map
    TableDefinition.name

def bytesNames : List String := [workerTable, workerStatusTable].map TableDefinition.name

def u64Names : List String := [ipPoolTable].map TableDefinition.name

/-- Nothing but the ten tables differs. -/
structure SameOutside (before after : Redb.Database) : Prop where
  strings : ∀ name, name ∉ stringNames → after.stringTables[name]? = before.stringTables[name]?
  bytes : ∀ name, name ∉ bytesNames → after.bytesTables[name]? = before.bytesTables[name]?
  numbers : ∀ name, name ∉ u64Names → after.u64Tables[name]? = before.u64Tables[name]?

theorem restored_sameOutside (data : SnapshotData) (database : Redb.Database) :
    SameOutside database (restored data database) where
  strings _ h := Tables.getElem?_refillAll_of_not_mem h
  bytes _ h := Tables.getElem?_refillAll_of_not_mem h
  numbers _ h := Tables.getElem?_refillAll_of_not_mem h

theorem ofDatabase_restored (data : SnapshotData) (database : Redb.Database) :
    ofDatabase (restored data database) = ofData data := by
  have hstrings : ((stringContents data).map fun content => content.1.name).Nodup := (by decide : stringNames.Nodup)
  have hbytes : ((bytesContents data).map fun content => content.1.name).Nodup := (by decide : bytesNames.Nodup)
  have hnumbers : ((u64Contents data).map fun content => content.1.name).Nodup := (by decide : u64Names.Nodup)
  have hstring (content) (hmem : content ∈ stringContents data) := database.stringTables.openTable_refillAll hstrings hmem
  have hbyte (content) (hmem : content ∈ bytesContents data) := database.bytesTables.openTable_refillAll hbytes hmem
  have hnumber (content) (hmem : content ∈ u64Contents data) := database.u64Tables.openTable_refillAll hnumbers hmem
  simp only [stringContents, bytesContents, u64Contents, List.forall_mem_cons] at hstring hbyte hnumber
  obtain ⟨hvmStates, hclusterState, htasks, htaskAssignments, htaskResults, hipAllocations, hvmIpMappings, -⟩ := hstring
  simp only [ofDatabase, ofData, restored, stringContents, bytesContents, u64Contents, hvmStates, hclusterState, htasks,
    htaskAssignments, htaskResults, hipAllocations, hvmIpMappings, hbyte.1, hbyte.2.1, hnumber.1]

/-- Each of the ten tables is the one a restore of the data leaves. -/
structure Carries (data : SnapshotData) (database : Redb.Database) : Prop where
  strings : ∀ name ∈ stringNames, ∃ before : Tables Str, database.stringTables[name]? = (before.refillAll (stringContents data))[name]?
  bytes : ∀ name ∈ bytesNames, ∃ before : Tables Bytes, database.bytesTables[name]? = (before.refillAll (bytesContents data))[name]?
  numbers : ∀ name ∈ u64Names, ∃ before : Tables UInt64, database.u64Tables[name]? = (before.refillAll (u64Contents data))[name]?

theorem restored_carries (data : SnapshotData) (database : Redb.Database) : Carries data (restored data database) where
  strings _ _ := ⟨_, rfl⟩
  bytes _ _ := ⟨_, rfl⟩
  numbers _ _ := ⟨_, rfl⟩

theorem Carries.restored_eq_self {data : SnapshotData} {database : Redb.Database} (h : Carries data database) :
    restored data database = database := by
  have hstrings : database.stringTables.refillAll (stringContents data) = database.stringTables :=
    Tables.refillAll_eq_self h.strings
  have hbytes : database.bytesTables.refillAll (bytesContents data) = database.bytesTables := Tables.refillAll_eq_self h.bytes
  have hnumbers : database.u64Tables.refillAll (u64Contents data) = database.u64Tables := Tables.refillAll_eq_self h.numbers
  rw [restored, hstrings, hbytes, hnumbers]

end StateTables

/-! ### Both implementations -/

open StateTables

theorem RedbRaftStorage.createSnapshotData_eq (database : Redb.Database) :
    createSnapshotData database = (StateTables.ofDatabase database).toData := by
  have hread {κ : Type} [Ord κ] [Std.TransOrd κ] (tables : Tables κ) (definition : TableDefinition κ) :
      readTable tables definition = (tables.openTable definition).pairs := by
    rw [readTable, Tables.openTable]
    cases tables[definition.name]? <;> simp [Table.pairs]
  simp only [createSnapshotData, StateTables.ofDatabase, toData, hread]

/-- Decode, and leave the ten tables as the data has them. -/
def restoreTransaction (operation : String) (bytes : Bytes) (writeTxn : Redb.Database) : Outcome RaftError Redb.Database := do
  let data ← deserializeSnapshotData operation bytes
  return restored data writeTxn

theorem RedbRaftStorage.restoreFromSnapshot_eq (bytes : Bytes) :
    restoreFromSnapshot bytes = .commit (restoreTransaction "deserialize snapshot data" bytes) := rfl

theorem RaftSnapshotManager.applySnapshotToStateMachine_eq (bytes : Bytes) :
    applySnapshotToStateMachine bytes = .commit (restoreTransaction "deserialize snapshot" bytes) := rfl

theorem restoreTransaction_eq_ok {operation : String} {bytes : Bytes} {writeTxn next : Redb.Database} :
    restoreTransaction operation bytes writeTxn = .ok next ↔
      ∃ data, deserializeSnapshotData operation bytes = .ok data ∧ restored data writeTxn = next := by
  simp only [restoreTransaction, Outcome.bind_eq_ok, Outcome.pure_eq_ok, Outcome.ok.injEq]

/-- Both implementations commit the same tables, or neither commits any. -/
theorem restoreTransaction_agree (operation operation' : String) (bytes : Bytes) (database : Redb.Database) :
    (Session.commit (restoreTransaction operation bytes)).states database =
      (Session.commit (restoreTransaction operation' bytes)).states database := by
  by_cases hok : ∃ data, deserializeSnapshotData operation bytes = .ok data
  · obtain ⟨data, hdata⟩ := hok
    rw [Session.states_commit_of_ok (restoreTransaction_eq_ok.mpr ⟨data, hdata, rfl⟩),
      Session.states_commit_of_ok (restoreTransaction_eq_ok.mpr ⟨data, deserializeSnapshotData_eq_ok hdata, rfl⟩)]
  · have hnone (operation : String) : ∀ next, restoreTransaction operation bytes database ≠ .ok next := by
      intro next hnext
      obtain ⟨data, hdata, -⟩ := restoreTransaction_eq_ok.mp hnext
      exact hok ⟨data, deserializeSnapshotData_eq_ok hdata⟩
    rw [Session.states_commit_of_not_ok (hnone operation), Session.states_commit_of_not_ok (hnone operation')]

/-- The log is none of the ten tables. -/
theorem RedbRaftStorage.compactLogBefore_keeps_carries (index : UInt64) (data : SnapshotData) :
    (compactLogBefore index).Keeps (Carries data) := by
  rw [compactLogBefore]
  split
  · exact .pure ()
  · apply Session.Keeps.commit
    intro start next hnext hcarries
    obtain rfl := Outcome.ok.inj hnext
    refine ⟨hcarries.strings, hcarries.bytes, fun name hname => ?_⟩
    have hlog : raftLogTable.name ≠ name := by
      intro heq
      rw [← heq] at hname
      exact absurd hname (by decide)
    obtain ⟨before, hbefore⟩ := hcarries.numbers name hname
    exact ⟨before, (Tables.getElem?_put_of_ne hlog _).trans hbefore⟩

/-- An accepted snapshot with data leaves the tables of that data. -/
theorem RedbRaftStorage.applySnapshot_carries
    {codec : RaftStateCodec} {snapshot : Snapshot} {database : Redb.Database} {done : Unit}
    (h : (applySnapshot codec snapshot).result database = .ok done) (hdata : snapshot.data ≠ []) :
    ∃ data, deserializeSnapshotData "deserialize snapshot data" snapshot.data = .ok data ∧
      Carries data ((applySnapshot codec snapshot).final database) := by
  rw [applySnapshot] at h ⊢
  obtain ⟨_, hconf, h⟩ := Session.result_bind_eq_ok.mp h
  rw [Session.final_bind_of_ok hconf]
  obtain ⟨_, hhard, h⟩ := Session.result_bind_eq_ok.mp h
  rw [Session.final_bind_of_ok hhard]
  have hnotEmpty : ¬ snapshot.data.isEmpty = true := by simpa using hdata
  simp only [hnotEmpty, Bool.false_eq_true, if_false] at h ⊢
  obtain ⟨_, hrestore, h⟩ := Session.result_bind_eq_ok.mp h
  rw [Session.final_bind_of_ok hrestore]
  rw [restoreFromSnapshot_eq, Session.result_commit_eq_ok] at hrestore
  obtain ⟨next, hnext⟩ := hrestore
  obtain ⟨data, hdecoded, rfl⟩ := restoreTransaction_eq_ok.mp hnext
  refine ⟨data, hdecoded, (compactLogBefore_keeps_carries _ data).final ?_⟩
  rw [restoreFromSnapshot_eq, Session.final_commit_of_ok hnext]
  exact restored_carries data _

/-- Processing a snapshot puts its tables back twice, and leaves what installing it in the storage leaves. -/
theorem RaftSnapshotManager.processSnapshotIfPresent_final
    (codec : RaftStateCodec) (snapshot : Snapshot) (database : Redb.Database) :
    (processSnapshotIfPresent codec snapshot).final database =
      if isEmpty snapshot then database else (RedbRaftStorage.applySnapshot codec snapshot).final database := by
  rw [processSnapshotIfPresent]
  by_cases hempty : isEmpty snapshot = true
  · simp [hempty]
  simp only [hempty, Bool.false_eq_true, if_false]
  by_cases hok : ∃ done, (RedbRaftStorage.applySnapshot codec snapshot).result database = .ok done
  · obtain ⟨done, hdone⟩ := hok
    rw [Session.final_bind_of_ok hdone]
    by_cases hdata : snapshot.data = []
    · simp [hdata]
    obtain ⟨data, hdecoded, hcarries⟩ := RedbRaftStorage.applySnapshot_carries hdone hdata
    have hnotEmpty : ¬ snapshot.data.isEmpty = true := by simpa using hdata
    have hagain : restoreTransaction "deserialize snapshot" snapshot.data
        ((RedbRaftStorage.applySnapshot codec snapshot).final database) =
          .ok ((RedbRaftStorage.applySnapshot codec snapshot).final database) :=
      restoreTransaction_eq_ok.mpr ⟨data, deserializeSnapshotData_eq_ok hdecoded, hcarries.restored_eq_self⟩
    simp only [hnotEmpty, Bool.false_eq_true, if_false, applySnapshotToStateMachine_eq, Session.final_commit_of_ok hagain]
  · rw [Session.final_bind_of_not_ok (not_exists.mp hok)]

/-- The snapshot data of one database, restored in another. -/
def transferFrom (source : Redb.Database) : Session Redb.Database RaftError Unit :=
  RedbRaftStorage.restoreFromSnapshot (SnapshotData.serde.serialize (RedbRaftStorage.createSnapshotData source))

theorem transferFrom_final {source : Redb.Database} (hfits : (RedbRaftStorage.createSnapshotData source).Fits)
    (target : Redb.Database) :
    (transferFrom source).result target = .ok () ∧
      (transferFrom source).final target = restored (RedbRaftStorage.createSnapshotData source) target := by
  have hdecoded := deserializeSnapshotData_serialize hfits "deserialize snapshot data"
  have hcommit := restoreTransaction_eq_ok.mpr ⟨_, hdecoded, (rfl : restored _ target = _)⟩
  rw [transferFrom, RedbRaftStorage.restoreFromSnapshot_eq]
  exact ⟨Session.result_commit_of_ok hcommit, Session.final_commit_of_ok hcommit⟩

/-- A snapshot's data makes another database's tables those it was taken from and touches no other table, and it makes
no difference which implementation puts it back, or whether both do. -/
theorem snapshot_transferred :
    (∀ source target : Redb.Database, (RedbRaftStorage.createSnapshotData source).Fits →
      (transferFrom source).result target = .ok () ∧
        RedbRaftStorage.createSnapshotData ((transferFrom source).final target) = RedbRaftStorage.createSnapshotData source ∧
        SameOutside target ((transferFrom source).final target)) ∧
    (∀ (bytes : Bytes) (database : Redb.Database),
      (RaftSnapshotManager.applySnapshotToStateMachine bytes).states database =
          (RedbRaftStorage.restoreFromSnapshot bytes).states database ∧
        ((RaftSnapshotManager.applySnapshotToStateMachine bytes).result database = .ok () ↔
          (RedbRaftStorage.restoreFromSnapshot bytes).result database = .ok ())) ∧
    ∀ (codec : RaftStateCodec) (snapshot : Snapshot) (database : Redb.Database),
      (RaftSnapshotManager.processSnapshotIfPresent codec snapshot).final database =
        if RaftSnapshotManager.isEmpty snapshot then database
        else (RedbRaftStorage.applySnapshot codec snapshot).final database := by
  refine ⟨fun source target hfits => ?_, fun bytes database => ⟨?_, ?_⟩, RaftSnapshotManager.processSnapshotIfPresent_final⟩
  · obtain ⟨hresult, hfinal⟩ := transferFrom_final hfits target
    refine ⟨hresult, ?_, hfinal ▸ restored_sameOutside _ target⟩
    rw [hfinal, RedbRaftStorage.createSnapshotData_eq, ofDatabase_restored, RedbRaftStorage.createSnapshotData_eq, ofData_toData]
  · rw [RaftSnapshotManager.applySnapshotToStateMachine_eq, RedbRaftStorage.restoreFromSnapshot_eq]
    exact restoreTransaction_agree _ _ bytes database
  · rw [RaftSnapshotManager.applySnapshotToStateMachine_eq, RedbRaftStorage.restoreFromSnapshot_eq]
    simp only [Session.result_commit_eq_ok, restoreTransaction_eq_ok]
    exact ⟨fun ⟨next, data, hdata, hnext⟩ => ⟨next, data, deserializeSnapshotData_eq_ok hdata, hnext⟩,
      fun ⟨next, data, hdata, hnext⟩ => ⟨next, data, deserializeSnapshotData_eq_ok hdata, hnext⟩⟩

def oneVm : Redb.Database where
  stringTables := (∅ : Tables Str).insertInto vmStateTable ⟨"vm", by decide⟩ [1]

def onePool : Redb.Database where
  stringTables := (∅ : Tables Str).insertInto raftHardStateTable RedbRaftStorage.hardStateRecord [2]
  u64Tables := (∅ : Tables UInt64).insertInto ipPoolTable 7 [3]

/-- A VM's record reaches a database that held a pool of addresses and a vote. -/
theorem snapshot_transferred_oneVm :
    RedbRaftStorage.createSnapshotData ((transferFrom oneVm).final onePool) =
        { vmStates := [(⟨"vm", by decide⟩, [1])], clusterState := [], tasks := [], taskAssignments := [], taskResults := [],
          workers := [], workerStatus := [], ipPools := [], ipAllocations := [], vmIpMappings := [] } ∧
      ((transferFrom oneVm).final onePool).stringTables.get? raftHardStateTable RedbRaftStorage.hardStateRecord = some [2] := by
  have hdata : RedbRaftStorage.createSnapshotData oneVm =
      { vmStates := [(⟨"vm", by decide⟩, [1])], clusterState := [], tasks := [], taskAssignments := [], taskResults := [],
        workers := [], workerStatus := [], ipPools := [], ipAllocations := [], vmIpMappings := [] } := by decide
  have hfits : (RedbRaftStorage.createSnapshotData oneVm).Fits := by
    rw [hdata]
    apply SnapshotData.Fits.mk <;> simp [SnapshotData.TableFits, SnapshotData.anyKey]
  obtain ⟨-, hsame, hother⟩ := snapshot_transferred.1 oneVm onePool hfits
  refine ⟨hsame.trans hdata, ?_⟩
  rw [Tables.get?, hother.strings raftHardStateTable.name (by decide)]
  decide

end IrohRaft
