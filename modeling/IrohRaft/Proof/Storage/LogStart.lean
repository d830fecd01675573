import IrohRaft.Proof.Storage.Atomicity
import IrohRaft.Storage.Ops

/-!
# The start of the log after a snapshot

The older storage keeps no position of its snapshot: the first index is read off the log, and a term
that is not in the log is zero. So the log continues a snapshot only by accident of what it held.
-/

namespace IrohRaft

open Rust Redb

namespace RedbRaftStorage

variable {codec : RaftStateCodec} {snapshot : Snapshot} {database : Redb.Database} {table : Table UInt64}

/-! ### Indices read off the log -/

theorem openLog_eq (h : database.u64Tables[raftLogTable.name]? = some table) : (ofDatabase database).openLog = .ok table := by
  rw [openLog, ofDatabase, h]
  rfl

theorem firstIndex_eq (h : database.u64Tables[raftLogTable.name]? = some table) :
    (ofDatabase database).firstIndex = .ok (table.first?.getD 1) := by
  rw [firstIndex, openLog_eq h, Outcome.ok_bind]
  cases table.first? <;> simp

theorem lastIndex_eq (h : database.u64Tables[raftLogTable.name]? = some table) :
    (ofDatabase database).lastIndex = .ok (table.last?.getD 0) := by
  rw [lastIndex, openLog_eq h, Outcome.ok_bind]
  cases table.last? <;> simp

theorem term_of_not_mem (h : database.u64Tables[raftLogTable.name]? = some table) {idx : UInt64} (hidx : idx ∉ table) :
    term codec database idx = .ok 0 := by
  rw [term, openLog_eq h, Outcome.ok_bind, Table.not_mem_iff_getElem?.mp hidx]
  simp

/-- An index is only known where the table was created. -/
theorem exists_table_of_firstIndex {first : UInt64} (h : (ofDatabase database).firstIndex = .ok first) :
    ∃ table, database.u64Tables[raftLogTable.name]? = some table ∧ first = table.first?.getD 1 := by
  cases htable : database.u64Tables[raftLogTable.name]? with
  | none =>
      rw [firstIndex, openLog, ofDatabase, htable] at h
      simp at h
  | some table =>
      rw [firstIndex_eq htable] at h
      exact ⟨table, rfl, (Outcome.ok.inj h).symm⟩

/-- The index before the first one is not in the log. -/
theorem not_mem_of_before_first {first idx : UInt64} (h : first = table.first?.getD 1) (hbefore : first.toNat = idx.toNat + 1) :
    idx ∉ table := by
  intro hmem
  cases hfirst : table.first? with
  | none => exact Table.first?_eq_none_iff.mp hfirst idx hmem
  | some key =>
      rw [hfirst] at h
      obtain rfl : first = key := h
      have hle := UInt64.le_iff_toNat_le.mp ((Table.first?_eq_some_iff.mp hfirst).2 idx hmem)
      omega

/-! ### After a snapshot -/

/-- Appends in one block that starts inside the log or right after it, and compactions. -/
def Call.Extends (database : Redb.Database) (call : Call) : Prop :=
  match call.op with
  | .append entries =>
      Contiguous entries ∧ ∃ entry ∈ entries.head?, (ofDatabase database).firstIndex.Returns (· ≤ entry.index) ∧
        (ofDatabase database).lastIndex.Returns fun last => entry.index.toNat ≤ last.toNat + 1
  | .compactLogBefore _ => True
  | _ => False

/-- The log continues the snapshot, and the snapshot's term stays known as long as the log starts right after it. -/
def ContinuesSnapshot (codec : RaftStateCodec) (snapshot : Snapshot) (database : Redb.Database) : Prop :=
  (ofDatabase database).firstIndex.Returns (fun first => first.toNat = (getMetadata snapshot).index.toNat + 1) ∧
    (ofDatabase database).lastIndex.Returns (fun last => (getMetadata snapshot).index ≤ last) ∧
    term codec database (getMetadata snapshot).index = .ok (getMetadata snapshot).term ∧
    ∀ calls, Run.Follows (exec codec) Call.Extends database calls →
      (ofDatabase (Run.final (exec codec) database calls)).firstIndex.Returns
        (fun first => first.toNat = (getMetadata snapshot).index.toNat + 1) →
      term codec (Run.final (exec codec) database calls) (getMetadata snapshot).index = .ok (getMetadata snapshot).term

/-- The snapshot's index is missing from the log, the next one is there, and the snapshot has no term. -/
def StartsAfter (snapshot : Snapshot) (log : Table UInt64) : Prop :=
  (getMetadata snapshot).index ∉ log ∧ (∃ next ∈ log, next.toNat = (getMetadata snapshot).index.toNat + 1) ∧
    (getMetadata snapshot).term = 0

theorem mem_logFrom {index key : UInt64} : key ∈ logFrom index table ↔ key ∈ table ∧ index ≤ key := by
  rw [logFrom, Table.mem_removeAll_keysIn, decide_eq_false_iff_not, UInt64.not_lt]

/-- A log from an index on starts right after it exactly if the index is missing and the next is not. -/
theorem first?_logFrom_iff {index : UInt64} (hzero : index ≠ 0) :
    ((logFrom index table).first?.getD 1).toNat = index.toNat + 1 ↔
      index ∉ table ∧ ∃ next ∈ table, next.toNat = index.toNat + 1 := by
  have hpos : index.toNat ≠ 0 := fun h => hzero (UInt64.toNat_inj.mp h)
  apply Iff.intro
  · intro h
    cases hfirst : (logFrom index table).first? with
    | none =>
        rw [hfirst] at h
        have hone : (1 : UInt64).toNat = 1 := rfl
        simp only [Option.getD_none, hone] at h
        omega
    | some key =>
        rw [hfirst] at h
        obtain ⟨hkey, hleast⟩ := Table.first?_eq_some_iff.mp hfirst
        refine ⟨fun hmem => ?_, key, (mem_logFrom.mp hkey).1, h⟩
        have hle := UInt64.le_iff_toNat_le.mp (hleast index (mem_logFrom.mpr ⟨hmem, UInt64.le_refl _⟩))
        have hkeyNat : key.toNat = index.toNat + 1 := h
        omega
  · intro ⟨hnot, next, hnext, hnat⟩
    have hfirst : (logFrom index table).first? = some next := by
      rw [Table.first?_eq_some_iff]
      refine ⟨mem_logFrom.mpr ⟨hnext, UInt64.le_iff_toNat_le.mpr (by omega)⟩, fun other hother => ?_⟩
      obtain ⟨hmem, hle⟩ := mem_logFrom.mp hother
      have hne : index.toNat ≠ other.toNat := fun heq => hnot (UInt64.toNat_inj.mp heq ▸ hmem)
      have hleNat := UInt64.le_iff_toNat_le.mp hle
      exact UInt64.le_iff_toNat_le.mpr (by omega)
    rw [hfirst]
    exact hnat

theorem compactLogBefore_final {index : UInt64} (h : index ≠ 0) (database : Redb.Database) :
    (compactLogBefore index).final database = putLog (logFrom index (logTable database)) database := by
  rw [compactLogBefore_eq h]
  exact (Session.write_of_ok rfl).2.1

/-- What an accepted snapshot leaves of the log. -/
theorem log_applySnapshot (hok : (applySnapshot codec snapshot).result database = .ok ())
    (hindex : (getMetadata snapshot).index ≠ 0) :
    ((applySnapshot codec snapshot).final database).u64Tables[raftLogTable.name]? =
      some (logFrom (getMetadata snapshot).index (logTable database)) := by
  have hcompacted (before : Redb.Database) (hlog : logTable before = logTable database) :
      ((compactLogBefore (getMetadata snapshot).index).final before).u64Tables[raftLogTable.name]? =
        some (logFrom (getMetadata snapshot).index (logTable database)) := by
    rw [compactLogBefore_final hindex, hlog, putLog, Tables.put]
    simp
  rw [applySnapshot] at hok ⊢
  obtain ⟨_, hconf, hok⟩ := Session.result_bind_eq_ok.mp hok
  rw [Session.final_bind_of_ok hconf]
  obtain ⟨_, hhard, hok⟩ := Session.result_bind_eq_ok.mp hok
  rw [Session.final_bind_of_ok hhard]
  have hkeepsConf (confState : ConfState) : (saveConfState codec confState).Keeps fun before => logTable before = logTable database :=
    saveConfState_keeps confState fun data start hlog => by rwa [logTable_putConfState]
  have hkeepsHard (hardState : HardState) : (saveHardState codec hardState).Keeps fun before => logTable before = logTable database :=
    saveHardState_keeps hardState fun data _ start hlog => by rwa [logTable_putHardState]
  have hkeepsTables : (restoreFromSnapshot snapshot.data).Keeps fun before => logTable before = logTable database :=
    restoreFromSnapshot_keeps snapshot.data fun snapshotData start hlog => by rwa [logTable_restored]
  have hconfLog := (hkeepsConf ((getMetadata snapshot).confState.getD {})).final rfl
  have hhardLog := (hkeepsHard (ofMetadata (getMetadata snapshot))).final hconfLog
  by_cases hempty : snapshot.data.isEmpty = true
  · simp only [hempty, if_true] at hok ⊢
    exact hcompacted _ hhardLog
  · simp only [hempty, Bool.false_eq_true, if_false] at hok ⊢
    obtain ⟨_, hrestore, _⟩ := Session.result_bind_eq_ok.mp hok
    rw [Session.final_bind_of_ok hrestore]
    exact hcompacted _ (hkeepsTables.final hhardLog)

/-- The log continues an accepted snapshot exactly if it happened to start after it, and the snapshot is of term zero. -/
theorem applySnapshot_continues_iff (codec : RaftStateCodec) (snapshot : Snapshot) (database : Redb.Database)
    (hindex : (getMetadata snapshot).index ≠ 0) (hok : (applySnapshot codec snapshot).result database = .ok ()) :
    ContinuesSnapshot codec snapshot ((applySnapshot codec snapshot).final database) ↔
      StartsAfter snapshot (logTable database) := by
  have htable := log_applySnapshot hok hindex
  have hfirst : (ofDatabase ((applySnapshot codec snapshot).final database)).firstIndex.Returns
      (fun first => first.toNat = (getMetadata snapshot).index.toNat + 1) ↔
      (getMetadata snapshot).index ∉ logTable database ∧
        ∃ next ∈ logTable database, next.toNat = (getMetadata snapshot).index.toNat + 1 := by
    rw [firstIndex_eq htable]
    exact first?_logFrom_iff hindex
  apply Iff.intro
  · intro ⟨hstart, _, hterm, _⟩
    obtain ⟨hnot, hnext⟩ := hfirst.mp hstart
    refine ⟨hnot, hnext, ?_⟩
    have hmissing : (getMetadata snapshot).index ∉ logFrom (getMetadata snapshot).index (logTable database) :=
      fun hmem => hnot (mem_logFrom.mp hmem).1
    rw [term_of_not_mem htable hmissing] at hterm
    exact (Outcome.ok.inj hterm).symm
  · intro ⟨hnot, hnext, hzero⟩
    have hterm (calls : List Call)
        (h : (ofDatabase (Run.final (exec codec) ((applySnapshot codec snapshot).final database) calls)).firstIndex.Returns
          (fun first => first.toNat = (getMetadata snapshot).index.toNat + 1)) :
        term codec (Run.final (exec codec) ((applySnapshot codec snapshot).final database) calls) (getMetadata snapshot).index =
          .ok (getMetadata snapshot).term := by
      obtain ⟨first, heq, hbefore⟩ := Outcome.returns_iff.mp h
      obtain ⟨table, hlater, hgetD⟩ := exists_table_of_firstIndex heq
      rw [hzero]
      exact term_of_not_mem hlater (not_mem_of_before_first hgetD hbefore)
    have hstart := hfirst.mpr ⟨hnot, hnext⟩
    refine ⟨hstart, ?_, hterm [] hstart, fun calls _ => hterm calls⟩
    rw [lastIndex_eq htable]
    obtain ⟨next, hmem, hnat⟩ := hnext
    have hle : (getMetadata snapshot).index ≤ next := UInt64.le_iff_toNat_le.mpr (by omega)
    have hkept : next ∈ logFrom (getMetadata snapshot).index (logTable database) := mem_logFrom.mpr ⟨hmem, hle⟩
    cases hlast : (logFrom (getMetadata snapshot).index (logTable database)).last? with
    | none => exact absurd hkept (Table.last?_eq_none_iff.mp hlast next)
    | some last => exact UInt64.le_trans hle ((Table.last?_eq_some_iff.mp hlast).2 next hkept)

/-- A log of one entry. -/
def oneEntry (entry : Entry) : Redb.Database where
  u64Tables := (∅ : Tables UInt64).insertInto raftLogTable entry.index (serializeEntry entry)

theorem applySnapshot_continues_termless :
    ContinuesSnapshot .ofStorage (.bare 5 0) ((applySnapshot .ofStorage (.bare 5 0)).final (oneEntry (.noop 6 1))) := by
  have hstarts : StartsAfter (.bare 5 0) (logTable (oneEntry (.noop 6 1))) := by
    refine ⟨by decide, ⟨6, by decide, rfl⟩, rfl⟩
  exact (applySnapshot_continues_iff .ofStorage (.bare 5 0) (oneEntry (.noop 6 1)) (by decide) (by decide)).mpr hstarts

/-- A new node that installs a snapshot up to index five would next accept an entry at index one. -/
theorem not_applySnapshot_continues :
    (¬ ∀ (codec : RaftStateCodec) (snapshot : Snapshot) (database : Redb.Database), (getMetadata snapshot).index ≠ 0 →
      (applySnapshot codec snapshot).result database = .ok () →
      ContinuesSnapshot codec snapshot ((applySnapshot codec snapshot).final database)) ∧
    (ofDatabase ((applySnapshot .ofStorage (.bare 5 2)).final {})).firstIndex = .ok 1 ∧
    (ofDatabase ((applySnapshot .ofStorage (.bare 5 2)).final {})).lastIndex = .ok 0 ∧
    term .ofStorage ((applySnapshot .ofStorage (.bare 5 2)).final {}) 5 = .ok 0 := by
  have hfirst : (ofDatabase ((applySnapshot .ofStorage (.bare 5 2)).final {})).firstIndex = .ok 1 := by decide
  refine ⟨fun h => ?_, hfirst, by decide, by decide⟩
  have hcontinues := (h .ofStorage (.bare 5 2) {} (by decide) (by decide)).1
  rw [hfirst] at hcontinues
  exact absurd hcontinues (by decide)

end RedbRaftStorage

end IrohRaft
