import IrohRaft.Proof.Storage.LogStart
import IrohRaft.Raft.Snapshot

/-!
# Compacting the log as it grows

`check_and_trigger_log_compaction` is called again and again while entries are appended and applied. It only ever cuts
off the front of the log, no further than what has been applied, and it leaves no more than the last 500 of the applied
entries and the one that was checked for.
-/

namespace IrohRaft

open Rust Redb RedbRaftStorage

namespace RaftSnapshotManager

/-! ### Runs -/

/-- A manager and its database, the index raft has applied, and the highest one that it ever has. -/
structure Compacting where
  database : Redb.Database
  manager : RaftSnapshotManager := {}
  applied : UInt64 := 0
  highest : UInt64 := 0

inductive Op where
  | append (entries : List Entry)
  | saveHardState (hardState : HardState)
  | saveConfState (confState : ConfState)
  | check (appliedIndex : UInt64)
  | restart (applied : UInt64)

def Op.isCheck : Op → Bool
  | .check _ => true
  | .append _ | .saveHardState _ | .saveConfState _ | .restart _ => false

variable (codec : RaftStateCodec)

/-- A restart forgets where the log was compacted last. -/
def step (state : Compacting) : Op → Compacting
  | .append entries => { state with database := (appendEntries codec entries).final state.database }
  | .saveHardState hardState => { state with database := (RedbRaftStorage.saveHardState codec hardState).final state.database }
  | .saveConfState confState => { state with database := (RedbRaftStorage.saveConfState codec confState).final state.database }
  | .check appliedIndex =>
      let highest := if state.highest ≤ appliedIndex then appliedIndex else state.highest
      match state.manager.checkAndTriggerLogCompaction codec appliedIndex state.database with
      | .ok (database, manager) => { database, manager, applied := appliedIndex, highest }
      | _ => { state with applied := appliedIndex, highest }
  | .restart applied => { state with manager := {}, applied }

/-- Raft replaces no entry that was applied, and the applied index goes back at a restart only and never beyond the log.
What is written can be read back. -/
def Allowed (state : Compacting) : Op → Prop
  | .append entries => ∀ entry ∈ entries, state.highest < entry.index ∧ codec.toRaftCodec.Preserves entry
  | .saveHardState _ => True
  | .saveConfState confState =>
      ∀ data, codec.serializeConfState confState = .ok data → codec.deserializeConfState data = .ok confState
  | .check appliedIndex =>
      state.applied ≤ appliedIndex ∧ (appliedIndex = 0 ∨ ∃ key ∈ logTable state.database, appliedIndex ≤ key)
  | .restart applied => applied ≤ state.highest

/-- The conf state and the entries of the log can be read. -/
structure Readable (database : Redb.Database) : Prop where
  confState : ∀ data ∈ confRecord database, ∃ confState, codec.deserializeConfState data = .ok confState
  entry : ∀ (index : UInt64) data, (logTable database)[index]? = some data → ∃ entry, codec.deserializeEntry data = .ok entry

variable {codec}

/-! ### The log from an index on -/

section LogFrom

variable {table : Table UInt64} {cut index : UInt64}

theorem logFrom_insert (hle : cut ≤ index) (value : Bytes) :
    logFrom cut (table.insert index value) = (logFrom cut table).insert index value := by
  apply Std.ExtTreeMap.ext_getElem?
  intro other
  by_cases hsame : index = other
  · rw [getElem?_logFrom, if_neg (UInt64.not_lt.mpr (hsame ▸ hle)), hsame, Table.getElem?_insert_self, Table.getElem?_insert_self]
  · rw [getElem?_logFrom, Table.getElem?_insert_of_ne hsame, Table.getElem?_insert_of_ne hsame, getElem?_logFrom]

theorem logFrom_logFrom (first second : UInt64) :
    logFrom second (logFrom first table) = logFrom (if first ≤ second then second else first) table := by
  apply Std.ExtTreeMap.ext_getElem?
  intro other
  simp only [getElem?_logFrom]
  split_ifs <;> grind

theorem insertEntries_logFrom {entries : List Entry} (h : ∀ entry ∈ entries, cut ≤ entry.index) :
    insertEntries codec.toRaftCodec (logFrom cut table) entries =
      insertEntries codec.toRaftCodec table entries >>= fun table => .ok (logFrom cut table) := by
  induction entries generalizing table with
  | nil => rfl
  | cons entry rest ih =>
      rw [insertEntries, insertEntries]
      cases hdata : codec.toRaftCodec.serializeEntry entry with
      | ok data =>
          rw [Outcome.ok_bind, Outcome.ok_bind, ← logFrom_insert (h entry List.mem_cons_self),
            ih fun other hother => h other (List.mem_cons_of_mem _ hother)]
      | err e => rfl
      | panic => rfl

end LogFrom

theorem appendEntries_of_ok {entries : List Entry} {database : Redb.Database} {table : Table UInt64}
    (h : insertEntries codec.toRaftCodec (logTable database) entries = .ok table) :
    (appendEntries codec entries).final database = putLog table database := by
  refine Session.final_commit_of_ok ?_
  rw [← logTable, h, Outcome.ok_bind]
  rfl

theorem appendEntries_of_not_ok {entries : List Entry} {database : Redb.Database}
    (h : ∀ table, insertEntries codec.toRaftCodec (logTable database) entries ≠ .ok table) :
    (appendEntries codec entries).final database = database := by
  refine Session.final_commit_of_not_ok fun next hnext => ?_
  obtain ⟨table, htable, -⟩ := Outcome.bind_eq_ok.mp hnext
  exact h table htable

/-! ### One check -/

variable {state plain : Compacting} {database : Redb.Database} {appliedIndex : UInt64}

theorem snapshot_ok (h : Readable codec database) {key : UInt64} (hkey : key ∈ logTable database) (hle : appliedIndex ≤ key) :
    ∃ snapshot, RedbRaftStorage.snapshot codec database appliedIndex = .ok snapshot ∧
      (getMetadata snapshot).index = appliedIndex := by
  have hcreated : database.u64Tables[raftLogTable.name]? = some (logTable database) := by
    cases htable : database.u64Tables[raftLogTable.name]? with
    | none => simp [logTable, Tables.openTable, htable] at hkey
    | some table => simp [logTable, Tables.openTable, htable]
  obtain ⟨last, hlast⟩ : ∃ last, (logTable database).last? = some last := by
    refine Option.ne_none_iff_exists'.mp fun hnone => ?_
    exact Table.last?_eq_none_iff.mp hnone key hkey
  obtain ⟨hmem, hgreatest⟩ := Table.last?_eq_some_iff.mp hlast
  have hconf : ∃ confState, loadConfState codec database = .ok confState := by
    rw [loadConfState, ← confRecord]
    cases hrecord : confRecord database with
    | none => exact ⟨{}, rfl⟩
    | some data =>
        obtain ⟨confState, hread⟩ := h.confState data hrecord
        exact ⟨confState, by simp [hread]⟩
  have hterm : ∃ lastTerm, (if last > 0 then RedbRaftStorage.term codec database last else .ok 0) = .ok lastTerm := by
    split_ifs
    · obtain ⟨data, hdata⟩ := Table.mem_iff_getElem?.mp hmem
      obtain ⟨entry, hread⟩ := h.entry last data hdata
      rw [RedbRaftStorage.term, openLog_eq hcreated, Outcome.ok_bind, hdata]
      exact ⟨entry.term, by simp [hread]⟩
    · exact ⟨0, rfl⟩
  obtain ⟨confState, hconf⟩ := hconf
  obtain ⟨lastTerm, hterm⟩ := hterm
  have hmin : min appliedIndex last = appliedIndex := if_pos (UInt64.le_trans hle (hgreatest key hkey))
  simp only [RedbRaftStorage.snapshot, hconf, lastIndex_eq hcreated, hlast, Option.getD_some, hterm, hmin, Outcome.mapErr_ok,
    Outcome.ok_bind, Outcome.pure_eq_ok]
  exact ⟨_, rfl, rfl⟩

theorem performLogCompaction_eq (h : Readable codec database) {key : UInt64} (hkey : key ∈ logTable database)
    (hle : appliedIndex ≤ key) (hpos : appliedIndex ≠ 0) (manager : RaftSnapshotManager) :
    manager.performLogCompaction codec appliedIndex database =
      (putLog (logFrom appliedIndex (logTable database)) database, { lastCompactionIndex := some appliedIndex }) := by
  obtain ⟨snapshot, hsnapshot, hindex⟩ := snapshot_ok h hkey hle
  have hresult : (compactLogBefore appliedIndex).result database = .ok () := by
    rw [compactLogBefore_eq hpos]
    rfl
  simp only [performLogCompaction, hsnapshot, hindex, hresult, compactLogBefore_final hpos]

/-- A check does nothing, where the applied index has not come far, or it compacts the log before that index. -/
theorem check_spec (h : Readable codec database) {manager : RaftSnapshotManager}
    (hlast : ∀ last ∈ manager.lastCompactionIndex, last ≤ appliedIndex)
    (hlog : appliedIndex = 0 ∨ ∃ key ∈ logTable database, appliedIndex ≤ key) :
    (manager.checkAndTriggerLogCompaction codec appliedIndex database = .ok (database, manager) ∧
      (appliedIndex ≤ compactionThreshold ∨ ∃ last ∈ manager.lastCompactionIndex, appliedIndex.toNat ≤ last.toNat + 500)) ∨
    manager.checkAndTriggerLogCompaction codec appliedIndex database =
        .ok (putLog (logFrom appliedIndex (logTable database)) database, { lastCompactionIndex := some appliedIndex }) ∧
      compactionThreshold < appliedIndex := by
  by_cases hfar : compactionThreshold < appliedIndex
  · have hpos : appliedIndex ≠ 0 := by
      intro hzero
      rw [hzero] at hfar
      exact absurd hfar (by decide)
    obtain ⟨key, hkey, hle⟩ := hlog.resolve_left hpos
    have hperform := performLogCompaction_eq h hkey hle hpos manager
    cases hmanager : manager.lastCompactionIndex with
    | none => exact .inr ⟨by simp [checkAndTriggerLogCompaction, hfar, hmanager, hperform], hfar⟩
    | some last =>
        have hback := hlast last hmanager
        have hsub : (u64Sub appliedIndex last : Outcome RaftError UInt64) = .ok (appliedIndex - last) := if_pos hback
        by_cases hsoon : appliedIndex - last > compactionThreshold / 2
        · exact .inr ⟨by simp [checkAndTriggerLogCompaction, hfar, hmanager, hsub, hsoon, hperform], hfar⟩
        · refine .inl ⟨by simp [checkAndTriggerLogCompaction, hfar, hmanager, hsub, hsoon], .inr ⟨last, rfl, ?_⟩⟩
          have hsoonNat := UInt64.le_iff_toNat_le.mp (UInt64.not_lt.mp hsoon)
          rw [UInt64.toNat_sub_of_le _ _ hback] at hsoonNat
          have hhalf : (compactionThreshold / 2).toNat = 500 := by decide
          omega
  · exact .inl ⟨by simp [checkAndTriggerLogCompaction, hfar], .inl (UInt64.not_lt.mp hfar)⟩

/-! ### A run beside one that does not compact -/

/-- All but the log is the same. -/
structure SameRest (database other : Redb.Database) : Prop where
  conf : confRecord database = confRecord other
  hard : hardRecord database = hardRecord other
  stateTables : StateTables.ofDatabase database = StateTables.ofDatabase other

/-- The log is what the other database has, from an index on that has been applied. -/
structure Compacts (codec : RaftStateCodec) (plain state : Compacting) (cut : UInt64) : Prop where
  log : logTable state.database = logFrom cut (logTable plain.database)
  rest : SameRest state.database plain.database
  readable : Readable codec state.database
  cut_le : cut ≤ state.highest
  applied_le : state.applied ≤ state.highest
  last_le : ∀ last ∈ state.manager.lastCompactionIndex, last ≤ cut ∧ last ≤ state.applied

variable {cut : UInt64} {entries : List Entry}

theorem readable_putLog (h : Readable codec database) {table : Table UInt64}
    (htable : ∀ (index : UInt64) data, table[index]? = some data → ∃ entry, codec.deserializeEntry data = .ok entry) :
    Readable codec (putLog table database) := by
  refine ⟨h.confState, fun index data hdata => htable index data ?_⟩
  rwa [logTable_putLog] at hdata

theorem readable_insertEntries {table next : Table UInt64} (hentries : ∀ entry ∈ entries, codec.toRaftCodec.Preserves entry)
    (htable : ∀ (index : UInt64) data, table[index]? = some data → ∃ entry, codec.deserializeEntry data = .ok entry)
    (hnext : insertEntries codec.toRaftCodec table entries = .ok next) (index : UInt64) (data : Bytes)
    (hdata : next[index]? = some data) : ∃ entry, codec.deserializeEntry data = .ok entry := by
  induction entries generalizing table with
  | nil =>
      obtain rfl := Outcome.ok.inj hnext
      exact htable index data hdata
  | cons entry rest ih =>
      obtain ⟨written, hwritten, hreads⟩ := hentries entry List.mem_cons_self
      rw [insertEntries, hwritten, Outcome.ok_bind] at hnext
      refine ih (fun other hother => hentries other (List.mem_cons_of_mem _ hother)) (fun other old hold => ?_) hnext
      by_cases hsame : entry.index = other
      · rw [hsame, Table.getElem?_insert_self] at hold
        exact ⟨entry, Option.some.inj hold ▸ hreads⟩
      · rw [Table.getElem?_insert_of_ne hsame] at hold
        exact htable other old hold

theorem Compacts.append (h : Compacts codec plain state cut) (hallowed : Allowed codec state (.append entries)) :
    Compacts codec (step codec plain (.append entries)) (step codec state (.append entries)) cut := by
  have hinsert : insertEntries codec.toRaftCodec (logTable state.database) entries =
      insertEntries codec.toRaftCodec (logTable plain.database) entries >>= fun table => .ok (logFrom cut table) := by
    rw [h.log]
    exact insertEntries_logFrom fun entry hentry => UInt64.le_trans h.cut_le (UInt64.le_of_lt (hallowed entry hentry).1)
  by_cases hok : ∃ table, insertEntries codec.toRaftCodec (logTable plain.database) entries = .ok table
  · obtain ⟨table, htable⟩ := hok
    rw [htable, Outcome.ok_bind] at hinsert
    have hstate : (step codec state (.append entries)).database = putLog (logFrom cut table) state.database :=
      appendEntries_of_ok hinsert
    have hplain : (step codec plain (.append entries)).database = putLog table plain.database := appendEntries_of_ok htable
    refine ⟨?_, ⟨?_, ?_, ?_⟩, ?_, h.cut_le, h.applied_le, h.last_le⟩
    · rw [hstate, hplain, logTable_putLog, logTable_putLog]
    · rw [hstate, hplain, confRecord_putLog, confRecord_putLog, h.rest.conf]
    · rw [hstate, hplain, hardRecord_putLog, hardRecord_putLog, h.rest.hard]
    · rw [hstate, hplain, stateTables_putLog, stateTables_putLog, h.rest.stateTables]
    · rw [hstate]
      exact readable_putLog h.readable
        (readable_insertEntries (fun entry hentry => (hallowed entry hentry).2) h.readable.entry hinsert)
  · have hfails := not_exists.mp hok
    have hfails' : ∀ table, insertEntries codec.toRaftCodec (logTable state.database) entries ≠ .ok table := by
      intro table htable
      rw [hinsert] at htable
      obtain ⟨uncut, huncut, -⟩ := Outcome.bind_eq_ok.mp htable
      exact hfails uncut huncut
    simp only [step, appendEntries_of_not_ok hfails, appendEntries_of_not_ok hfails']
    exact h

theorem Compacts.saveHardState (h : Compacts codec plain state cut) (hardState : HardState) :
    Compacts codec (step codec plain (.saveHardState hardState)) (step codec state (.saveHardState hardState)) cut := by
  simp only [step, saveHardState_eq]
  by_cases hok : ∃ data, codec.serializeHardState hardState = .ok data
  · obtain ⟨data, hdata⟩ := hok
    rw [(Session.write_of_ok hdata).2.1, (Session.write_of_ok hdata).2.1]
    refine ⟨?_, ⟨?_, ?_, ?_⟩, ⟨?_, ?_⟩, h.cut_le, h.applied_le, h.last_le⟩
    · rw [logTable_putHardState, logTable_putHardState, h.log]
    · rw [confRecord_putHardState, confRecord_putHardState, h.rest.conf]
    · rw [hardRecord_putHardState, hardRecord_putHardState]
    · rw [stateTables_putHardState, stateTables_putHardState, h.rest.stateTables]
    · rw [confRecord_putHardState]
      exact h.readable.confState
    · exact h.readable.entry
  · have hfails := not_exists.mp hok
    rw [(Session.write_of_not_ok hfails).2.1, (Session.write_of_not_ok hfails).2.1]
    exact h

theorem Compacts.saveConfState (h : Compacts codec plain state cut) {confState : ConfState}
    (hallowed : Allowed codec state (.saveConfState confState)) :
    Compacts codec (step codec plain (.saveConfState confState)) (step codec state (.saveConfState confState)) cut := by
  simp only [step, saveConfState_eq]
  by_cases hok : ∃ data, codec.serializeConfState confState = .ok data
  · obtain ⟨data, hdata⟩ := hok
    rw [(Session.write_of_ok hdata).2.1, (Session.write_of_ok hdata).2.1]
    refine ⟨?_, ⟨?_, ?_, ?_⟩, ⟨?_, ?_⟩, h.cut_le, h.applied_le, h.last_le⟩
    · rw [logTable_putConfState, logTable_putConfState, h.log]
    · rw [confRecord_putConfState, confRecord_putConfState]
    · rw [hardRecord_putConfState, hardRecord_putConfState, h.rest.hard]
    · rw [stateTables_putConfState, stateTables_putConfState, h.rest.stateTables]
    · intro read hread
      rw [confRecord_putConfState] at hread
      exact ⟨confState, hallowed read (hdata.trans (congrArg _ (Option.some.inj hread)))⟩
    · exact h.readable.entry
  · have hfails := not_exists.mp hok
    rw [(Session.write_of_not_ok hfails).2.1, (Session.write_of_not_ok hfails).2.1]
    exact h

/-- Where the log is cut off after a check. -/
theorem Compacts.check (h : Compacts codec plain state cut) (hallowed : Allowed codec state (.check appliedIndex)) :
    ∃ cut', Compacts codec plain (step codec state (.check appliedIndex)) cut' ∧
      (compactionThreshold < appliedIndex → appliedIndex.toNat ≤ cut'.toNat + 500) := by
  obtain ⟨happlied, hlog⟩ := hallowed
  have hlast : ∀ last ∈ state.manager.lastCompactionIndex, last ≤ appliedIndex := fun last hmem =>
    UInt64.le_trans (h.last_le last hmem).2 happlied
  have hcut : cut ≤ (if state.highest ≤ appliedIndex then appliedIndex else state.highest) := by
    have hcut_le := h.cut_le
    split_ifs <;> grind
  have hhighest : appliedIndex ≤ (if state.highest ≤ appliedIndex then appliedIndex else state.highest) := by
    split_ifs <;> grind
  obtain ⟨hcheck, hfar⟩ | ⟨hcheck, -⟩ := check_spec h.readable hlast hlog
  · refine ⟨cut, ?_, fun hthreshold => ?_⟩
    · simp only [step, hcheck]
      exact ⟨h.log, h.rest, h.readable, hcut, hhighest, fun last hmem => ⟨(h.last_le last hmem).1, hlast last hmem⟩⟩
    · obtain hnear | ⟨last, hmem, hle⟩ := hfar
      · exact absurd hthreshold (UInt64.not_lt.mpr hnear)
      · have hlastNat := UInt64.le_iff_toNat_le.mp (h.last_le last hmem).1
        omega
  · refine ⟨if cut ≤ appliedIndex then appliedIndex else cut, ?_, fun _ => ?_⟩
    · simp only [step, hcheck]
      refine ⟨?_, ⟨?_, ?_, ?_⟩, ?_, ?_, hhighest, fun last hmem => ?_⟩
      · rw [logTable_putLog, h.log, logFrom_logFrom]
      · rw [confRecord_putLog, h.rest.conf]
      · rw [hardRecord_putLog, h.rest.hard]
      · rw [stateTables_putLog, h.rest.stateTables]
      · refine readable_putLog h.readable fun index data hdata => ?_
        rw [getElem?_logFrom] at hdata
        split_ifs at hdata
        exact h.readable.entry index data hdata
      · split_ifs <;> grind
      · obtain rfl := Option.some.inj hmem
        refine ⟨?_, UInt64.le_refl _⟩
        split_ifs <;> grind
    · split_ifs with hle
      · omega
      · have hlt := UInt64.lt_iff_toNat_lt.mp (UInt64.not_le.mp hle)
        omega

theorem Compacts.step (h : Compacts codec plain state cut) {op : Op} (hallowed : Allowed codec state op) :
    ∃ cut', Compacts codec (if op.isCheck then plain else RaftSnapshotManager.step codec plain op)
      (RaftSnapshotManager.step codec state op) cut' := by
  cases op with
  | append entries => exact ⟨cut, h.append hallowed⟩
  | saveHardState hardState => exact ⟨cut, h.saveHardState hardState⟩
  | saveConfState confState => exact ⟨cut, h.saveConfState hallowed⟩
  | check appliedIndex =>
      obtain ⟨cut', hcut', -⟩ := h.check hallowed
      exact ⟨cut', hcut'⟩
  | restart applied =>
      refine ⟨cut, h.log, h.rest, h.readable, h.cut_le, hallowed, fun last hmem => ?_⟩
      simp [RaftSnapshotManager.step] at hmem

/-- The run without its checks. -/
def withoutChecks (ops : List Op) : List Op := ops.filter fun op => !op.isCheck

theorem compacts_run (hreadable : Readable codec database) {ops : List Op}
    (hrun : Run.Follows (step codec) (Allowed codec) { database } ops) :
    ∃ cut, Compacts codec (Run.final (step codec) { database } (withoutChecks ops)) (Run.final (step codec) { database } ops)
      cut := by
  refine hrun.history (fun done state => ∃ cut,
    Compacts codec (Run.final (step codec) { database } (withoutChecks done)) state cut) ?_ ?_
  · intro done state op hdone hallowed
    obtain ⟨cut, hcut⟩ := hdone
    obtain ⟨cut', hcut'⟩ := hcut.step hallowed
    refine ⟨cut', ?_⟩
    cases hcheck : op.isCheck with
    | true =>
        have hsame : withoutChecks (done ++ [op]) = withoutChecks done := by simp [withoutChecks, hcheck]
        simpa [hsame, hcheck] using hcut'
    | false =>
        have hmore : withoutChecks (done ++ [op]) = withoutChecks done ++ [op] := by simp [withoutChecks, hcheck]
        simpa [hmore, hcheck, Run.final_concat] using hcut'
  · refine ⟨0, (logFrom_zero _).symm, ⟨rfl, rfl, rfl⟩, hreadable, UInt64.le_refl _, UInt64.le_refl _, fun last hmem => ?_⟩
    simp at hmem

/-- Whenever the log is checked while it grows, all that is lost is a part of its front that has been applied, and no check
fails. After a check for an index above the threshold at most 500 entries before it are left. -/
theorem compaction_keeps_log (codec : RaftStateCodec) {database : Redb.Database} (hreadable : Readable codec database)
    {ops : List Op} (hrun : Run.Follows (step codec) (Allowed codec) { database } ops) :
    let after := Run.final (step codec) { database } ops
    let plain := Run.final (step codec) { database } (withoutChecks ops)
    (∃ cut ≤ after.highest, logTable after.database = logFrom cut (logTable plain.database)) ∧
    SameRest after.database plain.database ∧
    ∀ appliedIndex, Allowed codec after (.check appliedIndex) →
      (∃ next, after.manager.checkAndTriggerLogCompaction codec appliedIndex after.database = .ok next) ∧
      (compactionThreshold < appliedIndex →
        ∀ key ∈ logTable (step codec after (.check appliedIndex)).database, appliedIndex.toNat ≤ key.toNat + 500) := by
  intro after plain
  obtain ⟨cut, hcut⟩ := compacts_run hreadable hrun
  refine ⟨⟨cut, hcut.cut_le, hcut.log⟩, hcut.rest, fun appliedIndex hallowed => ⟨?_, fun hthreshold key hkey => ?_⟩⟩
  · have hlast : ∀ last ∈ after.manager.lastCompactionIndex, last ≤ appliedIndex := fun last hmem =>
      UInt64.le_trans (hcut.last_le last hmem).2 hallowed.1
    obtain ⟨hcheck, -⟩ | ⟨hcheck, -⟩ := check_spec hcut.readable hlast hallowed.2
    · exact ⟨_, hcheck⟩
    · exact ⟨_, hcheck⟩
  · obtain ⟨cut', hcut', hnear⟩ := hcut.check hallowed
    rw [hcut'.log] at hkey
    have hle := UInt64.le_iff_toNat_le.mp (mem_logFrom.mp hkey).2
    have hbound := hnear hthreshold
    omega

/-- A log of two entries, checked for the second. -/
def twoEntries : List Op := [.append [.noop 1 1, .noop 1001 1], .check 1001]

theorem follows_twoEntries : Run.Follows (step .ofStorage) (Allowed .ofStorage) { database := {} } twoEntries := by
  refine ⟨fun entry hentry => ?_, ⟨by decide, .inr ⟨1001, by decide, UInt64.le_refl _⟩⟩, trivial⟩
  simp only [List.mem_cons, List.not_mem_nil, or_false] at hentry
  obtain rfl | rfl := hentry
  · exact ⟨by decide, _, rfl, by decide⟩
  · exact ⟨by decide, _, rfl, by decide⟩

theorem compaction_keeps_log_twoEntries :
    let after := Run.final (step .ofStorage) { database := {} } twoEntries
    let plain := Run.final (step .ofStorage) { database := {} } (withoutChecks twoEntries)
    ((∃ cut ≤ after.highest, logTable after.database = logFrom cut (logTable plain.database)) ∧
      SameRest after.database plain.database ∧
      ∀ appliedIndex, Allowed .ofStorage after (.check appliedIndex) →
        (∃ next, after.manager.checkAndTriggerLogCompaction .ofStorage appliedIndex after.database = .ok next) ∧
        (compactionThreshold < appliedIndex →
          ∀ key ∈ logTable (step .ofStorage after (.check appliedIndex)).database, appliedIndex.toNat ≤ key.toNat + 500)) ∧
    Allowed .ofStorage after (.check 1001) ∧ (logTable after.database).keys = [1001] :=
  ⟨compaction_keeps_log .ofStorage ⟨by simp [confRecord, Tables.get?], by simp [logTable, Tables.openTable]⟩ follows_twoEntries,
    ⟨by decide, .inr ⟨1001, by decide, UInt64.le_refl _⟩⟩, by decide⟩

end RaftSnapshotManager

end IrohRaft
