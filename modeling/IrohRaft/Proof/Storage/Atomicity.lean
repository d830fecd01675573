import IrohRaft.Proof.Storage.Votes

/-!
# Installing a snapshot, transaction by transaction

An installation writes the conf state, the hard state, the state machine's tables and the log, each in
a transaction of its own, and decodes the tables only after the first two. It is all or nothing exactly
when at most one of the four changes anything, and nothing is changed before an error.
-/

namespace IrohRaft

open Rust Redb

namespace RedbRaftStorage

/-- What a snapshot replaces. -/
structure Installed where
  confState : Option Bytes
  hardState : Option Bytes
  tables : StateTables
  log : Table UInt64

def installed (database : Redb.Database) : Installed where
  confState := confRecord database
  hardState := hardRecord database
  tables := StateTables.ofDatabase database
  log := logTable database

/-- The tables a snapshot's data holds; without data, those that are there. -/
def snapshotTables (snapshot : Snapshot) (tables : StateTables) : Outcome RaftError StateTables :=
  if snapshot.data.isEmpty then return tables
  else do
    let data ← deserializeSnapshotData "deserialize snapshot data" snapshot.data
    return .ofData data

def snapshotLog (snapshot : Snapshot) (log : Table UInt64) : Table UInt64 :=
  if (getMetadata snapshot).index = 0 then log else logFrom (getMetadata snapshot).index log

variable (codec : RaftStateCodec) (snapshot : Snapshot)

/-- All as the snapshot prescribes. -/
def prescribed (before : Installed) : Outcome RaftError Installed := do
  let confState ← codec.serializeConfState ((getMetadata snapshot).confState.getD {})
  let hardState ← codec.serializeHardState (ofMetadata (getMetadata snapshot))
  let tables ← snapshotTables snapshot before.tables
  return { confState := some confState, hardState := some hardState, tables, log := snapshotLog snapshot before.log }

/-- Wherever the installation fails or stops, the four are as before or as prescribed, together. -/
def AllOrNothing (database : Redb.Database) : Prop :=
  ∀ state ∈ (applySnapshot codec snapshot).states database,
    installed state = installed database ∨ prescribed codec snapshot (installed database) = .ok (installed state)

def AtMostOne (p q r s : Prop) : Prop := (p → ¬ q ∧ ¬ r ∧ ¬ s) ∧ (q → ¬ r ∧ ¬ s) ∧ (r → ¬ s)

/-- No two of the four differ, and none that is written before an error. -/
def ChangesOnce (before : Installed) : Prop :=
  match codec.serializeConfState ((getMetadata snapshot).confState.getD {}) with
  | .ok confState =>
      match codec.serializeHardState (ofMetadata (getMetadata snapshot)) with
      | .ok hardState =>
          match snapshotTables snapshot before.tables with
          | .ok tables =>
              AtMostOne (before.confState ≠ some confState) (before.hardState ≠ some hardState) (before.tables ≠ tables)
                (before.log ≠ snapshotLog snapshot before.log)
          | _ => before.confState = some confState ∧ before.hardState = some hardState
      | _ => before.confState = some confState
  | _ => True

variable {codec snapshot} (holds : Installed → Prop) {database : Redb.Database}

/-! ### The states an installation passes through -/

theorem installed_putConfState (data : Bytes) (database : Redb.Database) :
    installed (putConfState data database) = { installed database with confState := some data } := by
  simp only [installed, confRecord_putConfState, hardRecord_putConfState, stateTables_putConfState, logTable_putConfState]

theorem installed_putHardState (data : Bytes) (database : Redb.Database) :
    installed (putHardState data database) = { installed database with hardState := some data } := by
  simp only [installed, confRecord_putHardState, hardRecord_putHardState, stateTables_putHardState, logTable_putHardState]

theorem installed_restored (data : SnapshotData) (database : Redb.Database) :
    installed (StateTables.restored data database) = { installed database with tables := .ofData data } := by
  simp only [installed, confRecord_restored, hardRecord_restored, StateTables.ofDatabase_restored, logTable_restored]

theorem forall_states_compactLogBefore :
    (∀ state ∈ (compactLogBefore (getMetadata snapshot).index).states database, holds (installed state)) ↔
      holds (installed database) ∧ holds { installed database with log := snapshotLog snapshot (installed database).log } := by
  by_cases hzero : (getMetadata snapshot).index = 0
  · simp [compactLogBefore, snapshotLog, hzero, installed]
  · rw [compactLogBefore_eq hzero, Session.forall_mem_states_write]
    simp [installed, snapshotLog, hzero]

/-- The tables are put in place, if there are any, and then the log. -/
theorem forall_states_restore_compact :
    (∀ state ∈ (do
        unless snapshot.data.isEmpty do
          restoreFromSnapshot snapshot.data
        compactLogBefore (getMetadata snapshot).index : Session Redb.Database RaftError Unit).states database,
        holds (installed state)) ↔
      holds (installed database) ∧ ∀ tables, snapshotTables snapshot (installed database).tables = .ok tables →
        holds { installed database with tables } ∧
          holds { installed database with tables, log := snapshotLog snapshot (installed database).log } := by
  by_cases hempty : snapshot.data.isEmpty = true
  · simp only [hempty, if_true, snapshotTables, Outcome.pure_eq_ok, Outcome.ok.injEq, forall_eq', forall_states_compactLogBefore]
    simp [installed]
  · simp only [hempty, Bool.false_eq_true, if_false, restoreFromSnapshot_eq_write, Session.forall_mem_states_write_bind,
      forall_states_compactLogBefore, installed_restored, snapshotTables, Outcome.bind_eq_ok,
      Outcome.pure_eq_ok, Outcome.ok.injEq]
    simp

theorem forall_states_applySnapshot :
    (∀ state ∈ (applySnapshot codec snapshot).states database, holds (installed state)) ↔
      holds (installed database) ∧
      ∀ confState, codec.serializeConfState ((getMetadata snapshot).confState.getD {}) = .ok confState →
        holds { installed database with confState := some confState } ∧
        ∀ hardState, codec.serializeHardState (ofMetadata (getMetadata snapshot)) = .ok hardState →
          holds { installed database with confState := some confState, hardState := some hardState } ∧
          ∀ tables, snapshotTables snapshot (installed database).tables = .ok tables →
            holds { installed database with confState := some confState, hardState := some hardState, tables } ∧
              holds { confState := some confState, hardState := some hardState, tables,
                      log := snapshotLog snapshot (installed database).log } := by
  rw [applySnapshot, saveConfState_eq, Session.forall_mem_states_write_bind]
  simp only [saveHardState_eq, Session.forall_mem_states_write_bind, installed_putConfState]
  refine and_congr_right' (forall₂_congr fun confState _ => and_congr_right' (forall₂_congr fun hardState _ => ?_))
  rw [forall_states_restore_compact]
  simp [installed_putConfState, installed_putHardState]

/-- Every state in between is like the first or like the last exactly if only one part is ever changed. -/
theorem atMostOne_iff {c c' h h' : Option Bytes} {t t' : StateTables} {l l' : Table UInt64} :
    ((⟨c', h, t, l⟩ : Installed) = ⟨c, h, t, l⟩ ∨ (⟨c', h', t', l'⟩ : Installed) = ⟨c', h, t, l⟩) ∧
      ((⟨c', h', t, l⟩ : Installed) = ⟨c, h, t, l⟩ ∨ (⟨c', h', t', l'⟩ : Installed) = ⟨c', h', t, l⟩) ∧
      ((⟨c', h', t', l⟩ : Installed) = ⟨c, h, t, l⟩ ∨ (⟨c', h', t', l'⟩ : Installed) = ⟨c', h', t', l⟩) ↔
      AtMostOne (c ≠ c') (h ≠ h') (t ≠ t') (l ≠ l') := by
  simp only [Installed.mk.injEq, AtMostOne, ne_eq, @eq_comm _ c c', @eq_comm _ h h', @eq_comm _ t t', @eq_comm _ l l']
  tauto

/-- An installation is all or nothing exactly if no two of its writes change anything, and none before an error. -/
theorem applySnapshot_allOrNothing_iff (codec : RaftStateCodec) (snapshot : Snapshot) (database : Redb.Database) :
    AllOrNothing codec snapshot database ↔ ChangesOnce codec snapshot (installed database) := by
  refine (forall_states_applySnapshot fun state =>
    state = installed database ∨ prescribed codec snapshot (installed database) = .ok state).trans ?_
  generalize installed database = before
  obtain ⟨conf, hard, tables, log⟩ := before
  rw [ChangesOnce, prescribed]
  cases codec.serializeConfState ((getMetadata snapshot).confState.getD {}) with
  | err error => simp
  | panic => simp
  | ok confState =>
    cases codec.serializeHardState (ofMetadata (getMetadata snapshot)) with
    | err error => simp [eq_comm]
    | panic => simp [eq_comm]
    | ok hardState =>
      simp only [Outcome.ok.injEq, forall_eq', Outcome.ok_bind]
      cases snapshotTables snapshot tables with
      | err error => simp [@eq_comm _ conf, @eq_comm _ hard]
      | panic => simp [@eq_comm _ conf, @eq_comm _ hard]
      | ok tables' =>
        simp only [Outcome.ok.injEq, forall_eq', Outcome.ok_bind, Outcome.pure_eq_ok]
        rw [← atMostOne_iff]
        simp only [true_or, or_true, and_true, true_and]

/-- A snapshot whose data ends before the first table's length does. -/
def undecodable : Snapshot where
  data := [255]
  metadata := some { confState := some { voters := [1] }, index := 5, term := 2 }

/-- A new node takes over its conf state and hard state, and reports an error. -/
theorem applySnapshot_undecodable :
    (¬ ∀ (codec : RaftStateCodec) (snapshot : Snapshot) (database : Redb.Database), AllOrNothing codec snapshot database) ∧
      initialState .ofStorage ((applySnapshot .ofStorage undecodable).final {}) =
        { hardState := { term := 2, vote := 0, commit := 5 }, confState := { voters := [1] } } ∧
      (applySnapshot .ofStorage undecodable).result {} =
        .err (.serialization "deserialize snapshot data" Bincode.unexpectedEof) := by
  refine ⟨fun h => ?_, by decide, by decide⟩
  have hfinal := h .ofStorage undecodable {} _ (Session.final_mem_states _)
  have hdata : snapshotTables undecodable (installed {}).tables =
      .err (.serialization "deserialize snapshot data" Bincode.unexpectedEof) := by
    have hdecoded : deserializeSnapshotData "deserialize snapshot data" undecodable.data =
      .err (.serialization "deserialize snapshot data" Bincode.unexpectedEof) := by decide
    rw [snapshotTables, hdecoded]
    simp [undecodable]
  obtain hbefore | hprescribed := hfinal
  · have hconf : confRecord ((applySnapshot .ofStorage undecodable).final {}) = confRecord {} :=
      congrArg Installed.confState hbefore
    revert hconf
    decide
  · simp [prescribed, RaftStateCodec.ofStorage, hdata] at hprescribed

end RedbRaftStorage

end IrohRaft
