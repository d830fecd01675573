import IrohRaft.Proof.Storage.RedbViews
import IrohRaft.Raft.ConfigManager

/-!
# The membership after a restart

A committed membership change is written to the cluster state's table, in bincode; a restarted node
reads the conf state's own table, with raft's codec. So it reads what that table held before the change.
-/

namespace IrohRaft

open Rust Redb

namespace RedbRaftStorage

variable {codec : RaftStateCodec}

/-- The calls that write the log and the hard state. -/
def Op.KeepsMembership : Op → Prop
  | .append _ | .saveHardState _ | .compactLogBefore _ => True
  | .applySnapshot _ | .initializeJoiningNode | .applyInitialConfState _ => False

instance (op : Op) : Decidable op.KeepsMembership := by
  cases op <;> unfold Op.KeepsMembership <;> infer_instance

theorem Op.KeepsMembership.keeps_confRecord {op : Op} (h : op.KeepsMembership) (record : Option Bytes) :
    (op.session codec).Keeps fun database => confRecord database = record := by
  cases op with
  | append entries => exact appendEntries_keeps entries fun table start hrecord => by rwa [confRecord_putLog]
  | saveHardState hardState =>
      exact saveHardState_keeps hardState fun data _ start hrecord => by rwa [confRecord_putHardState]
  | compactLogBefore index => exact compactLogBefore_keeps index fun table start hrecord => by rwa [confRecord_putLog]
  | applySnapshot snapshot => exact h.elim
  | initializeJoiningNode => exact h.elim
  | applyInitialConfState confState => exact h.elim

theorem confRecord_run {calls : List Call} (h : ∀ call ∈ calls, call.op.KeepsMembership) (database : Redb.Database) :
    confRecord (Run.final (exec codec) database calls) = confRecord database := by
  apply Run.final_invariant (fun later => confRecord later = confRecord database)
  · intro call hcall state hrecord
    exact (h call hcall).keeps_confRecord _ state hrecord _ (exec_mem_states codec state call)
  · rfl

/-! ### What a restart reads -/

/-- The conf state's table holds a record of it, or nothing where it is the default. -/
def RecordsConfState (codec : RaftStateCodec) (database : Redb.Database) (confState : ConfState) : Prop :=
  match confRecord database with
  | some data => codec.deserializeConfState data = .ok confState
  | none => confState = {}

theorem loadConfState_eq_ok_iff {database : Redb.Database} {confState : ConfState} :
    loadConfState codec database = .ok confState ↔ RecordsConfState codec database confState := by
  rw [loadConfState, RecordsConfState, confRecord]
  cases database.stringTables.get? raftConfStateTable confStateRecord with
  | none => simp [eq_comm]
  | some data => cases hdata : codec.deserializeConfState data <;> simp [hdata]

theorem initialConfState_of_records {database : Redb.Database} {confState : ConfState}
    (h : RecordsConfState codec database confState) : (initialState codec database).confState = confState := by
  rw [RecordsConfState, confRecord] at h
  show initialConfState codec database = confState
  rw [initialConfState]
  cases hrecord : database.stringTables.get? raftConfStateTable confStateRecord with
  | none =>
      rw [hrecord] at h
      exact h.symm
  | some data =>
      rw [hrecord] at h
      simp [show codec.deserializeConfState data = .ok confState from h]

end RedbRaftStorage

/-! ### A membership change -/

namespace RaftConfigManager

theorem applyConfChange_final (manager : RaftConfigManager) (cc : ConfChange) (confState : ConfState) (database : Redb.Database) :
    (∃ manager', (manager.applyConfChange cc (.ok confState)).result database = .ok manager') ∧
      (manager.applyConfChange cc (.ok confState)).final database = (saveConfState confState).final database := by
  have hread : (Session.read fun _ => .ok confState : Session Redb.Database RaftError ConfState).result database = .ok confState :=
    rfl
  have hsaved : (saveConfState confState).result database = .ok () := rfl
  rw [applyConfChange, Session.result_bind_of_ok hread, Session.final_bind_of_ok hread]
  show (∃ manager', (saveConfState confState >>= fun _ => _).result database = .ok manager') ∧
    (saveConfState confState >>= fun _ => _).final database = _
  rw [Session.result_bind_of_ok hsaved, Session.final_bind_of_ok hsaved]
  split <;> exact ⟨⟨_, rfl⟩, rfl⟩

theorem confRecord_saveConfState (confState : ConfState) (database : Redb.Database) :
    RedbRaftStorage.confRecord ((saveConfState confState).final database) = RedbRaftStorage.confRecord database :=
  Tables.get?_insertInto_of_ne (by decide) _ _ _

/-- The database when the node is started again. -/
def reopened (codec : RaftStateCodec) (manager : RaftConfigManager) (cc : ConfChange) (confState : ConfState)
    (calls : List RedbRaftStorage.Call) (database : Redb.Database) : Redb.Database :=
  Run.final (RedbRaftStorage.exec codec) ((manager.applyConfChange cc (.ok confState)).final database) calls

/-- A restarted node has the membership it acknowledged exactly if the conf state's table held it already. -/
theorem membership_persisted_iff (codec : RaftStateCodec) (manager : RaftConfigManager) (cc : ConfChange) (confState : ConfState)
    (calls : List RedbRaftStorage.Call) (h : ∀ call ∈ calls, call.op.KeepsMembership) (database : Redb.Database) :
    (RedbRaftStorage.loadConfState codec (reopened codec manager cc confState calls database) = .ok confState ∧
        (RedbRaftStorage.initialState codec (reopened codec manager cc confState calls database)).confState = confState) ↔
      RedbRaftStorage.RecordsConfState codec database confState := by
  have hrecord : RedbRaftStorage.confRecord (reopened codec manager cc confState calls database) =
      RedbRaftStorage.confRecord database := by
    rw [reopened, RedbRaftStorage.confRecord_run h, (applyConfChange_final manager cc confState database).2,
      confRecord_saveConfState]
  have hrecords : RedbRaftStorage.RecordsConfState codec (reopened codec manager cc confState calls database) confState ↔
      RedbRaftStorage.RecordsConfState codec database confState := by
    rw [RedbRaftStorage.RecordsConfState, hrecord, RedbRaftStorage.RecordsConfState]
  rw [RedbRaftStorage.loadConfState_eq_ok_iff, ← hrecords]
  exact ⟨fun h => h.1, fun h => ⟨h, RedbRaftStorage.initialConfState_of_records h⟩⟩

/-- A node that was started alone. -/
def startedAlone : Redb.Database := (RedbRaftStorage.initializeSingleNode .ofStorage 1).final {}

/-- The change that adds a second node. -/
def addSecond : ConfChange := { id := 0, changeType := ConfChange.addNode, nodeId := 2, context := [] }

def newManager : RaftConfigManager := { peers := ∅, needsReplicationTrigger := false }

/-- Here the change made no difference: the node was added before. -/
theorem membership_persisted_unchanged :
    RedbRaftStorage.loadConfState .ofStorage (reopened .ofStorage newManager addSecond { voters := [1] }
        [{ op := .saveHardState { term := 2 } }] startedAlone) = .ok { voters := [1] } := by
  have hcalls : ∀ call ∈ [{ op := .saveHardState { term := 2 } : RedbRaftStorage.Call }], call.op.KeepsMembership := by decide
  have hrecords : RedbRaftStorage.RecordsConfState .ofStorage startedAlone { voters := [1] } := by
    show RaftStateCodec.ofStorage.deserializeConfState _ = _
    decide
  exact ((membership_persisted_iff .ofStorage newManager addSecond { voters := [1] } _ hcalls startedAlone).mpr hrecords).1

/-- A node that was started alone and added a second one is alone again after a restart. -/
theorem membership_lost :
    ¬ ∀ (codec : RaftStateCodec) (manager : RaftConfigManager) (cc : ConfChange) (confState : ConfState)
      (calls : List RedbRaftStorage.Call) (database : Redb.Database), (∀ call ∈ calls, call.op.KeepsMembership) →
      RedbRaftStorage.loadConfState codec (reopened codec manager cc confState calls database) = .ok confState ∧
        (RedbRaftStorage.initialState codec (reopened codec manager cc confState calls database)).confState = confState := by
  intro h
  have hloaded := (h .ofStorage newManager addSecond { voters := [1, 2] } [] startedAlone (by simp)).1
  have halone : RedbRaftStorage.loadConfState .ofStorage (reopened .ofStorage newManager addSecond { voters := [1, 2] } []
      startedAlone) = .ok { voters := [1] } := by decide
  rw [halone] at hloaded
  simp at hloaded

end RaftConfigManager

end IrohRaft
