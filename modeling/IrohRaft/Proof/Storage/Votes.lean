import IrohRaft.Proof.Storage.RedbViews
import IrohRaft.Proof.Storage.StateCodec

/-!
# The persisted term and vote

What the storage may put in place of a hard state: a later term, or the same term with the vote it has.
Saving a monotone hard state does; a snapshot writes a fresh hard state without a vote, and a joining
node starts over on purpose.
-/

namespace IrohRaft

open Rust Redb

/-- No earlier term, and no other vote in the same term. -/
def HardState.Continues (before after : HardState) : Prop :=
  before.term ≤ after.term ∧ (after.term = before.term → before.vote ≠ 0 → after.vote = before.vote)

instance (before after : HardState) : Decidable (before.Continues after) := by
  unfold HardState.Continues
  infer_instance

theorem HardState.Continues.refl (hardState : HardState) : hardState.Continues hardState :=
  ⟨UInt64.le_refl _, fun _ _ => rfl⟩

theorem HardState.Continues.trans {first second third : HardState} (h : first.Continues second) (h' : second.Continues third) :
    first.Continues third := by
  refine ⟨UInt64.le_trans h.1 h'.1, fun hterm hvote => ?_⟩
  -- A term that comes back to itself never moved in between.
  have hsecond : second.term = first.term := UInt64.le_antisymm (hterm ▸ h'.1) h.1
  have hvote' : second.vote = first.vote := h.2 hsecond hvote
  rw [h'.2 (hterm.trans hsecond.symm) (hvote' ▸ hvote), hvote']

namespace RedbRaftStorage

variable {codec : RaftStateCodec}

/-- The hard state a restarted node reads. -/
def persisted (codec : RaftStateCodec) (database : Redb.Database) : HardState := (initialState codec database).hardState

theorem persisted_eq_of_hardRecord {database database' : Redb.Database} (h : hardRecord database = hardRecord database') :
    persisted codec database = persisted codec database' := by
  show initialHardState codec database = initialHardState codec database'
  rw [hardRecord, hardRecord] at h
  rw [initialHardState, initialHardState, h]

theorem persisted_of_hardRecord {database : Redb.Database} {data : Bytes} {hardState : HardState}
    (hrecord : hardRecord database = some data) (hdata : codec.deserializeHardState data = .ok hardState) :
    persisted codec database = hardState := by
  show initialHardState codec database = hardState
  rw [initialHardState, show database.stringTables.get? raftHardStateTable hardStateRecord = some data from hrecord]
  simp [hdata]

/-! ### What each call writes -/

/-- The record is the old one or that of a hard state. -/
def OldOr (codec : RaftStateCodec) (old : Option Bytes) (hardState : HardState) (record : Option Bytes) : Prop :=
  record = old ∨ ∃ data, codec.serializeHardState hardState = .ok data ∧ record = some data

theorem saveConfState_keeps_oldOr (old : Option Bytes) (hardState : HardState) (confState : ConfState) :
    (saveConfState codec confState).Keeps fun database => OldOr codec old hardState (hardRecord database) :=
  saveConfState_keeps confState fun data start hstart => by rwa [hardRecord_putConfState]

theorem saveHardState_keeps_oldOr (old : Option Bytes) (hardState : HardState) :
    (saveHardState codec hardState).Keeps fun database => OldOr codec old hardState (hardRecord database) :=
  saveHardState_keeps hardState fun data hdata start _ => .inr ⟨data, hdata, hardRecord_putHardState data start⟩

/-- The hard state an installed snapshot writes: without a vote. -/
def ofMetadata (metadata : SnapshotMetadata) : HardState := { term := metadata.term, commit := metadata.index }

theorem applySnapshot_keeps_oldOr (old : Option Bytes) (snapshot : Snapshot) :
    (applySnapshot codec snapshot).Keeps fun database =>
      OldOr codec old (ofMetadata (getMetadata snapshot)) (hardRecord database) := by
  have hcompacted (index : UInt64) : (compactLogBefore index).Keeps fun database =>
      OldOr codec old (ofMetadata (getMetadata snapshot)) (hardRecord database) :=
    compactLogBefore_keeps index fun table start hstart => by rwa [hardRecord_putLog]
  rw [applySnapshot]
  refine (saveConfState_keeps_oldOr old _ _).bind fun _ => (saveHardState_keeps_oldOr _ _).bind fun _ => ?_
  split
  · exact hcompacted _
  · exact (restoreFromSnapshot_keeps _ fun snapshotData start hstart => by rwa [hardRecord_restored]).bind fun _ => hcompacted _

theorem initializeJoiningNode_keeps_oldOr (old : Option Bytes) :
    (initializeJoiningNode codec).Keeps fun database => OldOr codec old {} (hardRecord database) := by
  rw [initializeJoiningNode]
  exact (saveConfState_keeps_oldOr old _ _).bind fun _ => saveHardState_keeps_oldOr _ _

/-- What a call may leave as hard state, other than the one it found. -/
def Op.writes : Op → Option HardState
  | .append _ | .compactLogBefore _ => none
  | .saveHardState hardState => some hardState
  | .applySnapshot snapshot => some (ofMetadata (getMetadata snapshot))
  | .initializeJoiningNode => some {}
  | .applyInitialConfState _ => some {}

theorem Op.persisted_of_mem_states (hcodec : codec.PreservesHardStates) (op : Op) {before after : Redb.Database}
    (h : after ∈ (op.session codec).states before) :
    persisted codec after = persisted codec before ∨ ∃ hardState ∈ op.writes, persisted codec after = hardState := by
  have hread {hardState : HardState} (hkeeps : (op.session codec).Keeps fun database =>
      OldOr codec (hardRecord before) hardState (hardRecord database)) :
      persisted codec after = persisted codec before ∨ persisted codec after = hardState := by
    obtain hold | ⟨data, hdata, hrecord⟩ := hkeeps before (.inl rfl) after h
    · exact .inl (persisted_eq_of_hardRecord hold)
    · exact .inr (persisted_of_hardRecord hrecord (hcodec hardState data hdata))
  have hkept (hkeeps : (op.session codec).Keeps fun database => hardRecord database = hardRecord before) :
      persisted codec after = persisted codec before :=
    persisted_eq_of_hardRecord (hkeeps before rfl after h)
  cases op with
  | append entries =>
      exact .inl (hkept (appendEntries_keeps entries fun table start hstart => by rwa [hardRecord_putLog]))
  | compactLogBefore index =>
      exact .inl (hkept (compactLogBefore_keeps index fun table start hstart => by rwa [hardRecord_putLog]))
  | saveHardState hardState => exact (hread (saveHardState_keeps_oldOr _ hardState)).imp_right fun h => ⟨_, rfl, h⟩
  | applySnapshot snapshot => exact (hread (applySnapshot_keeps_oldOr _ snapshot)).imp_right fun h => ⟨_, rfl, h⟩
  | initializeJoiningNode => exact (hread (initializeJoiningNode_keeps_oldOr _)).imp_right fun h => ⟨_, rfl, h⟩
  | applyInitialConfState confState => exact (hread (applySnapshot_keeps_oldOr _ _)).imp_right fun h => ⟨_, rfl, h⟩

/-! ### Runs -/

/-- What is saved continues what was saved, and a snapshot is of a later term, or of the same while no vote was cast. -/
def Call.Continues (codec : RaftStateCodec) (database : Redb.Database) (call : Call) : Prop :=
  match call.op with
  | .append _ | .compactLogBefore _ | .initializeJoiningNode => True
  | .saveHardState hardState => (persisted codec database).Continues hardState
  | .applySnapshot snapshot =>
      (persisted codec database).term < (getMetadata snapshot).term ∨
        (persisted codec database).term = (getMetadata snapshot).term ∧ (persisted codec database).vote = 0
  | .applyInitialConfState _ => (persisted codec database).term = 0 ∧ (persisted codec database).vote = 0

def Call.Joins (call : Call) : Prop := call.op = .initializeJoiningNode

theorem continues_of_later
    {before after : HardState} (h : before.term < after.term ∨ before.term = after.term ∧ before.vote = 0) :
    before.Continues after := by
  obtain hlater | ⟨hsame, hvote⟩ := h
  · exact ⟨UInt64.le_of_lt hlater, fun hterm => absurd hterm.symm (UInt64.ne_of_lt hlater)⟩
  · exact ⟨hsame ▸ UInt64.le_refl _, fun _ hne => absurd hvote hne⟩

theorem persisted_continues_exec (hcodec : codec.PreservesHardStates) {database : Redb.Database} {call : Call}
    (hcall : call.Continues codec database) (hjoin : ¬ call.Joins) :
    (persisted codec database).Continues (persisted codec (exec codec database call)) := by
  obtain hsame | ⟨hardState, hwrites, heq⟩ := call.op.persisted_of_mem_states hcodec (exec_mem_states codec database call)
  · exact hsame ▸ .refl _
  rw [heq]
  rw [Call.Continues] at hcall
  rw [Call.Joins] at hjoin
  generalize call.op = op at hcall hjoin hwrites
  cases op with
  | append entries => simp [Op.writes] at hwrites
  | compactLogBefore index => simp [Op.writes] at hwrites
  | saveHardState saved => exact Option.some.inj hwrites ▸ hcall
  | applySnapshot snapshot => exact Option.some.inj hwrites ▸ continues_of_later hcall
  | initializeJoiningNode => exact absurd rfl hjoin
  | applyInitialConfState confState => exact Option.some.inj hwrites ▸ continues_of_later (.inr hcall)

theorem persisted_continues_run (hcodec : codec.PreservesHardStates) {database : Redb.Database} {calls : List Call}
    (h : Run.Follows (exec codec) (Call.Continues codec) database calls) (hjoin : ∀ call ∈ calls, ¬ call.Joins) :
    (persisted codec database).Continues (persisted codec (Run.final (exec codec) database calls)) := by
  induction calls generalizing database with
  | nil => exact .refl _
  | cons call rest ih =>
      have hfirst := persisted_continues_exec hcodec h.1 (hjoin call List.mem_cons_self)
      exact hfirst.trans (ih h.2 fun later hmem => hjoin later (List.mem_cons_of_mem _ hmem))

theorem persisted_initializeJoiningNode (hcodec : codec.PreservesHardStates) {database : Redb.Database}
    (h : (initializeJoiningNode codec).result database = .ok ()) :
    persisted codec ((initializeJoiningNode codec).final database) = {} := by
  rw [initializeJoiningNode] at h ⊢
  obtain ⟨_, hconf, hhard⟩ := Session.result_bind_eq_ok.mp h
  rw [Session.final_bind_of_ok hconf]
  rw [saveHardState_eq, Session.result_write_eq_ok] at hhard
  obtain ⟨data, hdata⟩ := hhard
  rw [saveHardState_eq, (Session.write_of_ok hdata).2.1]
  exact persisted_of_hardRecord (hardRecord_putHardState data _) (hcodec {} data hdata)

/-- Between one join and the next the persisted term never decreases, and a vote stays as long as the term does; a join
starts over. -/
theorem votes_persist (codec : RaftStateCodec) (hcodec : codec.PreservesHardStates) (database : Redb.Database)
    (calls : List Call) (h : Run.Follows (exec codec) (Call.Continues codec) database calls) :
    (∀ first second, calls = first ++ second → (∀ call ∈ second, ¬ call.Joins) →
      (persisted codec (Run.final (exec codec) database first)).Continues
        (persisted codec (Run.final (exec codec) database calls))) ∧
    ∀ first second, calls = first ++ { op := .initializeJoiningNode } :: second →
      (initializeJoiningNode codec).result (Run.final (exec codec) database first) = .ok () →
      persisted codec (Run.final (exec codec) database (first ++ [{ op := .initializeJoiningNode }])) = {} := by
  refine ⟨fun first second heq hjoin => ?_, fun first second _ hok => ?_⟩
  · subst heq
    rw [Run.final_append]
    exact persisted_continues_run hcodec (Run.follows_append.mp h).2 hjoin
  · rw [Run.final_concat]
    exact persisted_initializeJoiningNode hcodec hok

theorem preservesHardStates_ofStorage : RaftStateCodec.ofStorage.PreservesHardStates := by
  intro hardState data hdata
  obtain rfl := Outcome.ok.inj hdata
  simp [RaftStateCodec.ofStorage, deserializeHardState_serializeHardState]

/-- A vote of the third term. -/
def voted : Call := { op := .saveHardState { term := 3, vote := 1, commit := 0 } }

def joined : Call := { op := .initializeJoiningNode }

theorem votes_persist_voted :
    persisted .ofStorage (Run.final (exec .ofStorage) {} [joined, voted]) = { term := 3, vote := 1, commit := 0 } ∧
      (persisted .ofStorage (Run.final (exec .ofStorage) {} [joined, voted])).Continues
        (persisted .ofStorage (Run.final (exec .ofStorage) {} [joined, voted, { op := .compactLogBefore 4 }])) := by
  have hfollows : Run.Follows (exec .ofStorage) (Call.Continues .ofStorage) {} [joined, voted, { op := .compactLogBefore 4 }] := by
    refine ⟨trivial, ?_, trivial, trivial⟩
    show HardState.Continues _ _
    decide
  refine ⟨by decide, ?_⟩
  exact (votes_persist .ofStorage preservesHardStates_ofStorage {} _ hfollows).1 [joined, voted] [{ op := .compactLogBefore 4 }] rfl
    (by simp [Call.Joins])

/-- The only condition: what is saved continues what was saved. -/
def Call.Monotone (codec : RaftStateCodec) (database : Redb.Database) (call : Call) : Prop :=
  match call.op with
  | .saveHardState hardState => (persisted codec database).Continues hardState
  | _ => True

/-- A join forgets the term; so does the snapshot of an initial conf state, and a snapshot of the same term the vote. -/
theorem votes_forgotten :
    (¬ ∀ (codec : RaftStateCodec), codec.PreservesHardStates → ∀ (database : Redb.Database) (calls : List Call),
      Run.Follows (exec codec) (Call.Monotone codec) database calls → ∀ first second, calls = first ++ second →
      (persisted codec (Run.final (exec codec) database first)).Continues
        (persisted codec (Run.final (exec codec) database calls))) ∧
    persisted .ofStorage (Run.final (exec .ofStorage) {} [voted]) = { term := 3, vote := 1, commit := 0 } ∧
    persisted .ofStorage (Run.final (exec .ofStorage) {} [voted, joined]) = { term := 0, vote := 0, commit := 0 } ∧
    persisted .ofStorage (Run.final (exec .ofStorage) {} [voted, { op := .applyInitialConfState { voters := [1] } }]) =
      { term := 0, vote := 0, commit := 0 } ∧
    persisted .ofStorage (Run.final (exec .ofStorage) {} [voted, { op := .applySnapshot (.bare 5 3) }]) =
      { term := 3, vote := 0, commit := 5 } := by
  refine ⟨fun h => ?_, by decide, by decide, by decide, by decide⟩
  have hfollows : Run.Follows (exec .ofStorage) (Call.Monotone .ofStorage) {} [voted, joined] := by
    refine ⟨?_, trivial, trivial⟩
    show HardState.Continues _ _
    decide
  have hcontinues := h .ofStorage preservesHardStates_ofStorage {} [voted, joined] hfollows [voted] [joined] rfl
  revert hcontinues
  decide

end RedbRaftStorage

end IrohRaft
