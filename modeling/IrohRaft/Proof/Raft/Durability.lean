import IrohRaft.Library.Register
import IrohRaft.Proof.Raft.Following
import IrohRaft.Proof.Raft.Runs
import IrohRaft.Proof.Storage.Append
import IrohRaft.Proof.Storage.Votes

/-!
# What a stopped manager leaves on disk

The hard state, the conf state and the log are registers that the recorded effects write. Wherever the manager stops, the
storage holds what the last effect on each of them has left, except for what the compaction of the log has cut off; and
of one more write, that of the call that failed, each holds the old or the new.
-/

namespace IrohRaft.RaftManager

open Rust Redb RedbRaftStorage Register

/-! ### What an effect writes -/

/-- A snapshot brings the hard state of its metadata. -/
def savedHardState : Effect → Option HardState
  | .installSnapshot snapshot =>
      if RaftSnapshotManager.isEmpty snapshot then none else some (ofMetadata (getMetadata snapshot))
  | .saveHardState hardState => some hardState
  | .append _ | .send _ | .applyEntry _ | .applyConfChange _ | .advance | .advanceApplyTo _ => none

variable (codec : ManagerCodec)

/-- No conf change that is applied reaches the record. -/
def savedConfRecord : Effect → Option (Option Bytes)
  | .installSnapshot snapshot =>
      if RaftSnapshotManager.isEmpty snapshot then none
      else match codec.serializeConfState ((getMetadata snapshot).confState.getD {}) with
        | .ok data => some (some data)
        | _ => none
  | .append _ | .saveHardState _ | .send _ | .applyEntry _ | .applyConfChange _ | .advance | .advanceApplyTo _ => none

/-- The last of the entries with an index is written under it. -/
def leavesEntry (index : UInt64) : Effect → Option (Option Bytes)
  | .append entries =>
      lastWrite (fun entry => if entry.index = index then some (some (bytesOf codec.toRaftCodec entry)) else none) entries
  | .installSnapshot snapshot => if index < (getMetadata snapshot).index then some none else none
  | .saveHardState _ | .send _ | .applyEntry _ | .applyConfChange _ | .advance | .advanceApplyTo _ => none

def logAfter : Effect → Table UInt64 → Table UInt64
  | .append entries => fun table => Table.insertAll Entry.index (bytesOf codec.toRaftCodec) table entries
  | .installSnapshot snapshot => logFrom (getMetadata snapshot).index
  | .saveHardState _ | .send _ | .applyEntry _ | .applyConfChange _ | .advance | .advanceApplyTo _ => id

variable {codec}

theorem getElem?_logAfter (effect : Effect) (table : Table UInt64) (index : UInt64) :
    (logAfter codec effect table)[index]? = (leavesEntry codec index effect).getD table[index]? := by
  cases effect with
  | append entries =>
      refine read_foldl (fun table : Table UInt64 => table[index]?) (fun table entry => ?_) table entries
      by_cases hindex : entry.index = index
      · rw [if_pos hindex, hindex, Table.getElem?_insert_self, Option.getD_some]
      · rw [if_neg hindex, Table.getElem?_insert_of_ne hindex, Option.getD_none]
  | installSnapshot snapshot =>
      rw [logAfter, getElem?_logFrom, leavesEntry]
      split <;> rfl
  | saveHardState hardState => rfl
  | send message => rfl
  | applyEntry entry => rfl
  | applyConfChange entry => rfl
  | advance => rfl
  | advanceApplyTo index => rfl

/-! ### What the calls change -/

section Changes

variable {ρ : Type} {read : Redb.Database → ρ} {change : ρ → ρ}

theorem changes_pure (h : ∀ old, change old = old) :
    (return () : Session Redb.Database RaftError Unit).Changes read change := by
  obtain rfl : change = id := funext h
  exact .of_keeps fun _ => Session.Keeps.pure ()

/-- A snapshot is installed by the storage, and its data once more in the state machine's tables. -/
theorem changes_install {snapshot : Snapshot} (hrestored : ∀ data database, read (StateTables.restored data database) = read database)
    (hempty : RaftSnapshotManager.isEmpty snapshot = true → ∀ old, change old = old)
    (h : RaftSnapshotManager.isEmpty snapshot = false → (applySnapshot codec.toRaftStateCodec snapshot).Changes read change) :
    (sessionOf codec (.installSnapshot snapshot)).Changes read change := by
  have hmachine (kept : ρ) : (RaftSnapshotManager.applySnapshotToStateMachine snapshot.data).Keeps
      fun database => read database = kept := by
    rw [RaftSnapshotManager.applySnapshotToStateMachine_eq]
    apply Session.Keeps.commit
    intro start next hnext hstart
    obtain ⟨data, -, rfl⟩ := restoreTransaction_eq_ok.mp hnext
    exact (hrestored data start).trans hstart
  rw [sessionOf, RaftSnapshotManager.processSnapshotIfPresent]
  cases hcase : RaftSnapshotManager.isEmpty snapshot with
  | true => exact changes_pure (hempty hcase)
  | false =>
      refine (h hcase).bind_keeps fun _ kept => ?_
      split
      · exact Session.Keeps.pure ()
      · exact hmachine kept

/-- What the storage does of a snapshot after it has saved the two states. -/
theorem keeps_restore (hrestored : ∀ data database, read (StateTables.restored data database) = read database)
    (hlog : ∀ table database, read (putLog table database) = read database) (snapshot : Snapshot) (kept : ρ) :
    (do
      unless snapshot.data.isEmpty do
        restoreFromSnapshot snapshot.data
      compactLogBefore (getMetadata snapshot).index : Session Redb.Database RaftError Unit).Keeps
      fun database => read database = kept := by
  have hcompacted : (compactLogBefore (getMetadata snapshot).index).Keeps fun database => read database = kept :=
    compactLogBefore_keeps _ fun table start hstart => (hlog table start).trans hstart
  split
  · exact hcompacted
  · exact (restoreFromSnapshot_keeps _ fun data start hstart => (hrestored data start).trans hstart).bind fun _ => hcompacted

end Changes

theorem changes_hardState (hcodec : codec.PreservesHardStates) (effect : Effect) :
    (sessionOf codec effect).Changes (persisted codec.toRaftStateCodec) (fun old => (savedHardState effect).getD old) := by
  have hkept {database database' : Redb.Database} (hrecord : hardRecord database = hardRecord database') :
      persisted codec.toRaftStateCodec database = persisted codec.toRaftStateCodec database' := persisted_eq_of_hardRecord hrecord
  have hsaves (hardState : HardState) : (RedbRaftStorage.saveHardState codec.toRaftStateCodec hardState).Changes
      (persisted codec.toRaftStateCodec) fun _ => hardState := by
    rw [saveHardState_eq]
    exact .write fun data hdata start => persisted_of_hardRecord (hardRecord_putHardState data start) (hcodec hardState data hdata)
  cases effect with
  | installSnapshot snapshot =>
      have hinstalls : (applySnapshot codec.toRaftStateCodec snapshot).Changes (persisted codec.toRaftStateCodec)
          fun _ => ofMetadata (getMetadata snapshot) := by
        refine Session.Keeps.bind_changes (fun kept => saveConfState_keeps _ fun data start hstart => ?_) fun _ =>
          (hsaves _).bind_keeps fun _ kept => keeps_restore (fun data database => ?_) (fun table database => ?_) snapshot kept
        · exact (hkept (hardRecord_putConfState data start)).trans hstart
        · exact hkept (hardRecord_restored database data)
        · exact hkept (hardRecord_putLog table database)
      refine changes_install (fun data database => hkept (hardRecord_restored database data)) ?_ ?_
      · simp +contextual [savedHardState]
      · intro hempty
        simpa [savedHardState, hempty] using hinstalls
  | append entries =>
      exact .of_keeps fun kept => appendEntries_keeps entries fun table start hstart =>
        (hkept (hardRecord_putLog table start)).trans hstart
  | saveHardState hardState => exact hsaves hardState
  | send message => exact changes_pure fun _ => rfl
  | applyEntry entry => exact changes_pure fun _ => rfl
  | applyConfChange entry => exact changes_pure fun _ => rfl
  | advance => exact changes_pure fun _ => rfl
  | advanceApplyTo index => exact changes_pure fun _ => rfl

theorem changes_confRecord (effect : Effect) :
    (sessionOf codec effect).Changes confRecord (fun old => (savedConfRecord codec effect).getD old) := by
  cases effect with
  | installSnapshot snapshot =>
      refine changes_install (fun data database => confRecord_restored database data) ?_ fun hempty => ?_
      · simp +contextual [savedConfRecord]
      · refine Session.Changes.bind_keeps ?_ fun _ kept => ?_
        · rw [saveConfState_eq]
          refine .write fun data hdata start => ?_
          simp [savedConfRecord, hempty, hdata]
        · refine (saveHardState_keeps _ fun data _ start hstart => ?_).bind fun _ =>
            keeps_restore (fun data database => confRecord_restored database data) (fun _ _ => rfl) snapshot kept
          exact (confRecord_putHardState data start).trans hstart
  | append entries =>
      exact .of_keeps fun kept => appendEntries_keeps entries fun table start hstart =>
        (confRecord_putLog table start).trans hstart
  | saveHardState hardState =>
      exact .of_keeps fun kept => saveHardState_keeps hardState fun data _ start hstart =>
        (confRecord_putHardState data start).trans hstart
  | send message => exact changes_pure fun _ => rfl
  | applyEntry entry => exact changes_pure fun _ => rfl
  | applyConfChange entry => exact changes_pure fun _ => rfl
  | advance => exact changes_pure fun _ => rfl
  | advanceApplyTo index => exact changes_pure fun _ => rfl

theorem insertEntries_eq_ok {table next : Table UInt64} {entries : List Entry}
    (h : insertEntries codec.toRaftCodec table entries = .ok next) :
    next = Table.insertAll Entry.index (bytesOf codec.toRaftCodec) table entries := by
  induction entries generalizing table with
  | nil => exact (Outcome.ok.inj h).symm
  | cons entry rest ih =>
      rw [insertEntries] at h
      obtain ⟨data, hdata, hrest⟩ := Outcome.bind_eq_ok.mp h
      rw [Table.insertAll_cons, bytesOf, hdata]
      exact ih hrest

theorem changes_log (effect : Effect) : (sessionOf codec effect).Changes logTable (logAfter codec effect) := by
  cases effect with
  | installSnapshot snapshot =>
      refine changes_install (fun data database => logTable_restored database data) ?_ fun hempty => ?_
      · intro hempty table
        rw [logAfter, show (getMetadata snapshot).index = 0 by simpa [RaftSnapshotManager.isEmpty] using hempty, logFrom_zero]
      · have hindex : (getMetadata snapshot).index ≠ 0 := by simpa [RaftSnapshotManager.isEmpty] using hempty
        have hcompacts : (compactLogBefore (getMetadata snapshot).index).Changes logTable (logFrom (getMetadata snapshot).index) := by
          rw [compactLogBefore_eq hindex]
          exact .write fun _ _ start => logTable_putLog _ start
        refine Session.Keeps.bind_changes (fun kept => saveConfState_keeps _ fun _ _ => id) fun _ =>
          Session.Keeps.bind_changes (fun kept => saveHardState_keeps _ fun _ _ _ => id) fun _ => ?_
        split
        · exact hcompacts
        · exact Session.Keeps.bind_changes (fun kept => restoreFromSnapshot_keeps _ fun data start hstart =>
            (logTable_restored start data).trans hstart) fun _ => hcompacts
  | append entries =>
      refine Session.Changes.commit fun start next hnext => ?_
      obtain ⟨table, htable, hput⟩ := Outcome.bind_eq_ok.mp hnext
      rw [← Outcome.ok.inj hput]
      exact (logTable_putLog table start).trans (insertEntries_eq_ok htable)
  | saveHardState hardState =>
      exact .of_keeps fun kept => saveHardState_keeps hardState fun data _ start hstart =>
        (logTable_putHardState data start).trans hstart
  | send message => exact changes_pure fun _ => rfl
  | applyEntry entry => exact changes_pure fun _ => rfl
  | applyConfChange entry => exact changes_pure fun _ => rfl
  | advance => exact changes_pure fun _ => rfl
  | advanceApplyTo index => exact changes_pure fun _ => rfl

/-! ### What else writes to the database -/

/-- An applied conf change is saved in the table of the cluster's state. -/
theorem keeps_applyConfChange {ρ : Type} {read : Redb.Database → ρ}
    (hsaved : ∀ data database, read { database with
      stringTables := database.stringTables.insertInto clusterStateTable confStateRecord data } = read database)
    (manager : RaftConfigManager) (cc : ConfChange) (answer : Outcome RaftError ConfState) (kept : ρ) :
    (manager.applyConfChange cc answer).Keeps fun database => read database = kept := by
  refine (Session.Keeps.read _).bind fun confState => (Session.Keeps.commit ?_).bind fun _ => ?_
  · intro start next hnext hstart
    rw [← Outcome.ok.inj hnext]
    exact (hsaved _ start).trans hstart
  · by_cases hadds : cc.changeType = ConfChange.addNode
    · rw [if_pos hadds]
      exact Session.Keeps.pure _
    · rw [if_neg hadds]
      exact Session.Keeps.pure _

theorem index_snapshot_le {codec : RaftStateCodec} {database : Redb.Database} {appliedIndex : UInt64} {snapshot : Snapshot}
    (h : RedbRaftStorage.snapshot codec database appliedIndex = .ok snapshot) : (getMetadata snapshot).index ≤ appliedIndex := by
  simp only [RedbRaftStorage.snapshot, Outcome.bind_eq_ok] at h
  obtain ⟨confState, -, last, -, term, -, hsnapshot⟩ := h
  rw [← Outcome.ok.inj hsnapshot]
  show min appliedIndex last ≤ appliedIndex
  rw [UInt64.min_def]
  split
  · exact UInt64.le_refl _
  · next hnot => exact UInt64.le_of_lt (UInt64.not_le.mp hnot)

/-- A compaction leaves the database alone, or cuts off a part of the log that has been applied. -/
def Cuts (appliedIndex : UInt64) (before after : Redb.Database) : Prop :=
  after = before ∨ ∃ index ≤ appliedIndex, after = putLog (logFrom index (logTable before)) before

theorem performLogCompaction_cuts {codec : RaftStateCodec} (manager : RaftSnapshotManager) (appliedIndex : UInt64)
    (database : Redb.Database) : Cuts appliedIndex database (manager.performLogCompaction codec appliedIndex database).1 := by
  rw [RaftSnapshotManager.performLogCompaction]
  split
  next snapshot hsnapshot =>
    have hle := index_snapshot_le hsnapshot
    have hcut : Cuts appliedIndex database ((compactLogBefore (getMetadata snapshot).index).final database) := by
      by_cases hzero : (getMetadata snapshot).index = 0
      · rw [compactLogBefore, if_pos hzero]
        exact .inl rfl
      · rw [compactLogBefore_eq hzero, (Session.write_of_ok rfl).2.1]
        exact .inr ⟨_, hle, rfl⟩
    dsimp only
    split <;> exact hcut
  next => exact .inl rfl

theorem check_cuts {codec : RaftStateCodec} {manager : RaftSnapshotManager} {appliedIndex : UInt64} {database : Redb.Database}
    {checked : Redb.Database × RaftSnapshotManager}
    (h : manager.checkAndTriggerLogCompaction codec appliedIndex database = .ok checked) :
    Cuts appliedIndex database checked.1 := by
  have hdecided {shouldCompact : Bool} (hchecked : (if shouldCompact then
      (.ok (manager.performLogCompaction codec appliedIndex database) : Outcome RaftError (Redb.Database × RaftSnapshotManager))
      else .ok (database, manager)) = .ok checked) : Cuts appliedIndex database checked.1 := by
    split at hchecked
    · rw [← Outcome.ok.inj hchecked]
      exact performLogCompaction_cuts manager appliedIndex database
    · rw [← Outcome.ok.inj hchecked]
      exact .inl rfl
  rw [RaftSnapshotManager.checkAndTriggerLogCompaction] at h
  split at h
  · cases hlast : manager.lastCompactionIndex with
    | none =>
        rw [hlast] at h
        exact @hdecided true h
    | some last =>
        rw [hlast] at h
        obtain ⟨shouldCompact, -, hchecked⟩ := Outcome.bind_eq_ok.mp h
        exact hdecided hchecked
  · rw [← Outcome.ok.inj h]
    exact .inl rfl

/-! ### Runs -/

variable (codec)

/-- Under each index what the effects have left there, unless it was cut off. -/
def LogOf (start : Table UInt64) (compacted : UInt64 → Prop) (trace : List Effect) (table : Table UInt64) : Prop :=
  ∀ index, table[index]? = (lastWrite (leavesEntry codec index) trace).getD start[index]? ∨
    table[index]? = none ∧ compacted index

/-- Each part of the storage holds what the effects of one of the traces have left in it. -/
structure Stored (start : Redb.Database) (compacted : UInt64 → Prop) (traces : List (List Effect)) (database : Redb.Database) :
    Prop where
  hardState : ∃ trace ∈ traces, persisted codec.toRaftStateCodec database =
    (lastWrite savedHardState trace).getD (persisted codec.toRaftStateCodec start)
  confState : ∃ trace ∈ traces, confRecord database = (lastWrite (savedConfRecord codec) trace).getD (confRecord start)
  log : ∃ trace ∈ traces, LogOf codec (logTable start) compacted trace (logTable database)

variable {codec} {start database : Redb.Database} {compacted : UInt64 → Prop} {trace : List Effect} {table : Table UInt64}

theorem LogOf.logAfter (h : LogOf codec (logTable start) compacted trace table) (effect : Effect) :
    LogOf codec (logTable start) compacted (trace ++ [effect]) (logAfter codec effect table) := by
  intro index
  rw [getElem?_logAfter, lastWrite_concat_getD]
  cases hleaves : leavesEntry codec index effect with
  | none => exact h index
  | some value => exact .inl rfl

theorem LogOf.cut (h : LogOf codec (logTable start) compacted trace table) {cut : UInt64} (hcut : ∀ index < cut, compacted index) :
    LogOf codec (logTable start) compacted trace (logFrom cut table) := by
  intro index
  rw [getElem?_logFrom]
  split
  next hlt => exact .inr ⟨rfl, hcut index hlt⟩
  next => exact h index

theorem Stored.mono {traces traces' : List (List Effect)} (h : Stored codec start compacted traces database)
    (hsubset : traces ⊆ traces') : Stored codec start compacted traces' database := by
  obtain ⟨first, hfirst, hhard⟩ := h.hardState
  obtain ⟨second, hsecond, hconf⟩ := h.confState
  obtain ⟨third, hthird, hlog⟩ := h.log
  exact ⟨⟨first, hsubset hfirst, hhard⟩, ⟨second, hsubset hsecond, hconf⟩, ⟨third, hsubset hthird, hlog⟩⟩

theorem Stored.congr {traces : List (List Effect)} {state : Redb.Database} (h : Stored codec start compacted traces database)
    (hhard : hardRecord state = hardRecord database) (hconf : confRecord state = confRecord database)
    (hlog : logTable state = logTable database) : Stored codec start compacted traces state := by
  obtain ⟨hhardState, hconfState, hlogOf⟩ := h
  rw [← persisted_eq_of_hardRecord hhard] at hhardState
  rw [← hconf] at hconfState
  rw [← hlog] at hlogOf
  exact ⟨hhardState, hconfState, hlogOf⟩

theorem Stored.applyConfChange {traces : List (List Effect)} (h : Stored codec start compacted traces database)
    {manager : RaftConfigManager} {cc : ConfChange} {answer : Outcome RaftError ConfState} {state : Redb.Database}
    (hstate : state ∈ (manager.applyConfChange cc answer).states database) : Stored codec start compacted traces state := by
  have hsame {ρ : Type} {read : Redb.Database → ρ}
      (hsaved : ∀ data database, read { database with
        stringTables := database.stringTables.insertInto clusterStateTable confStateRecord data } = read database) :
      read state = read database :=
    keeps_applyConfChange hsaved manager cc answer _ database rfl state hstate
  refine h.congr (hsame fun data database => ?_) (hsame fun data database => ?_) (hsame fun _ _ => rfl)
  · exact Tables.get?_insertInto_of_ne (by decide) _ _ _
  · exact Tables.get?_insertInto_of_ne (by decide) _ _ _

theorem Stored.cuts (h : Stored codec start compacted [trace] database) {appliedIndex : UInt64} {after : Redb.Database}
    (hcuts : Cuts appliedIndex database after) (happlied : ∀ index < appliedIndex, compacted index) :
    Stored codec start compacted [trace] after := by
  obtain rfl | ⟨cut, hle, rfl⟩ := hcuts
  · exact h
  · obtain ⟨hhard, hconf, hlog⟩ := h
    simp only [List.mem_singleton, exists_eq_left] at hlog
    refine ⟨hhard, hconf, trace, List.mem_singleton_self trace, ?_⟩
    rw [logTable_putLog]
    exact hlog.cut fun index hlt => happlied index (UInt64.lt_of_lt_of_le hlt hle)

section Calls

variable (hcodec : codec.PreservesHardStates)

include hcodec

/-- In the course of a call each part holds the old or the new. -/
theorem Stored.states (h : Stored codec start compacted [trace] database) (effect : Effect)
    {state : Redb.Database} (hstate : state ∈ (sessionOf codec effect).states database) :
    Stored codec start compacted [trace, trace ++ [effect]] state := by
  obtain ⟨hhard, hconf, hlog⟩ := h
  simp only [List.mem_singleton, exists_eq_left] at hhard hconf hlog
  refine ⟨?_, ?_, ?_⟩
  · obtain hold | hnew := (changes_hardState hcodec effect database).1 state hstate
    · exact ⟨trace, List.mem_cons_self, hold.trans hhard⟩
    · refine ⟨trace ++ [effect], List.mem_cons_of_mem _ List.mem_cons_self, ?_⟩
      rw [lastWrite_concat_getD, ← hhard, hnew]
  · obtain hold | hnew := (changes_confRecord effect database).1 state hstate
    · exact ⟨trace, List.mem_cons_self, hold.trans hconf⟩
    · refine ⟨trace ++ [effect], List.mem_cons_of_mem _ List.mem_cons_self, ?_⟩
      rw [lastWrite_concat_getD, ← hconf, hnew]
  · obtain hold | hnew := (changes_log effect database).1 state hstate
    · exact ⟨trace, List.mem_cons_self, hold ▸ hlog⟩
    · exact ⟨trace ++ [effect], List.mem_cons_of_mem _ List.mem_cons_self, hnew ▸ hlog.logAfter effect⟩

theorem Stored.final (h : Stored codec start compacted [trace] database) (effect : Effect)
    (hok : (sessionOf codec effect).result database = .ok ()) :
    Stored codec start compacted [trace ++ [effect]] ((sessionOf codec effect).final database) := by
  obtain ⟨hhard, hconf, hlog⟩ := h
  simp only [List.mem_singleton, exists_eq_left] at hhard hconf hlog
  refine ⟨⟨_, List.mem_singleton_self _, ?_⟩, ⟨_, List.mem_singleton_self _, ?_⟩, ⟨_, List.mem_singleton_self _, ?_⟩⟩
  · rw [lastWrite_concat_getD, ← hhard, (changes_hardState hcodec effect database).2 () hok]
  · rw [lastWrite_concat_getD, ← hconf, (changes_confRecord effect database).2 () hok]
  · rw [(changes_log effect database).2 () hok]
    exact hlog.logAfter effect

end Calls

/-! ### Wherever the manager stops -/

/-- A Ready that came with one of the inputs. -/
def RoundOf (inputs : List Input) (round : Round) : Prop := ∃ input ∈ inputs, round ∈ input.rounds

/-- Below an index that was applied when a Ready had been handled. -/
def Applied (inputs : List Input) (index : UInt64) : Prop := ∃ round, RoundOf inputs round ∧ index < round.appliedAfter

/-- One more write of a Ready shows, or none. -/
def StoredHalfway (codec : ManagerCodec) (start : Redb.Database) (compacted : UInt64 → Prop) (round : Round) (trace : List Effect)
    (database : Redb.Database) : Prop :=
  ∃ unfinished, round.Asks unfinished ∧ Stored codec start compacted [trace, trace ++ [unfinished]] database

theorem Stored.halfway (h : Stored codec start compacted [trace] database) (round : Round) :
    StoredHalfway codec start compacted round trace database :=
  ⟨.advance, trivial, h.mono (by simp)⟩

theorem stored_start (codec : ManagerCodec) (database : Redb.Database) (compacted : UInt64 → Prop) :
    Stored codec database compacted [[]] database :=
  ⟨⟨[], List.mem_cons_self, rfl⟩, ⟨[], List.mem_cons_self, rfl⟩, ⟨[], List.mem_cons_self, fun _ => .inl rfl⟩⟩

theorem stored_followed (hcodec : codec.PreservesHardStates) (inputs : List Input) (start : Redb.Database) :
    Followed codec (RoundOf inputs) (fun trace manager => Stored codec start (Applied inputs) [trace] manager.database)
      (fun round trace manager => StoredHalfway codec start (Applied inputs) round trace manager.database) where
  stops round _ _ h := h.halfway round
  frame _ _ _ hdatabase _ h := hdatabase ▸ h
  effect _ _ effect hasks _ _ h :=
    ⟨fun _ hstate => ⟨effect, hasks, h.states hcodec effect hstate⟩, h.final hcodec effect⟩
  confChange round entry _ _ _ _ h :=
    ⟨fun _ hstate => (h.applyConfChange hstate).halfway round,
      fun _ _ => (h.final hcodec (.applyConfChange entry) rfl).applyConfChange (Session.final_mem_states _)⟩
  compact round hround _ _ h _ hchecked := h.cuts (check_cuts hchecked) fun _ hlt => ⟨round, hround, hlt⟩

/-- Wherever a run of the manager stops, the hard state, the conf state and the log on its disk are what its recorded writes
have left, but for a log that was cut off below an applied index, and for one more write of the Ready that was handled last,
of which each part holds the old or the new. -/
theorem writes_survive (codec : ManagerCodec) (hcodec : codec.PreservesHardStates) (manager : RaftManager) (inputs : List Input) :
    let after := Run.final (Execution.step codec) (Execution.start manager) inputs
    let trace := effectsOf after.observed.history
    let database := after.observed.node.database
    (after.exited = false → Stored codec manager.database (Applied inputs) [trace] database) ∧
    (Stored codec manager.database (Applied inputs) [trace] database ∨
      ∃ round, RoundOf inputs round ∧ StoredHalfway codec manager.database (Applied inputs) round trace database ∧
        ∃ (before : List Handled) (effects : List Effect), after.observed.history = before ++ [⟨round.ready, round.light, effects⟩]) := by
  refine (stored_followed hcodec inputs manager.database).run (stored_start codec manager.database _)
    (fun input hinput round hround => ⟨input, hinput, hround⟩) ?_
  exact fun _ _ _ _ _ _ h => h

/-- A Ready whose entry and hard state are written, and one that fails between the two. -/
def failsHalfway : List Input :=
  [.tick (some { ready := { entries := [.noop 1 2], hs := some { term := 2, vote := 1 } } }) false none,
    .tick (some { ready := { entries := [.noop 2 2], hs := some { term := 3, vote := 1 } }, faults := [none, some (0, .internal "")] })
      false none]

theorem writes_survive_halfway :
    let after := Run.final (Execution.step .ofStorage) (Execution.start (freshManager 1)) failsHalfway
    let trace := effectsOf after.observed.history
    let database := after.observed.node.database
    ((after.exited = false → Stored .ofStorage (freshManager 1).database (Applied failsHalfway) [trace] database) ∧
      (Stored .ofStorage (freshManager 1).database (Applied failsHalfway) [trace] database ∨
        ∃ round, RoundOf failsHalfway round ∧
          StoredHalfway .ofStorage (freshManager 1).database (Applied failsHalfway) round trace database ∧
          ∃ (before : List Handled) (effects : List Effect),
            after.observed.history = before ++ [⟨round.ready, round.light, effects⟩])) ∧
    after.exited = true ∧ persisted .ofStorage database = { term := 2, vote := 1 } ∧ (logTable database).keys = [1, 2] :=
  ⟨writes_survive .ofStorage preservesHardStates_ofStorage (freshManager 1) failsHalfway, by decide, by decide, by decide⟩

end IrohRaft.RaftManager
