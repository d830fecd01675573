import IrohRaft.Proof.Storage.LogStart

/-!
# What a snapshot says it contains

A snapshot's data is read off the tables, which stand at the applied index; its index is the requested
one, or the end of the log. Replaying the entries after its index agrees with replaying the whole log,
whatever the state machine, exactly when the two coincide.
-/

namespace IrohRaft

open Rust Redb

/-- A state machine that keeps its state in the ten tables. -/
abbrev TableMachine := StateTables → Entry → StateTables

namespace RedbRaftStorage

/-- The database of a node whose state machine has these tables. -/
def withTables (base : Redb.Database) (tables : StateTables) : Redb.Database := StateTables.restored tables.toData base

/-- The snapshot holds the state of exactly the entries up to its index, and replaying the rest on another node gives
the state of all of them. -/
def ConsistentAt (snapshot : Snapshot) (apply : TableMachine) (start : StateTables) (history : List Entry) : Prop :=
  (getMetadata snapshot).index.toNat ≤ history.length ∧
    (∃ data, SnapshotData.serde.deserialize snapshot.data = .ok data ∧
      StateTables.ofData data = Run.final apply start (history.take (getMetadata snapshot).index.toNat)) ∧
    ∀ target : Redb.Database,
      Run.final apply (StateTables.ofDatabase ((restoreFromSnapshot snapshot.data).final target))
        (history.drop (getMetadata snapshot).index.toNat) = Run.final apply start history

/-- Every state machine's snapshot is, once that many entries of the history are applied. -/
def SnapshotConsistent (codec : RaftStateCodec) (base : Redb.Database) (history : List Entry) (applied : Nat)
    (requestIndex : UInt64) : Prop :=
  ∀ (apply : TableMachine) (start : StateTables) (snapshot : Snapshot),
    (Run.final apply start (history.take applied)).toData.Fits →
    RedbRaftStorage.snapshot codec (withTables base (Run.final apply start (history.take applied))) requestIndex = .ok snapshot →
    ConsistentAt snapshot apply start history

variable {codec : RaftStateCodec} {base : Redb.Database} {history : List Entry} {applied : Nat} {requestIndex last : UInt64}

/-! ### The snapshot taken -/

/-- Its index is computed from the request and the end of the log, its data from the tables. -/
theorem snapshot_eq_ok {database : Redb.Database} {snapshot : Snapshot}
    (h : RedbRaftStorage.snapshot codec database requestIndex = .ok snapshot) :
    (∃ last, (ofDatabase database).lastIndex = .ok last ∧ (getMetadata snapshot).index = min requestIndex last) ∧
      snapshot.data = SnapshotData.serde.serialize (createSnapshotData database) := by
  simp only [RedbRaftStorage.snapshot, Outcome.bind_eq_ok, Outcome.pure_eq_ok, Outcome.ok.injEq] at h
  obtain ⟨confState, -, last, hlast, term, -, rfl⟩ := h
  exact ⟨⟨last, hlast, rfl⟩, rfl⟩

/-- Whether one is taken does not depend on the tables. -/
theorem snapshot_withTables {snapshot : Snapshot} (h : RedbRaftStorage.snapshot codec base requestIndex = .ok snapshot)
    (tables : StateTables) :
    RedbRaftStorage.snapshot codec (withTables base tables) requestIndex =
      .ok { snapshot with data := SnapshotData.serde.serialize (createSnapshotData (withTables base tables)) } := by
  have hlog : ofDatabase (withTables base tables) = ofDatabase base :=
    congrArg RedbRaftStorage.mk ((StateTables.restored_sameOutside tables.toData base).numbers raftLogTable.name (by decide))
  have hconf : loadConfState codec (withTables base tables) = loadConfState codec base := by
    have hrecord : confRecord (withTables base tables) = confRecord base := confRecord_restored base tables.toData
    rw [confRecord, confRecord] at hrecord
    rw [loadConfState, hrecord, loadConfState]
  have hterm (idx : UInt64) : term codec (withTables base tables) idx = term codec base idx := by
    rw [term, hlog, term]
  simp only [RedbRaftStorage.snapshot, Outcome.bind_eq_ok, Outcome.pure_eq_ok, Outcome.ok.injEq] at h ⊢
  obtain ⟨confState, hconfState, last, hlast, lastTerm, hlastTerm, rfl⟩ := h
  exact ⟨confState, hconf ▸ hconfState, last, hlog ▸ hlast, lastTerm, by simpa only [hterm] using hlastTerm, rfl⟩

theorem createSnapshotData_withTables (tables : StateTables) : createSnapshotData (withTables base tables) = tables.toData := by
  rw [createSnapshotData_eq, withTables, StateTables.ofDatabase_restored, StateTables.ofData_toData]

/-- A snapshot at the applied index is consistent. -/
theorem consistentAt_applied {apply : TableMachine} {start : StateTables} {snapshot : Snapshot}
    (happlied : (getMetadata snapshot).index.toNat ≤ history.length)
    (hfits : (Run.final apply start (history.take (getMetadata snapshot).index.toNat)).toData.Fits)
    (hdata : snapshot.data =
      SnapshotData.serde.serialize (Run.final apply start (history.take (getMetadata snapshot).index.toNat)).toData) :
    ConsistentAt snapshot apply start history := by
  refine ⟨happlied, ⟨_, hdata ▸ SnapshotData.serde_roundTrips hfits, StateTables.ofData_toData _⟩, fun target => ?_⟩
  have hdecoded := deserializeSnapshotData_serialize hfits "deserialize snapshot data"
  rw [hdata, restoreFromSnapshot_eq_write, (Session.write_of_ok hdecoded).2.1, StateTables.ofDatabase_restored, StateTables.ofData_toData,
    ← Run.final_append, List.take_append_drop]

/-! ### A machine that tells prefixes apart -/

def noTables : StateTables where
  vmStates := ∅
  clusterState := ∅
  tasks := ∅
  taskAssignments := ∅
  taskResults := ∅
  workers := ∅
  workerStatus := ∅
  ipPools := ∅
  ipAllocations := ∅
  vmIpMappings := ∅

/-- It keeps the index of the last entry. -/
def remember : TableMachine := fun _ entry => { noTables with ipPools := (∅ : Table UInt64).insert entry.index [] }

/-- The index kept, or zero. -/
def remembered (tables : StateTables) : Nat := (tables.ipPools.first?.map UInt64.toNat).getD 0

theorem remembered_remember (tables : StateTables) (entry : Entry) : remembered (remember tables entry) = entry.index.toNat := by
  have hfirst : Table.first? ((∅ : Table UInt64).insert entry.index []) = some entry.index := by
    rw [Table.first?_eq_some_iff]
    refine ⟨Table.mem_iff_getElem?.mpr ⟨[], Table.getElem?_insert_self _ _ _⟩, fun other hother => ?_⟩
    rw [Std.ExtTreeMap.mem_insert] at hother
    obtain heq | hmem := hother
    · exact (Std.compare_eq_iff_eq.mp heq) ▸ UInt64.le_refl _
    · exact absurd hmem Std.ExtTreeMap.not_mem_empty
  rw [remembered, remember, hfirst]
  rfl

/-- The entries of a history have the indices one, two, and so on. -/
def Numbered (history : List Entry) : Prop := ∀ n entry, history[n]? = some entry → entry.index.toNat = n + 1

theorem remembered_take (hnumbered : Numbered history) {n : Nat} (h : n ≤ history.length) :
    remembered (Run.final remember noTables (history.take n)) = n := by
  cases n with
  | zero => rfl
  | succ n =>
      have hlt : n < history.length := h
      rw [List.take_succ_eq_append_getElem hlt, Run.final_concat, remembered_remember]
      exact hnumbered n _ (List.getElem?_eq_getElem hlt)

theorem fits_noTables : noTables.toData.Fits := by
  apply SnapshotData.Fits.mk <;> exact ⟨by decide, by simp [noTables, StateTables.toData, Table.pairs]⟩

theorem fits_remember (tables : StateTables) (entry : Entry) : (remember tables entry).toData.Fits := by
  refine { fits_noTables with ipPools := ⟨?_, fun record hrecord => ⟨trivial, ?_⟩⟩ }
  · show ((∅ : Table UInt64).insert entry.index []).toList.length < 2 ^ 64
    rw [Std.ExtTreeMap.length_toList, Std.ExtTreeMap.size_insert]
    simp
  · have hvalue : ((∅ : Table UInt64).insert entry.index [])[record.1]? = some record.2 :=
      Std.ExtTreeMap.mem_toList_iff_getElem?_eq_some.mp hrecord
    rw [Std.ExtTreeMap.getElem?_insert] at hvalue
    split at hvalue
    · rw [← Option.some.inj hvalue]
      decide
    · simp at hvalue

theorem fits_final_remember (entries : List Entry) : (Run.final remember noTables entries).toData.Fits :=
  Run.final_invariant (fun tables => tables.toData.Fits) (fun entry _ tables _ => fits_remember tables entry) fits_noTables

/-- Its snapshot betrays the prefix the data was taken at. -/
theorem index_eq_of_consistent {snapshot : Snapshot} (hnumbered : Numbered history) (happlied : applied ≤ history.length)
    (h : RedbRaftStorage.snapshot codec base requestIndex = .ok snapshot)
    (hconsistent : SnapshotConsistent codec base history applied requestIndex) :
    (getMetadata snapshot).index.toNat = applied := by
  have htaken := snapshot_withTables h (Run.final remember noTables (history.take applied))
  obtain ⟨hle, ⟨data, hdata, htables⟩, -⟩ := hconsistent remember noTables _ (fits_final_remember _) htaken
  rw [createSnapshotData_withTables] at hdata
  have heq := (SnapshotData.serde_roundTrips (fits_final_remember _)).symm.trans hdata
  rw [← Except.ok.inj heq, StateTables.ofData_toData] at htables
  have hremembered := congrArg remembered htables
  rw [remembered_take hnumbered happlied, remembered_take hnumbered hle] at hremembered
  exact hremembered.symm

/-- A snapshot is consistent, for every state machine, exactly if the requested index, or the end of the log where that
comes first, is the applied index. -/
theorem snapshot_consistent_iff (codec : RaftStateCodec) (base : Redb.Database) (history : List Entry) (applied : Nat)
    (requestIndex last : UInt64) (hnumbered : Numbered history) (happlied : applied ≤ history.length)
    (hlast : (ofDatabase base).lastIndex = .ok last)
    (hok : (RedbRaftStorage.snapshot codec base requestIndex).Returns fun _ => True) :
    SnapshotConsistent codec base history applied requestIndex ↔ (min requestIndex last).toNat = applied := by
  obtain ⟨snapshot, htaken, -⟩ := Outcome.returns_iff.mp hok
  have hindex {snapshot : Snapshot} {base : Redb.Database} (hlast : (ofDatabase base).lastIndex = .ok last)
      (h : RedbRaftStorage.snapshot codec base requestIndex = .ok snapshot) :
      (getMetadata snapshot).index = min requestIndex last := by
    obtain ⟨last', hlast', hindex⟩ := (snapshot_eq_ok h).1
    obtain rfl := Outcome.ok.inj (hlast.symm.trans hlast')
    exact hindex
  apply Iff.intro
  · intro h
    rw [← hindex hlast htaken]
    exact index_eq_of_consistent hnumbered happlied htaken h
  · intro happliedIndex apply start taken hfits h
    obtain rfl := Outcome.ok.inj ((snapshot_withTables htaken _).symm.trans h)
    have hat : (getMetadata { snapshot with data := SnapshotData.serde.serialize (createSnapshotData
        (withTables base (Run.final apply start (history.take applied)))) }).index.toNat = applied := by
      rw [← happliedIndex, ← hindex hlast htaken]
      rfl
    apply consistentAt_applied
    · rw [hat]
      exact happlied
    · rw [hat]
      exact hfits
    · rw [hat, createSnapshotData_withTables]

theorem numbered_noop : Numbered [.noop 1 1] := by
  intro n entry h
  cases n with
  | zero =>
      obtain rfl := Option.some.inj h
      decide
  | succ n => simp at h

theorem snapshot_consistent_applied : SnapshotConsistent .ofStorage (oneEntry (.noop 1 1)) [.noop 1 1] 1 1 :=
  (snapshot_consistent_iff .ofStorage (oneEntry (.noop 1 1)) [.noop 1 1] 1 1 1 numbered_noop (by decide) (by decide)
    (by decide)).mpr (by decide)

/-- Raft asks with zero for a follower that lags behind, and gets the state of one entry as that of none. -/
theorem not_snapshot_consistent :
    ¬ ∀ (codec : RaftStateCodec) (base : Redb.Database) (history : List Entry) (applied : Nat) (requestIndex : UInt64),
      Numbered history → applied ≤ history.length → SnapshotConsistent codec base history applied requestIndex := by
  intro h
  have hconsistent := h .ofStorage (oneEntry (.noop 1 1)) [.noop 1 1] 1 0 numbered_noop (by decide)
  have hok : (RedbRaftStorage.snapshot .ofStorage (oneEntry (.noop 1 1)) 0).Returns
      fun snapshot => (getMetadata snapshot).index = 0 := by decide
  obtain ⟨snapshot, htaken, hindex⟩ := Outcome.returns_iff.mp hok
  have happlied := index_eq_of_consistent numbered_noop (by decide) htaken hconsistent
  rw [hindex] at happlied
  exact absurd happlied (by decide)

end RedbRaftStorage

end IrohRaft
