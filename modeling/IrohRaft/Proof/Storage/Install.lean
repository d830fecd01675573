import IrohRaft.Proof.Storage.EntryCodec
import IrohRaft.Proof.Storage.Recovery

/-!
# What a snapshot leaves behind

`apply_snapshot` removes the entries the snapshot covers and nothing else, whatever the log held at
its index, and leaves the hard state alone. So the entries above a snapshot survive it without being
compared with it, and the saved commit index is inside the log afterwards only when it was already at
or above the snapshot.
-/

namespace IrohRaft

open Rust Redb

namespace RaftStorage

variable {prost : ProstCodec Snapshot} {storage : RaftStorage} {snapshot : Snapshot} {metadata : SnapshotMetadata}

/-! ### The tables afterwards -/

theorem mem_applySnapshot (hmetadata : snapshot.metadata = some metadata) (key : UInt64) :
    key ∈ (applySnapshot prost storage snapshot).raftLogTable ↔ key ∈ storage.raftLogTable ∧ metadata.index < key := by
  rw [applySnapshot, hmetadata]
  simp only [Table.mem_removeAll_keysIn, decide_eq_false_iff_not, UInt64.not_le]

theorem readSnapshot_applySnapshot (hmetadata : snapshot.metadata = some metadata) :
    readSnapshot prost (applySnapshot prost storage snapshot) = .ok (some snapshot) := by
  rw [readSnapshot, applySnapshot, hmetadata]
  simp only [Table.getElem?_insert_self, deserializeSnapshot_serializeSnapshot, Outcome.mapErr_ok]
  rfl

theorem firstIndex_applySnapshot (hmetadata : snapshot.metadata = some metadata) :
    firstIndex prost (applySnapshot prost storage snapshot) = u64Add metadata.index 1 := by
  simp only [firstIndex, readSnapshot_applySnapshot hmetadata, Outcome.ok_bind, Option.bind_some, hmetadata]

/-- No entry above the snapshot: the log ends where the snapshot stands. -/
theorem lastIndex_applySnapshot_of_covered (hmetadata : snapshot.metadata = some metadata)
    (hcovered : ∀ key ∈ storage.raftLogTable, key ≤ metadata.index) :
    lastIndex prost (applySnapshot prost storage snapshot) = .ok metadata.index := by
  have hempty : Table.last? (applySnapshot prost storage snapshot).raftLogTable = none := by
    rw [Table.last?_eq_none_iff]
    intro key hkey
    obtain ⟨hmem, hlt⟩ := (mem_applySnapshot hmetadata key).mp hkey
    exact absurd (hcovered key hmem) (UInt64.not_le.mpr hlt)
  simp only [lastIndex, hempty, readSnapshot_applySnapshot hmetadata, Outcome.ok_bind, Option.bind_some, hmetadata,
    Outcome.pure_eq_ok]

/-- Entries above the snapshot: the log ends where it ended. -/
theorem last?_applySnapshot (hmetadata : snapshot.metadata = some metadata) {last : UInt64}
    (hlast : Table.last? storage.raftLogTable = some last) (hlt : metadata.index < last) :
    Table.last? (applySnapshot prost storage snapshot).raftLogTable = some last := by
  obtain ⟨hmem, hgreatest⟩ := Table.last?_eq_some_iff.mp hlast
  rw [Table.last?_eq_some_iff]
  refine ⟨(mem_applySnapshot hmetadata last).mpr ⟨hmem, hlt⟩, fun key hkey => ?_⟩
  exact hgreatest key ((mem_applySnapshot hmetadata key).mp hkey).1

/-! ### The suffix -/

/-- The log holds an entry of this term at this index. -/
def MatchesAt (storage : RaftStorage) (index term : UInt64) : Prop :=
  ∃ data entry, storage.raftLogTable[index]? = some data ∧ deserializeEntry data = .ok entry ∧ entry.term = term

/-- Entries above the snapshot survive only behind a match; otherwise the log ends at the snapshot. -/
def DiscardsConflict (prost : ProstCodec Snapshot) (storage : RaftStorage) (snapshot : Snapshot)
    (metadata : SnapshotMetadata) : Prop :=
  (∀ key ∈ (applySnapshot prost storage snapshot).raftLogTable, metadata.index < key →
    MatchesAt storage metadata.index metadata.term) ∧
  (¬ MatchesAt storage metadata.index metadata.term →
    (∀ key ∈ (applySnapshot prost storage snapshot).raftLogTable, ¬ metadata.index < key) ∧
      lastIndex prost (applySnapshot prost storage snapshot) = .ok metadata.index)

/-- **A snapshot discards a conflicting suffix** exactly when there is no suffix, or none that
conflicts. -/
theorem applySnapshot_discardsConflict_iff (prost : ProstCodec Snapshot) (storage : RaftStorage) (snapshot : Snapshot)
    (metadata : SnapshotMetadata) (hmetadata : snapshot.metadata = some metadata) :
    DiscardsConflict prost storage snapshot metadata ↔
      MatchesAt storage metadata.index metadata.term ∨ ∀ key ∈ storage.raftLogTable, key ≤ metadata.index := by
  apply Iff.intro
  · intro hdiscards
    obtain ⟨hsurvive, _⟩ := hdiscards
    by_cases hmatch : MatchesAt storage metadata.index metadata.term
    · exact Or.inl hmatch
    · apply Or.inr
      intro key hkey
      by_contra hgt
      have hlt := UInt64.not_le.mp hgt
      apply hmatch
      exact hsurvive key ((mem_applySnapshot hmetadata key).mpr ⟨hkey, hlt⟩) hlt
  · intro hcase
    cases hcase with
    | inl hmatch => exact ⟨fun _ _ _ => hmatch, fun hnot => absurd hmatch hnot⟩
    | inr hcovered =>
        have hnone : ∀ key ∈ (applySnapshot prost storage snapshot).raftLogTable, ¬ metadata.index < key := by
          intro key hkey hlt
          obtain ⟨hmem, _⟩ := (mem_applySnapshot hmetadata key).mp hkey
          exact absurd (hcovered key hmem) (UInt64.not_le.mpr hlt)
        exact ⟨fun key hkey hlt => absurd hlt (hnone key hkey),
          fun _ => ⟨hnone, lastIndex_applySnapshot_of_covered hmetadata hcovered⟩⟩

theorem applySnapshot_discardsConflict_shorter_log :
    DiscardsConflict prostSnapshot (append (new {}) [.noop 1 1, .noop 2 1]) (.bare 2 3) ⟨none, 2, 3⟩ := by
  apply (applySnapshot_discardsConflict_iff prostSnapshot (append (new {}) [.noop 1 1, .noop 2 1]) (.bare 2 3)
    ⟨none, 2, 3⟩ rfl).mpr
  apply Or.inr
  intro key hkey
  rcases (Table.mem_insertAll Entry.index serializeEntry ∅ [.noop 1 1, .noop 2 1]).mp hkey with hmem | ⟨entry, hentry, rfl⟩
  · exact absurd hmem Std.ExtTreeMap.not_mem_empty
  · rcases List.mem_cons.mp hentry with rfl | htail
    · decide
    · rw [List.mem_singleton.mp htail]
      decide

/-- The suffix of a log that disagrees with the snapshot stays. -/
theorem not_applySnapshot_discardsConflict :
    ¬ ∀ (prost : ProstCodec Snapshot) (storage : RaftStorage) (snapshot : Snapshot) (metadata : SnapshotMetadata),
      snapshot.metadata = some metadata → DiscardsConflict prost storage snapshot metadata := by
  intro hdiscards
  obtain ⟨hsurvive, _⟩ := hdiscards prostSnapshot (append (new {}) [.noop 1 1, .noop 2 1, .noop 3 1]) (.bare 2 5)
    ⟨none, 2, 5⟩ rfl
  obtain ⟨data, entry, hget, hread, hterm⟩ := hsurvive 3 (by decide +kernel) (by decide)
  have hdata : data = serializeEntry (.noop 2 1) := Option.some.inj (hget.symm.trans (by decide +kernel))
  rw [hdata, deserializeEntry_serializeEntry_iff.mpr (by decide)] at hread
  rw [← Outcome.ok.inj hread] at hterm
  exact absurd hterm (by decide)

/-! ### The commit index -/

/-- The saved commit index lies between the index before the log and its last one. -/
def CommitInWindow (prost : ProstCodec Snapshot) (storage : RaftStorage) : Prop :=
  ∃ state, initialState storage = .ok state ∧ appliedIndex storage = .ok state.hardState.commit ∧
    (firstIndex prost storage).Returns (fun first => first.toNat ≤ state.hardState.commit.toNat + 1) ∧
    (lastIndex prost storage).Returns fun last => state.hardState.commit ≤ last

/-- The conf state reads back from what is stored for it. -/
def ReadsBack (confState : ConfState) : Prop := ∃ found, deserializeConfState (serializeConfState confState) = .ok found

/-- The initial state reads after the snapshot when its conf state, if it carries one, does. -/
theorem exists_initialState_applySnapshot_iff (hmetadata : snapshot.metadata = some metadata) {state : RaftState}
    (hstate : initialState storage = .ok state) :
    (∃ state', initialState (applySnapshot prost storage snapshot) = .ok state') ↔
      ∀ confState ∈ metadata.confState, ReadsBack confState := by
  obtain ⟨hhard, hconf⟩ := initialState_eq_ok.mp hstate
  simp only [initialState_eq_ok, readHardState_applySnapshot, readConfState_applySnapshot hmetadata]
  cases hcase : metadata.confState with
  | some confState =>
      apply Iff.intro
      · intro hread other hmem
        obtain ⟨state', _, hread⟩ := hread
        rw [← Option.some.inj hmem]
        exact ⟨_, Outcome.mapErr_eq_ok.mp hread⟩
      · intro hreads
        obtain ⟨found, hread⟩ := hreads confState rfl
        exact ⟨⟨state.hardState, found⟩, hhard, Outcome.mapErr_eq_ok.mpr hread⟩
  | none => exact ⟨fun _ _ hmem => absurd hmem (Option.not_mem_none _), fun _ => ⟨state, hhard, hconf⟩⟩

/-- A commit index below the log's end is inside the log after the snapshot when it is the
snapshot's, or above it in a log that goes on. -/
theorem window_applySnapshot_iff (hmetadata : snapshot.metadata = some metadata) {commit : UInt64}
    (hlast : (lastIndex prost storage).Returns (commit ≤ ·)) :
    ((firstIndex prost (applySnapshot prost storage snapshot)).Returns (fun first => first.toNat ≤ commit.toNat + 1) ∧
      (lastIndex prost (applySnapshot prost storage snapshot)).Returns (commit ≤ ·)) ↔
    metadata.index.toNat + 1 < 2 ^ 64 ∧
      (commit = metadata.index ∨ (metadata.index < commit ∧ Table.last? storage.raftLogTable ≠ none)) := by
  rw [firstIndex_applySnapshot hmetadata]
  by_cases hfits : metadata.index.toNat + 1 < 2 ^ 64
  · have hnext : (metadata.index + 1).toNat = metadata.index.toNat + 1 := toNat_add_of_lt hfits
    simp only [u64Add_of_lt (show metadata.index.toNat + (1 : UInt64).toNat < 2 ^ 64 from hfits), Outcome.Returns, hnext,
      hfits, true_and]
    rw [Nat.add_le_add_iff_right, ← UInt64.le_iff_toNat_le]
    apply Iff.intro
    · intro hbounds
      obtain ⟨hle, hbound⟩ := hbounds
      by_cases heq : commit = metadata.index
      · exact Or.inl heq
      · have hlt : metadata.index < commit := UInt64.lt_of_le_of_ne hle (Ne.symm heq)
        refine Or.inr ⟨hlt, fun hnone => ?_⟩
        have hcovered : ∀ key ∈ storage.raftLogTable, key ≤ metadata.index :=
          fun key hkey => absurd hkey (Table.last?_eq_none_iff.mp hnone key)
        rw [lastIndex_applySnapshot_of_covered hmetadata hcovered] at hbound
        apply UInt64.not_le.mpr hlt
        exact hbound
    · intro hcase
      cases hend : Table.last? storage.raftLogTable with
      | none =>
          rcases hcase with rfl | ⟨_, hsome⟩
          · have hcovered : ∀ key ∈ storage.raftLogTable, key ≤ metadata.index :=
              fun key hkey => absurd hkey (Table.last?_eq_none_iff.mp hend key)
            rw [lastIndex_applySnapshot_of_covered hmetadata hcovered]
            exact ⟨UInt64.le_refl _, UInt64.le_refl _⟩
          · exact absurd hend hsome
      | some last =>
          have hle : metadata.index ≤ commit := by
            rcases hcase with rfl | ⟨hlt, _⟩
            · exact UInt64.le_refl _
            · exact UInt64.le_of_lt hlt
          have hcommit : commit ≤ last := by
            rw [lastIndex, hend] at hlast
            exact hlast
          refine ⟨hle, ?_⟩
          by_cases hlt : metadata.index < last
          · rw [lastIndex, last?_applySnapshot hmetadata hend hlt]
            exact hcommit
          -- the log ended at or below the snapshot, so all three indices are one
          · have hge := UInt64.not_lt.mp hlt
            have hcovered : ∀ key ∈ storage.raftLogTable, key ≤ metadata.index :=
              fun key hkey => UInt64.le_trans ((Table.last?_eq_some_iff.mp hend).2 key hkey) hge
            rw [lastIndex_applySnapshot_of_covered hmetadata hcovered]
            exact UInt64.le_trans hcommit hge
  · have hover : ¬ metadata.index.toNat + (1 : UInt64).toNat < 2 ^ 64 := hfits
    simp only [u64Add, if_neg hover, Outcome.Returns, hfits, false_and]

/-- **The commit index stays in the log** over a snapshot exactly when it is the snapshot's index, or
above it in a log that goes on. -/
theorem applySnapshot_commitInWindow_iff (prost : ProstCodec Snapshot) (storage : RaftStorage) (snapshot : Snapshot)
    (state : RaftState) (hstate : initialState storage = .ok state) (hwindow : CommitInWindow prost storage) :
    CommitInWindow prost (applySnapshot prost storage snapshot) ↔
      ∀ metadata ∈ snapshot.metadata, metadata.index.toNat + 1 < 2 ^ 64 ∧
        (state.hardState.commit = metadata.index ∨
          (metadata.index < state.hardState.commit ∧ Table.last? storage.raftLogTable ≠ none)) ∧
        ∀ confState ∈ metadata.confState, ReadsBack confState := by
  obtain ⟨state₀, hstate₀, _, hfirst, hlast⟩ := hwindow
  obtain rfl := Outcome.ok.inj (hstate.symm.trans hstate₀)
  cases hcase : snapshot.metadata with
  | none =>
      have hsame : applySnapshot prost storage snapshot = storage := by rw [applySnapshot, hcase]
      rw [hsame]
      exact ⟨fun _ _ hmem => absurd hmem (Option.not_mem_none _), fun _ =>
        ⟨state, hstate, appliedIndex_of_readHardState (initialState_eq_ok.mp hstate).1, hfirst, hlast⟩⟩
  | some metadata =>
      have hcommit : ∀ state', initialState (applySnapshot prost storage snapshot) = .ok state' →
          state'.hardState = state.hardState := by
        intro state' hstate'
        have hhard := (initialState_eq_ok.mp hstate').1
        rw [readHardState_applySnapshot, (initialState_eq_ok.mp hstate).1] at hhard
        exact (Outcome.ok.inj hhard).symm
      simp only [Option.mem_some_iff, forall_eq']
      rw [← and_assoc, ← window_applySnapshot_iff hcase hlast, ← exists_initialState_applySnapshot_iff hcase hstate]
      apply Iff.intro
      · intro hafter
        obtain ⟨state', hstate', _, hbounds⟩ := hafter
        rw [hcommit state' hstate'] at hbounds
        exact ⟨hbounds, state', hstate'⟩
      · intro hafter
        obtain ⟨hbounds, state', hstate'⟩ := hafter
        refine ⟨state', hstate', appliedIndex_of_readHardState (initialState_eq_ok.mp hstate').1, ?_⟩
        rw [hcommit state' hstate']
        exact hbounds

theorem applySnapshot_commitInWindow_committed :
    CommitInWindow prostSnapshot (applySnapshot prostSnapshot
      (saveHardState (append (new {}) [.noop 1 1, .noop 2 1, .noop 3 1]) ⟨1, 1, 3⟩) (.bare 2 1)) := by
  apply (applySnapshot_commitInWindow_iff prostSnapshot
    (saveHardState (append (new {}) [.noop 1 1, .noop 2 1, .noop 3 1]) ⟨1, 1, 3⟩) (.bare 2 1) ⟨⟨1, 1, 3⟩, {}⟩
    (by decide +kernel) ⟨⟨⟨1, 1, 3⟩, {}⟩, by decide +kernel, by decide +kernel, by decide +kernel, by decide +kernel⟩).mpr
  intro metadata hmetadata
  obtain rfl := Option.some.inj hmetadata
  exact ⟨by decide, Or.inr ⟨by decide, by decide +kernel⟩, fun _ hmem => nomatch hmem⟩

/-- A snapshot ahead of the log leaves the saved commit index behind. -/
theorem not_applySnapshot_commitInWindow :
    ¬ ∀ (prost : ProstCodec Snapshot) (storage : RaftStorage) (snapshot : Snapshot),
      CommitInWindow prost storage → CommitInWindow prost (applySnapshot prost storage snapshot) := by
  intro hstays
  obtain ⟨state, hstate, _, hfirst, _⟩ := hstays prostSnapshot (new {}) (.bare 5 2)
    ⟨⟨{}, {}⟩, by decide +kernel, by decide +kernel, by decide +kernel, by decide +kernel⟩
  have hcommit : state.hardState = {} := by
    have hhard := (initialState_eq_ok.mp hstate).1
    exact (Outcome.ok.inj (hhard.symm.trans (by decide +kernel)))
  rw [hcommit] at hfirst
  revert hfirst
  decide +kernel

end RaftStorage

end IrohRaft
