import IrohRaft.Proof.Storage.Refine
import IrohRaft.Storage.Eraftpb

/-!
# The first index never decreases

Each operation has a condition under which `first_index` does not go back and stays within one of
`last_index`. An older snapshot breaks the first, and so does compaction of a whole log without a
snapshot, which makes `first_index` start at 1 again.
-/

namespace IrohRaft

open Rust Redb RaftLog

namespace RaftStorage

/-- The condition of each operation. -/
def KeepsOrder (prost : ProstCodec Snapshot) (storage : RaftStorage) : Op → Prop
  | .saveHardState _ => True
  | .append entries =>
      (SnapshotStored storage → Table.first? storage.raftLogTable = none → entries ≠ [] →
        ∃ entry ∈ entries, (lastIndex prost storage).Returns (· ≤ entry.index)) ∧
      (¬ SnapshotStored storage → ∀ entry ∈ entries, (firstIndex prost storage).Returns (· ≤ entry.index))
  | .applySnapshot snapshot => ∀ metadata ∈ snapshot.metadata,
      metadata.index.toNat + 1 < 2 ^ 64 ∧
        (firstIndex prost storage).Returns fun first => first.toNat ≤ metadata.index.toNat + 1
  | .compact compactIndex =>
      SnapshotStored storage ∨ (lastIndex prost storage).Returns (compactIndex ≤ ·) ∨
        (firstIndex prost storage).Returns (· ≤ 1)

instance (prost : ProstCodec Snapshot) (storage : RaftStorage) (op : Op) : Decidable (KeepsOrder prost storage op) :=
  match op with
  | .saveHardState _ => isTrue trivial
  | .append _ => by
      dsimp only [KeepsOrder]
      infer_instance
  | .applySnapshot _ => by
      dsimp only [KeepsOrder]
      infer_instance
  | .compact _ => by
      dsimp only [KeepsOrder]
      infer_instance

/-- From the first state to the second `first_index` does not decrease, and there it is at most one
past `last_index`. -/
def Advances (prost : ProstCodec Snapshot) (storage storage' : RaftStorage) : Prop :=
  ∃ first first' last', firstIndex prost storage = .ok first ∧ firstIndex prost storage' = .ok first' ∧
    lastIndex prost storage' = .ok last' ∧ first ≤ first' ∧ first'.toNat ≤ last'.toNat + 1

variable {prost : ProstCodec Snapshot} {storage : RaftStorage}

theorem Advances.trans {storage' storage'' : RaftStorage} (h : Advances prost storage storage')
    (h' : Advances prost storage' storage'') : Advances prost storage storage'' := by
  obtain ⟨first, middle, _, hfirst, hmiddle, _, hle, _⟩ := h
  obtain ⟨middle', last, last', hmiddle', hlast, hlast', hle', hbound⟩ := h'
  obtain rfl := Outcome.ok.inj (hmiddle.symm.trans hmiddle')
  exact ⟨first, last, last', hfirst, hlast, hlast', UInt64.le_trans hle hle', hbound⟩

/-- A log whose first index fits, and which does not stop short of its snapshot. -/
structure Ordered (log : Log UInt64) : Prop where
  fits : ∀ index term, log.base = some (index, term) → index + 1 < 2 ^ 64
  reaches : ∀ index term, log.base = some (index, term) → (∃ n, log.Holds n) → ∃ n, index ≤ n ∧ log.Holds n

/-! ### One operation -/

section Step

variable {log : Log UInt64} {first : Nat}

theorem first?_eq_none_of_empty (hshows : Shows prost storage log) (hempty : ∀ n, ¬ log.Holds n) :
    Table.first? storage.raftLogTable = none := by
  cases hshows.first?_cases with
  | inl hcase =>
      obtain ⟨hnone, _⟩ := hcase
      exact hnone
  | inr hcase =>
      obtain ⟨key, _, hholds, _⟩ := hcase
      exact absurd hholds (hempty _)

theorem ordered_append (h : Ordered log) (hshows : Shows prost storage log) (hfirst : log.IsFirst first)
    {entries : List Entry} (hkeeps : KeepsOrder prost storage (.append entries)) :
    Ordered (log.putAll (entries.map item)) ∧
      ∀ first', (log.putAll (entries.map item)).IsFirst first' → first ≤ first' := by
  have hbaseEq := Log.putAll_base log (entries.map item)
  refine ⟨⟨fun index term hbase => h.fits index term (hbaseEq ▸ hbase), fun index term hbase hsome => ?_⟩, fun first' hfirst' => ?_⟩
  · rw [hbaseEq] at hbase
    by_cases hold : ∃ n, log.Holds n
    · obtain ⟨n, hle, hn⟩ := h.reaches index term hbase hold
      exact ⟨n, hle, holds_putAll_item.mpr (Or.inr hn)⟩
    -- an empty log ends where its snapshot stands, and the batch reaches that index
    · have hempty : ∀ n, ¬ log.Holds n := fun n hn => hold ⟨n, hn⟩
      have hnonempty : entries ≠ [] := by
        intro hnil
        subst hnil
        obtain ⟨n, hn⟩ := hsome
        exact hempty n hn
      have hstored := (hshows.snapshotStored_iff).mpr (by rw [hbase]; exact Option.some_ne_none _)
      obtain ⟨entry, hmem, hreturns⟩ := hkeeps.1 hstored (first?_eq_none_of_empty hshows hempty) hnonempty
      have hlast : log.IsLast index := Or.inr ⟨hempty, by rw [hbase]⟩
      obtain ⟨last, hle, rfl⟩ := hshows.lastIndex_returns hlast hreturns
      exact ⟨entry.index.toNat, UInt64.le_iff_toNat_le.mp hle, holds_putAll_item.mpr (Or.inl ⟨entry, hmem, rfl⟩)⟩
  · cases hbase : log.base with
    | some pair => exact Nat.le_of_eq (hfirst.eq_of_base hfirst' hbase (hbaseEq.trans hbase))
    | none =>
        apply hfirst'.le_of_holds (hbaseEq.trans hbase)
        · intro n hn
          rcases holds_putAll_item.mp hn with ⟨entry, hmem, rfl⟩ | hold
          · have hnone : ¬ SnapshotStored storage := fun hstored => (hshows.snapshotStored_iff).mp hstored hbase
            obtain ⟨found, hle, rfl⟩ := hshows.firstIndex_returns hfirst (hkeeps.2 hnone entry hmem)
            exact UInt64.le_iff_toNat_le.mp hle
          · exact hfirst.le_held hbase hold
        · intro hempty
          apply Nat.le_of_eq
          apply hfirst.eq_one hbase
          intro n hn
          exact hempty n (holds_putAll_item.mpr (Or.inr hn))

theorem ordered_install (hshows : Shows prost storage log) (hfirst : log.IsFirst first) (metadata : SnapshotMetadata)
    (hfits : metadata.index.toNat + 1 < 2 ^ 64)
    (hreturns : (firstIndex prost storage).Returns fun first => first.toNat ≤ metadata.index.toNat + 1) :
    Ordered (log.install metadata.index.toNat metadata.term) ∧
      ∀ first', (log.install metadata.index.toNat metadata.term).IsFirst first' → first ≤ first' := by
  refine ⟨⟨fun index term hbase => ?_, fun index term hbase hsome => ?_⟩, fun first' hfirst' => ?_⟩
  · obtain ⟨rfl, rfl⟩ := Prod.mk.inj (Option.some.inj hbase)
    exact hfits
  · obtain ⟨rfl, rfl⟩ := Prod.mk.inj (Option.some.inj hbase)
    obtain ⟨n, hn⟩ := hsome
    exact ⟨n, Nat.le_of_lt (Log.holds_install.mp hn).1, hn⟩
  · obtain ⟨found, hle, rfl⟩ := hshows.firstIndex_returns hfirst hreturns
    rw [(Log.isFirst_of_base (Log.install_base _ _ _)).mp hfirst']
    exact hle

theorem ordered_compact (h : Ordered log) (hshows : Shows prost storage log) (hfirst : log.IsFirst first)
    {compactIndex : UInt64} (hkeeps : KeepsOrder prost storage (.compact compactIndex)) :
    Ordered (log.compact compactIndex.toNat) ∧
      ∀ first', (log.compact compactIndex.toNat).IsFirst first' → first ≤ first' := by
  refine ⟨⟨h.fits, fun index term hbase hsome => ?_⟩, fun first' hfirst' => ?_⟩
  -- the greater of an index kept and one the snapshot reaches is both
  · obtain ⟨kept, hkept⟩ := hsome
    obtain ⟨hge, hkeptHolds⟩ := Log.holds_compact.mp hkept
    obtain ⟨reached, hreached, hreachedHolds⟩ := h.reaches index term hbase ⟨kept, hkeptHolds⟩
    by_cases hle : reached ≤ kept
    · exact ⟨kept, Nat.le_trans hreached hle, hkept⟩
    · exact ⟨reached, hreached, Log.holds_compact.mpr ⟨by omega, hreachedHolds⟩⟩
  · cases hbase : log.base with
    | some pair => exact Nat.le_of_eq (hfirst.eq_of_base hfirst' hbase hbase)
    | none =>
        apply hfirst'.le_of_holds hbase
        · intro n hn
          exact hfirst.le_held hbase (Log.holds_compact.mp hn).2
        -- compaction empties a log only past its last index
        · intro hempty
          rcases hkeeps with hstored | hlast | hone
          · exact absurd hbase ((hshows.snapshotStored_iff).mp hstored)
          · obtain ⟨last, hlast, hle⟩ := Outcome.returns_iff.mp hlast
            rw [hshows.lastIndex_iff] at hlast
            cases hlast with
            | inl hlast =>
                have hkept := Log.holds_compact.mpr ⟨UInt64.le_iff_toNat_le.mp hle, hlast.1⟩
                exact absurd hkept (hempty _)
            | inr hlast => exact Nat.le_of_eq (hfirst.eq_one hbase hlast.1)
          · obtain ⟨found, hle, rfl⟩ := hshows.firstIndex_returns hfirst hone
            exact UInt64.le_iff_toNat_le.mp hle

theorem ordered_exec (h : Ordered log) (hshows : Shows prost storage log) (hfirst : log.IsFirst first) {op : Op}
    (hkeeps : KeepsOrder prost storage op) :
    Ordered (logExec log op) ∧ ∀ first', (logExec log op).IsFirst first' → first ≤ first' := by
  have hsame : Ordered log ∧ ∀ first', log.IsFirst first' → first ≤ first' :=
    ⟨h, fun first' hfirst' => Nat.le_of_eq (hfirst.unique hfirst')⟩
  cases op with
  | saveHardState hardState => exact hsame
  | append entries => exact ordered_append h hshows hfirst hkeeps
  | applySnapshot snapshot =>
      cases hmetadata : snapshot.metadata with
      | none => simpa only [logExec, hmetadata] using hsame
      | some metadata =>
          obtain ⟨hfits, hreturns⟩ := hkeeps metadata hmetadata
          have hinstall := ordered_install hshows hfirst metadata hfits hreturns
          simpa only [logExec, hmetadata] using hinstall
  | compact compactIndex => exact ordered_compact h hshows hfirst hkeeps

end Step

/-! ### Runs -/

/-- The tables show an ordered log. -/
def InSequence (prost : ProstCodec Snapshot) (storage : RaftStorage) : Prop :=
  ∃ log, Shows prost storage log ∧ Ordered log

theorem InSequence.advances_self (h : InSequence prost storage) : Advances prost storage storage := by
  obtain ⟨log, hshows, hordered⟩ := h
  obtain ⟨first, hread, hfirst⟩ := hshows.exists_firstIndex hordered.fits
  obtain ⟨last, hread', hlast⟩ := hshows.exists_lastIndex
  exact ⟨first, first, last, hread, hread, hread', UInt64.le_refl _, (hfirst.le_last_iff hlast).mpr hordered.reaches⟩

theorem InSequence.exec (h : InSequence prost storage) {op : Op} (hkeeps : KeepsOrder prost storage op) :
    InSequence prost (exec prost storage op) ∧ Advances prost storage (exec prost storage op) := by
  obtain ⟨log, hshows, hordered⟩ := h
  obtain ⟨first, hread, hfirst⟩ := hshows.exists_firstIndex hordered.fits
  obtain ⟨hordered', hmono⟩ := ordered_exec hordered hshows hfirst hkeeps
  have hafter : InSequence prost (RaftStorage.exec prost storage op) := ⟨_, shows_exec hshows op, hordered'⟩
  obtain ⟨_, first', last', _, hread', hreadLast, _, hbound⟩ := hafter.advances_self
  have hle := hmono _ ((shows_exec hshows op).firstIndex_iff.mp hread')
  exact ⟨hafter, first, first', last', hread, hread', hreadLast, UInt64.le_iff_toNat_le.mpr hle, hbound⟩

theorem inSequence_new : InSequence prost (new {}) := by
  refine ⟨Log.empty, shows_new, ⟨fun index term hbase => ?_, fun index term hbase => ?_⟩⟩
  · cases hbase
  · cases hbase

/-- Any run from a state in sequence advances it. -/
theorem follows_advances {ops : List Op} (hstart : InSequence prost storage)
    (h : Run.Follows (exec prost) (KeepsOrder prost) storage ops) :
    Advances prost storage (Run.final (exec prost) storage ops) := by
  induction ops generalizing storage with
  | nil => exact hstart.advances_self
  | cons op rest ih =>
      obtain ⟨hnext, hadvances⟩ := hstart.exec h.1
      exact hadvances.trans (ih hnext h.2)

/-- **The first index never decreases, and stays at most one past the last**, over every run whose
operations keep the order: from any state of the run to any later one. -/
theorem run_advances (prost : ProstCodec Snapshot) (before after : List Op)
    (h : Run.Follows (exec prost) (KeepsOrder prost) (new {}) (before ++ after)) :
    Advances prost (run prost before) (run prost (before ++ after)) := by
  obtain ⟨hbefore, hafter⟩ := Run.follows_append.mp h
  have hmiddle := hbefore.invariant (InSequence prost) (fun _ _ hsequence hop => (hsequence.exec hop).1) inSequence_new
  rw [run, run, Run.final_append]
  exact follows_advances hmiddle hafter

theorem run_advances_newer_snapshot :
    Advances prostSnapshot (run prostSnapshot [.append [.noop 1 1, .noop 2 1], .compact 2])
      (run prostSnapshot ([.append [.noop 1 1, .noop 2 1], .compact 2] ++ [.applySnapshot (.bare 4 2), .compact 9])) :=
  run_advances _ _ _ (by decide +kernel)

/-- A snapshot older than the present one rolls `first_index` back. -/
theorem not_run_advances :
    ¬ ∀ (prost : ProstCodec Snapshot) (before after : List Op), (∀ op ∈ before ++ after, WritesLog op) →
      Advances prost (run prost before) (run prost (before ++ after)) := by
  intro hadvances
  obtain ⟨first, first', _, hfirst, hfirst', _, hle, _⟩ := hadvances prostSnapshot
    [.applySnapshot (.bare 5 1)] [.applySnapshot (.bare 3 1)] (by decide)
  have heq : first = 6 := Outcome.ok.inj (hfirst.symm.trans (by decide +kernel))
  have heq' : first' = 4 := Outcome.ok.inj (hfirst'.symm.trans (by decide +kernel))
  rw [heq, heq'] at hle
  exact absurd hle (by decide)

end RaftStorage

end IrohRaft
