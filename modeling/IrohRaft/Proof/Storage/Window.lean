import IrohRaft.Proof.Storage.Refine
import IrohRaft.Proof.Storage.Batch
import IrohRaft.Storage.Eraftpb

/-!
# Every index of the log is readable

As long as compaction stays below a stored snapshot's index and a snapshot does not leave a gap
below the log, the log is a window from `first_index` to `last_index`, and every index in it is
read. Both conditions are needed: `first_index` prefers the snapshot record, which `compact` does
not touch.
-/

namespace IrohRaft

open Rust Redb RaftLog

namespace RaftStorage

/-- Every index from the first to the last is read, as an entry and as a term. -/
def Readable (prost : ProstCodec Snapshot) (storage : RaftStorage) : Prop :=
  ∃ first last, firstIndex prost storage = .ok first ∧ lastIndex prost storage = .ok last ∧
    ∀ index, first ≤ index → index ≤ last →
      ∃ entry, (∀ high : UInt64, high.toNat = index.toNat + 1 → entries storage index high none = .ok [entry]) ∧
        entry.index = index ∧ term prost storage index = .ok entry.term

/-- A snapshot fits below the log, or meets an empty one; compaction does not pass a stored snapshot. -/
def KeepsWindow (prost : ProstCodec Snapshot) (storage : RaftStorage) : Op → Prop
  | .saveHardState _ => True
  | .append _ => True
  | .applySnapshot snapshot => ∀ metadata ∈ snapshot.metadata,
      metadata.index.toNat + 1 < 2 ^ 64 ∧
        (Table.first? storage.raftLogTable = none ∨
          (firstIndex prost storage).Returns fun first => first.toNat ≤ metadata.index.toNat + 1)
  | .compact compactIndex => ¬ SnapshotStored storage ∨ (firstIndex prost storage).Returns (compactIndex ≤ ·)

instance (prost : ProstCodec Snapshot) (storage : RaftStorage) (op : Op) : Decidable (KeepsWindow prost storage op) :=
  match op with
  | .saveHardState _ => isTrue trivial
  | .append _ => by
      dsimp only [KeepsWindow]
      infer_instance
  | .applySnapshot _ => by
      dsimp only [KeepsWindow]
      infer_instance
  | .compact _ => by
      dsimp only [KeepsWindow]
      infer_instance

/-- The tables show a log in order. -/
def Windowed (prost : ProstCodec Snapshot) (storage : RaftStorage) (first last : Nat) : Prop :=
  ∃ log, Shows prost storage log ∧ log.Window first last

variable {prost : ProstCodec Snapshot} {storage : RaftStorage} {first last : Nat}

/-! ### The bounds of a window -/

namespace Windowed

theorem firstIndex_iff (h : Windowed prost storage first last) {found : UInt64} :
    firstIndex prost storage = .ok found ↔ found.toNat = first := by
  obtain ⟨log, hshows, hwindow⟩ := h
  rw [hshows.firstIndex_iff]
  exact ⟨fun hfirst => hfirst.unique hwindow.isFirst, fun heq => heq ▸ hwindow.isFirst⟩

theorem lastIndex_iff (h : Windowed prost storage first last) {found : UInt64} :
    lastIndex prost storage = .ok found ↔ found.toNat = last := by
  obtain ⟨log, hshows, hwindow⟩ := h
  rw [hshows.lastIndex_iff]
  exact ⟨fun hlast => hlast.unique hwindow.isLast, fun heq => heq ▸ hwindow.isLast⟩

theorem firstIndex_returns (h : Windowed prost storage first last) {property : UInt64 → Prop}
    (hreturns : (firstIndex prost storage).Returns property) : ∃ found : UInt64, property found ∧ found.toNat = first := by
  obtain ⟨log, hshows, hwindow⟩ := h
  exact hshows.firstIndex_returns hwindow.isFirst hreturns

theorem lastIndex_returns (h : Windowed prost storage first last) {property : UInt64 → Prop}
    (hreturns : (lastIndex prost storage).Returns property) : ∃ found : UInt64, property found ∧ found.toNat = last := by
  obtain ⟨log, hshows, hwindow⟩ := h
  exact hshows.lastIndex_returns hwindow.isLast hreturns

/-! ### One operation -/

theorem append (h : Windowed prost storage first last) {batch : List Entry} (hcontiguous : Contiguous batch)
    {entry : Entry} (hhead : entry ∈ batch.head?) (hat : AppendsAt prost storage entry) :
    ∃ last', Windowed prost (append storage batch) first last' := by
  obtain ⟨head, hfirst, hfirstEq⟩ := h.firstIndex_returns hat.1
  obtain ⟨tail, hlast, hlastEq⟩ := h.lastIndex_returns hat.2
  obtain ⟨log, hshows, hwindow⟩ := h
  obtain ⟨rest, rfl⟩ : ∃ rest, batch = entry :: rest := by
    cases batch with
    | nil => cases hhead
    | cons other rest => exact ⟨rest, by rw [Option.some.inj hhead]⟩
  refine ⟨_, _, hshows.append (entry :: rest), hwindow.putAll (fun n => ?_) (Nat.le_add_right entry.index.toNat rest.length) ?_ ?_⟩
  · rw [← hcontiguous.exists_index_iff n]
    simp only [List.mem_map, exists_exists_and_eq_and, item]
  · have hle := UInt64.le_iff_toNat_le.mp hfirst
    omega
  · omega

theorem applySnapshot (h : Windowed prost storage first last) {snapshot : Snapshot} {metadata : SnapshotMetadata}
    (hmetadata : snapshot.metadata = some metadata)
    (hfits : Table.first? storage.raftLogTable = none ∨
      (firstIndex prost storage).Returns fun first => first.toNat ≤ metadata.index.toNat + 1) :
    ∃ last', Windowed prost (applySnapshot prost storage snapshot) (metadata.index.toNat + 1) last' := by
  have hreach : first ≤ metadata.index.toNat + 1 ∨ last < first := by
    cases hfits with
    | inl hempty =>
        obtain ⟨log, hshows, hwindow⟩ := h
        cases hshows.first?_cases with
        | inl hcase =>
            obtain ⟨_, hnone⟩ := hcase
            by_contra hcontra
            have hholds := (hwindow.holds_iff first).mpr ⟨Nat.le_refl _, by omega⟩
            exact hnone first hholds
        | inr hcase =>
            obtain ⟨key, hsome, _⟩ := hcase
            rw [hempty] at hsome
            cases hsome
    | inr hbelow =>
        obtain ⟨found, hle, rfl⟩ := h.firstIndex_returns hbelow
        exact Or.inl hle
  obtain ⟨log, hshows, hwindow⟩ := h
  exact ⟨_, _, hshows.applySnapshot hmetadata, hwindow.install hreach metadata.term⟩

theorem compact (h : Windowed prost storage first last) {compactIndex : UInt64}
    (hlegal : (lastIndex prost storage).Returns (compactIndex ≤ ·))
    (hkeeps : ¬ SnapshotStored storage ∨ (firstIndex prost storage).Returns (compactIndex ≤ ·)) :
    ∃ first', Windowed prost (compact storage compactIndex) first' last ∧ first' ≤ max first last := by
  obtain ⟨tail, hle, hlast⟩ := h.lastIndex_returns hlegal
  have hstored : compactIndex.toNat ≤ last := by
    have hnat := UInt64.le_iff_toNat_le.mp hle
    omega
  have hbelow : ∀ log, Shows prost storage log → log.base = none ∨ compactIndex.toNat ≤ first := by
    intro log hshows
    cases hkeeps with
    | inl hnone =>
        rw [hshows.snapshotStored_iff, not_not] at hnone
        exact Or.inl hnone
    | inr hfirst =>
        obtain ⟨head, hhead, rfl⟩ := h.firstIndex_returns hfirst
        exact Or.inr (UInt64.le_iff_toNat_le.mp hhead)
  obtain ⟨log, hshows, hwindow⟩ := h
  refine ⟨_, ⟨_, hshows.compact compactIndex, hwindow.compact hstored (hbelow log hshows)⟩, ?_⟩
  split <;> omega

theorem last_lt (h : Windowed prost storage first last) : last < 2 ^ 64 := by
  obtain ⟨log, hshows, hwindow⟩ := h
  obtain ⟨found, _, hlast⟩ := hshows.exists_lastIndex
  rw [hwindow.isLast.unique hlast]
  exact found.toNat_lt

end Windowed

/-- The log is in order, and its first index fits. -/
def InOrder (prost : ProstCodec Snapshot) (storage : RaftStorage) : Prop :=
  ∃ first last, Windowed prost storage first last ∧ first < 2 ^ 64

/-- A legal operation that keeps the window leaves the log in order. -/
theorem inOrder_exec {op : Op} (h : InOrder prost storage) (hlegal : Legal prost storage op)
    (hkeeps : KeepsWindow prost storage op) : InOrder prost (exec prost storage op) := by
  obtain ⟨first, last, hwindowed, hlt⟩ := h
  cases op with
  | saveHardState hardState =>
      obtain ⟨log, hshows, hwindow⟩ := hwindowed
      exact ⟨first, last, ⟨log, shows_exec hshows (.saveHardState hardState), hwindow⟩, hlt⟩
  | append batch =>
      obtain ⟨hcontiguous, entry, hhead, hat⟩ := hlegal
      obtain ⟨last', happend⟩ := hwindowed.append hcontiguous hhead hat
      exact ⟨first, last', happend, hlt⟩
  | applySnapshot snapshot =>
      cases hmetadata : snapshot.metadata with
      | none =>
          refine ⟨first, last, ?_, hlt⟩
          simpa only [exec, RaftStorage.applySnapshot, hmetadata] using hwindowed
      | some metadata =>
          obtain ⟨hfits, hbelow⟩ := hkeeps metadata hmetadata
          obtain ⟨last', hinstall⟩ := hwindowed.applySnapshot hmetadata hbelow
          exact ⟨_, last', hinstall, hfits⟩
  | compact compactIndex =>
      obtain ⟨first', hcompact, hle⟩ := hwindowed.compact hlegal hkeeps
      have hlast := hwindowed.last_lt
      exact ⟨first', last, hcompact, by omega⟩

/-! ### Reading a window -/

theorem entries_singleton {index high : UInt64} {data : Bytes} {entry : Entry} (hhigh : high.toNat = index.toNat + 1)
    (hget : storage.raftLogTable[index]? = some data) (hread : deserializeEntry data = .ok entry) :
    entries storage index high none = .ok [entry] := by
  have hcount : high.toNat - index.toNat = 1 := by omega
  have hfits : ¬ UInt64.ofNat data.length > UInt64.ofNat (2 ^ 64 - 1) := by
    rw [gt_iff_lt, UInt64.lt_iff_toNat_lt, UInt64.toNat_ofNat_of_lt' (show 2 ^ 64 - 1 < 2 ^ 64 by decide)]
    have hlt := (UInt64.ofNat data.length).toNat_lt
    omega
  simp only [entries, Option.getD_none, hcount, entriesLoop, hget, u64Add_zero_left, Outcome.ok_bind, if_neg hfits, hread,
    Outcome.mapErr_ok, List.nil_append, Outcome.pure_eq_ok]

theorem InOrder.readable (h : InOrder prost storage) : Readable prost storage := by
  obtain ⟨first, last, h, hlt⟩ := h
  have hfirst : (UInt64.ofNat first).toNat = first := UInt64.toNat_ofNat_of_lt' hlt
  have hlast : (UInt64.ofNat last).toNat = last := UInt64.toNat_ofNat_of_lt' h.last_lt
  refine ⟨UInt64.ofNat first, UInt64.ofNat last, h.firstIndex_iff.mpr hfirst, h.lastIndex_iff.mpr hlast, ?_⟩
  intro index hge hle
  rw [UInt64.le_iff_toNat_le, hfirst] at hge
  rw [UInt64.le_iff_toNat_le, hlast] at hle
  obtain ⟨log, hshows, hwindow⟩ := h
  have hmem := (hshows.mem_iff index).mpr ((hwindow.holds_iff index.toNat).mpr ⟨hge, hle⟩)
  obtain ⟨data, hget⟩ := Table.mem_iff_getElem?.mp hmem
  obtain ⟨entry, hread, hindex, hentry⟩ := hshows.entries.stored index data hget
  refine ⟨entry, fun high hhigh => entries_singleton hhigh hget hread, hindex, ?_⟩
  have hone := hwindow.one_le
  have hterm : log.term index.toNat = some entry.term := by
    rw [Log.term, if_neg (by omega)]
    cases hbase : log.base with
    | none => exact hentry
    | some pair =>
        have hbelow := hwindow.base_eq _ _ hbase
        simp only
        rw [if_neg (by omega)]
        exact hentry
  rw [hshows.term_eq, hterm]

/-- **Every index of the log is readable** after every run whose operations keep the window. -/
theorem run_readable (prost : ProstCodec Snapshot) (ops : List Op)
    (h : Run.Follows (exec prost) (fun storage op => Legal prost storage op ∧ KeepsWindow prost storage op) (new {}) ops) :
    Readable prost (run prost ops) := by
  have hstart : InOrder prost (new {}) := ⟨1, 0, ⟨Log.empty, shows_new, Log.Window.of_empty⟩, by decide⟩
  have hend := h.invariant (InOrder prost) (fun _ _ horder hop => inOrder_exec horder hop.1 hop.2) hstart
  exact hend.readable

theorem run_readable_compacted :
    Readable prostSnapshot (run prostSnapshot
      [.append [.noop 1 1, .noop 2 1, .noop 3 2], .compact 2, .applySnapshot (.bare 2 1), .append [.noop 3 4]]) :=
  run_readable _ _ (by decide +kernel)

/-- Compacting past a snapshot leaves `first_index` where nothing is stored. -/
theorem not_run_readable :
    ¬ ∀ (prost : ProstCodec Snapshot) (ops : List Op),
      Run.Follows (exec prost) (fun storage op => Legal prost storage op ∧ CarriesMetadata op) (new {}) ops →
        Readable prost (run prost ops) := by
  intro hreadable
  obtain ⟨first, last, hfirst, hlast, hread⟩ := hreadable prostSnapshot
    [.applySnapshot (.bare 1 1), .append [.noop 2 1, .noop 3 1], .compact 3] (by decide +kernel)
  have hfirst' : first = 2 := Outcome.ok.inj (hfirst.symm.trans (by decide +kernel))
  have hlast' : last = 3 := Outcome.ok.inj (hlast.symm.trans (by decide +kernel))
  subst hfirst' hlast'
  obtain ⟨entry, hentries, _⟩ := hread 2 (by decide) (by decide)
  have hmissing := (hentries 3 (by decide)).symm.trans (show _ = Outcome.err StorageError.unavailable by decide +kernel)
  cases hmissing

end RaftStorage

end IrohRaft
