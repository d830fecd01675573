import IrohRaft.Library.Log
import IrohRaft.Storage.Ops
import IrohRaft.Proof.Storage.EntryCodec
import Mathlib.Data.UInt

/-!
# The storage refines a log

`Shows prost storage log` relates the tables to the abstract log: what an index decodes to has that
index and the term the log has there, and the snapshot record is where the log stands. Every write
is the log's own operation (`shows_exec`), and the reads are functions of the log (`firstIndex_iff`,
`lastIndex_iff`, `term_eq`). Entries of any size are covered: a stored entry always decodes, with its
own index and term.
-/

namespace IrohRaft

open Rust Redb RaftLog

namespace RaftStorage

/-- A log table and the terms it shows. -/
structure ShowsEntries (table : Table UInt64) (entry : Nat → Option UInt64) : Prop where
  stored : ∀ (key : UInt64) (data : Bytes), table[key]? = some data →
    ∃ found, deserializeEntry data = .ok found ∧ found.index = key ∧ entry key.toNat = some found.term
  absent : ∀ key : UInt64, table[key]? = none → entry key.toNat = none
  bounded : ∀ n, entry n ≠ none → n < 2 ^ 64

/-- The snapshot record and the index and term it shows. -/
def ShowsBase (prost : ProstCodec Snapshot) (storage : RaftStorage) : Option (Nat × UInt64) → Prop
  | none => storage.snapshotTable[snapshotKey]? = none
  | some (index, term) => ∃ (data : Bytes) (confState : Option ConfState) (position : UInt64), position.toNat = index ∧
      storage.snapshotTable[snapshotKey]? = some (serializeSnapshot prost ⟨data, some ⟨confState, position, term⟩⟩)

structure Shows (prost : ProstCodec Snapshot) (storage : RaftStorage) (log : Log UInt64) : Prop where
  entries : ShowsEntries storage.raftLogTable log.entry
  base : ShowsBase prost storage log.base

/-! ### Tables -/

namespace ShowsEntries

variable {table : Table UInt64} {entry : Nat → Option UInt64}

theorem mem_iff (h : ShowsEntries table entry) (key : UInt64) : key ∈ table ↔ entry key.toNat ≠ none := by
  rw [Table.mem_iff_getElem?]
  apply Iff.intro
  · intro hsome hnone
    obtain ⟨data, hget⟩ := hsome
    obtain ⟨found, _, _, hentry⟩ := h.stored key data hget
    rw [hentry] at hnone
    cases hnone
  · intro hentry
    cases hget : table[key]? with
    | some data => exact ⟨data, rfl⟩
    | none => exact absurd (h.absent key hget) hentry

/-- Every index the log holds is a key. -/
theorem exists_key (h : ShowsEntries table entry) {n : Nat} (hn : entry n ≠ none) :
    ∃ key ∈ table, key.toNat = n := by
  have hlt := h.bounded n hn
  have hkey : (UInt64.ofNat n).toNat = n := UInt64.toNat_ofNat_of_lt' hlt
  exact ⟨UInt64.ofNat n, (h.mem_iff _).mpr (by rwa [hkey]), hkey⟩

theorem empty : ShowsEntries ∅ fun _ => none where
  stored key data hget := by
    rw [Std.ExtTreeMap.getElem?_empty] at hget
    cases hget
  absent _ _ := rfl
  bounded _ hentry := absurd rfl hentry

theorem insert (h : ShowsEntries table entry) (new : Entry) :
    ShowsEntries (table.insert new.index (serializeEntry new))
      (Function.update entry new.index.toNat (some new.term)) where
  stored key data hget := by
    by_cases heq : new.index = key
    · subst heq
      rw [Table.getElem?_insert_self] at hget
      obtain ⟨found, hread, hindex, hterm, _⟩ := deserializeEntry_serializeEntry_lossy new
      rw [← Option.some.inj hget, Function.update_self, ← hterm]
      exact ⟨found, hread, hindex, rfl⟩
    · rw [Table.getElem?_insert_of_ne heq] at hget
      obtain ⟨found, hread, hindex, hentry⟩ := h.stored key data hget
      refine ⟨found, hread, hindex, ?_⟩
      rwa [Function.update_of_ne (fun hnat => heq (UInt64.toNat_inj.mp hnat.symm))]
  absent key hget := by
    by_cases heq : new.index = key
    · subst heq
      rw [Table.getElem?_insert_self] at hget
      cases hget
    · rw [Table.getElem?_insert_of_ne heq] at hget
      rw [Function.update_of_ne (fun hnat => heq (UInt64.toNat_inj.mp hnat.symm))]
      exact h.absent key hget
  bounded n hentry := by
    by_cases heq : n = new.index.toNat
    · rw [heq]
      exact new.index.toNat_lt
    · rw [Function.update_of_ne heq] at hentry
      exact h.bounded n hentry

theorem remove (h : ShowsEntries table entry) {inRange : UInt64 → Bool} {below : Nat → Prop} [DecidablePred below]
    (hrange : ∀ key, inRange key = true ↔ below key.toNat) :
    ShowsEntries (Table.removeAll table (Table.keysIn table inRange)) fun n => if below n then none else entry n where
  stored key data hget := by
    rw [Table.getElem?_removeAll_keysIn] at hget
    by_cases hbelow : below key.toNat
    · rw [if_pos ((hrange key).mpr hbelow)] at hget
      cases hget
    · rw [if_neg (fun hin => hbelow ((hrange key).mp hin))] at hget
      simp only [if_neg hbelow]
      exact h.stored key data hget
  absent key hget := by
    rw [Table.getElem?_removeAll_keysIn] at hget
    by_cases hbelow : below key.toNat
    · exact if_pos hbelow
    · rw [if_neg (fun hin => hbelow ((hrange key).mp hin))] at hget
      simp only [if_neg hbelow]
      exact h.absent key hget
  bounded n hentry := by
    by_cases hbelow : below n
    · exact absurd (if_pos hbelow) hentry
    · simp only [if_neg hbelow] at hentry
      exact h.bounded n hentry

end ShowsEntries

/-- The index and term an entry puts into the log. -/
def item (entry : Entry) : Nat × UInt64 := (entry.index.toNat, entry.term)

theorem holds_putAll_item {log : Log UInt64} {entries : List Entry} {n : Nat} :
    (log.putAll (entries.map item)).Holds n ↔ (∃ entry ∈ entries, entry.index.toNat = n) ∨ log.Holds n := by
  rw [Log.holds_putAll]
  simp only [List.mem_map, exists_exists_and_eq_and, item]

theorem ShowsEntries.insertAll {table : Table UInt64} {log : Log UInt64} (h : ShowsEntries table log.entry)
    (entries : List Entry) :
    ShowsEntries (Table.insertAll Entry.index serializeEntry table entries) (log.putAll (entries.map item)).entry := by
  induction entries generalizing table log with
  | nil => exact h
  | cons entry entries ih =>
      rw [Table.insertAll_cons, List.map_cons, Log.putAll_cons]
      exact ih (h.insert entry)

/-! ### Writes -/

/-- What an operation does to the log. -/
def logExec (log : Log UInt64) : Op → Log UInt64
  | .saveHardState _ => log
  | .append entries => log.putAll (entries.map item)
  | .applySnapshot snapshot =>
      match snapshot.metadata with
      | some metadata => log.install metadata.index.toNat metadata.term
      | none => log
  | .compact compactIndex => log.compact compactIndex.toNat

variable {prost : ProstCodec Snapshot} {storage : RaftStorage} {log : Log UInt64}

theorem append_raftLogTable (storage : RaftStorage) (entries : List Entry) :
    (append storage entries).raftLogTable =
      Table.insertAll Entry.index serializeEntry storage.raftLogTable entries := by
  cases entries <;> rfl

theorem append_snapshotTable (storage : RaftStorage) (entries : List Entry) :
    (append storage entries).snapshotTable = storage.snapshotTable := by
  cases entries <;> rfl

theorem shows_new : Shows prost (new {}) Log.empty where
  entries := ShowsEntries.empty
  base := Std.ExtTreeMap.getElem?_empty

theorem Shows.append (h : Shows prost storage log) (entries : List Entry) :
    Shows prost (append storage entries) (log.putAll (entries.map item)) where
  entries := by
    rw [append_raftLogTable]
    exact h.entries.insertAll entries
  base := by
    have hbase := h.base
    rw [Log.putAll_base]
    unfold ShowsBase at hbase ⊢
    rwa [append_snapshotTable]

theorem Shows.applySnapshot (h : Shows prost storage log) {snapshot : Snapshot} {metadata : SnapshotMetadata}
    (hmetadata : snapshot.metadata = some metadata) :
    Shows prost (applySnapshot prost storage snapshot) (log.install metadata.index.toNat metadata.term) := by
  obtain ⟨data, _⟩ := snapshot
  obtain rfl : _ = some metadata := hmetadata
  refine ⟨h.entries.remove fun key => ?_, data, metadata.confState, metadata.index, rfl, ?_⟩
  · rw [decide_eq_true_iff, UInt64.le_iff_toNat_le]
  · exact Table.getElem?_insert_self _ _ _

theorem Shows.compact (h : Shows prost storage log) (compactIndex : UInt64) :
    Shows prost (compact storage compactIndex) (log.compact compactIndex.toNat) where
  entries := h.entries.remove fun key => by rw [decide_eq_true_iff, UInt64.lt_iff_toNat_lt]
  base := h.base

/-- One operation of the storage is one operation of the log. -/
theorem shows_exec (h : Shows prost storage log) (op : Op) : Shows prost (exec prost storage op) (logExec log op) := by
  cases op with
  | saveHardState hardState => exact ⟨h.entries, h.base⟩
  | append entries => exact h.append entries
  | applySnapshot snapshot =>
      cases hmetadata : snapshot.metadata with
      | none => simpa only [exec, RaftStorage.applySnapshot, logExec, hmetadata] using h
      | some metadata =>
          have hshows := h.applySnapshot hmetadata
          simpa only [exec, logExec, hmetadata] using hshows
  | compact compactIndex => exact h.compact compactIndex

/-- So a whole run is a run of the log. -/
theorem shows_run (prost : ProstCodec Snapshot) (ops : List Op) :
    Shows prost (run prost ops) (Run.final logExec Log.empty ops) :=
  Run.final_related (exec prost) logExec (Shows prost) (fun _ _ op h => shows_exec h op) shows_new ops

/-! ### Reads -/

theorem Shows.mem_iff (h : Shows prost storage log) (key : UInt64) : key ∈ storage.raftLogTable ↔ log.Holds key.toNat :=
  h.entries.mem_iff key

theorem Shows.snapshotStored_iff (h : Shows prost storage log) : SnapshotStored storage ↔ log.base ≠ none := by
  have hbase := h.base
  rw [SnapshotStored, Table.mem_iff_getElem?]
  unfold ShowsBase at hbase
  split at hbase
  · rename_i hnone
    rw [hbase, hnone]
    simp
  · rename_i hsome
    obtain ⟨data, confState, position, _, hget⟩ := hbase
    rw [hget, hsome]
    simp

theorem Shows.readSnapshot_of_none (h : Shows prost storage log) (hbase : log.base = none) :
    readSnapshot prost storage = .ok none := by
  have hshows := h.base
  rw [hbase, ShowsBase] at hshows
  rw [readSnapshot, hshows]
  rfl

theorem Shows.readSnapshot_of_some (h : Shows prost storage log) {index : Nat} {term : UInt64}
    (hbase : log.base = some (index, term)) : ∃ snapshot confState position, readSnapshot prost storage = .ok (some snapshot) ∧
      snapshot.metadata = some ⟨confState, position, term⟩ ∧ position.toNat = index := by
  have hshows := h.base
  rw [hbase, ShowsBase] at hshows
  obtain ⟨data, confState, position, hindex, hget⟩ := hshows
  refine ⟨⟨data, some ⟨confState, position, term⟩⟩, confState, position, ?_, rfl, hindex⟩
  rw [readSnapshot, hget]
  simp only [deserializeSnapshot_serializeSnapshot, Outcome.mapErr_ok]
  rfl

/-- No key at all, or a first and a last one. -/
theorem Shows.first?_cases (h : Shows prost storage log) :
    (Table.first? storage.raftLogTable = none ∧ ∀ n, ¬ log.Holds n) ∨
      ∃ key, Table.first? storage.raftLogTable = some key ∧ log.Holds key.toNat ∧ ∀ n, log.Holds n → key.toNat ≤ n := by
  cases hfirst : Table.first? storage.raftLogTable with
  | none =>
      refine Or.inl ⟨rfl, fun n hn => ?_⟩
      obtain ⟨key, hmem, _⟩ := h.entries.exists_key hn
      exact Table.first?_eq_none_iff.mp hfirst key hmem
  | some key =>
      obtain ⟨hmem, hleast⟩ := Table.first?_eq_some_iff.mp hfirst
      refine Or.inr ⟨key, rfl, (h.mem_iff key).mp hmem, fun n hn => ?_⟩
      obtain ⟨other, hother, rfl⟩ := h.entries.exists_key hn
      exact UInt64.le_iff_toNat_le.mp (hleast other hother)

theorem Shows.last?_cases (h : Shows prost storage log) :
    (Table.last? storage.raftLogTable = none ∧ ∀ n, ¬ log.Holds n) ∨
      ∃ key, Table.last? storage.raftLogTable = some key ∧ log.Holds key.toNat ∧ ∀ n, log.Holds n → n ≤ key.toNat := by
  cases hlast : Table.last? storage.raftLogTable with
  | none =>
      refine Or.inl ⟨rfl, fun n hn => ?_⟩
      obtain ⟨key, hmem, _⟩ := h.entries.exists_key hn
      exact Table.last?_eq_none_iff.mp hlast key hmem
  | some key =>
      obtain ⟨hmem, hgreatest⟩ := Table.last?_eq_some_iff.mp hlast
      refine Or.inr ⟨key, rfl, (h.mem_iff key).mp hmem, fun n hn => ?_⟩
      obtain ⟨other, hother, rfl⟩ := h.entries.exists_key hn
      exact UInt64.le_iff_toNat_le.mp (hgreatest other hother)

/-- `first_index` reads the log's first index, unless the one after its snapshot does not fit. -/
theorem Shows.exists_firstIndex
    (h : Shows prost storage log) (hbase : ∀ index term, log.base = some (index, term) → index + 1 < 2 ^ 64) :
    ∃ first, firstIndex prost storage = .ok first ∧ log.IsFirst first.toNat := by
  cases hcase : log.base with
  | some pair =>
      obtain ⟨index, term⟩ := pair
      obtain ⟨snapshot, confState, position, hread, hmetadata, rfl⟩ := h.readSnapshot_of_some hcase
      have hlt : position.toNat + (1 : UInt64).toNat < 2 ^ 64 := hbase _ _ hcase
      refine ⟨position + 1, ?_, (Log.isFirst_of_base hcase).mpr (toNat_add_of_lt hlt)⟩
      simp only [firstIndex, hread, Outcome.ok_bind, Option.bind_some, hmetadata, u64Add_of_lt hlt]
  | none =>
      cases h.first?_cases with
      | inl hcase =>
          obtain ⟨hfirst, hnone⟩ := hcase
          refine ⟨1, ?_, (Log.isFirst_of_no_base hcase).mpr (Or.inr ⟨hnone, rfl⟩)⟩
          simp only [firstIndex, h.readSnapshot_of_none hcase, Outcome.ok_bind, Option.bind_none, hfirst, Outcome.pure_eq_ok]
      | inr hcase =>
          obtain ⟨key, hfirst, hholds, hleast⟩ := hcase
          refine ⟨key, ?_, (Log.isFirst_of_no_base hcase).mpr (Or.inl ⟨hholds, hleast⟩)⟩
          simp only [firstIndex, h.readSnapshot_of_none hcase, Outcome.ok_bind, Option.bind_none, hfirst, Outcome.pure_eq_ok]

theorem Shows.firstIndex_iff (h : Shows prost storage log) {first : UInt64} :
    firstIndex prost storage = .ok first ↔ log.IsFirst first.toNat := by
  by_cases hbase : ∀ index term, log.base = some (index, term) → index + 1 < 2 ^ 64
  · obtain ⟨found, hread, hfirst⟩ := h.exists_firstIndex hbase
    rw [hread]
    apply Iff.intro
    · intro heq
      rwa [← Outcome.ok.inj heq]
    · intro hfirst'
      rw [UInt64.toNat_inj.mp (hfirst.unique hfirst')]
  -- the index after the snapshot overflows
  · simp only [not_forall] at hbase
    obtain ⟨index, term, hcase, hge⟩ := hbase
    obtain ⟨snapshot, confState, position, hread, hmetadata, rfl⟩ := h.readSnapshot_of_some hcase
    have hover : ¬ position.toNat + (1 : UInt64).toNat < 2 ^ 64 := hge
    have hpanic : firstIndex prost storage = .panic := by
      simp only [firstIndex, hread, Outcome.ok_bind, Option.bind_some, hmetadata, u64Add, if_neg hover]
    rw [hpanic, Log.isFirst_of_base hcase]
    have hlt := first.toNat_lt
    apply Iff.intro
    · intro heq
      cases heq
    · intro heq
      omega

/-- `last_index` always reads the log's last index. -/
theorem Shows.exists_lastIndex (h : Shows prost storage log) :
    ∃ last, lastIndex prost storage = .ok last ∧ log.IsLast last.toNat := by
  cases h.last?_cases with
  | inl hcase =>
      obtain ⟨hlast, hnone⟩ := hcase
      cases hcase : log.base with
      | some pair =>
          obtain ⟨snapshot, confState, position, hread, hmetadata, hindex⟩ := h.readSnapshot_of_some hcase
          refine ⟨position, ?_, Or.inr ⟨hnone, ?_⟩⟩
          · simp only [lastIndex, hlast, hread, Outcome.ok_bind, Option.bind_some, hmetadata, Outcome.pure_eq_ok]
          · rw [hcase, hindex]
      | none =>
          refine ⟨0, ?_, Or.inr ⟨hnone, ?_⟩⟩
          · simp only [lastIndex, hlast, h.readSnapshot_of_none hcase, Outcome.ok_bind, Option.bind_none, Outcome.pure_eq_ok]
          · rw [hcase]
            rfl
  | inr hcase =>
      obtain ⟨key, hlast, hholds, hgreatest⟩ := hcase
      refine ⟨key, ?_, Or.inl ⟨hholds, hgreatest⟩⟩
      simp only [lastIndex, hlast, Outcome.pure_eq_ok]

theorem Shows.lastIndex_iff (h : Shows prost storage log) {last : UInt64} :
    lastIndex prost storage = .ok last ↔ log.IsLast last.toNat := by
  obtain ⟨found, hread, hlast⟩ := h.exists_lastIndex
  rw [hread]
  apply Iff.intro
  · intro heq
    rwa [← Outcome.ok.inj heq]
  · intro hlast'
    rw [UInt64.toNat_inj.mp (hlast.unique hlast')]

/-- What `first_index` is checked against is checked against the log's first index. -/
theorem Shows.firstIndex_returns (h : Shows prost storage log) {first : Nat} (hfirst : log.IsFirst first)
    {property : UInt64 → Prop} (hreturns : (firstIndex prost storage).Returns property) :
    ∃ found : UInt64, property found ∧ found.toNat = first := by
  obtain ⟨found, hread, hproperty⟩ := Outcome.returns_iff.mp hreturns
  exact ⟨found, hproperty, (h.firstIndex_iff.mp hread).unique hfirst⟩

theorem Shows.lastIndex_returns (h : Shows prost storage log) {last : Nat} (hlast : log.IsLast last)
    {property : UInt64 → Prop} (hreturns : (lastIndex prost storage).Returns property) :
    ∃ found : UInt64, property found ∧ found.toNat = last := by
  obtain ⟨found, hread, hproperty⟩ := Outcome.returns_iff.mp hreturns
  exact ⟨found, hproperty, (h.lastIndex_iff.mp hread).unique hlast⟩

theorem Shows.logTerm_eq (h : Shows prost storage log) (index : UInt64) :
    logTerm storage index =
      match log.entry index.toNat with
      | some term => .ok term
      | none => .err .unavailable := by
  rw [logTerm]
  cases hget : storage.raftLogTable[index]? with
  | some data =>
      obtain ⟨found, hread, _, hentry⟩ := h.entries.stored index data hget
      rw [hentry]
      simp only [hread, Outcome.mapErr_ok, Outcome.ok_bind, Outcome.pure_eq_ok]
  | none =>
      rw [h.entries.absent index hget]
      rfl

/-- `term` is the log's term, or `Unavailable`. -/
theorem Shows.term_eq (h : Shows prost storage log) (index : UInt64) :
    term prost storage index =
      match log.term index.toNat with
      | some term => .ok term
      | none => .err .unavailable := by
  rw [term, Log.term]
  by_cases hzero : index = 0
  · subst hzero
    rfl
  have hnat : index.toNat ≠ 0 := fun heq => hzero (UInt64.toNat_inj.mp heq)
  rw [if_neg hzero, if_neg hnat]
  cases hcase : log.base with
  | none =>
      simp only [h.readSnapshot_of_none hcase, Outcome.ok_bind, Option.bind_none]
      exact h.logTerm_eq index
  | some pair =>
      obtain ⟨snapshot, confState, position, hread, hmetadata, hindex⟩ := h.readSnapshot_of_some hcase
      simp only [hread, Outcome.ok_bind, Option.bind_some, hmetadata]
      by_cases heq : index = position
      · rw [if_pos heq, if_pos (by rw [heq, hindex])]
        rfl
      · rw [if_neg heq, if_neg (fun hnat' => heq (UInt64.toNat_inj.mp (hnat'.trans hindex.symm)))]
        exact h.logTerm_eq index

end RaftStorage

end IrohRaft
