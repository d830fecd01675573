import IrohRaft.Proof.Storage.EntryCodec
import IrohRaft.Proof.Storage.Batch
import IrohRaft.Storage.Redb
import IrohRaft.Storage.Eraftpb

/-!
# What an append leaves in the log

Both storages insert the entries of a batch under their indices and remove nothing. So the log is the
old entries below the batch followed by the batch exactly when no old entry lies above it (and the
codec keeps the batch): a conflicting suffix stays.
-/

namespace IrohRaft

open Rust Redb

/-- The log is exactly these entries, in the order of their indices. -/
structure LogIs (decode : Bytes → Outcome RaftError Entry) (table : Table UInt64) (entries : List Entry) : Prop where
  sorted : entries.Pairwise fun a b => a.index.toNat < b.index.toNat
  stored : ∀ entry ∈ entries, ∃ data, table[entry.index]? = some data ∧ decode data = .ok entry
  only : ∀ key ∈ table, ∃ entry ∈ entries, entry.index = key

/-- The old entries below the batch, then the batch. -/
def spliced (old batch : List Entry) (hne : batch ≠ []) : List Entry :=
  old.filter (fun entry => entry.index < (batch.head hne).index) ++ batch

variable {decode : Bytes → Outcome RaftError Entry} {table : Table UInt64}
  {old batch : List Entry}

theorem logIs_empty : LogIs decode ∅ [] where
  sorted := List.Pairwise.nil
  stored _ hmem := nomatch hmem
  only _ hmem := absurd hmem Std.ExtTreeMap.not_mem_empty

/-- A log that is not empty ends with its last entry. -/
theorem LogIs.last?_eq (h : LogIs decode table old) (hne : old ≠ []) :
    Table.last? table = some (old.getLast hne).index := by
  rw [Table.last?_eq_some_iff]
  refine ⟨?_, ?_⟩
  · obtain ⟨data, hget, _⟩ := h.stored _ (List.getLast_mem hne)
    exact Table.mem_iff_getElem?.mpr ⟨data, hget⟩
  · intro key hmem
    obtain ⟨entry, hentry, rfl⟩ := h.only key hmem
    rw [UInt64.le_iff_toNat_le]
    have hsplit := List.dropLast_append_getLast hne
    rw [← hsplit] at hentry
    cases List.mem_append.mp hentry with
    | inl hinit =>
        have hsorted := h.sorted
        rw [← hsplit, List.pairwise_append] at hsorted
        exact Nat.le_of_lt (hsorted.2.2 entry hinit _ (List.mem_singleton_self _))
    | inr hlast => exact Nat.le_of_eq (congrArg (fun e : Entry => e.index.toNat) (List.mem_singleton.mp hlast))

theorem spliced_sorted (hold : LogIs decode table old) (hbatch : Contiguous batch) (hne : batch ≠ []) :
    (spliced old batch hne).Pairwise fun a b => a.index.toNat < b.index.toNat := by
  rw [spliced, List.pairwise_append]
  refine ⟨hold.sorted.filter _, hbatch.pairwise, fun a ha b hb => ?_⟩
  have hbelow := of_decide_eq_true (List.mem_filter.mp ha).2
  rw [UInt64.lt_iff_toNat_lt] at hbelow
  obtain ⟨entry, rest, rfl⟩ := List.exists_cons_of_ne_nil hne
  have hbounds := (hbatch.exists_index_iff b.index.toNat).mp ⟨b, hb, rfl⟩
  rw [List.head_cons] at hbelow
  omega

/-- **Inserting a batch splices it into the log** exactly when the codec keeps it and nothing lies
above it. -/
theorem logIs_insertAll_iff
    (encode : Entry → Bytes) (hold : LogIs decode table old) (hbatch : Contiguous batch) (hne : batch ≠ []) :
    LogIs decode (Table.insertAll Entry.index encode table batch) (spliced old batch hne) ↔
      (∀ entry ∈ batch, decode (encode entry) = .ok entry) ∧
        ∀ entry ∈ old, entry.index ≤ (batch.getLast hne).index := by
  obtain ⟨first, rest, rfl⟩ := List.exists_cons_of_ne_nil hne
  have hdistinct : (first :: rest).Pairwise fun a b => a.index ≠ b.index :=
    hbatch.pairwise.imp fun hlt heq => by rw [heq] at hlt; exact Nat.lt_irrefl _ hlt
  have hinside : ∀ entry ∈ first :: rest,
      (Table.insertAll Entry.index encode table (first :: rest))[entry.index]? = some (encode entry) :=
    fun entry hmem => Table.getElem?_insertAll_of_mem Entry.index encode table hdistinct hmem
  have hlast := hbatch.index_getLast
  apply Iff.intro
  · intro hlog
    refine ⟨?_, ?_⟩
    · intro entry hmem
      obtain ⟨data, hget, hread⟩ := hlog.stored entry (List.mem_append_right _ hmem)
      rw [hinside entry hmem] at hget
      rwa [Option.some.inj hget]
    · intro entry hmem
      obtain ⟨data, hget, _⟩ := hold.stored entry hmem
      have hkey : entry.index ∈ Table.insertAll Entry.index encode table (first :: rest) :=
        (Table.mem_insertAll Entry.index encode table _).mpr (Or.inl (Table.mem_iff_getElem?.mpr ⟨data, hget⟩))
      obtain ⟨found, hfound, hindex⟩ := hlog.only _ hkey
      rw [← hindex, UInt64.le_iff_toNat_le, hlast]
      cases List.mem_append.mp hfound with
      | inl hbelow =>
          have hlt := of_decide_eq_true (List.mem_filter.mp hbelow).2
          rw [UInt64.lt_iff_toNat_lt, List.head_cons] at hlt
          omega
      | inr hbatchMem => exact ((hbatch.exists_index_iff _).mp ⟨found, hbatchMem, rfl⟩).2
  · intro hbatchKept
    obtain ⟨hkeeps, habove⟩ := hbatchKept
    refine ⟨spliced_sorted hold hbatch hne, fun entry hmem => ?_, fun key hkey => ?_⟩
    · cases List.mem_append.mp hmem with
      | inl hbelow =>
          -- below the batch, nothing was inserted
          obtain ⟨hentry, hlt⟩ := List.mem_filter.mp hbelow
          have hlt' := UInt64.lt_iff_toNat_lt.mp (of_decide_eq_true hlt)
          rw [List.head_cons] at hlt'
          obtain ⟨data, hget, hread⟩ := hold.stored entry hentry
          refine ⟨data, ?_, hread⟩
          rw [Table.getElem?_insertAll_of_not_mem Entry.index encode table _ (fun other hother heq => ?_), hget]
          have hbounds := (hbatch.exists_index_iff _).mp ⟨other, hother, rfl⟩
          rw [heq] at hbounds
          omega
      | inr hbatchMem => exact ⟨encode entry, hinside entry hbatchMem, hkeeps entry hbatchMem⟩
    · cases (Table.mem_insertAll Entry.index encode table _).mp hkey with
      | inl hmem =>
          obtain ⟨entry, hentry, rfl⟩ := hold.only key hmem
          by_cases hlt : entry.index < first.index
          · exact ⟨entry, List.mem_append_left _ (List.mem_filter.mpr ⟨hentry, decide_eq_true hlt⟩), rfl⟩
          -- at or above its start an old index lies inside the batch
          · have hle := UInt64.le_iff_toNat_le.mp (habove entry hentry)
            rw [UInt64.lt_iff_toNat_lt] at hlt
            rw [hlast] at hle
            obtain ⟨found, hfound, hindex⟩ := (hbatch.exists_index_iff entry.index.toNat).mpr ⟨by omega, hle⟩
            exact ⟨found, List.mem_append_right _ hfound, UInt64.toNat_inj.mp hindex⟩
      | inr hcase =>
          obtain ⟨entry, hentry, heq⟩ := hcase
          exact ⟨entry, List.mem_append_right _ hentry, heq⟩

theorem spliced_ne_nil (hne : batch ≠ []) : spliced old batch hne ≠ [] := by
  intro hnil
  exact hne (List.append_eq_nil_iff.mp hnil).2

theorem LogIs.last?_spliced {hne : batch ≠ []} (h : LogIs decode table (spliced old batch hne)) :
    Table.last? table = some (batch.getLast hne).index := by
  rw [h.last?_eq (spliced_ne_nil hne)]
  congr 2
  exact List.getLast_append_of_ne_nil _ hne

/-! ### The older storage -/

namespace RedbRaftStorage

/-- The bytes the codec writes for an entry. -/
def bytesOf (codec : RaftCodec) (entry : Entry) : Bytes :=
  match codec.serializeEntry entry with
  | .ok data => data
  | _ => []

theorem insertEntries_eq {codec : RaftCodec} (table : Table UInt64) {batch : List Entry}
    (hcodec : ∀ entry ∈ batch, codec.Preserves entry) :
    insertEntries codec table batch = .ok (Table.insertAll Entry.index (bytesOf codec) table batch) := by
  induction batch generalizing table with
  | nil => rfl
  | cons entry rest ih =>
      obtain ⟨data, hwrite, _⟩ := hcodec entry List.mem_cons_self
      have hbytes : bytesOf codec entry = data := by rw [bytesOf, hwrite]
      rw [insertEntries, hwrite, Outcome.ok_bind, ih _ (fun other hmem => hcodec other (List.mem_cons_of_mem _ hmem)),
        Table.insertAll_cons, hbytes]

theorem append_eq {codec : RaftCodec} {storage : RedbRaftStorage} {table : Table UInt64} {batch : List Entry}
    (htable : storage.raftLog = some table) (hcodec : ∀ entry ∈ batch, codec.Preserves entry) :
    append codec storage batch = .ok ⟨some (Table.insertAll Entry.index (bytesOf codec) table batch)⟩ := by
  rw [append, htable, Option.getD_some, insertEntries_eq table hcodec]
  rfl

theorem deserializeEntry_bytesOf {codec : RaftCodec} {entry : Entry} (h : codec.Preserves entry) :
    codec.deserializeEntry (bytesOf codec entry) = .ok entry := by
  obtain ⟨data, hwrite, hread⟩ := h
  rw [bytesOf, hwrite]
  exact hread

end RedbRaftStorage

/-! ### Both storages -/

/-- After the append the log is the splice, and ends where the batch ends. -/
def RaftStorage.AppendSplices (prost : ProstCodec Snapshot) (storage : RaftStorage) (old batch : List Entry)
    (hne : batch ≠ []) : Prop :=
  LogIs deserializeEntry (append storage batch).raftLogTable (spliced old batch hne) ∧
    lastIndex prost (append storage batch) = .ok (batch.getLast hne).index

def RedbRaftStorage.AppendSplices (codec : RaftCodec) (storage : RedbRaftStorage) (old batch : List Entry)
    (hne : batch ≠ []) : Prop :=
  ∃ table storage', append codec storage batch = .ok storage' ∧ storage'.raftLog = some table ∧
    LogIs codec.deserializeEntry table (spliced old batch hne) ∧
    lastIndex storage' = .ok (batch.getLast hne).index

theorem RaftStorage.appendSplices_iff (prost : ProstCodec Snapshot) {storage : RaftStorage}
    (hold : LogIs deserializeEntry storage.raftLogTable old) (hbatch : Contiguous batch) (hne : batch ≠ []) :
    AppendSplices prost storage old batch hne ↔
      (∀ entry ∈ batch, entry.Encodable) ∧ ∀ entry ∈ old, entry.index ≤ (batch.getLast hne).index := by
  have htable : (append storage batch).raftLogTable =
      Table.insertAll Entry.index serializeEntry storage.raftLogTable batch := by
    cases batch with
    | nil => exact absurd rfl hne
    | cons entry rest => rfl
  have hlogIs := logIs_insertAll_iff serializeEntry hold hbatch hne
  simp only [deserializeEntry_serializeEntry_iff] at hlogIs
  rw [AppendSplices, htable, ← hlogIs, and_iff_left_iff_imp]
  intro hlog
  rw [lastIndex, htable, hlog.last?_spliced]
  rfl

theorem RedbRaftStorage.appendSplices_iff {codec : RaftCodec} {storage : RedbRaftStorage}
    (htable : storage.raftLog = some table) (hold : LogIs codec.deserializeEntry table old) (hbatch : Contiguous batch)
    (hne : batch ≠ []) (hcodec : ∀ entry ∈ batch, codec.Preserves entry) :
    AppendSplices codec storage old batch hne ↔ ∀ entry ∈ old, entry.index ≤ (batch.getLast hne).index := by
  have hlogIs := logIs_insertAll_iff (bytesOf codec) hold hbatch hne
  rw [and_iff_right (fun entry hmem => deserializeEntry_bytesOf (hcodec entry hmem))] at hlogIs
  rw [← hlogIs, AppendSplices, append_eq htable hcodec]
  apply Iff.intro
  · intro hsplices
    obtain ⟨table', storage', hok, hsome, hlog, _⟩ := hsplices
    rw [← Outcome.ok.inj hok] at hsome
    rwa [Option.some.inj hsome]
  · intro hlog
    refine ⟨_, _, rfl, rfl, hlog, ?_⟩
    simp only [lastIndex, openLog, Outcome.pure_eq_ok, Outcome.ok_bind, hlog.last?_spliced]

/-- **An append splices its batch into the log**, in either storage, exactly when the codec keeps the
batch and no old entry lies above it. Where the batch starts and whether the old log is contiguous
makes no difference. -/
theorem append_splices_iff (prost : ProstCodec Snapshot) (old batch : List Entry) (hbatch : Contiguous batch)
    (hne : batch ≠ []) :
    (∀ storage : RaftStorage, LogIs deserializeEntry storage.raftLogTable old →
      (storage.AppendSplices prost old batch hne ↔
        (∀ entry ∈ batch, entry.Encodable) ∧ ∀ entry ∈ old, entry.index ≤ (batch.getLast hne).index)) ∧
    ∀ (codec : RaftCodec) (storage : RedbRaftStorage) (table : Table UInt64), storage.raftLog = some table →
      LogIs codec.deserializeEntry table old → (∀ entry ∈ batch, codec.Preserves entry) →
      (storage.AppendSplices codec old batch hne ↔ ∀ entry ∈ old, entry.index ≤ (batch.getLast hne).index) :=
  ⟨fun _ hold => RaftStorage.appendSplices_iff prost hold hbatch hne,
    fun _ _ _ htable hold hcodec => RedbRaftStorage.appendSplices_iff htable hold hbatch hne hcodec⟩

/-- The log of a new storage after its first batch. -/
theorem logIs_append_new {batch : List Entry} (hbatch : Contiguous batch) (hencodable : ∀ entry ∈ batch, entry.Encodable) :
    LogIs deserializeEntry (RaftStorage.append (.new {}) batch).raftLogTable batch := by
  cases batch with
  | nil => exact logIs_empty
  | cons entry rest =>
      have hkeeps : ∀ e ∈ entry :: rest, deserializeEntry (serializeEntry e) = .ok e :=
        fun e hmem => deserializeEntry_serializeEntry_iff.mpr (hencodable e hmem)
      exact (logIs_insertAll_iff serializeEntry logIs_empty hbatch (List.cons_ne_nil entry rest)).mpr
        ⟨hkeeps, fun _ hmem => nomatch hmem⟩

theorem append_splices_overlap :
    (RaftStorage.append (.new {}) [.noop 1 1, .noop 2 1, .noop 3 1]).AppendSplices prostSnapshot
      [.noop 1 1, .noop 2 1, .noop 3 1] [.noop 2 2, .noop 3 2, .noop 4 2] (by decide) :=
  ((append_splices_iff prostSnapshot [.noop 1 1, .noop 2 1, .noop 3 1] [.noop 2 2, .noop 3 2, .noop 4 2]
    (by decide) (by decide)).1 _ (logIs_append_new (by decide) (by decide))).mpr ⟨by decide, by decide⟩

/-- A shorter batch over the middle of a log leaves the tail of the old one. -/
theorem not_append_splices :
    ¬ ∀ (prost : ProstCodec Snapshot) (storage : RaftStorage) (old batch : List Entry) (hne : batch ≠ []),
      LogIs deserializeEntry storage.raftLogTable old → Contiguous old → Contiguous batch →
      storage.AppendsAt prost (batch.head hne) → storage.AppendSplices prost old batch hne := by
  intro hsplices
  obtain ⟨_, hlast⟩ := hsplices prostSnapshot
    (.append (.new {}) [.noop 1 1, .noop 2 1, .noop 3 1, .noop 4 1, .noop 5 1])
    [.noop 1 1, .noop 2 1, .noop 3 1, .noop 4 1, .noop 5 1] [.noop 3 2] (by decide)
    (logIs_append_new (by decide) (by decide)) (by decide) (by decide) (by decide +kernel)
  have hstale := hlast.symm.trans (show _ = Outcome.ok 5 by decide +kernel)
  exact absurd (Outcome.ok.inj hstale) (by decide)

end IrohRaft
