import IrohRaft.Library.Budget
import IrohRaft.Proof.Storage.EntryCodec
import IrohRaft.Storage.Eraftpb
import IrohRaft.Storage.RedbStorage
import IrohRaft.Storage.Simple

/-!
# The size limit of a read

Both storages scan a range with a running total and stop before the entry that would pass the limit. So
both return the longest prefix within the limit, also when it is empty: raft asks for at least one entry,
and gets none when the first is larger than the limit.
-/

namespace IrohRaft

open Rust Redb Budget

/-- The records from an index on, each with the entry it holds. -/
def Stored (table : Table UInt64) (decode : Bytes → Outcome RaftError Entry) : UInt64 → List (Bytes × Entry) → Prop
  | _, [] => True
  | index, record :: rest =>
      table[index]? = some record.1 ∧ decode record.1 = .ok record.2 ∧ Stored table decode (index + 1) rest

/-- The size of an entry is the size of its encoding. -/
def recordSize (record : Bytes × Entry) : Nat := record.1.length

/-- No limit, or one that this total does not exceed. -/
def Admits (maxSize : Option UInt64) (size : Nat) : Prop := ∀ max ∈ maxSize, size ≤ max.toNat

instance (maxSize : Option UInt64) : DecidablePred (Admits maxSize) := fun size =>
  match maxSize with
  | none => .isTrue (by simp [Admits])
  | some max => decidable_of_iff (size ≤ max.toNat) (by simp [Admits])

/-- Every index from the first to the last holds an entry. -/
def ContiguousLog (table : Table UInt64) (decode : Bytes → Outcome RaftError Entry) (first last : UInt64) : Prop :=
  ∀ index, first ≤ index → index ≤ last → ∃ data entry, table[index]? = some data ∧ decode data = .ok entry

/-- The entries of a range, up to the limit, but always at least one. -/
def LimitedEntries (table : Table UInt64) (decode : Bytes → Outcome RaftError Entry) (low high : UInt64)
    (maxSize : Option UInt64) (result : Outcome StorageError (List Entry)) : Prop :=
  ∃ records found, Stored table decode low records ∧ records.length = high.toNat - low.toNat ∧
    Bounded recordSize (Admits maxSize) records found ∧ result = .ok (found.map Prod.snd)

/-- The first entry of a range is within the limit. -/
def FirstFits (table : Table UInt64) (low : UInt64) (maxSize : Option UInt64) : Prop :=
  ∀ data, table[low]? = some data → Admits maxSize data.length

/-- The records of a range are together shorter than a file can be. -/
def RangeFits (table : Table UInt64) (decode : Bytes → Outcome RaftError Entry) (low high : UInt64) : Prop :=
  ∀ records, Stored table decode low records → records.length = high.toNat - low.toNat → total recordSize records < 2 ^ 64

/-! ### One scan -/

theorem u64Add_length {size : UInt64} {data : Bytes} (h : size.toNat + data.length < 2 ^ 64) :
    (u64Add size (UInt64.ofNat data.length) : Outcome StorageError UInt64) = .ok (size + UInt64.ofNat data.length) := by
  have hlength : (UInt64.ofNat data.length).toNat = data.length :=
    UInt64.toNat_ofNat_of_lt' (show data.length < 2 ^ 64 by omega)
  exact u64Add_of_lt (by omega)

theorem toNat_add_length {size : UInt64} {data : Bytes} (h : size.toNat + data.length < 2 ^ 64) :
    (size + UInt64.ofNat data.length).toNat = size.toNat + data.length := by
  have hlength : (UInt64.ofNat data.length).toNat = data.length :=
    UInt64.toNat_ofNat_of_lt' (show data.length < 2 ^ 64 by omega)
  rw [toNat_add_of_lt (by omega), hlength]

section Scan

variable {table : Table UInt64} {decode : Bytes → Outcome RaftError Entry} {maxSize : Option UInt64}

theorem admits_down (less more : Nat) (hle : less ≤ more) (hmore : Admits maxSize more) : Admits maxSize less :=
  fun max hmax => Nat.le_trans hle (hmore max hmax)

/-- A contiguous log has the records of every range inside it. -/
theorem ContiguousLog.exists_stored {first last : UInt64} (h : ContiguousLog table decode first last) (count : Nat)
    {low : UInt64} (hlow : first ≤ low) (hcount : low.toNat + count ≤ last.toNat + 1) :
    ∃ records, Stored table decode low records ∧ records.length = count := by
  induction count generalizing low with
  | zero => exact ⟨[], trivial, rfl⟩
  | succ count ih =>
      rw [UInt64.le_iff_toNat_le] at hlow
      obtain ⟨data, entry, hget, hread⟩ := h low (UInt64.le_iff_toNat_le.mpr hlow) (UInt64.le_iff_toNat_le.mpr (by omega))
      cases count with
      | zero => exact ⟨[(data, entry)], ⟨hget, hread, trivial⟩, rfl⟩
      | succ count =>
          have hlast := last.toNat_lt
          have hnext : (low + 1).toNat = low.toNat + 1 :=
            toNat_add_of_lt (show low.toNat + (1 : UInt64).toNat < 2 ^ 64 by simp; omega)
          obtain ⟨rest, hrest, hlength⟩ := @ih (low + 1) (UInt64.le_iff_toNat_le.mpr (by omega)) (by omega)
          exact ⟨(data, entry) :: rest, ⟨hget, hread, hrest⟩, by rw [List.length_cons, hlength]⟩

/-- A loop that takes what fits returns what fits of the records it scans. -/
theorem scan_eq {loop : Nat → UInt64 → List Entry → UInt64 → Outcome StorageError (List Entry)}
    (hzero : ∀ index entries size, loop 0 index entries size = .ok entries)
    (hstep : ∀ count index entries size data entry, table[index]? = some data → decode data = .ok entry →
      size.toNat + data.length < 2 ^ 64 →
      loop (count + 1) index entries size =
        if Admits maxSize (size.toNat + data.length) then
          loop count (index + 1) (entries ++ [entry]) (size + UInt64.ofNat data.length)
        else .ok entries)
    {records : List (Bytes × Entry)} {index : UInt64} (entries : List Entry) (size : UInt64)
    (hstored : Stored table decode index records) (hfits : size.toNat + total recordSize records < 2 ^ 64) :
    loop records.length index entries size =
      .ok (entries ++ (taken recordSize (Admits maxSize) size.toNat records).map Prod.snd) := by
  induction records generalizing index entries size with
  | nil => simp [hzero, taken]
  | cons record rest ih =>
      obtain ⟨hget, hread, hrest⟩ := hstored
      have hlength : recordSize record = record.1.length := rfl
      rw [total_cons, hlength] at hfits
      rw [List.length_cons, hstep rest.length index entries size record.1 record.2 hget hread (by omega), taken, hlength]
      split
      · have hnext := toNat_add_length (show size.toNat + record.1.length < 2 ^ 64 by omega)
        rw [ih _ _ hrest (by omega), hnext]
        simp
      · simp

/-- What a range holds is determined. -/
theorem Stored.unique {index : UInt64} {records records' : List (Bytes × Entry)} (h : Stored table decode index records)
    (h' : Stored table decode index records') (hlength : records.length = records'.length) : records = records' := by
  induction records generalizing index records' with
  | nil => exact (List.eq_nil_of_length_eq_zero hlength.symm).symm
  | cons record rest ih =>
      cases records' with
      | nil => cases hlength
      | cons record' rest' =>
          have hdata : record.1 = record'.1 := Option.some.inj (h.1.symm.trans h'.1)
          have hread := h.2.1
          rw [hdata, h'.2.1] at hread
          have hentry : record.2 = record'.2 := (Outcome.ok.inj hread).symm
          rw [Prod.ext hdata hentry, ih h.2.2 h'.2.2 (Nat.succ.inj hlength)]

/-- Such a scan returns at least one entry of every range exactly when its first entry fits. -/
theorem limitedEntries_iff {low high : UInt64} {records : List (Bytes × Entry)} (hlt : low < high)
    (hstored : Stored table decode low records) (hcount : records.length = high.toNat - low.toNat) :
    LimitedEntries table decode low high maxSize
      (.ok ((taken recordSize (Admits maxSize) 0 records).map Prod.snd)) ↔ FirstFits table low maxSize := by
  have hfirst : Budget.FirstFits recordSize (Admits maxSize) records ↔ FirstFits table low maxSize := by
    cases records with
    | nil =>
        rw [UInt64.lt_iff_toNat_lt] at hlt
        rw [List.length_nil] at hcount
        omega
    | cons record rest =>
        rw [FirstFits, hstored.1]
        simp [Budget.FirstFits, recordSize]
  rw [← hfirst, ← bounded_taken_iff recordSize (Admits maxSize) admits_down (fun _ _ => Nat.zero_le _)]
  apply Iff.intro
  · intro hlimited
    obtain ⟨records', found, hstored', hcount', hbounded, heq⟩ := hlimited
    obtain rfl := hstored.unique hstored' (hcount.trans hcount'.symm)
    have hlength := congrArg List.length (Outcome.ok.inj heq)
    rw [List.length_map, List.length_map] at hlength
    have htaken := taken_isInitial recordSize (Admits maxSize) 0 records
    have hinitial := List.prefix_of_prefix_length_le htaken hbounded.cut (Nat.le_of_eq hlength)
    rw [hinitial.eq_of_length hlength]
    exact hbounded
  · intro hbounded
    exact ⟨records, _, hstored, hcount, hbounded, rfl⟩

end Scan

/-! ### The two loops -/

namespace RaftStorage

/-- One index of `RaftStorage::entries`. -/
theorem entriesLoop_succ (storage : RaftStorage) (maxSize : Option UInt64) (count : Nat) (index : UInt64)
    (entries : List Entry) (size : UInt64) (data : Bytes) (entry : Entry) (hget : storage.raftLogTable[index]? = some data)
    (hread : deserializeEntry data = .ok entry) (hfits : size.toNat + data.length < 2 ^ 64) :
    entriesLoop storage (maxSize.getD (UInt64.ofNat (2 ^ 64 - 1))) (count + 1) index entries size =
      if Admits maxSize (size.toNat + data.length) then
        entriesLoop storage (maxSize.getD (UInt64.ofNat (2 ^ 64 - 1))) count (index + 1) (entries ++ [entry])
          (size + UInt64.ofNat data.length)
      else .ok entries := by
  have hsum := toNat_add_length hfits
  have hlimit : size + UInt64.ofNat data.length > maxSize.getD (UInt64.ofNat (2 ^ 64 - 1)) ↔
      ¬ Admits maxSize (size.toNat + data.length) := by
    rw [gt_iff_lt, UInt64.lt_iff_toNat_lt, hsum]
    cases maxSize with
    | none =>
        have hmax : (UInt64.ofNat (2 ^ 64 - 1)).toNat = 2 ^ 64 - 1 := by simp
        simp only [Admits, Option.getD_none, hmax]
        simp
        omega
    | some max => simp [Admits]
  rw [entriesLoop, hget]
  simp only [u64Add_length hfits, Outcome.ok_bind, hlimit, hread, Outcome.mapErr_ok, ite_not, Outcome.pure_eq_ok]

end RaftStorage

namespace RedbRaftStorage

/-- One index of `RedbRaftStorage::entries`. -/
theorem entriesLoop_succ (codec : RaftStateCodec) (table : Table UInt64) (maxSize : Option UInt64) (count : Nat)
    (index : UInt64) (entries : List Entry) (size : UInt64) (data : Bytes) (entry : Entry) (hget : table[index]? = some data)
    (hread : codec.deserializeEntry data = .ok entry) (hfits : size.toNat + data.length < 2 ^ 64) :
    entriesLoop codec table maxSize (count + 1) index entries size =
      if Admits maxSize (size.toNat + data.length) then
        entriesLoop codec table maxSize count (index + 1) (entries ++ [entry]) (size + UInt64.ofNat data.length)
      else .ok entries := by
  have hsum := toNat_add_length hfits
  have hadd := u64Add_length hfits
  rw [entriesLoop, hget]
  cases maxSize with
  | none => simp [hadd, hread, Admits]
  | some max =>
      by_cases hmax : size.toNat + data.length ≤ max.toNat
      · simp [hadd, hread, Admits, hmax, UInt64.lt_iff_toNat_lt, hsum]
      · simp [hadd, hread, Admits, hmax, UInt64.lt_iff_toNat_lt, hsum]

end RedbRaftStorage

/-- The log of `RaftStorage`, as its readers see it. -/
def RaftStorage.HasLog (prost : ProstCodec Snapshot) (storage : RaftStorage) (first last : UInt64) : Prop :=
  firstIndex prost storage = .ok first ∧ lastIndex prost storage = .ok last ∧
    ContiguousLog storage.raftLogTable deserializeEntry first last

/-- The log of `RedbRaftStorage`, whose table has been created. -/
def RedbRaftStorage.HasLog (codec : RaftStateCodec) (database : Redb.Database) (table : Table UInt64)
    (first last : UInt64) : Prop :=
  (ofDatabase database).raftLog = some table ∧ (ofDatabase database).firstIndex = .ok first ∧
    (ofDatabase database).lastIndex = .ok last ∧ ContiguousLog table codec.deserializeEntry first last

theorem RaftStorage.limitedEntries_entries_iff {prost : ProstCodec Snapshot} {storage : RaftStorage}
    {first last low high : UInt64} (hlog : storage.HasLog prost first last) (hlow : first ≤ low) (hlt : low < high)
    (hhigh : high.toNat ≤ last.toNat + 1) (hfits : RangeFits storage.raftLogTable deserializeEntry low high)
    (maxSize : Option UInt64) :
    LimitedEntries storage.raftLogTable deserializeEntry low high maxSize (entries storage low high maxSize) ↔
      FirstFits storage.raftLogTable low maxSize := by
  have hnat := UInt64.lt_iff_toNat_lt.mp hlt
  obtain ⟨records, hstored, hcount⟩ := hlog.2.2.exists_stored (high.toNat - low.toNat) hlow (by omega)
  have htotal : (0 : UInt64).toNat + total recordSize records < 2 ^ 64 := by simpa using hfits records hstored hcount
  have hscan := scan_eq (fun _ _ _ => rfl) (entriesLoop_succ storage maxSize) [] 0 hstored htotal
  rw [entries, ← hcount, hscan]
  exact limitedEntries_iff hlt hstored hcount

theorem RedbRaftStorage.limitedEntries_entries_iff {codec : RaftStateCodec} {database : Redb.Database} {table : Table UInt64}
    {first last low high : UInt64} (hlog : HasLog codec database table first last) (hlow : first ≤ low) (hlt : low < high)
    (hhigh : high.toNat ≤ last.toNat + 1) (hfits : RangeFits table codec.deserializeEntry low high) (maxSize : Option UInt64) :
    LimitedEntries table codec.deserializeEntry low high maxSize (entries codec database low high maxSize) ↔
      FirstFits table low maxSize := by
  have hnat := UInt64.lt_iff_toNat_lt.mp hlt
  obtain ⟨hopen, _, _, hcontiguous⟩ := hlog
  obtain ⟨records, hstored, hcount⟩ := hcontiguous.exists_stored (high.toNat - low.toNat) hlow (by omega)
  have htotal : (0 : UInt64).toNat + total recordSize records < 2 ^ 64 := by simpa using hfits records hstored hcount
  have hscan := scan_eq (fun _ _ _ => rfl) (entriesLoop_succ codec table maxSize) [] 0 hstored htotal
  have hsub : (u64Sub high low : Outcome StorageError UInt64) = .ok (high - low) := by
    rw [u64Sub, if_pos (UInt64.le_iff_toNat_le.mpr (by omega))]
  have hdiff : (high - low).toNat = records.length := by
    rw [UInt64.toNat_sub_of_le high low (UInt64.le_iff_toNat_le.mpr (by omega)), hcount]
  have hlogTable : (ofDatabase database).openLog = .ok table := by
    rw [openLog, hopen]
    rfl
  rw [entries, hlogTable, Outcome.ok_bind, hsub, Outcome.ok_bind, hdiff, hscan]
  exact limitedEntries_iff hlt hstored hcount

/-- **The size limit.** A read of either storage returns the longest run of entries within the limit, and
at least one, exactly when the first entry is within the limit. -/
theorem reads_limited_iff (maxSize : Option UInt64) {low high : UInt64} (hlt : low < high) :
    (∀ prost (storage : RaftStorage) first last, storage.HasLog prost first last → first ≤ low →
      high.toNat ≤ last.toNat + 1 → RangeFits storage.raftLogTable deserializeEntry low high →
        (LimitedEntries storage.raftLogTable deserializeEntry low high maxSize (storage.entries low high maxSize) ↔
          FirstFits storage.raftLogTable low maxSize)) ∧
    (∀ codec database table first last, RedbRaftStorage.HasLog codec database table first last → first ≤ low →
      high.toNat ≤ last.toNat + 1 → RangeFits table codec.deserializeEntry low high →
        (LimitedEntries table codec.deserializeEntry low high maxSize
            (RedbRaftStorage.entries codec database low high maxSize) ↔ FirstFits table low maxSize)) := by
  refine ⟨fun prost storage first last hlog hlow hhigh hfits => ?_, fun codec database table first last hlog hlow hhigh hfits => ?_⟩
  · exact storage.limitedEntries_entries_iff hlog hlow hlt hhigh hfits maxSize
  · exact RedbRaftStorage.limitedEntries_entries_iff hlog hlow hlt hhigh hfits maxSize

/-! ### A log of two entries -/

def twoNoops : Table UInt64 := Table.insertAll Entry.index serializeEntry ∅ [.noop 1 1, .noop 2 1]

def twoNoopsStorage : RaftStorage where
  raftLogTable := twoNoops
  hardStateTable := ∅
  confStateTable := ∅
  snapshotTable := ∅

def twoNoopsDatabase : Redb.Database where
  u64Tables := (∅ : Redb.Tables UInt64).put raftLogTable twoNoops

theorem stored_twoNoops :
    Stored twoNoops deserializeEntry 1 [(serializeEntry (.noop 1 1), .noop 1 1), (serializeEntry (.noop 2 1), .noop 2 1)] := by
  refine ⟨?_, ?_, ?_, ?_, trivial⟩ <;> decide +kernel

theorem contiguousLog_twoNoops : ContiguousLog twoNoops deserializeEntry 1 2 := by
  intro index hfirst hlast
  rw [UInt64.le_iff_toNat_le] at hfirst hlast
  obtain ⟨hone, hreadOne, htwo, hreadTwo, _⟩ := stored_twoNoops
  have hcases : index.toNat = 1 ∨ index.toNat = 2 := by
    have hlow : 1 ≤ index.toNat := hfirst
    have hhigh : index.toNat ≤ 2 := hlast
    omega
  cases hcases with
  | inl heq => exact ⟨_, _, by rw [show index = 1 from UInt64.toNat_inj.mp heq]; exact hone, hreadOne⟩
  | inr heq => exact ⟨_, _, by rw [show index = 1 + 1 from UInt64.toNat_inj.mp heq]; exact htwo, hreadTwo⟩

theorem rangeFits_twoNoops : RangeFits twoNoops deserializeEntry 1 3 := by
  intro records hstored hlength
  rw [hstored.unique stored_twoNoops hlength]
  decide +kernel

theorem hasLog_twoNoops :
    twoNoopsStorage.HasLog prostSnapshot 1 2 ∧ RedbRaftStorage.HasLog .ofStorage twoNoopsDatabase twoNoops 1 2 := by
  refine ⟨⟨?_, ?_, contiguousLog_twoNoops⟩, ?_, ?_, ?_, contiguousLog_twoNoops⟩
  · decide +kernel
  · decide +kernel
  · simp [RedbRaftStorage.ofDatabase, twoNoopsDatabase, Redb.Tables.put]
  · decide +kernel
  · decide +kernel

/-- Both entries are within 60 bytes. -/
theorem reads_limited_iff_two :
    LimitedEntries twoNoops deserializeEntry 1 3 (some 60) (twoNoopsStorage.entries 1 3 (some 60)) ∧
      LimitedEntries twoNoops deserializeEntry 1 3 (some 60)
        (RedbRaftStorage.entries .ofStorage twoNoopsDatabase 1 3 (some 60)) := by
  have hreads := reads_limited_iff (some 60) (show (1 : UInt64) < 3 by decide)
  have hfirst : FirstFits twoNoops 1 (some 60) := by
    intro data hdata
    rw [stored_twoNoops.1] at hdata
    rw [← Option.some.inj hdata]
    decide +kernel
  refine ⟨(hreads.1 prostSnapshot twoNoopsStorage 1 2 hasLog_twoNoops.1 (by decide) (by decide) rangeFits_twoNoops).mpr hfirst, ?_⟩
  exact (hreads.2 .ofStorage twoNoopsDatabase twoNoops 1 2 hasLog_twoNoops.2 (by decide) (by decide) rangeFits_twoNoops).mpr
    hfirst

/-- Nothing is within a limit of zero, and nothing is returned. -/
theorem not_reads_limited :
    (¬ ∀ prost (storage : RaftStorage) first last low high maxSize, storage.HasLog prost first last → first ≤ low →
      low < high → high.toNat ≤ last.toNat + 1 → RangeFits storage.raftLogTable deserializeEntry low high →
        LimitedEntries storage.raftLogTable deserializeEntry low high maxSize (storage.entries low high maxSize)) ∧
    ¬ ∀ codec database table first last low high maxSize, RedbRaftStorage.HasLog codec database table first last →
      first ≤ low → low < high → high.toNat ≤ last.toNat + 1 → RangeFits table codec.deserializeEntry low high →
        LimitedEntries table codec.deserializeEntry low high maxSize
          (RedbRaftStorage.entries codec database low high maxSize) := by
  have hnone : ¬ LimitedEntries twoNoops deserializeEntry 1 3 (some 0) (.ok []) := by
    intro hlimited
    obtain ⟨records, found, _, hlength, hbounded, heq⟩ := hlimited
    have hempty : found = [] := by simpa using (Outcome.ok.inj heq).symm
    apply hbounded.nonempty _ hempty
    intro hrecords
    rw [hrecords] at hlength
    cases hlength
  refine ⟨fun hsimple => hnone ?_, fun hredb => hnone ?_⟩
  · have hread : twoNoopsStorage.entries 1 3 (some 0) = .ok [] := by decide +kernel
    rw [← hread]
    exact hsimple prostSnapshot twoNoopsStorage 1 2 1 3 (some 0) hasLog_twoNoops.1 (by decide) (by decide) (by decide)
      rangeFits_twoNoops
  · have hread : RedbRaftStorage.entries .ofStorage twoNoopsDatabase 1 3 (some 0) = .ok [] := by decide +kernel
    rw [← hread]
    exact hredb .ofStorage twoNoopsDatabase twoNoops 1 2 1 3 (some 0) hasLog_twoNoops.2 (by decide) (by decide) (by decide)
      rangeFits_twoNoops

end IrohRaft
