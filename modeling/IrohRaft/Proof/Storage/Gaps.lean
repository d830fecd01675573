import IrohRaft.Proof.Storage.LogStart
import IrohRaft.Proof.Storage.Limit

/-!
# Missing indices of a read

The older storage passes over an index that it holds no entry for, where its sibling reports that the index is
unavailable. What it returns is a run of entries from the start of the range only if it stops for the size limit before
it comes to such an index.
-/

namespace IrohRaft

open Rust Redb Budget

namespace RedbRaftStorage

/-- `entry_data.len() as u64`. -/
def entrySize (data : Bytes) : Nat := (UInt64.ofNat data.length).toNat

/-- The size of the entries held at `count` indices. -/
def heldSize (table : Table UInt64) : UInt64 → (count : Nat) → Nat
  | _, 0 => 0
  | idx, count + 1 => (table[idx]?.map entrySize).getD 0 + heldSize table (idx + 1) count

/-- The entries of `count` indices, one for each from the first on. The run ends early only before an entry that passes
the limit, after entries of this size. -/
def RunFrom (codec : RaftStateCodec) (table : Table UInt64) (maxSize : Option UInt64) (idx : UInt64) (count size : Nat)
    (found : List Entry) : Prop :=
  ∃ records, Stored table codec.deserializeEntry idx records ∧ found = records.map Prod.snd ∧ records.length ≤ count ∧
    (records.length < count → ∃ data, table[idx + UInt64.ofNat records.length]? = some data ∧
      ¬ Admits maxSize (size + total (fun record => entrySize record.1) records + entrySize data))

/-- Of `count` indices none is missing, unless the entries held before it pass the limit. -/
def NoGap (table : Table UInt64) (maxSize : Option UInt64) (idx : UInt64) (count size : Nat) : Prop :=
  ∀ passed < count, idx + UInt64.ofNat passed ∉ table → ¬ Admits maxSize (size + heldSize table idx passed)

instance (table : Table UInt64) (maxSize : Option UInt64) (idx : UInt64) (count size : Nat) :
    Decidable (NoGap table maxSize idx count size) :=
  inferInstanceAs (Decidable (∀ passed < count, _))

section Scan

variable {codec : RaftStateCodec} {table : Table UInt64} {maxSize : Option UInt64} {count : Nat} {idx size : UInt64}
  {data : Bytes} {entries result : List Entry}

theorem add_ofNat_succ (idx : UInt64) (passed : Nat) : idx + UInt64.ofNat (passed + 1) = idx + 1 + UInt64.ofNat passed := by
  rw [UInt64.ofNat_add, UInt64.add_comm (UInt64.ofNat passed), ← UInt64.add_assoc]
  rfl

theorem add_ofNat_zero (idx : UInt64) : idx + UInt64.ofNat 0 = idx := UInt64.add_zero idx

/-! ### One index of the scan -/

theorem entriesLoop_missing (hget : table[idx]? = none) :
    entriesLoop codec table maxSize (count + 1) idx entries size = entriesLoop codec table maxSize count (idx + 1) entries size := by
  rw [entriesLoop, hget]

theorem entriesLoop_held_eq (hget : table[idx]? = some data) :
    entriesLoop codec table maxSize (count + 1) idx entries size =
      (match maxSize with
        | some max => (fun sizeWith => decide (sizeWith > max)) <$> u64Add size (UInt64.ofNat data.length)
        | none => pure false) >>= fun full =>
      if full then pure entries
      else (codec.deserializeEntry data).mapErr .codec >>= fun entry =>
        u64Add size (UInt64.ofNat data.length) >>= fun next =>
        entriesLoop codec table maxSize count (idx + 1) (entries ++ [entry]) next := by
  rw [entriesLoop, hget]
  cases maxSize <;> simp

/-- An entry either passes the limit, which ends the scan, or is taken. -/
theorem entriesLoop_held (hget : table[idx]? = some data)
    (hok : entriesLoop codec table maxSize (count + 1) idx entries size = .ok result) :
    (¬ Admits maxSize (size.toNat + entrySize data) ∧ result = entries) ∨
      Admits maxSize (size.toNat + entrySize data) ∧ ∃ entry next, codec.deserializeEntry data = .ok entry ∧
        next.toNat = size.toNat + entrySize data ∧
        entriesLoop codec table maxSize count (idx + 1) (entries ++ [entry]) next = .ok result := by
  rw [entriesLoop_held_eq hget] at hok
  obtain ⟨full, hfull, hok⟩ := Outcome.bind_eq_ok.mp hok
  have hlimit : full = true ↔ ¬ Admits maxSize (size.toNat + entrySize data) := by
    cases maxSize with
    | none =>
        have hnone := Outcome.ok.inj hfull
        simp [← hnone, Admits]
    | some max =>
        obtain ⟨sizeWith, hsum, hdecide⟩ := Outcome.bind_eq_ok.mp hfull
        have hnat := toNat_of_u64Add hsum
        have hdecided := Outcome.ok.inj hdecide
        simp [← hdecided, Admits, UInt64.lt_iff_toNat_lt, hnat, entrySize]
  by_cases hstop : full = true
  · rw [if_pos hstop] at hok
    exact .inl ⟨hlimit.mp hstop, (Outcome.ok.inj hok).symm⟩
  · rw [if_neg hstop] at hok
    obtain ⟨entry, hread, hok⟩ := Outcome.bind_eq_ok.mp hok
    obtain ⟨next, hsum, hrest⟩ := Outcome.bind_eq_ok.mp hok
    refine .inr ⟨not_not.mp (fun hnot => hstop (hlimit.mpr hnot)), entry, next, ?_, toNat_of_u64Add hsum, hrest⟩
    exact Outcome.mapErr_eq_ok.mp hread

/-! ### What one index adds -/

theorem noGap_succ_of_held (hget : table[idx]? = some data) {spent : Nat} :
    NoGap table maxSize idx (count + 1) spent ↔ NoGap table maxSize (idx + 1) count (spent + entrySize data) := by
  have hheld (passed : Nat) : heldSize table idx (passed + 1) = entrySize data + heldSize table (idx + 1) passed := by
    rw [heldSize, hget]
    simp
  apply Iff.intro
  · intro hgap passed hlt hmissing
    have hnot := hgap (passed + 1) (Nat.succ_lt_succ hlt) (by rwa [add_ofNat_succ])
    rwa [hheld, ← Nat.add_assoc] at hnot
  · intro hgap passed hlt hmissing
    cases passed with
    | zero =>
        rw [add_ofNat_zero] at hmissing
        exact absurd (Table.mem_iff_getElem?.mpr ⟨data, hget⟩) hmissing
    | succ passed =>
        rw [hheld, ← Nat.add_assoc]
        exact hgap passed (Nat.lt_of_succ_lt_succ hlt) (by rwa [← add_ofNat_succ])

theorem runFrom_succ_of_held {entry : Entry} (hget : table[idx]? = some data) (hread : codec.deserializeEntry data = .ok entry)
    {spent : Nat} {found : List Entry} :
    RunFrom codec table maxSize idx (count + 1) spent (entry :: found) ↔
      RunFrom codec table maxSize (idx + 1) count (spent + entrySize data) found := by
  apply Iff.intro
  · intro hrun
    obtain ⟨records, hstored, hfound, hlength, hcut⟩ := hrun
    cases records with
    | nil => simp at hfound
    | cons record rest =>
        obtain ⟨hrecord, _, hrest⟩ := hstored
        have hdata : record.1 = data := Option.some.inj (hrecord.symm.trans hget)
        obtain ⟨_, hfound⟩ := List.cons.inj hfound
        refine ⟨rest, hrest, hfound, Nat.le_of_succ_le_succ hlength, fun hlt => ?_⟩
        obtain ⟨next, hnext, hover⟩ := hcut (Nat.succ_lt_succ hlt)
        rw [List.length_cons, add_ofNat_succ] at hnext
        refine ⟨next, hnext, ?_⟩
        rwa [total_cons, hdata, ← Nat.add_assoc] at hover
  · intro hrun
    obtain ⟨records, hstored, hfound, hlength, hcut⟩ := hrun
    refine ⟨(data, entry) :: records, ⟨hget, hread, hstored⟩, by rw [hfound, List.map_cons], Nat.succ_le_succ hlength,
      fun hlt => ?_⟩
    obtain ⟨next, hnext, hover⟩ := hcut (Nat.lt_of_succ_lt_succ hlt)
    refine ⟨next, by rwa [List.length_cons, add_ofNat_succ], ?_⟩
    rwa [total_cons, ← Nat.add_assoc]

/-- What a missing index leaves is no run from it, and a gap. -/
theorem not_runFrom_of_missing (hget : table[idx]? = none) {spent : Nat} {found : List Entry} :
    ¬ RunFrom codec table maxSize idx (count + 1) spent found := by
  intro hrun
  obtain ⟨records, hstored, _, _, hcut⟩ := hrun
  cases records with
  | nil =>
      obtain ⟨data, hdata, _⟩ := hcut (Nat.succ_pos count)
      rw [List.length_nil, add_ofNat_zero, hget] at hdata
      simp at hdata
  | cons record rest =>
      have hrecord := hstored.1
      rw [hget] at hrecord
      simp at hrecord

theorem not_noGap_of_missing (hget : table[idx]? = none) {spent : Nat} (hadmits : Admits maxSize spent) :
    ¬ NoGap table maxSize idx (count + 1) spent := by
  intro hgap
  refine hgap 0 (Nat.succ_pos count) ?_ hadmits
  rw [add_ofNat_zero]
  exact Table.not_mem_iff_getElem?.mpr hget

/-- An entry that passes the limit ends the run before it, and what is missing later does not matter. -/
theorem runFrom_nil_of_over (hget : table[idx]? = some data) {spent : Nat}
    (hover : ¬ Admits maxSize (spent + entrySize data)) : RunFrom codec table maxSize idx (count + 1) spent [] := by
  refine ⟨[], trivial, rfl, Nat.zero_le _, fun _ => ⟨data, ?_, by simpa using hover⟩⟩
  rwa [List.length_nil, add_ofNat_zero]

theorem noGap_of_over (hget : table[idx]? = some data) {spent : Nat} (hover : ¬ Admits maxSize (spent + entrySize data)) :
    NoGap table maxSize idx (count + 1) spent := by
  rw [noGap_succ_of_held hget]
  intro passed _ _ hadmits
  exact hover (admits_down _ _ (Nat.le_add_right _ _) hadmits)

/-! ### The whole scan -/

/-- By induction on the indices still to visit; what was taken before is within the limit. -/
theorem entriesLoop_runFrom_iff (hadmits : Admits maxSize size.toNat)
    (hok : entriesLoop codec table maxSize count idx entries size = .ok result) :
    ∃ found, result = entries ++ found ∧
      (RunFrom codec table maxSize idx count size.toNat found ↔ NoGap table maxSize idx count size.toNat) := by
  induction count generalizing idx entries size with
  | zero =>
      refine ⟨[], by simpa using (Outcome.ok.inj hok).symm, ?_⟩
      apply iff_of_true
      · exact ⟨[], trivial, rfl, Nat.le_refl 0, fun hlt => absurd hlt (Nat.lt_irrefl 0)⟩
      · exact fun passed hlt => absurd hlt (Nat.not_lt_zero passed)
  | succ count ih =>
      cases hget : table[idx]? with
      | none =>
          rw [entriesLoop_missing hget] at hok
          obtain ⟨found, hresult, _⟩ := ih hadmits hok
          exact ⟨found, hresult, iff_of_false (not_runFrom_of_missing hget) (not_noGap_of_missing hget hadmits)⟩
      | some data =>
          obtain ⟨hover, hresult⟩ | ⟨hwithin, entry, next, hread, hnext, hrest⟩ := entriesLoop_held hget hok
          · exact ⟨[], by simpa using hresult, iff_of_true (runFrom_nil_of_over hget hover) (noGap_of_over hget hover)⟩
          · obtain ⟨found, hresult, hiff⟩ := ih (hnext ▸ hwithin) hrest
            refine ⟨entry :: found, by rw [hresult, List.append_assoc, List.singleton_append], ?_⟩
            rw [runFrom_succ_of_held hget hread, noGap_succ_of_held hget, ← hnext]
            exact hiff

end Scan

/-- What a read returns is a run from the start of its range, cut short only by the limit, exactly if no index of the
range is missing before the entries held pass the limit. -/
theorem entries_runFrom_iff {codec : RaftStateCodec} {database : Redb.Database} {table : Table UInt64} {low high : UInt64}
    {maxSize : Option UInt64} {result : List Entry} (htable : database.u64Tables[raftLogTable.name]? = some table)
    (hok : entries codec database low high maxSize = .ok result) :
    RunFrom codec table maxSize low (high.toNat - low.toNat) 0 result ↔
      NoGap table maxSize low (high.toNat - low.toNat) 0 := by
  rw [entries, openLog_eq htable, Outcome.ok_bind] at hok
  obtain ⟨count, hcount, hok⟩ := Outcome.bind_eq_ok.mp hok
  have hlength : count.toNat = high.toNat - low.toNat := toNat_of_u64Sub hcount
  have hzero : Admits maxSize (0 : UInt64).toNat := fun max _ => Nat.zero_le max.toNat
  obtain ⟨found, hfound, hiff⟩ := entriesLoop_runFrom_iff hzero hok
  rw [List.nil_append] at hfound
  rw [hfound, ← hlength]
  exact hiff

theorem entries_oneEntry : entries .ofStorage (oneEntry (.noop 6 1)) 6 7 none = .ok [.noop 6 1] := by decide

theorem runFrom_oneEntry : RunFrom .ofStorage (logTable (oneEntry (.noop 6 1))) none 6 1 0 [.noop 6 1] :=
  (entries_runFrom_iff (by decide) entries_oneEntry).mpr (by decide)

/-- The log is compacted before its sixth entry, and a read from the first index on starts at the sixth without a word. -/
theorem not_runFrom_compacted :
    ¬ ∀ (codec : RaftStateCodec) (database : Redb.Database) (table : Table UInt64) (low high : UInt64)
      (maxSize : Option UInt64) (result : List Entry), database.u64Tables[raftLogTable.name]? = some table → low ≤ high →
      entries codec database low high maxSize = .ok result →
      RunFrom codec table maxSize low (high.toNat - low.toNat) 0 result := by
  intro h
  have hread : entries .ofStorage (oneEntry (.noop 6 1)) 1 7 none = .ok [.noop 6 1] := by decide
  obtain ⟨records, hstored, hfound, _⟩ := h .ofStorage (oneEntry (.noop 6 1)) (logTable (oneEntry (.noop 6 1))) 1 7 none
    [.noop 6 1] (by decide) (by decide) hread
  cases records with
  | nil => simp at hfound
  | cons record rest => exact absurd (Table.mem_iff_getElem?.mpr ⟨record.1, hstored.1⟩) (by decide)

end RedbRaftStorage

end IrohRaft
