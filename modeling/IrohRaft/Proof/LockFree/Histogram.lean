import IrohRaft.Library.Run
import IrohRaft.LockFree
import Mathlib.Data.List.Induction

/-!
# The percentiles of a histogram

The counts of the buckets say how many of the recorded values lie below a boundary, so the scan stops at the
bucket of the value that has the rank it looks for. That rank is rounded on the way, and need not be the one that is asked for.
-/

namespace IrohRaft

open Rust OrderStatistics

/-! ### What is recorded -/

namespace LockFreeHistogram

/-- The histogram whose buckets count this. -/
def ofCounts (count : Nat → Nat) : LockFreeHistogram where
  buckets := (List.range (exponentialBoundaries.length + 1)).map fun i => UInt64.ofNat (count i)
  bucketBoundaries := exponentialBoundaries

theorem record_ofCounts (count : Nat → Nat) (value : Nat) :
    (ofCounts count).record value = ofCounts fun i => count i + if bucketIndex exponentialBoundaries value = i then 1 else 0 := by
  rw [record, ofCounts, ofCounts]
  congr 1
  apply List.ext_getElem
  · simp
  · intro i _ _
    simp only [findBucketIndex, List.getElem_modify, List.getElem_map, List.getElem_range]
    split_ifs
    · rw [UInt64.ofNat_add, UInt64.ofNat_one]
    · rw [Nat.add_zero]

/-- The histogram after these values. -/
def recordAll (values : List Nat) : LockFreeHistogram := Run.final record newExponential values

/-- How many of the values are in a bucket. -/
def bucketCount (values : List Nat) (i : Nat) : Nat := values.countP (bucketIndex exponentialBoundaries · = i)

theorem recordAll_eq (values : List Nat) : recordAll values = ofCounts (bucketCount values) := by
  induction values using List.reverseRecOn with
  | nil => simp [recordAll, ofCounts, newExponential, bucketCount, List.map_const']
  | append_singleton values value ih =>
      rw [recordAll, Run.final_concat, ← recordAll, ih, record_ofCounts]
      congr 1
      funext i
      simp [bucketCount, List.countP_append, List.countP_singleton]

/-- How many of the values are below a bucket. -/
def countBelow (values : List Nat) (i : Nat) : Nat := values.countP (bucketIndex exponentialBoundaries · < i)

theorem countBelow_succ (values : List Nat) (i : Nat) :
    countBelow values (i + 1) = countBelow values i + bucketCount values i := by
  induction values with
  | nil => simp [countBelow, bucketCount]
  | cons value rest ih =>
      simp only [countBelow, bucketCount, List.countP_cons, decide_eq_true_eq] at ih ⊢
      split_ifs <;> omega

/-- What a counter holds: it wraps around. -/
def kept (values : List Nat) (i : Nat) : Nat := bucketCount values i % 2 ^ 64

def keptBelow (values : List Nat) (i : Nat) : Nat := ((List.range i).map (kept values)).sum

/-- What all the counters hold. -/
def keptTotal (values : List Nat) : Nat := keptBelow values (exponentialBoundaries.length + 1)

theorem keptBelow_succ (values : List Nat) (i : Nat) : keptBelow values (i + 1) = keptBelow values i + kept values i := by
  rw [keptBelow, List.range_succ, List.map_append, List.sum_append, ← keptBelow, List.map_singleton, List.sum_singleton]

theorem keptBelow_mono (values : List Nat) {i j : Nat} (h : i ≤ j) : keptBelow values i ≤ keptBelow values j := by
  induction h with
  | refl => exact Nat.le_refl _
  | step _ ih =>
      rw [keptBelow_succ]
      omega

/-- Nothing wraps around before there are `2 ^ 64` values. -/
theorem keptBelow_eq {values : List Nat} (h : values.length < 2 ^ 64) (i : Nat) : keptBelow values i = countBelow values i := by
  induction i with
  | zero => simp [keptBelow, countBelow]
  | succ i ih =>
      have hle : bucketCount values i ≤ values.length := List.countP_le_length
      rw [keptBelow_succ, countBelow_succ, ih, kept, Nat.mod_eq_of_lt (hle.trans_lt h)]

theorem keptTotal_eq {values : List Nat} (h : values.length < 2 ^ 64) : keptTotal values = values.length := by
  rw [keptTotal, keptBelow_eq h, countBelow, List.countP_eq_length]
  intro value _
  have hle := bucketIndex_le_length exponentialBoundaries value
  simpa using Nat.lt_succ_of_le hle

end LockFreeHistogram

namespace HistogramSnapshot

open LockFreeHistogram

/-! ### The scan -/

variable {values : List Nat}

theorem u64Add_kept {i : Nat} (h : keptBelow values i < 2 ^ 64) :
    (u64Add (UInt64.ofNat (keptBelow values i)) (UInt64.ofNat (bucketCount values i)) : Outcome Empty UInt64) =
      if keptBelow values (i + 1) < 2 ^ 64 then .ok (UInt64.ofNat (keptBelow values (i + 1))) else .panic := by
  have hsum : (UInt64.ofNat (keptBelow values i)).toNat + (UInt64.ofNat (bucketCount values i)).toNat =
      keptBelow values (i + 1) := by
    rw [UInt64.toNat_ofNat', UInt64.toNat_ofNat', Nat.mod_eq_of_lt h, keptBelow_succ, kept]
  have hwrap : UInt64.ofNat (bucketCount values i) = UInt64.ofNat (kept values i) := by
    rw [kept, UInt64.ofNat_mod_size]
  rw [u64Add, hsum, hwrap, ← UInt64.ofNat_add, ← keptBelow_succ]

/-- The sum of the counters of some buckets in a row. -/
theorem foldlM_kept {i : Nat} (h : keptBelow values i < 2 ^ 64) (n : Nat) :
    ((List.range' i n).map fun j => UInt64.ofNat (bucketCount values j)).foldlM u64Add (UInt64.ofNat (keptBelow values i)) =
      (if keptBelow values (i + n) < 2 ^ 64 then .ok (UInt64.ofNat (keptBelow values (i + n))) else .panic :
        Outcome Empty UInt64) := by
  induction n generalizing i with
  | zero =>
      rw [Nat.add_zero, if_pos h]
      rfl
  | succ n ih =>
      rw [List.range'_succ, List.map_cons, List.foldlM_cons, u64Add_kept h]
      by_cases hnext : keptBelow values (i + 1) < 2 ^ 64
      · rw [if_pos hnext, Outcome.ok_bind, ih hnext, show i + 1 + n = i + (n + 1) by omega]
      · have hmono : keptBelow values (i + 1) ≤ keptBelow values (i + (n + 1)) := keptBelow_mono values (by omega)
        rw [if_neg hnext, if_neg (by omega)]
        rfl

theorem totalCount_recordAll (values : List Nat) :
    (recordAll values).snapshot.totalCount =
      if keptTotal values < 2 ^ 64 then .ok (UInt64.ofNat (keptTotal values)) else .panic := by
  have hstart : keptBelow values 0 < 2 ^ 64 := Nat.two_pow_pos 64
  have hsum := foldlM_kept hstart (exponentialBoundaries.length + 1)
  rw [Nat.zero_add] at hsum
  rw [recordAll_eq, totalCount, LockFreeHistogram.snapshot, ofCounts, List.range_eq_range']
  exact hsum

/-- The scan stops at the first bucket up to which the counters hold enough. -/
theorem scan_kept (target : UInt64) {i n : Nat} (h : keptBelow values (i + n) < 2 ^ 64) :
    scan exponentialBoundaries target i (UInt64.ofNat (keptBelow values i))
        ((List.range' i n).map fun j => UInt64.ofNat (bucketCount values j)) =
      .ok (((List.range' i n).find? fun j => target.toNat ≤ keptBelow values (j + 1)).bind (bound exponentialBoundaries)) := by
  induction n generalizing i with
  | zero => rfl
  | succ n ih =>
      have hhere : keptBelow values i < 2 ^ 64 := (keptBelow_mono values (by omega)).trans_lt h
      have hnext : keptBelow values (i + 1) < 2 ^ 64 := (keptBelow_mono values (by omega)).trans_lt h
      have hreached : UInt64.ofNat (keptBelow values (i + 1)) ≥ target ↔ target.toNat ≤ keptBelow values (i + 1) := by
        rw [ge_iff_le, UInt64.le_iff_toNat_le, UInt64.toNat_ofNat', Nat.mod_eq_of_lt hnext]
      rw [List.range'_succ, List.map_cons, scan, u64Add_kept hhere, if_pos hnext, Outcome.ok_bind]
      by_cases hstop : target.toNat ≤ keptBelow values (i + 1)
      · rw [if_pos (hreached.mpr hstop), List.find?_cons_of_pos (by simpa using hstop)]
        rfl
      · rw [if_neg (mt hreached.mp hstop), List.find?_cons_of_neg (by simpa using hstop)]
        exact ih (by rwa [show i + 1 + n = i + (n + 1) by omega])

theorem bound_eq {boundaries : List Nat} {i : Nat} (hle : i ≤ boundaries.length) :
    bound boundaries i = (0 :: boundaries)[i]? := by
  cases i with
  | zero => rfl
  | succ i => simp [bound, hle]

/-- A percentile is the lower end of the first bucket up to which the counters hold enough. -/
theorem percentile_eq_some_iff {p : Binary64} {b : Nat} :
    (recordAll values).snapshot.percentile p = .ok (some b) ↔
      0 < keptTotal values ∧ keptTotal values < 2 ^ 64 ∧
        ∃ i ≤ exponentialBoundaries.length, (0 :: exponentialBoundaries)[i]? = some b ∧
          (target (UInt64.ofNat (keptTotal values)) p).toNat ≤ keptBelow values (i + 1) ∧
          ∀ j < i, keptBelow values (j + 1) < (target (UInt64.ofNat (keptTotal values)) p).toNat := by
  rw [percentile, totalCount_recordAll]
  by_cases hlt : keptTotal values < 2 ^ 64
  · rw [if_pos hlt, Outcome.ok_bind]
    by_cases hzero : keptTotal values = 0
    · simp [hzero]
    · have hnonzero : UInt64.ofNat (keptTotal values) ≠ 0 := by
        intro heq
        have hnat := congrArg UInt64.toNat heq
        rw [UInt64.toNat_ofNat', Nat.mod_eq_of_lt hlt, UInt64.toNat_zero] at hnat
        exact hzero hnat
      have hscan := scan_kept (target (UInt64.ofNat (keptTotal values)) p)
        (show keptBelow values (0 + (exponentialBoundaries.length + 1)) < 2 ^ 64 by rwa [Nat.zero_add])
      rw [← List.range_eq_range'] at hscan
      have hbuckets : scan (recordAll values).snapshot.boundaries (target (UInt64.ofNat (keptTotal values)) p) 0 0
          (recordAll values).snapshot.buckets = scan exponentialBoundaries (target (UInt64.ofNat (keptTotal values)) p) 0
            (UInt64.ofNat (keptBelow values 0))
            ((List.range (exponentialBoundaries.length + 1)).map fun j => UInt64.ofNat (bucketCount values j)) := by
        rw [recordAll_eq]
        rfl
      rw [if_neg hnonzero, hbuckets, hscan, Outcome.ok.injEq, Option.bind_eq_some_iff]
      simp only [List.find?_range_eq_some, decide_eq_true_eq, Bool.not_eq_eq_eq_not, Bool.not_true, decide_eq_false_iff_not,
        Nat.not_le, List.mem_range, Nat.lt_succ_iff]
      apply Iff.intro
      · intro hfound
        obtain ⟨i, ⟨hreached, hi, hbefore⟩, hbound⟩ := hfound
        exact ⟨Nat.pos_of_ne_zero hzero, hlt, i, hi, (bound_eq hi).symm.trans hbound, hreached, hbefore⟩
      · intro hfirst
        obtain ⟨-, -, i, hi, hbound, hreached, hbefore⟩ := hfirst
        exact ⟨i, ⟨hreached, hi, hbefore⟩, (bound_eq hi).trans hbound⟩
  · rw [if_neg hlt]
    apply Iff.intro
    · intro hpanic
      exact nomatch hpanic
    · intro hfirst
      exact absurd hfirst.2.1 hlt

/-! ### The rank -/

/-- The values up to a bucket are enough exactly if the value with the rank is among them. -/
theorem rank_le_countBelow_iff {k value : Nat} (hpos : 0 < k) (hvalue : kthSmallest values k = some value) (i : Nat) :
    k ≤ countBelow values (i + 1) ↔ bucketIndex exponentialBoundaries value ≤ i := by
  have hdown : ∀ {a b : Nat}, a ≤ b → decide (bucketIndex exponentialBoundaries b < i + 1) →
      decide (bucketIndex exponentialBoundaries a < i + 1) := by
    intro a b hab hb
    have hmono := bucketIndex_mono exponentialBoundaries hab
    simp only [decide_eq_true_eq] at hb ⊢
    omega
  rw [countBelow, ← holds_kthSmallest_iff hdown hpos hvalue, decide_eq_true_eq, Nat.lt_succ_iff]

/-- The rank asked for is one of the ranks there are. -/
theorem rank_bounds {n : Nat} {p : ℚ} (hn : 0 < n) (hp : 0 < p) (hle : p ≤ 1) :
    0 < ⌈(n : ℚ) * p⌉.toNat ∧ ⌈(n : ℚ) * p⌉.toNat ≤ n := by
  have hpos : 0 < (n : ℚ) * p := mul_pos (Nat.cast_pos.mpr hn) hp
  have hmost : (n : ℚ) * p ≤ (n : Int) := by
    rw [Int.cast_natCast]
    exact mul_le_of_le_one_right n.cast_nonneg hle
  have hceil := Int.ceil_le.mpr hmost
  have hceilPos := Int.ceil_pos.mpr hpos
  omega

theorem ceil_toNat_le_iff (q : ℚ) (n : Nat) : ⌈q⌉.toNat ≤ n ↔ q ≤ n := by
  rw [Int.toNat_le, Int.ceil_le, Int.cast_natCast]

theorem target_le_iff (total : UInt64) (p : Binary64) (n : Nat) :
    (target total p).toNat ≤ n ↔ min (Binary64.ofNat total.toNat * p).value (2 ^ 64 - 1) ≤ n := by
  have hcast : ((2 ^ 64 - 1 : ℕ) : ℚ) = 2 ^ 64 - 1 := by norm_num
  rw [target, Binary64.toUInt64, Binary64.value_ceil, Int.floor_intCast, UInt64.toNat_ofNat', Nat.mod_eq_of_lt (by omega),
    min_le_iff, min_le_iff, ceil_toNat_le_iff, ← hcast, Nat.cast_le]

theorem target_mono (total : UInt64) {p q : ℚ} (hp : 0 ≤ p) (h : p ≤ q) :
    (target total (.ofRat p)).toNat ≤ (target total (.ofRat q)).toNat := by
  have htotal : 0 ≤ (Binary64.ofNat total.toNat).value := Binary64.round_nonneg (Nat.cast_nonneg _)
  have hproduct : (Binary64.ofNat total.toNat * .ofRat p).value ≤ (Binary64.ofNat total.toNat * .ofRat q).value :=
    Binary64.round_mono (mul_nonneg htotal (Binary64.round_nonneg hp))
      (mul_le_mul_of_nonneg_left (Binary64.round_mono hp h) htotal)
  rw [target_le_iff]
  exact (min_le_min_right _ hproduct).trans ((target_le_iff _ _ _).mp (Nat.le_refl _))

/-! ### Percentiles -/

/-- The percentile is the greatest boundary that is not above the value with the rank asked for. -/
def Ranks (values : List Nat) (p : ℚ) : Prop :=
  ∃ value bound, kthSmallest values ⌈(values.length : ℚ) * p⌉.toNat = some value ∧
    (recordAll values).snapshot.percentile (.ofRat p) = .ok (some bound) ∧
    IsGreatest {boundary | boundary ∈ 0 :: exponentialBoundaries ∧ boundary ≤ value} bound

/-- The counters hold something and do not add up to too much, and no number of values up to a bucket lies between the exact
rank and the one that is rounded to a double. -/
structure RoundsWithinBucket (values : List Nat) (p : ℚ) : Prop where
  holds : 0 < keptTotal values
  adds : keptTotal values < 2 ^ 64
  rounds : ∀ i ≤ exponentialBoundaries.length,
    (min (Binary64.ofNat (keptTotal values) * Binary64.ofRat p).value (2 ^ 64 - 1) ≤ keptBelow values (i + 1) ↔
      (values.length : ℚ) * p ≤ countBelow values (i + 1))

theorem ranks_iff (hvalues : values ≠ []) {p : ℚ} (hp : 0 < p) (hle : p ≤ 1) : Ranks values p ↔ RoundsWithinBucket values p := by
  obtain ⟨hpos, hrank⟩ := rank_bounds (List.length_pos_of_ne_nil hvalues) hp hle
  obtain ⟨value, hvalue⟩ := exists_kthSmallest hpos hrank
  have hbucket := bucketIndex_le_length exponentialBoundaries value
  have hsome := List.getElem?_eq_getElem (show bucketIndex exponentialBoundaries value < (0 :: exponentialBoundaries).length from
    Nat.lt_succ_of_le hbucket)
  have hgreatest := isGreatest_of_bucketIndex (by decide) (Nat.zero_le value) hsome
  have hexact (i : Nat) : (values.length : ℚ) * p ≤ countBelow values (i + 1) ↔ bucketIndex exponentialBoundaries value ≤ i := by
    rw [← rank_le_countBelow_iff hpos hvalue, ceil_toNat_le_iff]
  have htarget (hadds : keptTotal values < 2 ^ 64) (i : Nat) :
      (target (UInt64.ofNat (keptTotal values)) (.ofRat p)).toNat ≤ keptBelow values (i + 1) ↔
        min (Binary64.ofNat (keptTotal values) * Binary64.ofRat p).value (2 ^ 64 - 1) ≤ keptBelow values (i + 1) := by
    rw [target_le_iff, UInt64.toNat_ofNat', Nat.mod_eq_of_lt hadds]
  apply Iff.intro
  · intro hranks
    obtain ⟨value', b, hvalue', hpercentile, hgreatest'⟩ := hranks
    obtain rfl : value = value' := Option.some.inj (hvalue.symm.trans hvalue')
    obtain ⟨hholds, hadds, i, hi, hbound, hreached, hbefore⟩ := percentile_eq_some_iff.mp hpercentile
    have hnodup : (0 :: exponentialBoundaries).Nodup := by decide
    have hsame : (0 :: exponentialBoundaries)[i]? = (0 :: exponentialBoundaries)[bucketIndex exponentialBoundaries value]? := by
      rw [hbound, hsome, hgreatest'.unique hgreatest]
    obtain rfl : i = bucketIndex exponentialBoundaries value := (List.getElem?_inj (Nat.lt_succ_of_le hi) hnodup).mp hsame
    refine ⟨hholds, hadds, fun j _ => ?_⟩
    rw [← htarget hadds, hexact]
    apply Iff.intro
    · intro hj
      by_contra hlt
      exact absurd hj (Nat.not_le.mpr (hbefore j (Nat.not_le.mp hlt)))
    · intro hj
      exact hreached.trans (keptBelow_mono values (by omega))
  · intro hrounds
    refine ⟨value, _, hvalue, percentile_eq_some_iff.mpr ?_, hgreatest⟩
    refine ⟨hrounds.holds, hrounds.adds, _, hbucket, hsome, ?_, fun j hj => ?_⟩
    · rw [htarget hrounds.adds, hrounds.rounds _ hbucket, hexact]
    · rw [← Nat.not_le, htarget hrounds.adds, hrounds.rounds j (by omega), hexact]
      omega

/-- Where nothing is rounded. -/
theorem ranks_of_product_eq (hvalues : values ≠ []) (hlt : values.length < 2 ^ 64) {p : ℚ} (hp : 0 < p) (hle : p ≤ 1)
    (hproduct : (Binary64.ofNat values.length * Binary64.ofRat p).value = values.length * p) : Ranks values p := by
  refine (ranks_iff hvalues hp hle).mpr ⟨?_, ?_, fun i _ => ?_⟩
  · rw [keptTotal_eq hlt]
    exact List.length_pos_of_ne_nil hvalues
  · rwa [keptTotal_eq hlt]
  · have hmost : (values.length : ℚ) * p ≤ values.length := mul_le_of_le_one_right (Nat.cast_nonneg _) hle
    have hlength : (values.length : ℚ) ≤ 2 ^ 64 - 1 := by
      rw [le_sub_iff_add_le]
      exact_mod_cast hlt
    rw [keptTotal_eq hlt, hproduct, min_eq_left (hmost.trans hlength), keptBelow_eq hlt]

/-- The median of up to `2 ^ 53` values. -/
theorem ranks_median (hvalues : values ≠ []) (hle : values.length ≤ 2 ^ 53) : Ranks values (1 / 2) := by
  refine ranks_of_product_eq hvalues (by omega) (by norm_num) (by norm_num) ?_
  have hsize : |(values.length : ℤ)| ≤ 2 ^ 53 := by
    rw [abs_of_nonneg (Int.natCast_nonneg _)]
    exact_mod_cast hle
  have hlength : Binary64.round values.length = values.length := by
    simpa using Binary64.round_intCast hsize
  have hhalf : (values.length : ℚ) * (1 / 2) = (values.length : ℤ) * 2 ^ (-1 : ℤ) := by
    rw [zpow_neg_one, one_div, Int.cast_natCast]
  have hone : Binary64.round (1 / 2) = 1 / 2 := by
    simpa using Binary64.round_of_representable (by norm_num : |(1 : ℤ)| ≤ 2 ^ 53) (by norm_num : (-1074 : ℤ) ≤ -1)
  rw [Binary64.value_mul, Binary64.value_ofNat, Binary64.value_ofRat, hlength, hone, hhalf]
  exact Binary64.round_of_representable hsize (by norm_num)

theorem percentile_mono {p q : ℚ} (hp : 0 ≤ p) (h : p ≤ q) {a b : Nat}
    (ha : (recordAll values).snapshot.percentile (.ofRat p) = .ok (some a))
    (hb : (recordAll values).snapshot.percentile (.ofRat q) = .ok (some b)) : a ≤ b := by
  obtain ⟨-, -, i, hi, hfirst, -, hbefore⟩ := percentile_eq_some_iff.mp ha
  obtain ⟨-, -, j, hj, hsecond, hreached, -⟩ := percentile_eq_some_iff.mp hb
  have hle : i ≤ j := by
    by_contra hlt
    have htarget := target_mono (UInt64.ofNat (keptTotal values)) hp h
    have hbelow := hbefore j (Nat.not_le.mp hlt)
    omega
  have hsorted : (0 :: exponentialBoundaries).Pairwise (· < ·) := by decide
  obtain ⟨hindex, rfl⟩ := List.getElem?_eq_some_iff.mp hfirst
  obtain ⟨hindex', rfl⟩ := List.getElem?_eq_some_iff.mp hsecond
  exact hsorted.sortedLT.sortedLE.getElem_le_getElem_of_le hle

/-- Seven values of a hundred are zero, and the product of 100 and 0.07 is rounded to something above seven. -/
def sevenOfHundred : List Nat := List.replicate 7 0 ++ List.replicate 93 10

example : (recordAll sevenOfHundred).snapshot.percentile (.ofRat (7 / 100)) = .ok (some 10) := by decide +kernel

end HistogramSnapshot

end IrohRaft
