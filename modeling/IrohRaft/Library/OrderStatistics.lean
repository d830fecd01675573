import Mathlib.Data.List.Sort
import Mathlib.Order.Bounds.Basic

/-!
# Order statistics

The k-th smallest of a list of values, and what it has to do with counting: a property that passes on to
smaller values holds of the k-th smallest exactly if it holds of k values. A value is in the bucket with the
number of the first boundary above it.
-/

namespace OrderStatistics

variable {α : Type} [LinearOrder α]

/-- Counted from one. -/
def kthSmallest (values : List α) (k : Nat) : Option α := (values.mergeSort (· ≤ ·))[k - 1]?

theorem pairwise_sorted (values : List α) : (values.mergeSort (· ≤ ·)).Pairwise (· ≤ ·) := by
  have hsorted := @List.pairwise_mergeSort α (fun a b => decide (a ≤ b)) (by simpa using fun a b c => le_trans)
    (by simpa using le_total) values
  simpa using hsorted

theorem exists_kthSmallest {values : List α} {k : Nat} (hpos : 0 < k) (hle : k ≤ values.length) :
    ∃ value, kthSmallest values k = some value := by
  have hlt : k - 1 < (values.mergeSort (· ≤ ·)).length := by
    rw [List.length_mergeSort]
    omega
  exact ⟨_, List.getElem?_eq_getElem hlt⟩

section Counting

variable {p : α → Bool}

/-- In a sorted list the values with the property come first. -/
theorem holds_getElem?_iff (hdown : ∀ {a b}, a ≤ b → p b → p a) {sorted : List α} (hsorted : sorted.Pairwise (· ≤ ·))
    {i : Nat} {value : α} (hvalue : sorted[i]? = some value) : p value ↔ i < sorted.countP p := by
  induction sorted generalizing i with
  | nil => simp at hvalue
  | cons first rest ih =>
      obtain ⟨hfirst, hrest⟩ := List.pairwise_cons.mp hsorted
      by_cases hp : p first
      · cases i with
        | zero =>
            obtain rfl : first = value := by simpa using hvalue
            simp [hp]
        | succ i =>
            rw [ih hrest hvalue, List.countP_cons_of_pos hp]
            omega
      · have hnone : ∀ later ∈ first :: rest, ¬ p later := by
          refine List.forall_mem_cons.mpr ⟨hp, fun later hlater hholds => hp (hdown (hfirst later hlater) hholds)⟩
        rw [List.countP_eq_zero.mpr hnone]
        simpa using hnone value (List.mem_of_getElem? hvalue)

theorem holds_kthSmallest_iff (hdown : ∀ {a b}, a ≤ b → p b → p a) {values : List α} {k : Nat} {value : α} (hpos : 0 < k)
    (hvalue : kthSmallest values k = some value) : p value ↔ k ≤ values.countP p := by
  rw [holds_getElem?_iff hdown (pairwise_sorted values) hvalue, (List.mergeSort_perm values _).countP_eq]
  omega

end Counting

/-! ### Buckets -/

/-- The first boundary above the value; the number of boundaries where there is none. -/
def bucketIndex (boundaries : List α) (value : α) : Nat := boundaries.findIdx (value < ·)

theorem bucketIndex_le_length (boundaries : List α) (value : α) : bucketIndex boundaries value ≤ boundaries.length :=
  List.findIdx_le_length

theorem bucketIndex_mono (boundaries : List α) {a b : α} (h : a ≤ b) :
    bucketIndex boundaries a ≤ bucketIndex boundaries b := by
  apply List.findIdx_le_findIdx
  intro boundary _ hlt
  simp only [decide_eq_true_eq] at hlt ⊢
  exact h.trans_lt hlt

theorem lt_bucketIndex_iff {boundaries : List α} (hsorted : boundaries.Pairwise (· < ·)) (value : α) {i : Nat}
    (hi : i < boundaries.length) : i < bucketIndex boundaries value ↔ boundaries[i] ≤ value := by
  apply Iff.intro
  · intro hlt
    simpa using List.not_of_lt_findIdx hlt
  · intro hle
    by_contra hge
    have hindex : bucketIndex boundaries value < boundaries.length := by omega
    have habove : value < boundaries[bucketIndex boundaries value] :=
      of_decide_eq_true (@List.findIdx_getElem _ (fun boundary => decide (value < boundary)) boundaries hindex)
    have hsame : boundaries[bucketIndex boundaries value] ≤ boundaries[i] :=
      hsorted.sortedLT.sortedLE.getElem_le_getElem_of_le (by omega)
    exact absurd (habove.trans_le (hsame.trans hle)) (lt_irrefl value)

/-- The lower end of a value's bucket is the greatest boundary that is not above the value. -/
theorem isGreatest_of_bucketIndex {least : α} {boundaries : List α} (hsorted : (least :: boundaries).Pairwise (· < ·))
    {value bound : α} (hleast : least ≤ value) (hbound : (least :: boundaries)[bucketIndex boundaries value]? = some bound) :
    IsGreatest {boundary | boundary ∈ least :: boundaries ∧ boundary ≤ value} bound := by
  have hle : bound ≤ value := by
    cases hbucket : bucketIndex boundaries value with
    | zero =>
        obtain rfl : least = bound := by simpa [hbucket] using hbound
        exact hleast
    | succ i =>
        rw [hbucket, List.getElem?_cons_succ] at hbound
        obtain ⟨hi, rfl⟩ := List.getElem?_eq_some_iff.mp hbound
        exact (lt_bucketIndex_iff (List.pairwise_cons.mp hsorted).2 value hi).mp (by omega)
  refine ⟨⟨List.mem_of_getElem? hbound, hle⟩, ?_⟩
  obtain ⟨hindex, rfl⟩ := List.getElem?_eq_some_iff.mp hbound
  intro boundary hboundary
  obtain ⟨i, hi, rfl⟩ := List.mem_iff_getElem.mp hboundary.1
  refine hsorted.sortedLT.sortedLE.getElem_le_getElem_of_le ?_
  cases i with
  | zero => exact Nat.zero_le _
  | succ i =>
      have hlt : i < boundaries.length := by simpa using hi
      exact (lt_bucketIndex_iff (List.pairwise_cons.mp hsorted).2 value hlt).mpr (by simpa using hboundary.2)

end OrderStatistics
