import Mathlib.Order.Lattice.Nat
import Mathlib.Order.MinMax

/-!
# Averages of what has been seen

A value that moves towards each new sample, by a mean of the two, stays between the least and the greatest
sample, however the mean rounds. Where it starts at the least value of all, and the first sample replaces
that, the start does not count as a sample; and a sample that is itself the least value may be taken for the
start later on, since then it is not left behind.
-/

namespace Average

variable {α : Type} [LinearOrder α]

/-- What is made of two values is not below both of them, and not above both. -/
def IsMean (mix : α → α → α) : Prop := ∀ old new, min old new ≤ mix old new ∧ mix old new ≤ max old new

/-- A value from the least to the greatest of the samples. -/
structure Between (samples : List α) (value : α) : Prop where
  least : ∃ least, samples.min? = some least ∧ least ≤ value
  greatest : ∃ greatest, samples.max? = some greatest ∧ value ≤ greatest

section Means

variable {mix : α → α → α}

/-- The old value counts so many times as much as the new one, and the quotient is rounded down. -/
theorem isMean_weighted (weight : Nat) : IsMean fun old new : Nat => (old * weight + new) / (weight + 1) := by
  intro old new
  have hpos : 0 < weight + 1 := Nat.succ_pos weight
  have hsplit (bound : Nat) : bound * (weight + 1) = bound * weight + bound := Nat.mul_succ bound weight
  refine ⟨(Nat.le_div_iff_mul_le hpos).mpr ?_, Nat.div_le_of_le_mul ?_⟩
  · rw [hsplit]
    exact Nat.add_le_add (Nat.mul_le_mul_right weight (Nat.min_le_left old new)) (Nat.min_le_right old new)
  · rw [Nat.mul_comm (weight + 1), hsplit]
    exact Nat.add_le_add (Nat.mul_le_mul_right weight (Nat.le_max_left old new)) (Nat.le_max_right old new)

/-- The first sample is taken as it is. -/
def fromFirst [OrderBot α] (mix : α → α → α) (old new : α) : α := if old = ⊥ then new else mix old new

theorem IsMean.fromFirst [OrderBot α] (h : IsMean mix) : IsMean (fromFirst mix) := by
  intro old new
  rw [Average.fromFirst]
  split
  · exact ⟨min_le_right old new, le_max_right old new⟩
  · exact h old new

end Means

section Samples

variable {mix : α → α → α} {samples : List α} {value bound : α}

theorem between_iff :
    Between samples value ↔ (∃ sample ∈ samples, sample ≤ value) ∧ ∃ sample ∈ samples, value ≤ sample := by
  apply Iff.intro
  · intro h
    obtain ⟨⟨least, hleast, hbelow⟩, greatest, hgreatest, habove⟩ := h
    exact ⟨⟨least, List.min?_mem hleast, hbelow⟩, greatest, List.max?_mem hgreatest, habove⟩
  · intro h
    obtain ⟨⟨low, hlow, hbelow⟩, high, hhigh, habove⟩ := h
    have hsome : samples ≠ [] := List.ne_nil_of_mem hlow
    exact ⟨⟨_, List.min?_eq_some_min hsome, (List.min_le_of_mem hlow).trans hbelow⟩,
      _, List.max?_eq_some_max hsome, habove.trans (List.le_max_of_mem hhigh)⟩

theorem between_singleton (sample : α) : Between [sample] sample := by
  simp [between_iff]

theorem Between.lt (h : Between samples value) (hsamples : ∀ sample ∈ samples, sample < bound) : value < bound := by
  obtain ⟨-, high, hhigh, habove⟩ := between_iff.mp h
  exact habove.trans_lt (hsamples high hhigh)

/-- One more sample, and the value moves towards it. -/
theorem Between.concat (hmean : IsMean mix) (h : Between samples value) (sample : α) :
    Between (samples ++ [sample]) (mix value sample) := by
  obtain ⟨⟨low, hlow, hbelow⟩, high, hhigh, habove⟩ := between_iff.mp h
  obtain ⟨hmin, hmax⟩ := hmean value sample
  refine between_iff.mpr ⟨?_, ?_⟩
  · obtain hold | hnew := min_choice value sample
    · exact ⟨low, List.mem_append_left _ hlow, hbelow.trans (hold.ge.trans hmin)⟩
    · exact ⟨sample, by simp, hnew.ge.trans hmin⟩
  · obtain hold | hnew := max_choice value sample
    · exact ⟨high, List.mem_append_left _ hhigh, (hmax.trans hold.le).trans habove⟩
    · exact ⟨sample, by simp, hmax.trans hnew.le⟩

variable [OrderBot α]

/-- The average of the samples so far. -/
structure Averages (samples : List α) (value : α) : Prop where
  start : samples = [] → value = ⊥
  between : samples ≠ [] → Between samples value

theorem averages_nil : Averages ([] : List α) ⊥ := ⟨fun _ => rfl, fun h => absurd rfl h⟩

theorem Averages.lt (h : Averages samples value) (hbound : ⊥ < bound) (hsamples : ∀ sample ∈ samples, sample < bound) :
    value < bound := by
  by_cases hnone : samples = []
  · exact h.start hnone ▸ hbound
  · exact (h.between hnone).lt hsamples

theorem Averages.concat (hmean : IsMean mix) (h : Averages samples value) (sample : α) :
    Averages (samples ++ [sample]) (fromFirst mix value sample) where
  start := by simp
  between := by
    intro _
    by_cases hnone : samples = []
    · rw [fromFirst, if_pos (h.start hnone), hnone]
      exact between_singleton sample
    · exact (h.between hnone).concat hmean.fromFirst sample

theorem Averages.append (hmean : IsMean mix) (h : Averages samples value) (later : List α) :
    Averages (samples ++ later) (later.foldl (fromFirst mix) value) := by
  induction later generalizing samples value with
  | nil => simpa using h
  | cons sample rest ih => simpa using ih (h.concat hmean sample)

end Samples

end Average
