import IrohRaft.Classification
import Mathlib.Data.List.Basic

/-!
# Errors by their leaves

Several errors are as transient as each of them is, and a reason to step down if one of them is, at any depth. An error
without leaves, several errors that are none, is transient.
-/

namespace IrohRaft.Classification.RaftError

mutual

/-- The single errors in an error. -/
def leaves : RaftError → List RaftError
  | .multiple errors => leavesOf errors
  | error => [error]

def leavesOf : List RaftError → List RaftError
  | [] => []
  | error :: rest => error.leaves ++ leavesOf rest

end

/-- The variants that might succeed on retry. -/
def transientVariants : List RaftError :=
  [.networkTimeout, .connectionFailed, .transport, .serviceUnavailable, .resourceExhausted, .notReady]

/-- The variants for which a node should step down. -/
def stepDownVariants : List RaftError := [.networkPartition, .storageCorruption, .insufficientSpace]

structure Classified (error : RaftError) : Prop where
  transient_iff : error.isTransient = true ↔ ∀ leaf ∈ error.leaves, leaf ∈ transientVariants
  stepDown_iff : error.shouldStepDown = true ↔ ∃ leaf ∈ error.leaves, leaf ∈ stepDownVariants
  exclusive : ¬ (error.isTransient = true ∧ error.shouldStepDown = true)

mutual

theorem isTransient_iff (error : RaftError) : error.isTransient = true ↔ ∀ leaf ∈ error.leaves, leaf ∈ transientVariants := by
  cases error with
  | multiple errors =>
      rw [isTransient, leaves]
      exact allTransient_iff errors
  | _ => simp [isTransient, leaves, transientVariants]

theorem allTransient_iff (errors : List RaftError) :
    allTransient errors = true ↔ ∀ leaf ∈ leavesOf errors, leaf ∈ transientVariants := by
  cases errors with
  | nil => simp [allTransient, leavesOf]
  | cons error rest =>
      rw [allTransient, leavesOf, Bool.and_eq_true, List.forall_mem_append, isTransient_iff error, allTransient_iff rest]

end

mutual

theorem shouldStepDown_iff (error : RaftError) :
    error.shouldStepDown = true ↔ ∃ leaf ∈ error.leaves, leaf ∈ stepDownVariants := by
  cases error with
  | multiple errors =>
      rw [shouldStepDown, leaves]
      exact anyStepsDown_iff errors
  | _ => simp [shouldStepDown, leaves, stepDownVariants]

theorem anyStepsDown_iff (errors : List RaftError) :
    anyStepsDown errors = true ↔ ∃ leaf ∈ leavesOf errors, leaf ∈ stepDownVariants := by
  cases errors with
  | nil => simp [anyStepsDown, leavesOf]
  | cons error rest =>
      rw [anyStepsDown, leavesOf, Bool.or_eq_true, shouldStepDown_iff error, anyStepsDown_iff rest]
      simp only [List.mem_append, or_and_right, exists_or]

end

theorem not_stepDown_of_transient {leaf : RaftError} (h : leaf ∈ transientVariants) : leaf ∉ stepDownVariants := by
  intro hstepDown
  cases leaf <;> simp [transientVariants, stepDownVariants] at h hstepDown

/-- However errors are nested, they are transient if all leaves are and a reason to step down if one is, and never both. -/
theorem classified (error : RaftError) : error.Classified where
  transient_iff := isTransient_iff error
  stepDown_iff := shouldStepDown_iff error
  exclusive := by
    intro hboth
    obtain ⟨htransient, hstepDown⟩ := hboth
    obtain ⟨leaf, hleaf, hsteps⟩ := (shouldStepDown_iff error).mp hstepDown
    exact not_stepDown_of_transient ((isTransient_iff error).mp htransient leaf hleaf) hsteps

/-- Several errors that are none are transient without a leaf. -/
theorem not_transient_of_leaf : ¬ ∀ error : RaftError,
    (error.isTransient = true ↔ error.leaves ≠ [] ∧ ∀ leaf ∈ error.leaves, leaf ∈ transientVariants) ∧
    (error.shouldStepDown = true ↔ ∃ leaf ∈ error.leaves, leaf ∈ stepDownVariants) ∧
    ¬ (error.isTransient = true ∧ error.shouldStepDown = true) := by
  intro h
  have hleaves : (multiple []).leaves ≠ [] := ((h (.multiple [])).1.mp (by rfl)).1
  exact hleaves (by rfl)

end IrohRaft.Classification.RaftError
