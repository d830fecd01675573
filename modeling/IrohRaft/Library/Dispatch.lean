import Mathlib.Algebra.BigOperators.Group.Finset.Basic
import Mathlib.Algebra.Order.BigOperators.Group.Finset
import Mathlib.Logic.Function.Basic

/-!
# Items dispatched in batches

Items wait in a line for their class. A batch is taken off the front of the first line in which any wait, and has a limited
length. Whatever the order of arrivals and batches, each line is first in, first out: what has come to it is what has left
it, in this order, and what still waits. Every batch leaves fewer items behind, so that only so many can follow each other.
The lines may be kept as batches that are filled one after another.
-/

namespace Dispatch

variable {α κ : Type}

/-! ### The load -/

section Load

variable [Fintype κ] [DecidableEq κ]

/-- How many items wait. -/
def load (waiting : κ → List α) : Nat := ∑ which, (waiting which).length

theorem load_update_lt {waiting : κ → List α} {which : κ} {line : List α} (h : line.length < (waiting which).length) :
    load (Function.update waiting which line) < load waiting := by
  refine Finset.sum_lt_sum (fun other _ => ?_) ⟨which, Finset.mem_univ which, by simpa using h⟩
  by_cases hsame : other = which
  · obtain rfl := hsame
    simpa using h.le
  · rw [Function.update_of_ne hsame]

end Load

/-! ### Steps -/

/-- What happens: an item arrives, a batch leaves its line, or there is nothing to leave. -/
inductive Label (α κ : Type) where
  | enqueue (item : α)
  | idle
  | batch (which : κ) (items : List α)

section Lines

variable [DecidableEq κ] [LT κ] (classOf : α → κ) (limit : κ → Nat)

inductive Step : (κ → List α) → Label α κ → (κ → List α) → Prop
  | enqueue (waiting : κ → List α) (item : α) :
      Step waiting (.enqueue item) (Function.update waiting (classOf item) (waiting (classOf item) ++ [item]))
  | idle (waiting : κ → List α) : (∀ which, waiting which = []) → Step waiting .idle waiting
  | batch (waiting : κ → List α) (which : κ) (items rest : List α) : waiting which = items ++ rest → items ≠ [] →
      items.length ≤ limit which → (∀ other < which, waiting other = []) →
      Step waiting (.batch which items) (Function.update waiting which rest)

inductive Trace : (κ → List α) → List (Label α κ) → (κ → List α) → Prop
  | nil (waiting : κ → List α) : Trace waiting [] waiting
  | cons {waiting between after : κ → List α} {label : Label α κ} {rest : List (Label α κ)} :
      Step classOf limit waiting label between → Trace between rest after → Trace waiting (label :: rest) after

/-- The items that arrive for a class. -/
def enqueued (which : κ) (labels : List (Label α κ)) : List α :=
  labels.flatMap fun
    | .enqueue item => if classOf item = which then [item] else []
    | .idle | .batch _ _ => []

/-- The items that leave the line of a class. -/
def sent (which : κ) (labels : List (Label α κ)) : List α :=
  labels.flatMap fun
    | .batch other items => if other = which then items else []
    | .enqueue _ | .idle => []

variable {classOf limit}

theorem Step.fifo {waiting after : κ → List α} {label : Label α κ} (h : Step classOf limit waiting label after) (which : κ) :
    waiting which ++ enqueued classOf which [label] = sent which [label] ++ after which := by
  cases h with
  | enqueue item =>
      by_cases hclass : classOf item = which
      · obtain rfl := hclass
        simp [enqueued, sent]
      · simp [enqueued, sent, hclass, Function.update_of_ne (Ne.symm hclass)]
  | idle hnone => simp [enqueued, sent]
  | batch other items rest hwaiting =>
      by_cases hclass : other = which
      · obtain rfl := hclass
        simp [enqueued, sent, hwaiting]
      · simp [enqueued, sent, hclass, Function.update_of_ne (Ne.symm hclass)]

/-- No item is lost or comes twice, and none overtakes another one of its class. -/
theorem Trace.fifo {waiting after : κ → List α} {labels : List (Label α κ)} (h : Trace classOf limit waiting labels after)
    (which : κ) : waiting which ++ enqueued classOf which labels = sent which labels ++ after which := by
  induction h with
  | nil waiting => simp [enqueued, sent]
  | @cons waiting between after label rest hstep _ ih =>
      have henqueued : enqueued classOf which (label :: rest) = enqueued classOf which [label] ++ enqueued classOf which rest := by
        simp [enqueued]
      have hsent : sent which (label :: rest) = sent which [label] ++ sent which rest := by simp [sent]
      rw [henqueued, hsent, ← List.append_assoc, hstep.fifo which, List.append_assoc, ih, List.append_assoc]

theorem Step.eq_nil_of_idle {waiting after : κ → List α} (h : Step classOf limit waiting .idle after) (which : κ) :
    waiting which = [] := by
  cases h with
  | idle hnone => exact hnone which

/-- Only so many batches can follow each other. -/
theorem Step.load_lt [Fintype κ] {waiting after : κ → List α} {which : κ} {items : List α}
    (h : Step classOf limit waiting (.batch which items) after) : load after < load waiting := by
  cases h with
  | batch _ _ rest hwaiting hsome =>
      apply load_update_lt
      have hpos := List.length_pos_iff.mpr hsome
      rw [hwaiting, List.length_append]
      omega

end Lines

/-! ### A line of batches -/

/-- The batches of a line have some items each, and not more than the limit. -/
def Bounded (limit : Nat) (line : List (List α)) : Prop := ∀ batch ∈ line, batch ≠ [] ∧ batch.length ≤ limit

variable {limit : Nat} {line : List (List α)}

theorem Bounded.tail {first : List α} (h : Bounded limit (first :: line)) : Bounded limit line :=
  fun batch hbatch => h batch (List.mem_cons_of_mem _ hbatch)

end Dispatch
