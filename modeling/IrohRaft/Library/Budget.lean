import Mathlib.Algebra.BigOperators.Group.List.Basic
import Mathlib.Algebra.Ring.Nat

/-!
# Prefixes within a budget

A scan takes items as long as their total size fits, and stops at the first that does not. It takes the
longest prefix whose total fits. A bounded prefix is that one too, but it is never empty: one item is
taken whatever its size. The two differ exactly when already the first item is too large.
-/

namespace Budget

variable {α : Type} (size : α → Nat) (fits : Nat → Prop) [DecidablePred fits]

/-- The total size of a list. -/
def total (items : List α) : Nat := (items.map size).sum

/-- The items taken after items of this size. -/
def taken : Nat → List α → List α
  | _, [] => []
  | spent, item :: rest => if fits (spent + size item) then item :: taken (spent + size item) rest else []

omit [DecidablePred fits] in
/-- The longest prefix whose total fits, but always at least one item. -/
structure Bounded (items found : List α) : Prop where
  cut : found <+: items
  nonempty : items ≠ [] → found ≠ []
  within : found.length ≤ 1 ∨ fits (total size found)
  longest : ∀ longer, longer <+: items → fits (total size longer) → longer.length ≤ found.length

/-- The first item fits alone. -/
def FirstFits (items : List α) : Prop := ∀ item ∈ items.head?, fits (size item)

@[simp] theorem total_nil : total size [] = 0 := rfl

@[simp] theorem total_cons (item : α) (rest : List α) : total size (item :: rest) = size item + total size rest := by
  simp [total]

theorem taken_isInitial (spent : Nat) (items : List α) : taken size fits spent items <+: items := by
  induction items generalizing spent with
  | nil => simp [taken]
  | cons item rest ih =>
      rw [taken]
      split
      · exact (List.prefix_cons_inj item).mpr (ih _)
      · exact List.nil_prefix

theorem fits_total_taken {spent : Nat} {items : List α} (h : fits spent) :
    fits (spent + total size (taken size fits spent items)) := by
  induction items generalizing spent with
  | nil => simpa [taken] using h
  | cons item rest ih =>
      rw [taken]
      split
      · rename_i hitem
        rw [total_cons, ← Nat.add_assoc]
        exact ih hitem
      · simpa using h

/-- Where what fits still fits when it is smaller, no longer prefix fits. -/
theorem length_le_taken (hdown : ∀ less more, less ≤ more → fits more → fits less) {spent : Nat}
    {items longer : List α} (hcut : longer <+: items) (hfits : fits (spent + total size longer)) :
    longer.length ≤ (taken size fits spent items).length := by
  induction items generalizing spent longer with
  | nil => simp [List.prefix_nil.mp hcut]
  | cons item rest ih =>
      cases longer with
      | nil => simp
      | cons first tail =>
          obtain ⟨rfl, htail⟩ := List.cons_prefix_cons.mp hcut
          rw [total_cons, ← Nat.add_assoc] at hfits
          rw [taken, if_pos (hdown _ _ (Nat.le_add_right _ _) hfits)]
          exact Nat.succ_le_succ (ih htail hfits)

/-- The scan gives the bounded prefix exactly when the first item fits. -/
theorem bounded_taken_iff (hdown : ∀ less more, less ≤ more → fits more → fits less) (hzero : fits 0) (items : List α) :
    Bounded size fits items (taken size fits 0 items) ↔ FirstFits size fits items := by
  apply Iff.intro
  · intro hbounded item hitem
    cases items with
    | nil => simp at hitem
    | cons first rest =>
        obtain rfl : first = item := by simpa using hitem
        have hnonempty := hbounded.nonempty (by simp)
        by_contra hlarge
        apply hnonempty
        rw [taken, Nat.zero_add, if_neg hlarge]
  · intro hfirst
    refine ⟨taken_isInitial size fits 0 items, fun hitems => ?_, .inr ?_, fun longer hcut hfits => ?_⟩
    · cases items with
      | nil => exact absurd rfl hitems
      | cons first rest =>
          have hfits : fits (size first) := hfirst first (by simp)
          rw [taken, Nat.zero_add, if_pos hfits]
          simp
    · simpa using fits_total_taken size fits hzero
    · exact length_le_taken size fits hdown hcut (by simpa using hfits)

end Budget
