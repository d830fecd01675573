import IrohRaft.Library.Text
import Mathlib.Data.List.Nodup

/-!
# Channels that are answered once

A sender waits in a table under a key until it is taken out and used, or it is used right away. Where every new sender is
a fresh one, no sender is used twice, and one that waits goes on waiting until it is used.
-/

namespace Oneshot

open Rust Std

variable {κ τ ρ : Type} [Ord κ] [TransOrd κ]

/-- What the sender under a key is used for. -/
def taken (pending : HashMap κ τ) (key : κ) (result : ρ) : List (τ × ρ) := (pending[key]?.map (·, result)).toList

def Used (answers : List (τ × ρ)) (sender : τ) : Prop := sender ∈ answers.map Prod.fst

/-- The sender does not wait and was not used. -/
structure Fresh (pending : HashMap κ τ) (answers : List (τ × ρ)) (sender : τ) : Prop where
  idle : ∀ key : κ, pending[key]? ≠ some sender
  unused : ¬ Used answers sender

/-- No sender is used twice, and those that wait are apart from each other and from those that were used. -/
structure Once (pending : HashMap κ τ) (answers : List (τ × ρ)) : Prop where
  nodup : (answers.map Prod.fst).Nodup
  unused : ∀ (key : κ) sender, pending[key]? = some sender → ¬ Used answers sender
  apart : ∀ (key other : κ) sender, pending[key]? = some sender → pending[other]? = some sender → key = other

/-- The sender waits under this key, or it was used and nothing waits there. -/
def Awaits (key : κ) (sender : τ) (pending : HashMap κ τ) (answers : List (τ × ρ)) : Prop :=
  pending[key]? = some sender ∨ pending[key]? = none ∧ Used answers sender

variable {pending : HashMap κ τ} {answers : List (τ × ρ)} {key other : κ} {sender : τ} {result : ρ}

theorem Once.count_le_one [DecidableEq τ] (h : Once pending answers) (sender : τ) :
    (answers.map Prod.fst).count sender ≤ 1 :=
  List.nodup_iff_count_le_one.mp h.nodup sender

theorem used_append {more : List (τ × ρ)} : Used (answers ++ more) sender ↔ Used answers sender ∨ Used more sender := by
  simp only [Used, List.map_append, List.mem_append]

theorem used_taken : Used (taken pending key result) sender ↔ pending[key]? = some sender := by
  cases hpending : pending[key]? with
  | none => simp [Used, taken, hpending]
  | some waiting => simp [Used, taken, hpending, eq_comm]

/-- Using a sender that does not wait. -/
theorem Once.use (h : Once pending answers) (hfresh : Fresh pending answers sender) (result : ρ) :
    Once pending (answers ++ [(sender, result)]) := by
  refine ⟨?_, ?_, h.apart⟩
  · rw [List.map_append, List.map_singleton]
    refine List.Nodup.append h.nodup (List.nodup_singleton sender) ?_
    exact List.disjoint_singleton.mpr hfresh.unused
  · intro key waiting hkey hused
    obtain hused | hused := used_append.mp hused
    · exact h.unused key waiting hkey hused
    · obtain rfl : waiting = sender := by simpa [Used] using hused
      exact hfresh.idle key hkey

/-- One that awaits its use has been used exactly if its key is free. -/
theorem Awaits.used_iff (h : Awaits key sender pending answers) (honce : Once pending answers) :
    Used answers sender ↔ pending[key]? = none := by
  obtain hwaits | hused := h
  · rw [hwaits]
    exact iff_of_false (honce.unused key sender hwaits) (by simp)
  · exact iff_of_true hused.2 hused.1

variable [LawfulEqOrd κ]

theorem Awaits.insert_of_ne (h : Awaits key sender pending answers) (hne : other ≠ key) (fresh : τ) :
    Awaits key sender (pending.insert other fresh) answers := by
  rw [Awaits, HashMap.getElem?_insert_of_ne hne]
  exact h

variable [DecidableEq κ]

theorem getElem?_erase_eq_some :
    (pending.erase key)[other]? = some sender ↔ key ≠ other ∧ pending[other]? = some sender := by
  rw [HashMap.getElem?_erase_if]
  by_cases hkey : key = other <;> simp [hkey]

/-! ### What is taken out of the table -/

theorem Once.erase (h : Once pending answers) (key : κ) : Once (pending.erase key) answers := by
  refine ⟨h.nodup, ?_, ?_⟩
  · intro other sender hother
    exact h.unused other sender (getElem?_erase_eq_some.mp hother).2
  · intro first second sender hfirst hsecond
    exact h.apart first second sender (getElem?_erase_eq_some.mp hfirst).2 (getElem?_erase_eq_some.mp hsecond).2

theorem Once.insert (h : Once pending answers) (hfresh : Fresh pending answers sender) (key : κ) :
    Once (pending.insert key sender) answers := by
  refine ⟨h.nodup, ?_, ?_⟩
  · intro other waiting hother
    rw [HashMap.getElem?_insert_if] at hother
    split at hother
    · obtain rfl := Option.some.inj hother
      exact hfresh.unused
    · exact h.unused other waiting hother
  · intro first second waiting hfirst hsecond
    rw [HashMap.getElem?_insert_if] at hfirst hsecond
    split at hfirst
    · next heq =>
        obtain rfl := Option.some.inj hfirst
        split at hsecond
        · next heq' => exact heq.symm.trans heq'
        · exact absurd hsecond (hfresh.idle second)
    · split at hsecond
      · obtain rfl := Option.some.inj hsecond
        exact absurd hfirst (hfresh.idle first)
      · exact h.apart first second waiting hfirst hsecond

/-- Taking the sender under a key out of the table, and using it. -/
theorem Once.answer (h : Once pending answers) (key : κ) (result : ρ) :
    Once (pending.erase key) (answers ++ taken pending key result) := by
  cases hpending : pending[key]? with
  | none => simpa [taken, hpending] using h.erase key
  | some sender =>
      have hfresh : Fresh (pending.erase key) answers sender := by
        refine ⟨?_, h.unused key sender hpending⟩
        intro other hother
        obtain ⟨hne, hother⟩ := getElem?_erase_eq_some.mp hother
        exact hne (h.apart key other sender hpending hother)
      simpa [taken, hpending] using (h.erase key).use hfresh result

theorem Awaits.answer (h : Awaits key sender pending answers) (other : κ) (result : ρ) :
    Awaits key sender (pending.erase other) (answers ++ taken pending other result) := by
  rw [Awaits, HashMap.getElem?_erase_if, used_append, used_taken]
  by_cases hkey : other = key
  · obtain hwaits | hused := h
    · exact .inr ⟨if_pos hkey, .inr (hkey ▸ hwaits)⟩
    · exact .inr ⟨if_pos hkey, .inl hused.2⟩
  · rw [if_neg hkey]
    obtain hwaits | hused := h
    · exact .inl hwaits
    · exact .inr ⟨hused.1, .inl hused.2⟩

theorem Awaits.erase_of_ne (h : Awaits key sender pending answers) (hne : other ≠ key) :
    Awaits key sender (pending.erase other) answers := by
  rw [Awaits, HashMap.getElem?_erase_if, if_neg hne]
  exact h

end Oneshot
