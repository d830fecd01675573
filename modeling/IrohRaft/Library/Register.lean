import IrohRaft.Library.Outcome
import Mathlib.Data.List.Chain

/-!
# Registers

A step of a history may write a register or leave it alone. After a history the register holds what the
last step that wrote it left there, and what it held before when no step wrote it; so it does where a step can
stop the history, if none does. A table is a register for each key.
-/

namespace Register

variable {σ ι υ : Type} (write : ι → Option υ)

/-- What the last step that writes the register leaves in it. -/
def lastWrite (history : List ι) : Option υ := history.reverse.findSome? write

@[simp] theorem lastWrite_nil : lastWrite write [] = none := by
  rw [lastWrite, List.reverse_nil, List.findSome?_nil]

theorem lastWrite_append (first second : List ι) :
    lastWrite write (first ++ second) = (lastWrite write second).or (lastWrite write first) := by
  rw [lastWrite, List.reverse_append, List.findSome?_append]
  rfl

theorem lastWrite_cons (step : ι) (rest : List ι) :
    lastWrite write (step :: rest) = (lastWrite write rest).or (write step) := by
  rw [← List.singleton_append, lastWrite_append]
  simp [lastWrite]

/-- One more step writes over what the history has left. -/
theorem lastWrite_concat_getD (history : List ι) (step : ι) (old : υ) :
    (lastWrite write (history ++ [step])).getD old = (write step).getD ((lastWrite write history).getD old) := by
  rw [lastWrite_append, lastWrite_cons, lastWrite_nil, Option.none_or]
  cases write step <;> rfl

theorem lastWrite_cons_getD (step : ι) (rest : List ι) (old : υ) :
    (lastWrite write (step :: rest)).getD old = (lastWrite write rest).getD ((write step).getD old) := by
  rw [lastWrite_cons]
  cases lastWrite write rest <;> rfl

theorem lastWrite_append_getD (first second : List ι) (old : υ) :
    (lastWrite write (first ++ second)).getD old = (lastWrite write second).getD ((lastWrite write first).getD old) := by
  rw [lastWrite_append]
  cases lastWrite write second <;> rfl

theorem lastWrite_map {υ' : Type} (f : υ → υ') (history : List ι) :
    lastWrite (fun step => (write step).map f) history = (lastWrite write history).map f := by
  rw [lastWrite, lastWrite, List.map_findSome?]
  rfl

variable {write}

theorem lastWrite_eq_none_iff {history : List ι} :
    lastWrite write history = none ↔ ∀ step ∈ history, write step = none := by
  simp [lastWrite]

/-- The last write is a step after which no step writes. -/
theorem lastWrite_eq_some_iff {history : List ι} {value : υ} :
    lastWrite write history = some value ↔
      ∃ before step after, history = before ++ step :: after ∧ write step = some value ∧
        ∀ later ∈ after, write later = none := by
  apply Iff.intro
  · intro hlast
    induction history with
    | nil => simp at hlast
    | cons step rest ih =>
        rw [lastWrite_cons, Option.or_eq_some_iff] at hlast
        cases hlast with
        | inl hrest =>
            obtain ⟨before, last, after, heq, hwrite, hquiet⟩ := ih hrest
            exact ⟨step :: before, last, after, by rw [heq, List.cons_append], hwrite, hquiet⟩
        | inr hstep => exact ⟨[], step, rest, rfl, hstep.2, lastWrite_eq_none_iff.mp hstep.1⟩
  · intro hsplit
    obtain ⟨before, step, after, heq, hwrite, hquiet⟩ := hsplit
    rw [heq, lastWrite_append, lastWrite_cons, lastWrite_eq_none_iff.mpr hquiet, hwrite]
    rfl

section Chain

variable {related : υ → υ → Prop} {old : υ} {history : List ι}

/-- What is left of a chain of written values after a part of the history. -/
theorem isChain_after {first second : List ι} (h : (old :: (first ++ second).filterMap write).IsChain related) :
    ((lastWrite write first).getD old :: second.filterMap write).IsChain related := by
  induction first generalizing old with
  | nil => simpa using h
  | cons step rest ih =>
      rw [lastWrite_cons_getD]
      apply ih
      rw [List.cons_append, List.filterMap_cons] at h
      cases hwrite : write step with
      | none => simpa [hwrite] using h
      | some value =>
          rw [hwrite] at h
          exact (List.isChain_cons_cons.mp h).2

variable (hrefl : ∀ value, related value value)
  (htrans : ∀ first second third, related first second → related second third → related first third)

include hrefl htrans

theorem related_lastWrite (h : (old :: history.filterMap write).IsChain related) :
    related old ((lastWrite write history).getD old) := by
  induction history generalizing old with
  | nil => exact hrefl old
  | cons step rest ih =>
      rw [lastWrite_cons_getD]
      rw [List.filterMap_cons] at h
      cases hwrite : write step with
      | none => exact ih (by simpa [hwrite] using h)
      | some value =>
          rw [hwrite] at h
          obtain ⟨hvalue, hrest⟩ := List.isChain_cons_cons.mp h
          exact htrans _ _ _ hvalue (ih hrest)

/-- A register into which a chain of values is written never holds what does not follow on what it held before. -/
theorem related_of_prefix (h : (old :: history.filterMap write).IsChain related) {first second : List ι} (hfirst : first <+: second)
    (hsecond : second <+: history) : related ((lastWrite write first).getD old) ((lastWrite write second).getD old) := by
  obtain ⟨between, rfl⟩ := hfirst
  obtain ⟨after, rfl⟩ := hsecond
  rw [lastWrite_append_getD]
  rw [List.append_assoc] at h
  have hrest := isChain_after h
  rw [List.filterMap_append, ← List.cons_append] at hrest
  exact related_lastWrite hrefl htrans hrest.left_of_append

end Chain

/-- What a register holds after a history. -/
theorem read_foldl {next : σ → ι → σ} (read : σ → υ)
    (hnext : ∀ state step, read (next state step) = (write step).getD (read state)) (start : σ)
    (history : List ι) :
    read (history.foldl next start) = (lastWrite write history).getD (read start) := by
  induction history generalizing start with
  | nil => simp
  | cons step rest ih =>
      rw [List.foldl_cons, ih, hnext, lastWrite_cons]
      cases lastWrite write rest with
      | none => simp
      | some value => simp

/-- What a register holds after a history that goes through. -/
theorem read_foldlM {ε : Type} {next : σ → ι → Rust.Outcome ε σ} (read : σ → υ)
    (hnext : ∀ state step state', next state step = .ok state' → read state' = (write step).getD (read state))
    {start final : σ} {history : List ι} (h : history.foldlM next start = .ok final) :
    read final = (lastWrite write history).getD (read start) := by
  induction history generalizing start with
  | nil =>
      obtain rfl : start = final := by simpa using h
      simp
  | cons step rest ih =>
      rw [List.foldlM_cons, Rust.Outcome.bind_eq_ok] at h
      obtain ⟨state, hstep, hrest⟩ := h
      rw [ih hrest, hnext start step state hstep, lastWrite_cons]
      cases lastWrite write rest with
      | none => simp
      | some value => simp

/-- Two tables that go through the same history end alike exactly when it writes every register they differ in. -/
theorem foldl_eq_foldl_iff {κ : Type} {write : κ → ι → Option υ} {next : σ → ι → σ} {read : κ → σ → υ}
    (hext : ∀ state state', (∀ key, read key state = read key state') → state = state')
    (hnext : ∀ key state step, read key (next state step) = (write key step).getD (read key state)) {start start' : σ}
    {history : List ι} :
    history.foldl next start = history.foldl next start' ↔
      ∀ key, read key start ≠ read key start' → ∃ step ∈ history, write key step ≠ none := by
  have hread (key : κ) (first : σ) :
      read key (history.foldl next first) = (lastWrite (write key) history).getD (read key first) :=
    read_foldl (read key) (hnext key) first history
  apply Iff.intro
  · intro heq key hne
    by_contra hquiet
    have hnone : lastWrite (write key) history = none :=
      lastWrite_eq_none_iff.mpr fun step hstep => not_not.mp fun hwrite => hquiet ⟨step, hstep, hwrite⟩
    have hstart := congrArg (read key) heq
    rw [hread, hread, hnone, Option.getD_none, Option.getD_none] at hstart
    exact hne hstart
  · intro hwrites
    refine hext _ _ fun key => ?_
    rw [hread, hread]
    cases hlast : lastWrite (write key) history with
    | some value => simp
    | none =>
        refine not_not.mp fun hne => ?_
        obtain ⟨step, hstep, hwrite⟩ := hwrites key hne
        exact hwrite (lastWrite_eq_none_iff.mp hlast step hstep)

end Register
