import Mathlib.Data.List.Basic
import Mathlib.Logic.Function.Basic

/-!
# Logs that stand on a snapshot

A replicated log as its readers see it: an entry, or only its term, at some indices, and perhaps a
snapshot that stands for everything up to its own index. `Window log first last` says the log is in
order: it holds exactly the indices from `first` to `last`, and `first` is where the snapshot ends.
The operations keep a window under the conditions of their lemmas.
-/

namespace RaftLog

variable {τ : Type}

/-- What is stored at each index, and the index and term of the snapshot. -/
structure Log (τ : Type) where
  entry : Nat → Option τ
  base : Option (Nat × τ)

namespace Log

def empty : Log τ := { entry := fun _ => none, base := none }

/-- Store one item, over whatever was at its index. -/
def put (log : Log τ) (item : Nat × τ) : Log τ :=
  { log with entry := Function.update log.entry item.1 (some item.2) }

def putAll (log : Log τ) (items : List (Nat × τ)) : Log τ := items.foldl put log

/-- Stand on a snapshot, and drop what it covers. -/
def install (log : Log τ) (index : Nat) (term : τ) : Log τ :=
  { entry := fun n => if n ≤ index then none else log.entry n, base := some (index, term) }

/-- Drop everything below an index. -/
def compact (log : Log τ) (index : Nat) : Log τ :=
  { log with entry := fun n => if n < index then none else log.entry n }

def Holds (log : Log τ) (n : Nat) : Prop := log.entry n ≠ none

/-- The index after the snapshot; without one, the first index held, and 1 when none is. -/
def IsFirst (log : Log τ) (first : Nat) : Prop :=
  match log.base with
  | some (index, _) => first = index + 1
  | none => (log.Holds first ∧ ∀ n, log.Holds n → first ≤ n) ∨ ((∀ n, ¬ log.Holds n) ∧ first = 1)

/-- The last index held; when none is, the snapshot's, and 0 without one. -/
def IsLast (log : Log τ) (last : Nat) : Prop :=
  (log.Holds last ∧ ∀ n, log.Holds n → n ≤ last) ∨
    ((∀ n, ¬ log.Holds n) ∧ last = match log.base with | some (index, _) => index | none => 0)

/-- The index a log that holds nothing ends at. -/
def baseIndex (log : Log τ) : Nat :=
  match log.base with
  | some (index, _) => index
  | none => 0

/-- Index 0 has a term of its own; the snapshot's index has the snapshot's; the others have what is
stored there. -/
def term [Zero τ] (log : Log τ) (n : Nat) : Option τ :=
  if n = 0 then some 0
  else
    match log.base with
    | some (index, term) => if n = index then some term else log.entry n
    | none => log.entry n

/-! ### The operations, index by index -/

theorem not_holds_empty (n : Nat) : ¬ (empty : Log τ).Holds n := fun h => h rfl

@[simp] theorem put_base (log : Log τ) (item : Nat × τ) : (log.put item).base = log.base := rfl

@[simp] theorem compact_base (log : Log τ) (index : Nat) : (log.compact index).base = log.base := rfl

@[simp] theorem install_base (log : Log τ) (index : Nat) (term : τ) :
    (log.install index term).base = some (index, term) := rfl

theorem putAll_cons (log : Log τ) (item : Nat × τ) (items : List (Nat × τ)) :
    log.putAll (item :: items) = (log.put item).putAll items := rfl

@[simp] theorem putAll_base (log : Log τ) (items : List (Nat × τ)) : (log.putAll items).base = log.base := by
  induction items generalizing log with
  | nil => rfl
  | cons item items ih => rw [putAll_cons, ih, put_base]

theorem holds_put {log : Log τ} {item : Nat × τ} {n : Nat} : (log.put item).Holds n ↔ n = item.1 ∨ log.Holds n := by
  by_cases heq : n = item.1
  · subst heq
    simp [Holds, put]
  · simp [Holds, put, heq]

theorem holds_putAll {log : Log τ} {items : List (Nat × τ)} {n : Nat} :
    (log.putAll items).Holds n ↔ (∃ item ∈ items, item.1 = n) ∨ log.Holds n := by
  induction items generalizing log with
  | nil => simp [putAll]
  | cons item items ih =>
      rw [putAll_cons, ih, holds_put]
      simp only [List.mem_cons, exists_eq_or_imp]
      apply Iff.intro
      · intro h
        rcases h with hmem | rfl | hold
        · exact Or.inl (Or.inr hmem)
        · exact Or.inl (Or.inl rfl)
        · exact Or.inr hold
      · intro h
        rcases h with (rfl | hmem) | hold
        · exact Or.inr (Or.inl rfl)
        · exact Or.inl hmem
        · exact Or.inr (Or.inr hold)

theorem holds_install {log : Log τ} {index : Nat} {term : τ} {n : Nat} :
    (log.install index term).Holds n ↔ index < n ∧ log.Holds n := by
  simp only [Holds, install]
  split
  · simp
    omega
  · simp
    omega

theorem holds_compact {log : Log τ} {index n : Nat} : (log.compact index).Holds n ↔ index ≤ n ∧ log.Holds n := by
  simp only [Holds, compact]
  split
  · simp
    omega
  · simp
    omega

/-! ### First and last -/

theorem IsLast.unique {log : Log τ} {last last' : Nat} (h : log.IsLast last) (h' : log.IsLast last') :
    last = last' := by
  rcases h with ⟨hholds, hgreatest⟩ | ⟨hnone, rfl⟩ <;> rcases h' with ⟨hholds', hgreatest'⟩ | ⟨hnone', rfl⟩
  · exact Nat.le_antisymm (hgreatest' _ hholds) (hgreatest _ hholds')
  · exact absurd hholds (hnone' _)
  · exact absurd hholds' (hnone _)
  · rfl

theorem IsLast.eq_zero {log : Log τ} {last : Nat} (h : log.IsLast last) (hbase : log.base = none)
    (hempty : ∀ n, ¬ log.Holds n) : last = 0 := by
  cases h with
  | inl hgreatest => exact absurd hgreatest.1 (hempty last)
  | inr hnone => simpa only [hbase] using hnone.2

/-- A log that loses its last entry in a compaction ends at its snapshot. -/
theorem IsLast.compact_iff {log : Log τ} {last index : Nat} (h : log.IsLast last) :
    (log.compact index).IsLast last ↔ (log.Holds last → index ≤ last ∨ last = log.baseIndex) := by
  cases h with
  | inl hheld =>
      obtain ⟨hholds, hgreatest⟩ := hheld
      by_cases hkept : index ≤ last
      · have hlast : (log.compact index).IsLast last :=
          .inl ⟨holds_compact.mpr ⟨hkept, hholds⟩, fun n hn => hgreatest n (holds_compact.mp hn).2⟩
        exact iff_of_true hlast fun _ => .inl hkept
      · have hnone : ∀ n, ¬ (log.compact index).Holds n := by
          intro n hn
          obtain ⟨hle, hheld⟩ := holds_compact.mp hn
          have hbound := hgreatest n hheld
          omega
        apply Iff.intro
        · intro hlast _
          cases hlast with
          | inl hdropped => exact absurd hdropped.1 (hnone last)
          | inr hempty => exact .inr hempty.2
        · intro hback
          cases hback hholds with
          | inl hle => exact absurd hle hkept
          | inr hbase => exact .inr ⟨hnone, hbase⟩
  | inr hempty =>
      have hlast : (log.compact index).IsLast last :=
        .inr ⟨fun n hn => hempty.1 n (holds_compact.mp hn).2, hempty.2⟩
      exact iff_of_true hlast fun hholds => absurd hholds (hempty.1 last)

theorem isFirst_of_base {log : Log τ} {index : Nat} {term : τ} (h : log.base = some (index, term)) {first : Nat} :
    log.IsFirst first ↔ first = index + 1 := by
  rw [IsFirst, h]

theorem isFirst_of_no_base {log : Log τ} (h : log.base = none) {first : Nat} :
    log.IsFirst first ↔
      (log.Holds first ∧ ∀ n, log.Holds n → first ≤ n) ∨ ((∀ n, ¬ log.Holds n) ∧ first = 1) := by
  rw [IsFirst, h]

theorem IsFirst.unique {log : Log τ} {first first' : Nat} (h : log.IsFirst first) (h' : log.IsFirst first') :
    first = first' := by
  cases hbase : log.base with
  | some pair => exact ((isFirst_of_base hbase).mp h).trans ((isFirst_of_base hbase).mp h').symm
  | none =>
      rw [isFirst_of_no_base hbase] at h h'
      rcases h with ⟨hholds, hleast⟩ | ⟨hnone, rfl⟩ <;> rcases h' with ⟨hholds', hleast'⟩ | ⟨hnone', rfl⟩
      · exact Nat.le_antisymm (hleast _ hholds') (hleast' _ hholds)
      · exact absurd hholds (hnone' _)
      · exact absurd hholds' (hnone _)
      · rfl

/-- Logs that stand on the same snapshot start at the same index. -/
theorem IsFirst.eq_of_base {log log' : Log τ} {pair : Nat × τ} {first first' : Nat} (h : log.IsFirst first)
    (h' : log'.IsFirst first') (hbase : log.base = some pair) (hbase' : log'.base = some pair) : first = first' :=
  ((isFirst_of_base hbase).mp h).trans ((isFirst_of_base hbase').mp h').symm

/-- Without a snapshot, nothing is held below the first index. -/
theorem IsFirst.le_held {log : Log τ} {first n : Nat} (h : log.IsFirst first) (hbase : log.base = none)
    (hn : log.Holds n) : first ≤ n := by
  cases (isFirst_of_no_base hbase).mp h with
  | inl hleast => exact hleast.2 n hn
  | inr hempty => exact absurd hn (hempty.1 n)

theorem IsFirst.eq_one {log : Log τ} {first : Nat} (h : log.IsFirst first) (hbase : log.base = none)
    (hempty : ∀ n, ¬ log.Holds n) : first = 1 := by
  cases (isFirst_of_no_base hbase).mp h with
  | inl hleast => exact absurd hleast.1 (hempty first)
  | inr hone => exact hone.2

/-- Without a snapshot, the first index is the least one held, or 1. -/
theorem IsFirst.le_of_holds {log : Log τ} {first bound : Nat} (h : log.IsFirst first) (hbase : log.base = none)
    (hholds : ∀ n, log.Holds n → bound ≤ n) (hempty : (∀ n, ¬ log.Holds n) → bound ≤ 1) : bound ≤ first := by
  rcases (isFirst_of_no_base hbase).mp h with ⟨hfirst, _⟩ | ⟨hnone, rfl⟩
  · exact hholds first hfirst
  · exact hempty hnone

/-- The last index is no further below the first than an empty log's, unless the log stops short of
its snapshot. -/
theorem IsFirst.le_last_iff {log : Log τ} {first last : Nat} (hfirst : log.IsFirst first) (hlast : log.IsLast last) :
    first ≤ last + 1 ↔ ∀ index term, log.base = some (index, term) → (∃ n, log.Holds n) → ∃ n, index ≤ n ∧ log.Holds n := by
  cases hbase : log.base with
  | none =>
      rw [isFirst_of_no_base hbase] at hfirst
      refine ⟨fun _ index term heq => (Option.some_ne_none _ heq.symm).elim, fun _ => ?_⟩
      rcases hfirst with ⟨hholds, hleast⟩ | ⟨hnone, rfl⟩
      · cases hlast with
        | inl hlast =>
            obtain ⟨_, hgreatest⟩ := hlast
            have hle := hgreatest first hholds
            omega
        | inr hlast =>
            obtain ⟨hnone, _⟩ := hlast
            exact absurd hholds (hnone first)
      · omega
  | some pair =>
      obtain ⟨index, term⟩ := pair
      rw [isFirst_of_base hbase] at hfirst
      subst hfirst
      apply Iff.intro
      · intro hle index' term' heq hsome
        obtain ⟨rfl, rfl⟩ := Prod.mk.inj (Option.some.inj heq)
        cases hlast with
        | inl hlast =>
            obtain ⟨hholds, _⟩ := hlast
            exact ⟨last, by omega, hholds⟩
        | inr hlast =>
            obtain ⟨hnone, _⟩ := hlast
            obtain ⟨n, hn⟩ := hsome
            exact absurd hn (hnone n)
      · intro hreaches
        cases hlast with
        | inl hlast =>
            obtain ⟨hholds, hgreatest⟩ := hlast
            obtain ⟨n, hle, hn⟩ := hreaches index term rfl ⟨last, hholds⟩
            have hnlast := hgreatest n hn
            omega
        | inr hlast =>
            obtain ⟨_, hlast⟩ := hlast
            simp only [hbase] at hlast
            omega

/-! ### Windows -/

/-- The log holds the indices from `first` to `last` and no others. -/
structure Window (log : Log τ) (first last : Nat) : Prop where
  holds_iff : ∀ n, log.Holds n ↔ first ≤ n ∧ n ≤ last
  one_le : 1 ≤ first
  first_le : first ≤ last + 1
  base_eq : ∀ index term, log.base = some (index, term) → first = index + 1
  first_eq : log.base = none → last < first → first = 1

namespace Window

variable {log : Log τ} {first last : Nat}

theorem isFirst (h : log.Window first last) : log.IsFirst first := by
  cases hbase : log.base with
  | some pair => exact (isFirst_of_base hbase).mpr (h.base_eq _ _ hbase)
  | none =>
      rw [isFirst_of_no_base hbase]
      by_cases hempty : last < first
      · refine Or.inr ⟨fun n hn => ?_, h.first_eq hbase hempty⟩
        have hbounds := (h.holds_iff n).mp hn
        omega
      · exact Or.inl ⟨(h.holds_iff first).mpr ⟨Nat.le_refl _, by omega⟩, fun n hn => ((h.holds_iff n).mp hn).1⟩

theorem isLast (h : log.Window first last) : log.IsLast last := by
  by_cases hempty : last < first
  · refine Or.inr ⟨fun n hn => ?_, ?_⟩
    · have hbounds := (h.holds_iff n).mp hn
      omega
    · have hle := h.first_le
      cases hbase : log.base with
      | some pair =>
          have hfirst := h.base_eq _ _ hbase
          simp only
          omega
      | none =>
          have hfirst := h.first_eq hbase hempty
          simp only
          omega
  · exact Or.inl ⟨(h.holds_iff last).mpr ⟨by omega, Nat.le_refl _⟩, fun n hn => ((h.holds_iff n).mp hn).2⟩

theorem of_empty : (empty : Log τ).Window 1 0 where
  holds_iff n := ⟨fun hn => absurd hn (not_holds_empty n), fun hn => by omega⟩
  one_le := Nat.le_refl _
  first_le := Nat.le_refl _
  base_eq _ _ hbase := nomatch hbase
  first_eq _ _ := rfl

/-- A block of indices that touches the window extends it. -/
theorem putAll (h : log.Window first last) {items : List (Nat × τ)} {start stop : Nat}
    (hitems : ∀ n, (∃ item ∈ items, item.1 = n) ↔ start ≤ n ∧ n ≤ stop) (hle : start ≤ stop)
    (hstart : first ≤ start) (htouch : start ≤ last + 1) : (log.putAll items).Window first (max last stop) where
  holds_iff n := by
    rw [holds_putAll, hitems, h.holds_iff]
    omega
  one_le := h.one_le
  first_le := by
    have hfirst := h.first_le
    omega
  base_eq index term hbase := h.base_eq index term ((putAll_base log items).symm.trans hbase)
  first_eq _ hempty := by omega

/-- A snapshot that reaches the window, or meets an empty log, moves its start. -/
theorem install (h : log.Window first last) {index : Nat} (hreach : first ≤ index + 1 ∨ last < first) (term : τ) :
    (log.install index term).Window (index + 1) (if last < first then index else max last index) where
  holds_iff n := by
    rw [holds_install, h.holds_iff]
    split <;> omega
  one_le := Nat.succ_le_succ (Nat.zero_le _)
  first_le := by split <;> omega
  base_eq index' term' hbase := by
    obtain ⟨rfl, rfl⟩ := Prod.mk.inj (Option.some.inj hbase)
    rfl
  first_eq hbase := nomatch hbase

/-- Compaction moves the start of a log that stands on no snapshot; below the start it does nothing. -/
theorem compact (h : log.Window first last) {index : Nat} (hindex : index ≤ last)
    (hbelow : log.base = none ∨ index ≤ first) :
    (log.compact index).Window (if last < first then first else max first index) last where
  holds_iff n := by
    rw [holds_compact, h.holds_iff]
    split <;> omega
  one_le := by
    have hone := h.one_le
    split <;> omega
  first_le := by
    have hle := h.first_le
    split <;> omega
  base_eq index' term hbase := by
    have hfirst := h.base_eq index' term hbase
    cases hbelow with
    | inl hnone =>
        rw [compact_base, hnone] at hbase
        cases hbase
    | inr hle => split <;> omega
  first_eq hbase hempty := by
    have hfirst := h.first_eq hbase
    split at hempty
    · rename_i hlast
      rw [if_pos hlast]
      exact hfirst hlast
    · omega

end Window

end Log

end RaftLog
