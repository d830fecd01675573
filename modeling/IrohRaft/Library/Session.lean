import IrohRaft.Library.Outcome
import Mathlib.Tactic.ByContra

/-!
# Calls that commit more than one transaction

A transaction is committed as a whole or not at all. A call that makes several passes through the
states between them, and these stay behind when a later transaction fails or the process stops. A
session is a call with the states it commits, in order.
-/

namespace Rust

/-- From a state, the states committed one after another and how the call ends. -/
def Session (σ ε α : Type) : Type := σ → List σ × Outcome ε α

namespace Session

variable {σ ε α β : Type}

def committed (session : Session σ ε α) (start : σ) : List σ := (session start).1

def result (session : Session σ ε α) (start : σ) : Outcome ε α := (session start).2

/-- The state when the call has ended, however it ended. -/
def final (session : Session σ ε α) (start : σ) : σ := (session.committed start).getLast?.getD start

/-- Every state that stays behind if the process stops, or redb fails, in the course of the call. -/
def states (session : Session σ ε α) (start : σ) : List σ := start :: session.committed start

/-- The state when the call stops after that many transactions, or has ended before. -/
def stopped (session : Session σ ε α) (transactions : Nat) (start : σ) : σ :=
  (session.states start)[transactions]?.getD (session.final start)

/-- The call succeeds, whatever it starts from. -/
def Succeeds (session : Session σ ε α) : Prop := ∀ start, ∃ value, session.result start = .ok value

/-- One write transaction. -/
def commit (transaction : σ → Outcome ε σ) : Session σ ε Unit := fun start =>
  match transaction start with
  | .ok next => ([next], .ok ())
  | .err error => ([], .err error)
  | .panic => ([], .panic)

/-- A write transaction whose update is computed beforehand. -/
def write (value : Outcome ε α) (update : α → σ → σ) : Session σ ε Unit :=
  .commit fun start => do
    let value ← value
    return update value start

/-- A call that only reads. -/
def read (query : σ → Outcome ε α) : Session σ ε α := fun start => ([], query start)

protected def pure (value : α) : Session σ ε α := fun _ => ([], .ok value)

protected def bind (first : Session σ ε α) (next : α → Session σ ε β) : Session σ ε β := fun start =>
  match first.result start with
  | .ok value =>
      (first.committed start ++ (next value).committed (first.final start), (next value).result (first.final start))
  | .err error => (first.committed start, .err error)
  | .panic => (first.committed start, .panic)

instance : Monad (Session σ ε) where
  pure := Session.pure
  bind := Session.bind

variable {start : σ}

@[simp] theorem committed_pure (value : α) : (pure value : Session σ ε α).committed start = [] := rfl

@[simp] theorem result_pure (value : α) : (pure value : Session σ ε α).result start = .ok value := rfl

@[simp] theorem final_pure (value : α) : (pure value : Session σ ε α).final start = start := rfl

@[simp] theorem states_pure (value : α) : (pure value : Session σ ε α).states start = [start] := rfl

theorem final_mem_states (session : Session σ ε α) : session.final start ∈ session.states start := by
  rw [final, states]
  cases hlast : (session.committed start).getLast? with
  | none => exact List.mem_cons_self
  | some state => exact List.mem_cons_of_mem _ (List.mem_of_getLast? hlast)

theorem stopped_mem_states (session : Session σ ε α) (transactions : Nat) :
    session.stopped transactions start ∈ session.states start := by
  rw [stopped]
  cases hstate : (session.states start)[transactions]? with
  | none => exact final_mem_states session
  | some state => exact List.mem_of_getElem? hstate

/-! ### One transaction -/

section Commit

variable {transaction : σ → Outcome ε σ}

theorem commit_of_ok {next : σ} (h : transaction start = .ok next) : commit transaction start = ([next], .ok ()) := by
  rw [commit, h]

theorem commit_of_not_ok (h : ∀ next, transaction start ≠ .ok next) :
    (commit transaction).committed start = [] ∧ ∀ done, (commit transaction).result start ≠ .ok done := by
  rw [committed, result, commit]
  cases hcase : transaction start with
  | ok next => exact absurd hcase (h next)
  | err error => simp
  | panic => simp

theorem final_commit_of_ok {next : σ} (h : transaction start = .ok next) : (commit transaction).final start = next := by
  rw [final, committed, commit_of_ok h]
  simp

theorem final_commit_of_not_ok (h : ∀ next, transaction start ≠ .ok next) : (commit transaction).final start = start := by
  rw [final, (commit_of_not_ok h).1]
  simp

theorem states_commit_of_ok {next : σ} (h : transaction start = .ok next) :
    (commit transaction).states start = [start, next] := by
  rw [states, committed, commit_of_ok h]

theorem states_commit_of_not_ok (h : ∀ next, transaction start ≠ .ok next) : (commit transaction).states start = [start] := by
  rw [states, (commit_of_not_ok h).1]

theorem result_commit_eq_ok {done : Unit} : (commit transaction).result start = .ok done ↔
    ∃ next, transaction start = .ok next := by
  rw [result, commit]
  cases transaction start <;> simp

theorem result_commit_of_ok {next : σ} (h : transaction start = .ok next) : (commit transaction).result start = .ok () := by
  rw [result, commit_of_ok h]

end Commit

section Write

variable {outcome : Outcome ε α} {update : α → σ → σ}

theorem write_of_ok {value : α} (h : outcome = .ok value) :
    (write outcome update).result start = .ok () ∧ (write outcome update).final start = update value start ∧
      (write outcome update).states start = [start, update value start] := by
  have htransaction : (do let value ← outcome; return update value start : Outcome ε σ) = .ok (update value start) := by simp [h]
  rw [write]
  exact ⟨result_commit_of_ok htransaction, final_commit_of_ok htransaction, states_commit_of_ok htransaction⟩

theorem write_of_not_ok (h : ∀ value, outcome ≠ .ok value) :
    (∀ done, (write outcome update).result start ≠ .ok done) ∧ (write outcome update).final start = start ∧
      (write outcome update).states start = [start] := by
  have htransaction : ∀ next, (do let value ← outcome; return update value start : Outcome ε σ) ≠ .ok next := by
    intro next hnext
    obtain ⟨value, hvalue, -⟩ := Outcome.bind_eq_ok.mp hnext
    exact h value hvalue
  rw [write]
  exact ⟨(commit_of_not_ok htransaction).2, final_commit_of_not_ok htransaction, states_commit_of_not_ok htransaction⟩

theorem result_write_eq_ok {done : Unit} : (write outcome update).result start = .ok done ↔ ∃ value, outcome = .ok value := by
  apply Iff.intro
  · intro h
    by_contra hnone
    exact (write_of_not_ok (not_exists.mp hnone)).1 done h
  · intro ⟨value, hvalue⟩
    exact (write_of_ok hvalue).1

end Write

/-! ### One call after another -/

variable {first : Session σ ε α} {next : α → Session σ ε β}

theorem bind_of_ok {value : α} (h : first.result start = .ok value) :
    (first >>= next) start =
      (first.committed start ++ (next value).committed (first.final start), (next value).result (first.final start)) := by
  show Session.bind first next start = _
  rw [Session.bind, h]

theorem bind_of_not_ok (h : ∀ value, first.result start ≠ .ok value) :
    (first >>= next).committed start = first.committed start ∧ ∀ value, (first >>= next).result start ≠ .ok value := by
  show (Session.bind first next start).1 = _ ∧ ∀ value, (Session.bind first next start).2 ≠ .ok value
  rw [Session.bind]
  cases hcase : first.result start with
  | ok value => exact absurd hcase (h value)
  | err error => simp
  | panic => simp

theorem final_bind_of_ok {value : α} (h : first.result start = .ok value) :
    (first >>= next).final start = (next value).final (first.final start) := by
  rw [final, committed, bind_of_ok h]
  show (first.committed start ++ (next value).committed (first.final start)).getLast?.getD start =
    ((next value).committed (first.final start)).getLast?.getD (first.final start)
  rw [List.getLast?_append]
  cases (next value).committed (first.final start) <;> simp [final]

theorem final_bind_of_not_ok (h : ∀ value, first.result start ≠ .ok value) :
    (first >>= next).final start = first.final start := by
  rw [final, (bind_of_not_ok h).1, final]

theorem result_bind_of_ok {value : α} (h : first.result start = .ok value) :
    (first >>= next).result start = (next value).result (first.final start) := by
  rw [result, bind_of_ok h]

theorem result_bind_eq_ok {value : β} : (first >>= next).result start = .ok value ↔
    ∃ between, first.result start = .ok between ∧ (next between).result (first.final start) = .ok value := by
  apply Iff.intro
  · intro h
    by_cases hok : ∃ between, first.result start = .ok between
    · obtain ⟨between, hbetween⟩ := hok
      rw [result_bind_of_ok hbetween] at h
      exact ⟨between, hbetween, h⟩
    · exact absurd h ((bind_of_not_ok (not_exists.mp hok)).2 value)
  · intro ⟨between, hbetween, h⟩
    rw [result_bind_of_ok hbetween, h]

theorem mem_states_bind_of_ok {value : α} (h : first.result start = .ok value) {state : σ} :
    state ∈ (first >>= next).states start ↔ state ∈ first.states start ∨ state ∈ (next value).states (first.final start) := by
  have hfinal : first.final start ∈ first.states start := final_mem_states first
  simp only [states, committed, bind_of_ok h, List.mem_cons, List.mem_append] at hfinal ⊢
  grind

theorem states_bind_of_not_ok (h : ∀ value, first.result start ≠ .ok value) :
    (first >>= next).states start = first.states start := by
  rw [states, (bind_of_not_ok h).1, states]

/-! ### What the states have in common -/

theorem forall_mem_states_write {outcome : Outcome ε α} {update : α → σ → σ} {holds : σ → Prop} :
    (∀ state ∈ (write outcome update).states start, holds state) ↔
      holds start ∧ ∀ value, outcome = .ok value → holds (update value start) := by
  by_cases hok : ∃ value, outcome = .ok value
  · obtain ⟨value, hvalue⟩ := hok
    rw [(write_of_ok hvalue).2.2, hvalue]
    simp
  · have hnot := not_exists.mp hok
    simp [(write_of_not_ok hnot).2.2, hnot]

/-- After a write, the rest of the call starts from what was written. -/
theorem states_write_bind_of_ok {outcome : Outcome ε α} {update : α → σ → σ} {rest : Session σ ε β} {value : α}
    (h : outcome = .ok value) :
    (write outcome update >>= fun _ => rest).states start = start :: rest.states (update value start) := by
  obtain ⟨hresult, hfinal, hstates⟩ : (write outcome update).result start = .ok () ∧
    (write outcome update).final start = update value start ∧
      (write outcome update).states start = [start, update value start] := write_of_ok h
  have hcommitted : (write outcome update).committed start = [update value start] := List.tail_eq_of_cons_eq hstates
  rw [states, committed, bind_of_ok hresult, hfinal, hcommitted]
  simp [states]

theorem forall_mem_states_write_bind {outcome : Outcome ε α} {update : α → σ → σ} {rest : Session σ ε β} {holds : σ → Prop} :
    (∀ state ∈ (write outcome update >>= fun _ => rest).states start, holds state) ↔
      holds start ∧ ∀ value, outcome = .ok value → ∀ state ∈ rest.states (update value start), holds state := by
  by_cases hok : ∃ value, outcome = .ok value
  · obtain ⟨value, hvalue⟩ := hok
    rw [states_write_bind_of_ok hvalue, List.forall_mem_cons]
    simp [hvalue]
  · have hnot := not_exists.mp hok
    obtain ⟨hresult, -, hstates⟩ : (∀ done, (write outcome update).result start ≠ .ok done) ∧ _ ∧
      (write outcome update).states start = [start] := write_of_not_ok hnot
    simp [states_bind_of_not_ok hresult, hstates, hnot]

/-- The session keeps a property of the state at every point. -/
def Keeps (holds : σ → Prop) (session : Session σ ε α) : Prop :=
  ∀ start, holds start → ∀ state ∈ session.states start, holds state

variable {holds : σ → Prop}

theorem Keeps.final {session : Session σ ε α} (h : session.Keeps holds) (hstart : holds start) : holds (session.final start) :=
  h start hstart _ (final_mem_states session)

theorem Keeps.pure (value : α) : (Pure.pure value : Session σ ε α).Keeps holds := by
  intro start hstart state hstate
  rw [states_pure, List.mem_singleton] at hstate
  exact hstate ▸ hstart

theorem Keeps.read (query : σ → Outcome ε α) : (Session.read query).Keeps holds := by
  intro start hstart state hstate
  obtain rfl : state = start := List.mem_singleton.mp hstate
  exact hstart

theorem Keeps.commit {transaction : σ → Outcome ε σ}
    (h : ∀ start next, transaction start = .ok next → holds start → holds next) : (commit transaction).Keeps holds := by
  intro start hstart state hstate
  cases hcase : transaction start with
  | ok next =>
      rw [states_commit_of_ok hcase, List.mem_cons, List.mem_singleton] at hstate
      obtain rfl | rfl := hstate
      · exact hstart
      · exact h start _ hcase hstart
  | err error =>
      rw [states_commit_of_not_ok (by simp [hcase]), List.mem_singleton] at hstate
      exact hstate ▸ hstart
  | panic =>
      rw [states_commit_of_not_ok (by simp [hcase]), List.mem_singleton] at hstate
      exact hstate ▸ hstart

theorem Keeps.write {outcome : Outcome ε α} {update : α → σ → σ}
    (h : ∀ value, outcome = .ok value → ∀ start, holds start → holds (update value start)) :
    (write outcome update).Keeps holds := by
  apply Keeps.commit
  intro start next hnext hstart
  obtain ⟨value, hvalue, hupdate⟩ := Outcome.bind_eq_ok.mp hnext
  exact Outcome.ok.inj hupdate ▸ h value hvalue start hstart

theorem Keeps.bind (hfirst : first.Keeps holds) (hnext : ∀ value, (next value).Keeps holds) : (first >>= next).Keeps holds := by
  intro start hstart state hstate
  by_cases hok : ∃ value, first.result start = .ok value
  · obtain ⟨value, hvalue⟩ := hok
    obtain hbefore | hafter := (mem_states_bind_of_ok hvalue).mp hstate
    · exact hfirst start hstart state hbefore
    · exact hnext value _ (hfirst.final hstart) state hafter
  · rw [states_bind_of_not_ok (not_exists.mp hok)] at hstate
    exact hfirst start hstart state hstate

/-! ### A part of the state that changes once -/

/-- What is read of the state changes at most once in the course of the call, and has changed when it returns. -/
def Changes {ρ : Type} (read : σ → ρ) (change : ρ → ρ) (session : Session σ ε α) : Prop :=
  ∀ start, (∀ state ∈ session.states start, read state = read start ∨ read state = change (read start)) ∧
    ∀ value, session.result start = .ok value → read (session.final start) = change (read start)

section Changes

variable {ρ : Type} {read : σ → ρ} {change : ρ → ρ}

theorem Changes.of_keeps {session : Session σ ε α} (h : ∀ kept, session.Keeps fun state => read state = kept) :
    session.Changes read id := by
  intro start
  refine ⟨fun state hstate => .inl (h _ start rfl state hstate), fun _ _ => (h _).final rfl⟩

theorem Changes.commit {transaction : σ → Outcome ε σ}
    (h : ∀ start next, transaction start = .ok next → read next = change (read start)) :
    (commit transaction).Changes read change := by
  intro start
  by_cases hok : ∃ next, transaction start = .ok next
  · obtain ⟨next, hnext⟩ := hok
    refine ⟨fun state hstate => ?_, fun _ _ => by rw [final_commit_of_ok hnext, h start next hnext]⟩
    rw [states_commit_of_ok hnext, List.mem_cons, List.mem_singleton] at hstate
    obtain rfl | rfl := hstate
    · exact .inl rfl
    · exact .inr (h start _ hnext)
  · have hnot := not_exists.mp hok
    refine ⟨fun state hstate => .inl ?_, fun value hvalue => absurd hvalue ((commit_of_not_ok hnot).2 value)⟩
    rw [states_commit_of_not_ok hnot, List.mem_singleton] at hstate
    rw [hstate]

theorem Changes.write {outcome : Outcome ε α} {update : α → σ → σ}
    (h : ∀ value, outcome = .ok value → ∀ start, read (update value start) = change (read start)) :
    (write outcome update).Changes read change := by
  apply Changes.commit
  intro start next hnext
  obtain ⟨value, hvalue, hupdate⟩ := Outcome.bind_eq_ok.mp hnext
  exact Outcome.ok.inj hupdate ▸ h value hvalue start

theorem Changes.bind_keeps (hfirst : first.Changes read change)
    (hnext : ∀ value kept, (next value).Keeps fun state => read state = kept) : (first >>= next).Changes read change := by
  intro start
  refine ⟨fun state hstate => ?_, fun value hvalue => ?_⟩
  · by_cases hok : ∃ value, first.result start = .ok value
    · obtain ⟨value, hvalue⟩ := hok
      obtain hbefore | hafter := (mem_states_bind_of_ok hvalue).mp hstate
      · exact (hfirst start).1 state hbefore
      · exact .inr ((hnext value _ _ rfl state hafter).trans ((hfirst start).2 value hvalue))
    · rw [states_bind_of_not_ok (not_exists.mp hok)] at hstate
      exact (hfirst start).1 state hstate
  · obtain ⟨between, hbetween, -⟩ := result_bind_eq_ok.mp hvalue
    rw [final_bind_of_ok hbetween]
    exact ((hnext between _).final rfl).trans ((hfirst start).2 between hbetween)

theorem Keeps.bind_changes (hfirst : ∀ kept, first.Keeps fun state => read state = kept)
    (hnext : ∀ value, (next value).Changes read change) : (first >>= next).Changes read change := by
  intro start
  have hkept : read (first.final start) = read start := (hfirst _).final rfl
  refine ⟨fun state hstate => ?_, fun value hvalue => ?_⟩
  · by_cases hok : ∃ value, first.result start = .ok value
    · obtain ⟨value, hvalue⟩ := hok
      obtain hbefore | hafter := (mem_states_bind_of_ok hvalue).mp hstate
      · exact .inl (hfirst _ start rfl state hbefore)
      · rw [← hkept]
        exact (hnext value _).1 state hafter
    · rw [states_bind_of_not_ok (not_exists.mp hok)] at hstate
      exact .inl (hfirst _ start rfl state hstate)
  · obtain ⟨between, hbetween, hrest⟩ := result_bind_eq_ok.mp hvalue
    rw [final_bind_of_ok hbetween, ← hkept]
    exact (hnext between _).2 value hrest

end Changes

end Session

end Rust
