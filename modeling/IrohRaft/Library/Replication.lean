import Mathlib.Data.List.Basic

/-!
# Replicated state machines

A machine takes the entries of a log one after another, and has a response to some of them. A response depends on the
entry and on those before it only, so whoever has taken a part of the log gives the same ones. Callers whose calls are
carried by the log, and who get these responses, see one machine that takes the calls in the order of the log: one call
after another, and none before it was made.
-/

namespace Replication

structure Machine (σ ε ρ : Type) where
  next : σ → ε → σ
  response : σ → ε → Option ρ

namespace Machine

variable {σ ε ρ : Type} (machine : Machine σ ε ρ)

/-- What a log makes of the machine. -/
def state (start : σ) (log : List ε) : σ := log.foldl machine.next start

/-- Every entry that has a response, with it. -/
def responses (start : σ) : List ε → List (ε × ρ)
  | [] => []
  | entry :: rest => ((machine.response start entry).map (entry, ·)).toList ++ responses (machine.next start entry) rest

variable {machine} {start : σ} {log more : List ε} {entry : ε} {response : ρ}

theorem state_append : machine.state start (log ++ more) = machine.state (machine.state start log) more := by
  rw [state, state, state, List.foldl_append]

theorem state_concat : machine.state start (log ++ [entry]) = machine.next (machine.state start log) entry := by
  rw [state_append, state, List.foldl_cons, List.foldl_nil]

theorem responses_append :
    machine.responses start (log ++ more) = machine.responses start log ++ machine.responses (machine.state start log) more := by
  induction log generalizing start with
  | nil => simp [responses, state]
  | cons first rest ih => simp only [List.cons_append, responses, ih, List.append_assoc, state, List.foldl_cons]

theorem responses_concat :
    machine.responses start (log ++ [entry]) =
      machine.responses start log ++ ((machine.response (machine.state start log) entry).map (entry, ·)).toList := by
  rw [responses_append, responses, responses, List.append_nil]

/-- A response is the machine's where the entries before have been taken. -/
theorem mem_responses :
    (entry, response) ∈ machine.responses start log ↔
      ∃ before after, log = before ++ entry :: after ∧ machine.response (machine.state start before) entry = some response := by
  induction log generalizing start with
  | nil => simp [responses]
  | cons first rest ih =>
      rw [responses, List.mem_append, ih]
      apply Iff.intro
      · intro h
        obtain hfirst | ⟨before, after, rfl, hresponse⟩ := h
        · simp only [Option.mem_toList, Option.map_eq_some_iff, Prod.mk.injEq] at hfirst
          obtain ⟨_, hresponse, rfl, rfl⟩ := hfirst
          exact ⟨[], rest, rfl, hresponse⟩
        · exact ⟨first :: before, after, rfl, hresponse⟩
      · intro h
        obtain ⟨before, after, hlog, hresponse⟩ := h
        cases before with
        | nil =>
            obtain ⟨rfl, rfl⟩ := List.cons.inj hlog
            exact .inl (by simpa [state] using hresponse)
        | cons other before =>
            obtain ⟨rfl, rfl⟩ := List.cons.inj hlog
            exact .inr ⟨before, after, rfl, hresponse⟩

/-- What comes later in the log does not change a response. -/
theorem mem_responses_of_prefix (h : log <+: more) (hresponse : (entry, response) ∈ machine.responses start log) :
    (entry, response) ∈ machine.responses start more := by
  obtain ⟨rest, rfl⟩ := h
  rw [responses_append]
  exact List.mem_append_left _ hresponse

/-- Entries that do nothing and have no response. -/
theorem state_append_of_quiet (h : ∀ entry ∈ more, ∀ state, machine.next state entry = state) :
    machine.state start (log ++ more) = machine.state start log := by
  rw [state_append, state]
  induction more with
  | nil => simp
  | cons first rest ih =>
      rw [List.foldl_cons, h first List.mem_cons_self]
      exact ih fun entry hentry => h entry (List.mem_cons_of_mem _ hentry)

end Machine

/-! ### What callers see -/

/-- A call, under a key of its own, and what the caller is told. -/
inductive Event (κ α ρ : Type) where
  | call (key : κ) (request : α)
  | told (key : κ) (response : ρ)

variable {σ ε ρ κ α : Type} (machine : Machine σ ε ρ) (start : σ) (carries : α → ε → Prop) (log : List ε)

/-- What a caller is told is the machine's response to an entry that carries its call, and no call made only after that
is carried by this entry or by one before it. -/
def Linearizes (history : List (Event κ α ρ)) : Prop :=
  ∀ earlier key response later, history = earlier ++ .told key response :: later →
    ∃ request before entry after, .call key request ∈ earlier ∧ carries request entry ∧
      log = before ++ entry :: after ∧ machine.response (machine.state start before) entry = some response ∧
      ∀ other request', .call other request' ∈ later → ∀ entry' ∈ before ++ [entry], ¬ carries request' entry'

variable {machine start carries log}

/-- Whoever tells a response has taken a part of the log in which all that is carried has been called. -/
theorem linearizes_of_taken {history : List (Event κ α ρ)}
    (h : ∀ earlier key response later, history = earlier ++ .told key response :: later →
      ∃ taken rest request entry, log = taken ++ rest ∧ .call key request ∈ earlier ∧ carries request entry ∧
        (entry, response) ∈ machine.responses start taken ∧
        ∀ other request', .call other request' ∈ later → ∀ entry' ∈ taken, ¬ carries request' entry') :
    Linearizes machine start carries log history := by
  intro earlier key response later hhistory
  obtain ⟨taken, rest, request, entry, hlog, hcall, hcarries, hresponse, hlater⟩ := h earlier key response later hhistory
  obtain ⟨before, after, rfl, hstate⟩ := Machine.mem_responses.mp hresponse
  refine ⟨request, before, entry, after ++ rest, hcall, hcarries, by simp [hlog], hstate, ?_⟩
  intro other request' hother entry' hentry'
  refine hlater other request' hother entry' ?_
  obtain hbefore | hlast := List.mem_append.mp hentry'
  · exact List.mem_append_left _ hbefore
  · obtain rfl := List.mem_singleton.mp hlast
    exact List.mem_append_right _ List.mem_cons_self

/-- An item of a list that is put together from two is in the second or in the first. -/
theorem append_eq_append_cons {first second before after : List ε} {item : ε} (h : first ++ second = before ++ item :: after) :
    (∃ between, before = first ++ between ∧ second = between ++ item :: after) ∨
      ∃ between, first = before ++ item :: between ∧ after = between ++ second := by
  obtain ⟨between, hbefore, hsecond⟩ | ⟨between, hfirst, hafter⟩ := List.append_eq_append_iff.mp h
  · exact .inl ⟨between, hbefore, hsecond⟩
  · cases between with
    | nil => exact .inl ⟨[], by simpa using hfirst.symm, by simpa using hafter.symm⟩
    | cons head tail =>
        obtain ⟨rfl, rfl⟩ := List.cons.inj hafter
        exact .inr ⟨tail, hfirst, rfl⟩

/-- Where a call is made only after another has been told its response, the entry of the other comes before its own. -/
theorem Linearizes.entry_before {history earlier later : List (Event κ α ρ)} {key other : κ} {response : ρ} {request : α}
    (h : Linearizes machine start carries log history) (hhistory : history = earlier ++ .told key response :: later)
    (hcall : .call other request ∈ later) {before after : List ε} {entry : ε} (hlog : log = before ++ entry :: after)
    (hcarries : carries request entry) :
    ∃ request' entry', .call key request' ∈ earlier ∧ carries request' entry' ∧ entry' ∈ before := by
  obtain ⟨request', before', entry', after', hcall', hcarries', hlog', -, hlater⟩ := h earlier key response later hhistory
  refine ⟨request', entry', hcall', hcarries', ?_⟩
  rw [List.append_cons] at hlog'
  obtain ⟨between, rfl, -⟩ | ⟨between, hin, -⟩ := append_eq_append_cons (hlog'.symm.trans hlog)
  · exact List.mem_append_left _ (List.mem_append_right _ (List.mem_singleton.mpr rfl))
  · refine absurd hcarries (hlater other request hcall entry ?_)
    rw [hin]
    exact List.mem_append_right _ List.mem_cons_self

end Replication
