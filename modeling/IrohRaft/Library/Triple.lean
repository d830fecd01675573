import IrohRaft.Library.Stream

/-!
# Pre- and postconditions of computations that may stop short

A computation over a state returns, or it stops with an error or a panic and leaves what it has done by then. A
triple says what holds in either case. The rules follow how computations are put together: one after another, with
a loop over a list, and from a state that is read first. Of a sequence of computations each of which makes one update
or fails, an error leaves the updates before it.
-/

namespace Rust.Action

variable {σ ε α β ι : Type}

/-- `get` of a state monad. -/
def get : Action σ ε σ := fun state => (.ok state, state)

def modify (update : σ → σ) : Action σ ε Unit := fun state => (.ok (), update state)

/-- From a state with `pre`, the computation returns in a state with `post` or stops short in one with `stop`. -/
def Triple (pre : σ → Prop) (x : Action σ ε α) (post : α → σ → Prop) (stop : σ → Prop) : Prop :=
  ∀ start, pre start →
    match x start with
    | (.ok value, state) => post value state
    | (.err _, state) => stop state
    | (.panic, state) => stop state

variable {pre pre' : σ → Prop} {post post' : α → σ → Prop} {stop stop' : σ → Prop} {x : Action σ ε α}

theorem Triple.consequence (h : Triple pre x post stop) (hpre : ∀ state, pre' state → pre state)
    (hpost : ∀ value state, post value state → post' value state) (hstop : ∀ state, stop state → stop' state) :
    Triple pre' x post' stop' := by
  intro start hstart
  have hx := h start (hpre start hstart)
  rcases hresult : x start with ⟨value | error | _, state⟩ <;> simp only [hresult] at hx ⊢
  · exact hpost value state hx
  · exact hstop state hx
  · exact hstop state hx

theorem Triple.weaken (h : Triple pre x post stop) (hpost : ∀ value state, post value state → post' value state) :
    Triple pre x post' stop :=
  h.consequence (fun _ => id) hpost (fun _ => id)

theorem Triple.strengthen (h : Triple pre x post stop) (hpre : ∀ state, pre' state → pre state) : Triple pre' x post stop :=
  h.consequence hpre (fun _ _ => id) (fun _ => id)

theorem Triple.stopping (h : Triple pre x post stop) (hstop : ∀ state, stop state → stop' state) : Triple pre x post stop' :=
  h.consequence (fun _ => id) (fun _ _ => id) hstop

theorem Triple.and (h : Triple pre x post stop) (h' : Triple pre' x post' stop') :
    Triple (fun state => pre state ∧ pre' state) x (fun value state => post value state ∧ post' value state)
      (fun state => stop state ∧ stop' state) := by
  intro start hstart
  have hx := h start hstart.1
  have hx' := h' start hstart.2
  rcases hresult : x start with ⟨value | error | _, state⟩ <;> simp only [hresult] at hx hx' ⊢
  · exact ⟨hx, hx'⟩
  · exact ⟨hx, hx'⟩
  · exact ⟨hx, hx'⟩

theorem Triple.pure {value : α} (h : ∀ state, pre state → post value state) :
    Triple pre (Pure.pure value : Action σ ε α) post stop :=
  fun start hstart => h start hstart

theorem Triple.modify {update : σ → σ} {post : Unit → σ → Prop} (h : ∀ state, pre state → post () (update state)) :
    Triple pre (modify update : Action σ ε Unit) post stop :=
  fun start hstart => h start hstart

theorem Triple.lift {outcome : Outcome ε α} (hok : ∀ value, outcome = .ok value → ∀ state, pre state → post value state)
    (hstop : (∀ value, outcome ≠ .ok value) → ∀ state, pre state → stop state) : Triple pre (lift outcome) post stop := by
  intro start hstart
  cases outcome with
  | ok value => exact hok value rfl start hstart
  | err error => exact hstop (by simp) start hstart
  | panic => exact hstop (by simp) start hstart

/-- Each start on its own. -/
theorem Triple.of_start (h : ∀ start, pre start → Triple (· = start) x post stop) : Triple pre x post stop :=
  fun start hstart => h start hstart start rfl

/-- What does not depend on the state may be assumed. -/
theorem Triple.of_pre {fact : Prop} (hfact : ∀ state, pre state → fact) (h : fact → Triple pre x post stop) :
    Triple pre x post stop :=
  fun start hstart => h (hfact start hstart) start hstart

theorem Triple.of_exists {κ : Type} {pre : κ → σ → Prop} (h : ∀ index, Triple (pre index) x post stop) :
    Triple (fun state => ∃ index, pre index state) x post stop :=
  fun start hstart => hstart.elim fun index hpre => h index start hpre

theorem Triple.bind {between : α → σ → Prop} {next : α → Action σ ε β} {post : β → σ → Prop} (hx : Triple pre x between stop)
    (hnext : ∀ value, Triple (between value) (next value) post stop) : Triple pre (x >>= next) post stop := by
  intro start hstart
  have hbetween := hx start hstart
  rcases hresult : x start with ⟨value | error | _, state⟩ <;> simp only [hresult] at hbetween
  · rw [bind_of_ok hresult]
    exact hnext value state hbetween
  · rw [bind_of_err hresult]
    exact hbetween
  · rw [bind_of_panic hresult]
    exact hbetween

/-- What is read holds when it is read. -/
theorem Triple.get_bind
    {next : σ → Action σ ε β} {post : β → σ → Prop} (h : ∀ state, pre state → Triple pre (next state) post stop) :
    Triple pre (Action.get >>= next) post stop :=
  fun start hstart => h start hstart start hstart

theorem Triple.lift_bind {outcome : Outcome ε α} {next : α → Action σ ε β} {post : β → σ → Prop}
    (hstop : (∀ value, outcome ≠ .ok value) → ∀ state, pre state → stop state)
    (hok : ∀ value, outcome = .ok value → Triple pre (next value) post stop) :
    Triple pre (Action.lift outcome >>= next) post stop := by
  intro start hstart
  cases outcome with
  | ok value => exact hok value rfl start hstart
  | err error => exact hstop (by simp) start hstart
  | panic => exact hstop (by simp) start hstart

/-- The state between the two is the one the first computation returns in. -/
theorem Triple.bind_of_start {start : σ} {next : α → Action σ ε β} {post : β → σ → Prop} {between : α → σ → Prop}
    (hx : Triple (· = start) x between stop)
    (hnext : ∀ value state, x start = (.ok value, state) → between value state → Triple (· = state) (next value) post stop) :
    Triple (· = start) (x >>= next) post stop := by
  intro start' hstart
  subst hstart
  have hbetween := hx start' rfl
  rcases hresult : x start' with ⟨value | error | _, state⟩ <;> simp only [hresult] at hbetween
  · rw [bind_of_ok hresult]
    exact hnext value state hresult hbetween state rfl
  · rw [bind_of_err hresult]
    exact hbetween
  · rw [bind_of_panic hresult]
    exact hbetween

/-- A loop: what holds once some items are done is carried on by each of them. -/
theorem Triple.forM (invariant : List ι → σ → Prop) {body : ι → Action σ ε Unit} {items : List ι}
    (hbody : ∀ done item rest, items = done ++ item :: rest →
      Triple (invariant done) (body item) (fun _ => invariant (done ++ [item])) stop) :
    Triple (invariant []) (items.forM body) (fun _ => invariant items) stop := by
  suffices hgeneral : ∀ rest done, items = done ++ rest → Triple (invariant done) (rest.forM body) (fun _ => invariant items) stop from
    hgeneral items [] rfl
  intro rest
  induction rest with
  | nil =>
      intro done hitems
      rw [List.append_nil] at hitems
      subst hitems
      exact Triple.pure fun state hstate => hstate
  | cons item rest ih =>
      intro done hitems
      have hrest : items = (done ++ [item]) ++ rest := by simpa using hitems
      exact (hbody done item rest hitems).bind fun _ => ih (done ++ [item]) hrest

/-- What the computation leaves behind, however it ends. -/
theorem Triple.final {holds : σ → Prop} (h : Triple pre x (fun _ => holds) holds) {start : σ} (hstart : pre start) :
    holds (x start).2 := by
  have hx := h start hstart
  rcases hresult : x start with ⟨value | error | _, state⟩ <;> simpa only [hresult] using hx

theorem Triple.of_final {holds : σ → Prop} (h : ∀ start, pre start → holds (x start).2) : Triple pre x (fun _ => holds) holds := by
  intro start hstart
  have hx := h start hstart
  rcases hresult : x start with ⟨value | error | _, state⟩ <;> simpa only [hresult] using hx

/-! ### Updates one after another -/

/-- The computation makes the update, or it fails and changes nothing. -/
def Performs (x : Action σ ε Unit) (update : Outcome ε (σ → σ)) : Prop :=
  ∀ start,
    match update with
    | .ok update => x start = (.ok (), update start)
    | .err error => x start = (.err error, start)
    | .panic => (x start).1 = .panic

theorem Performs.pure : Performs (Pure.pure () : Action σ ε Unit) (.ok id) := fun start => pure_apply () start

theorem Performs.modify (update : σ → σ) : Performs (Action.modify update : Action σ ε Unit) (.ok update) := fun _ => rfl

theorem Performs.lift_bind {outcome : Outcome ε α} {next : α → Action σ ε Unit} {update : α → Outcome ε (σ → σ)}
    (h : ∀ value, Performs (next value) (update value)) : Performs (Action.lift outcome >>= next) (outcome >>= update) := by
  intro start
  cases outcome with
  | ok value => exact h value start
  | err error => exact bind_of_err rfl
  | panic => exact congrArg Prod.fst (bind_of_panic rfl)

/-- An update of two parts, where what comes between them does not report an error. -/
theorem Performs.modify_lift_modify {outcome : Outcome ε α} (hpure : ∀ error, outcome ≠ .err error) (first : σ → σ)
    (second : α → σ → σ) :
    Performs (do Action.modify first; let value ← Action.lift outcome; Action.modify (second value))
      (do let value ← outcome; return fun state => second value (first state)) := by
  intro start
  cases outcome with
  | ok value => rfl
  | err error => exact absurd rfl (hpure error)
  | panic => rfl

/-- One of the updates reports the error, and what is left is what those before it have made. -/
def Fails (updates : List (Outcome ε (σ → σ))) (start : σ) (error : ε) (left : σ) : Prop :=
  ∃ (done : List (σ → σ)) (rest : List (Outcome ε (σ → σ))), updates = done.map .ok ++ .err error :: rest ∧
    left = done.foldl (fun state update => update state) start

section Fails

variable {updates : List (Outcome ε (σ → σ))} {start left : σ} {error : ε}

theorem not_fails_nil : ¬ Fails [] start error left := by
  simp [Fails]

theorem fails_ok_cons {update : σ → σ} : Fails (.ok update :: updates) start error left ↔ Fails updates (update start) error left := by
  apply Iff.intro
  · intro hfails
    obtain ⟨done, rest, hupdates, hleft⟩ := hfails
    cases done with
    | nil => simp at hupdates
    | cons first done =>
        simp only [List.map_cons, List.cons_append, List.cons.injEq, Outcome.ok.injEq] at hupdates
        obtain ⟨rfl, hupdates⟩ := hupdates
        exact ⟨done, rest, hupdates, hleft⟩
  · intro hfails
    obtain ⟨done, rest, hupdates, hleft⟩ := hfails
    exact ⟨update :: done, rest, by rw [hupdates, List.map_cons, List.cons_append], hleft⟩

theorem fails_err_cons {first : ε} : Fails (.err first :: updates) start error left ↔ first = error ∧ start = left := by
  apply Iff.intro
  · intro hfails
    obtain ⟨done, rest, hupdates, hleft⟩ := hfails
    cases done with
    | nil =>
        simp only [List.map_nil, List.nil_append, List.cons.injEq, Outcome.err.injEq] at hupdates
        exact ⟨hupdates.1, hleft.symm⟩
    | cons next done => simp at hupdates
  · intro hfirst
    obtain ⟨rfl, rfl⟩ := hfirst
    exact ⟨[], updates, rfl, rfl⟩

theorem not_fails_panic_cons : ¬ Fails (.panic :: updates) start error left := by
  intro hfails
  obtain ⟨done, rest, hupdates, _⟩ := hfails
  cases done with
  | nil => simp at hupdates
  | cons next done => simp at hupdates

end Fails

/-- An error comes from the first of the updates that fails. -/
def StopsAt (x : Action σ ε Unit) (updates : List (Outcome ε (σ → σ))) : Prop :=
  ∀ (start left : σ) (error : ε), x start = (.err error, left) ↔ Fails updates start error left

theorem stopsAt_pure : StopsAt (Pure.pure () : Action σ ε Unit) [] := by
  intro start left error
  exact iff_of_false (by simp [pure_apply]) not_fails_nil

theorem Performs.stopsAt_bind {x y : Action σ ε Unit} {update : Outcome ε (σ → σ)} {updates : List (Outcome ε (σ → σ))}
    (hx : Performs x update) (hy : StopsAt y updates) : StopsAt (x >>= fun _ => y) (update :: updates) := by
  intro start left error
  have hfirst := hx start
  cases update with
  | ok update => rw [bind_of_ok hfirst, hy, fails_ok_cons]
  | err first =>
      rw [bind_of_err hfirst, fails_err_cons]
      simp
  | panic =>
      have hpanic : x start = (.panic, (x start).2) := Prod.ext hfirst rfl
      rw [bind_of_panic hpanic]
      exact iff_of_false (by simp) not_fails_panic_cons

theorem Performs.stopsAt {update : Outcome ε (σ → σ)} {x : Action σ ε Unit} (h : Performs x update) : StopsAt x [update] := by
  have hbind := h.stopsAt_bind stopsAt_pure
  rwa [bind_pure_unit] at hbind

end Rust.Action
