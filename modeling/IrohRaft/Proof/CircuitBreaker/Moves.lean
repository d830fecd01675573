import IrohRaft.CircuitBreaker

/-!
# What a turn can do to a half-open breaker

A turn of a task that waits for a lock is one of those in `Turn`. For what is admitted and counted it is one of
a few moves (`Move`): it opens the half-open period, admits a request, ends a protected
operation, counts its success, or does nothing that bears on admissions and successes. A `Period` is the
record of the current half-open period: the calls admitted in it, and those of them whose operation
succeeded. The breaker keeps no such record.
-/

namespace IrohRaft

namespace CircuitBreaker

/-- The points of a call whose operation has succeeded. -/
def Point.afterSuccess : Point → Bool
  | .successState | .successClose | .clearFailureTime | .clearFailures | .successClean | .returned => true
  | _ => false

/-- The points at which a call is admitted, has a success to report, or is about to close the breaker. -/
def Point.counts : Point → Bool
  | .running | .successState | .successClose => true
  | _ => false

/-- What a turn of a task that waits for a lock does to the breaker, and where it leaves the task. -/
inductive Turn (config : CircuitBreakerConfig) (breaker : CircuitBreaker) (tasks : List Point) (now : Instant) :
    Point → CircuitBreaker → Point → Prop where
  | pass (state : breaker.state = .closed) : Turn config breaker tasks now .allowState breaker .running
  | asksTime (state : breaker.state = .opened) : Turn config breaker tasks now .allowState breaker .allowElapsed
  | enter (state : breaker.state = .halfOpen) (room : breaker.halfOpenRequests < config.halfOpenMaxRequests) :
      Turn config breaker tasks now .allowState { breaker with halfOpenRequests := breaker.halfOpenRequests + 1 } .running
  | full (state : breaker.state = .halfOpen) (full : ¬ breaker.halfOpenRequests < config.halfOpenMaxRequests) :
      Turn config breaker tasks now .allowState breaker .returned
  | elapsed (elapsed : ∃ lastFailure, breaker.lastFailureTime = some lastFailure ∧ now - lastFailure > config.timeout) :
      Turn config breaker tasks now .allowElapsed breaker .allowTransition
  | early (early : ¬ ∃ lastFailure, breaker.lastFailureTime = some lastFailure ∧ now - lastFailure > config.timeout) :
      Turn config breaker tasks now .allowElapsed breaker .returned
  | transition :
      Turn config breaker tasks now .allowTransition
        { breaker with state := .halfOpen, halfOpenRequests := 0, halfOpenSuccesses := 0 } .running
  | decide (state : breaker.state = .halfOpen) (fits : breaker.halfOpenSuccesses.toNat + 1 < 2 ^ 32)
      (enough : config.successThreshold.toNat ≤ breaker.halfOpenSuccesses.toNat + 1) :
      Turn config breaker tasks now .successState
        { breaker with halfOpenSuccesses := breaker.halfOpenSuccesses + 1 } .successClose
  | count (state : breaker.state = .halfOpen) (few : breaker.halfOpenSuccesses.toNat + 1 < 2 ^ 32 →
        breaker.halfOpenSuccesses.toNat + 1 < config.successThreshold.toNat) :
      Turn config breaker tasks now .successState
        { breaker with halfOpenSuccesses := breaker.halfOpenSuccesses + 1 } .returned
  | uncounted (state : breaker.state ≠ .halfOpen) : Turn config breaker tasks now .successState breaker .successClean
  | close : Turn config breaker tasks now .successClose { breaker with state := .closed } .clearFailureTime
  | forceClose : Turn config breaker tasks now .forceClose { breaker with state := .closed } .clearFailureTime
  | clearFailureTime (unlocked : .allowTransition ∉ tasks) :
      Turn config breaker tasks now .clearFailureTime { breaker with lastFailureTime := none } .clearFailures
  | clearFailures : Turn config breaker tasks now .clearFailures { breaker with recentFailures := [] } .returned
  | successClean :
      Turn config breaker tasks now .successClean
        { breaker with recentFailures := cleanOldFailures now breaker.recentFailures } .returned
  | failureTime (failed : Instant) (unlocked : .allowTransition ∉ tasks) :
      Turn config breaker tasks now (.failureTime failed) { breaker with lastFailureTime := some failed } (.failurePush failed)
  | failurePush (failed : Instant) :
      Turn config breaker tasks now (.failurePush failed)
        { breaker with recentFailures := breaker.recentFailures ++ [failed] } .failureClean
  | failureClean :
      Turn config breaker tasks now .failureClean
        { breaker with recentFailures := cleanOldFailures now breaker.recentFailures } .failureState
  | failureClosed (state : breaker.state = .closed) : Turn config breaker tasks now .failureState breaker .failureCount
  | failureHalfOpen (state : breaker.state = .halfOpen) : Turn config breaker tasks now .failureState breaker .failureOpen
  | failureOpened (state : breaker.state = .opened) : Turn config breaker tasks now .failureState breaker .returned
  | failureMany (many : config.failureThreshold.toNat ≤ breaker.recentFailures.length) :
      Turn config breaker tasks now .failureCount breaker .failureOpen
  | failureFew (few : ¬ config.failureThreshold.toNat ≤ breaker.recentFailures.length) :
      Turn config breaker tasks now .failureCount breaker .returned
  | failureOpen : Turn config breaker tasks now .failureOpen { breaker with state := .opened } .returned
  | forceOpen : Turn config breaker tasks now .forceOpen { breaker with state := .opened } (.forceOpenTime now)
  | forceOpenTime (opened : Instant) (unlocked : .allowTransition ∉ tasks) :
      Turn config breaker tasks now (.forceOpenTime opened) { breaker with lastFailureTime := some opened } .returned

/-- What a turn at a point does to what is admitted and counted. -/
inductive Move (config : CircuitBreakerConfig) (breaker : CircuitBreaker) :
    Point → Input → CircuitBreaker → Point → Prop where
  | transition (now : Instant) :
      Move config breaker .allowTransition (.proceed now)
        { breaker with state := .halfOpen, halfOpenRequests := 0, halfOpenSuccesses := 0 } .running
  | enter (now : Instant) (state : breaker.state = .halfOpen)
      (room : breaker.halfOpenRequests < config.halfOpenMaxRequests) :
      Move config breaker .allowState (.proceed now) { breaker with halfOpenRequests := breaker.halfOpenRequests + 1 } .running
  | pass (now : Instant) (state : breaker.state = .closed) : Move config breaker .allowState (.proceed now) breaker .running
  | succeed (now : Instant) : Move config breaker .running (.complete true now) breaker .successState
  | count (now : Instant) (point' : Point) (state : breaker.state = .halfOpen)
      (decision : point' = .returned ∨ (point' = .successClose ∧
        config.successThreshold.toNat ≤ breaker.halfOpenSuccesses.toNat + 1 ∧ breaker.halfOpenSuccesses.toNat + 1 < 2 ^ 32)) :
      Move config breaker .successState (.proceed now)
        { breaker with halfOpenSuccesses := breaker.halfOpenSuccesses + 1 } point'
  | other (point : Point) (input : Input) (breaker' : CircuitBreaker) (point' : Point)
      (requests : breaker'.halfOpenRequests = breaker.halfOpenRequests)
      (successes : breaker'.halfOpenSuccesses = breaker.halfOpenSuccesses)
      (state : breaker'.state = breaker.state ∨ breaker'.state = .opened ∨
        (breaker'.state = .closed ∧ (point = .successClose ∨ point = .forceClose) ∧ ∃ now, input = .proceed now))
      (left : point'.counts = false) (after : point.afterSuccess = true → point'.afterSuccess = true) :
      Move config breaker point input breaker' point'

variable {config : CircuitBreakerConfig} {breaker breaker' : CircuitBreaker} {tasks : List Point} {point point' : Point}
  {input : Input} {now : Instant}

/-- A turn at a point from which nothing is counted, and that leaves the state. -/
theorem Move.leaving (hpoint : point.afterSuccess = false) (hleft : point'.counts = false)
    (hrequests : breaker'.halfOpenRequests = breaker.halfOpenRequests)
    (hsuccesses : breaker'.halfOpenSuccesses = breaker.halfOpenSuccesses) (hstate : breaker'.state = breaker.state) :
    Move config breaker point input breaker' point' := by
  apply Move.other point input breaker' point' hrequests hsuccesses (.inl hstate) hleft
  intro hafter
  rw [hpoint] at hafter
  cases hafter

theorem halfOpen_of_other (hstate : breaker'.state = breaker.state ∨ breaker'.state = .opened ∨
      (breaker'.state = .closed ∧ (point = .successClose ∨ point = .forceClose) ∧ ∃ now, input = .proceed now))
    (h : breaker'.state = .halfOpen) : breaker.state = .halfOpen := by
  cases hstate with
  | inl hsame => exact hsame ▸ h
  | inr hleft =>
      cases hleft with
      | inl hopened =>
          rw [h] at hopened
          cases hopened
      | inr hclosed =>
          rw [h] at hclosed
          cases hclosed.1

theorem ne_of_counts {point'' : Point} (h : point'.counts = false) (hcounts : point''.counts = true) : point' ≠ point'' := by
  intro heq
  rw [heq, hcounts] at h
  cases h

theorem ne_running_of_decision {decided : Prop} (h : point' = .returned ∨ (point' = .successClose ∧ decided)) :
    point' ≠ .running := by
  cases h with
  | inl hreturned =>
      rw [hreturned]
      decide
  | inr hclose =>
      rw [hclose.1]
      decide

theorem turn_of_proceed (h : proceed config breaker tasks now point = some (breaker', point')) :
    Turn config breaker tasks now point breaker' point' := by
  cases point with
  | allowState =>
      rw [proceed] at h
      split at h
      · next hclosed =>
          cases h
          exact .pass hclosed
      · next hopened =>
          cases h
          exact .asksTime hopened
      · next hhalfOpen =>
          split at h
          · next hroom =>
              cases h
              exact .enter hhalfOpen hroom
          · next hfull =>
              cases h
              exact .full hhalfOpen hfull
  | allowElapsed =>
      rw [proceed] at h
      split at h
      · next lastFailure htime =>
          cases h
          split
          · next helapsed => exact .elapsed ⟨lastFailure, htime, helapsed⟩
          · next hearly =>
              apply Turn.early
              intro helapsed
              obtain ⟨other, hother, helapsed⟩ := helapsed
              rw [Option.some.inj (htime.symm.trans hother)] at hearly
              exact hearly helapsed
      · next hnone =>
          cases h
          apply Turn.early
          intro helapsed
          obtain ⟨other, hother, -⟩ := helapsed
          simp [hnone] at hother
  | successState =>
      rw [proceed] at h
      split at h
      · next hhalfOpen =>
          cases h
          split
          · next henough => exact .decide hhalfOpen henough.1 henough.2
          · next hfew => exact .count hhalfOpen fun hfits => by omega
      · next hother =>
          cases h
          exact .uncounted hother
  | failureState =>
      rw [proceed] at h
      split at h
      · next hclosed =>
          cases h
          exact .failureClosed hclosed
      · next hhalfOpen =>
          cases h
          exact .failureHalfOpen hhalfOpen
      · next hopened =>
          cases h
          exact .failureOpened hopened
  | failureCount =>
      cases h
      split
      · next hmany => exact .failureMany hmany
      · next hfew => exact .failureFew hfew
  | clearFailureTime =>
      rw [proceed, Option.ite_none_left_eq_some] at h
      obtain ⟨hunlocked, hmoved⟩ := h
      cases hmoved
      exact .clearFailureTime hunlocked
  | failureTime failed =>
      rw [proceed, Option.ite_none_left_eq_some] at h
      obtain ⟨hunlocked, hmoved⟩ := h
      cases hmoved
      exact .failureTime failed hunlocked
  | forceOpenTime opened =>
      rw [proceed, Option.ite_none_left_eq_some] at h
      obtain ⟨hunlocked, hmoved⟩ := h
      cases hmoved
      exact .forceOpenTime opened hunlocked
  | running | returned => cases h
  | allowTransition | successClose | forceClose | clearFailures | successClean | failurePush _ | failureClean | failureOpen
  | forceOpen =>
      cases h
      constructor

/-- What bears on admissions and successes in a turn. -/
theorem Turn.move (h : Turn config breaker tasks now point breaker' point') :
    Move config breaker point (.proceed now) breaker' point' := by
  cases h with
  | pass hclosed => exact .pass now hclosed
  | enter hhalfOpen hroom => exact .enter now hhalfOpen hroom
  | transition => exact .transition now
  | decide hhalfOpen hfits henough => exact .count now _ hhalfOpen (.inr ⟨rfl, henough, hfits⟩)
  | count hhalfOpen hfew => exact .count now _ hhalfOpen (.inl rfl)
  | close | forceClose => exact .other _ _ _ _ rfl rfl (.inr (.inr ⟨rfl, by decide, now, rfl⟩)) rfl (by decide)
  | failureOpen | forceOpen => exact .other _ _ _ _ rfl rfl (.inr (.inl rfl)) rfl nofun
  | uncounted _ | clearFailureTime _ | clearFailures | successClean =>
      exact .other _ _ _ _ rfl rfl (.inl rfl) rfl fun _ => rfl
  | _ => exact .leaving rfl rfl rfl rfl rfl

theorem move_of_advance (h : advance config breaker tasks point input = some (breaker', point')) :
    Move config breaker point input breaker' point' := by
  cases input with
  | proceed now => exact (turn_of_proceed h).move
  | cancel =>
      cases h
      exact .other _ _ _ _ rfl rfl (.inl rfl) rfl fun _ => rfl
  | complete succeeded now =>
      rw [advance] at h
      split at h
      · next hrunning =>
          subst hrunning
          cases succeeded with
          | true =>
              cases h
              exact .succeed now
          | false =>
              cases h
              exact .leaving rfl rfl rfl rfl rfl
      · cases h

/-! ### The half-open period -/

/-- What happened since the breaker last became half-open. -/
structure Period where
  admitted : List Nat
  succeeded : List Nat
  deriving DecidableEq

def Period.renewed (before after : System) (period : Period) : Period :=
  if before.shared.state ≠ .halfOpen ∧ after.shared.state = .halfOpen then ⟨[], []⟩ else period

/-- A task that comes to run the protected operation is admitted; one that comes from it to `on_success`
has succeeded. -/
def Period.record (before : System) (label : Label) (after : System) (period : Period) : Period :=
  match label with
  | .spawn _ => period.renewed before after
  | .turn task _ =>
      let period := period.renewed before after
      { admitted :=
          if after.shared.state = .halfOpen ∧ before.tasks[task]? ≠ some .running ∧ after.tasks[task]? = some .running then
            period.admitted ++ [task]
          else period.admitted
        succeeded :=
          if task ∈ period.admitted ∧ before.tasks[task]? = some .running ∧ after.tasks[task]? = some .successState then
            period.succeeded ++ [task]
          else period.succeeded }

/-- A breaker, its tasks, and the record of the period. -/
abbrev Watched := System × Period

def watch (config : CircuitBreakerConfig) : Watched → Label → Watched := Tasks.recording (program config) Period.record

def watchedStart : Watched := (start, ⟨[], []⟩)

/-! ### Watched steps -/

/-- The record of a move, which depends on the two states and the two points only. -/
def Period.moved (task : Nat) (breaker : CircuitBreaker) (point : Point) (breaker' : CircuitBreaker) (point' : Point)
    (period : Period) : Period :=
  let period := if breaker.state ≠ .halfOpen ∧ breaker'.state = .halfOpen then ⟨[], []⟩ else period
  { admitted :=
      if breaker'.state = .halfOpen ∧ point ≠ .running ∧ point' = .running then period.admitted ++ [task]
      else period.admitted
    succeeded :=
      if task ∈ period.admitted ∧ point = .running ∧ point' = .successState then period.succeeded ++ [task]
      else period.succeeded }

def Period.succeeds (task : Nat) (period : Period) : Period :=
  { period with succeeded := if task ∈ period.admitted then period.succeeded ++ [task] else period.succeeded }

section

variable {task : Nat} {period : Period}

theorem Period.mem_succeeds {other : Nat} :
    other ∈ (period.succeeds task).succeeded ↔ other ∈ period.succeeded ∨ (other = task ∧ task ∈ period.admitted) := by
  by_cases h : task ∈ period.admitted <;> simp [succeeds, h]

theorem Period.length_le_succeeds : period.succeeded.length ≤ (period.succeeds task).succeeded.length := by
  by_cases h : task ∈ period.admitted <;> simp [succeeds, h]

theorem moved_transition (h : breaker.state ≠ .halfOpen) (hstate : breaker'.state = .halfOpen) :
    period.moved task breaker .allowTransition breaker' .running = ⟨[task], []⟩ := by
  simp [Period.moved, h, hstate]

theorem moved_enter (hpoint : point ≠ .running) (h : breaker.state = .halfOpen) (hstate : breaker'.state = .halfOpen) :
    period.moved task breaker point breaker' .running = ⟨period.admitted ++ [task], period.succeeded⟩ := by
  simp [Period.moved, h, hstate, hpoint]

theorem moved_succeed : period.moved task breaker .running breaker .successState = period.succeeds task := by
  simp [Period.moved, Period.succeeds]

/-- Nothing is recorded of a move that neither admits nor succeeds. -/
theorem moved_same (point : Point) (h : breaker.state = .halfOpen) (hrunning : point' ≠ .running)
    (hsucceeded : point ≠ .running ∨ point' ≠ .successState) :
    period.moved task breaker point breaker' point' = period := by
  have hrenewed : ¬ (breaker.state ≠ .halfOpen ∧ breaker'.state = .halfOpen) := fun hnew => hnew.1 h
  have hadmitted : ¬ (breaker'.state = .halfOpen ∧ point ≠ .running ∧ point' = .running) := fun hnew => hrunning hnew.2.2
  have hnot : ¬ (task ∈ period.admitted ∧ point = .running ∧ point' = .successState) := by
    intro hnew
    cases hsucceeded with
    | inl hne => exact hne hnew.2.1
    | inr hne => exact hne hnew.2.2
  rw [Period.moved, if_neg hrenewed, if_neg hadmitted, if_neg hnot]

end

theorem watch_spawn (watched : Watched) (method : Method) :
    watch config watched (.spawn method) =
      (⟨watched.1.shared, watched.1.tasks ++ [method.entry]⟩, watched.2) := by
  have hsame : ¬ (watched.1.shared.state ≠ .halfOpen ∧ watched.1.shared.state = .halfOpen) := fun h => h.1 h.2
  show (_, Period.renewed watched.1 ⟨watched.1.shared, _⟩ watched.2) = _
  rw [Period.renewed, if_neg hsame]
  rfl

theorem watch_turn_cases (config : CircuitBreakerConfig) (watched : Watched) (task : Nat) (input : Input) :
    watch config watched (.turn task input) = watched ∨
      ∃ point breaker' point', watched.1.tasks[task]? = some point ∧
        advance config watched.1.shared watched.1.tasks point input = some (breaker', point') ∧
        watch config watched (.turn task input) =
          (⟨breaker', watched.1.tasks.set task point'⟩,
            watched.2.moved task watched.1.shared point breaker' point') := by
  cases Tasks.step_turn_cases (program config) watched.1 task input with
  | inl hlost =>
      left
      have hsame : ¬ (watched.1.shared.state ≠ .halfOpen ∧ watched.1.shared.state = .halfOpen) := fun h => h.1 h.2
      have hadmitted : ¬ (watched.1.shared.state = .halfOpen ∧ watched.1.tasks[task]? ≠ some .running ∧
          watched.1.tasks[task]? = some .running) := fun h => h.2.1 h.2.2
      have hsucceeded : ¬ (task ∈ watched.2.admitted ∧ watched.1.tasks[task]? = some .running ∧
          watched.1.tasks[task]? = some .successState) := fun h => by rw [h.2.1] at h; cases h.2.2
      rw [watch, Tasks.recording, hlost, Period.record, Period.renewed, if_neg hsame, if_neg hadmitted, if_neg hsucceeded]
  | inr hmoved =>
      obtain ⟨point, breaker', point', hpoint, hadvance, hstep⟩ := hmoved
      right
      refine ⟨point, breaker', point', hpoint, hadvance, ?_⟩
      have hpoint' : (watched.1.tasks.set task point')[task]? = some point' := Tasks.getElem?_set_self hpoint
      rw [watch, Tasks.recording, hstep]
      simp only [Period.record, Period.moved, Period.renewed, hpoint, hpoint', ne_eq, Option.some_inj]

/-- What holds if nothing happens, of a task's start and of every move, holds of a step. -/
theorem watch_cases {holds : Watched → Prop} {watched : Watched} (label : Label) (hlost : holds watched)
    (hspawn : ∀ method : Method, holds (⟨watched.1.shared, watched.1.tasks ++ [method.entry]⟩, watched.2))
    (hmove : ∀ task input point breaker' point', label = .turn task input → watched.1.tasks[task]? = some point →
      Move config watched.1.shared point input breaker' point' →
        holds (⟨breaker', watched.1.tasks.set task point'⟩, watched.2.moved task watched.1.shared point breaker' point')) :
    holds (watch config watched label) := by
  cases label with
  | spawn method =>
      rw [watch_spawn]
      exact hspawn method
  | turn task input =>
      cases watch_turn_cases config watched task input with
      | inl hsame =>
          rw [hsame]
          exact hlost
      | inr hmoved =>
          obtain ⟨point, breaker', point', hpoint, hadvance, hwatch⟩ := hmoved
          rw [hwatch]
          exact hmove task input point breaker' point' rfl hpoint (move_of_advance hadvance)

/-! ### Some runs -/

/-- A call is let through the closed breaker, fails, and opens it if one failure is enough. -/
def opens (task : Nat) (now : Instant) : List Label :=
  .spawn .call :: .turn task (.proceed now) :: .turn task (.complete false now) :: List.replicate 6 (.turn task (.proceed now))

/-- A call finds the breaker open, sees that the timeout has elapsed, and makes the transition. -/
def makesTransition (task : Nat) (now : Instant) : List Label :=
  .spawn .call :: List.replicate 3 (.turn task (.proceed now))

def asks (task : Nat) (now : Instant) : List Label := [.spawn .call, .turn task (.proceed now)]

/-- A breaker that one failure opens and one success closes. -/
def hairTrigger (halfOpenMaxRequests : UInt32) : CircuitBreakerConfig := ⟨1, 10, 1, halfOpenMaxRequests⟩

end CircuitBreaker

end IrohRaft
