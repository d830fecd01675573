import IrohRaft.Proof.CircuitBreaker.Moves

/-!
# Closing a half-open breaker

A success is counted for the half-open period it is reported in, whichever period its request was
admitted in. So a breaker closes after enough of the period's own requests succeeded as long as no other
call reports a success to it. The accounts of a period (`Earned`) say so step by step: each success the
breaker has counted belongs to a different request of the period.
-/

namespace IrohRaft

namespace CircuitBreaker

variable {config : CircuitBreakerConfig}

/-- A success is reported to a half-open breaker, and a half-open breaker is closed, only by calls that
were admitted in the period. -/
def ReportsInPeriod (watched : Watched) : Label → Prop
  | .turn task (.proceed _) =>
      watched.1.shared.state = .halfOpen →
        (watched.1.tasks[task]? = some .successState ∨ watched.1.tasks[task]? = some .successClose) →
        task ∈ watched.2.admitted
  | _ => True

instance (watched : Watched) (label : Label) : Decidable (ReportsInPeriod watched label) :=
  match label with
  | .turn _ (.proceed _) => by
      dsimp only [ReportsInPeriod]
      infer_instance
  | .turn _ (.complete _ _) => isTrue trivial
  | .turn _ .cancel => isTrue trivial
  | .spawn _ => isTrue trivial

/-- While half-open, each success the breaker has counted is one of the period's own; and a call of the
period that is about to close the breaker has seen enough of them. -/
structure Earned (config : CircuitBreakerConfig) (watched : Watched) : Prop where
  counted : ∃ calls : List Nat, calls.Nodup ∧ watched.1.shared.halfOpenSuccesses.toNat ≤ calls.length ∧
    ∀ task ∈ calls, task ∈ watched.2.succeeded ∧ watched.1.tasks[task]? ≠ some .successState
  past : ∀ task ∈ watched.2.succeeded, ∃ point, watched.1.tasks[task]? = some point ∧ point.afterSuccess = true
  reporting : ∀ task ∈ watched.2.admitted, watched.1.tasks[task]? = some .successState → task ∈ watched.2.succeeded
  closing : ∀ task ∈ watched.2.admitted, watched.1.tasks[task]? = some .successClose →
    config.successThreshold.toNat ≤ watched.2.succeeded.length

/-- A period that has just begun owes nothing. -/
theorem earned_new {breaker : CircuitBreaker} {tasks : List Point} {task : Nat} (h : breaker.halfOpenSuccesses = 0)
    (hpoint : tasks[task]? = some .running) : Earned config (⟨breaker, tasks⟩, ⟨[task], []⟩) where
  counted := by
    refine ⟨[], List.nodup_nil, ?_, fun task htask => nomatch htask⟩
    simp only [h]
    decide
  past := fun task htask => nomatch htask
  reporting := by
    intro other hother hreporting
    rw [List.mem_singleton.mp hother, hpoint] at hreporting
    exact nomatch hreporting
  closing := by
    intro other hother hclosing
    rw [List.mem_singleton.mp hother, hpoint] at hclosing
    exact nomatch hclosing

section

variable {breaker breaker' : CircuitBreaker} {tasks : List Point} {period : Period} {task : Nat} {point point' : Point}

/-- A move that neither reports a success nor decides to close keeps the accounts. -/
theorem Earned.moved (h : Earned config (⟨breaker, tasks⟩, period)) (hpoint : tasks[task]? = some point)
    (hsuccesses : breaker'.halfOpenSuccesses.toNat ≤ breaker.halfOpenSuccesses.toNat) (hreport : point' ≠ .successState)
    (hclose : point' ≠ .successClose) (hafter : point.afterSuccess = true → point'.afterSuccess = true)
    {admitted : List Nat} (hadmitted : ∀ other ∈ admitted, other = task ∨ other ∈ period.admitted) :
    Earned config (⟨breaker', tasks.set task point'⟩, ⟨admitted, period.succeeded⟩) where
  counted := by
    obtain ⟨calls, hnodup, hlength, hcalls⟩ := h.counted
    refine ⟨calls, hnodup, Nat.le_trans hsuccesses hlength, fun other hother => ⟨(hcalls other hother).1, ?_⟩⟩
    exact Tasks.getElem?_set_ne_some (hcalls other hother).2 hreport
  past := Tasks.forall_getElem?_set h.past hpoint hafter
  reporting := by
    intro other hother hreporting
    have hsame := (Tasks.getElem?_set_cases hreporting).resolve_left fun hself => hreport hself.2.symm
    exact h.reporting other ((hadmitted other hother).resolve_left hsame.1) hsame.2
  closing := by
    intro other hother hclosing
    have hsame := (Tasks.getElem?_set_cases hclosing).resolve_left fun hself => hclose hself.2.symm
    exact h.closing other ((hadmitted other hother).resolve_left hsame.1) hsame.2

/-- A request that is admitted has nothing to report yet. -/
theorem Earned.entered (h : Earned config (⟨breaker, tasks⟩, period)) (hpoint : tasks[task]? = some point)
    (hbefore : point.afterSuccess = false)
    (hsuccesses : breaker'.halfOpenSuccesses.toNat ≤ breaker.halfOpenSuccesses.toNat) :
    Earned config (⟨breaker', tasks.set task .running⟩, ⟨period.admitted ++ [task], period.succeeded⟩) := by
  have hnothing : point.afterSuccess = true → Point.running.afterSuccess = true := by
    intro hafter
    exact absurd hafter (by rw [hbefore]; decide)
  have hreport : Point.running ≠ .successState := by decide
  have hclose : Point.running ≠ .successClose := by decide
  apply h.moved hpoint hsuccesses hreport hclose hnothing
  intro other hother
  cases List.mem_append.mp hother with
  | inl hold => exact .inr hold
  | inr hlast => exact .inl (List.mem_singleton.mp hlast)

/-- A call whose operation succeeds is entered in the accounts if it was admitted in the period. -/
theorem Earned.succeed (h : Earned config (⟨breaker, tasks⟩, period)) (hpoint : tasks[task]? = some .running) :
    Earned config (⟨breaker, tasks.set task .successState⟩, period.succeeds task) := by
  have hpast := Tasks.forall_getElem?_set h.past hpoint (fun _ => (rfl : Point.successState.afterSuccess = true))
  have hnotYet : task ∉ period.succeeded := by
    intro hmem
    obtain ⟨there, hthere, hafter⟩ := h.past task hmem
    have hrunning : there = .running := Option.some.inj (hthere.symm.trans hpoint)
    exact absurd hafter (by rw [hrunning]; decide)
  exact {
    counted := by
      obtain ⟨calls, hnodup, hlength, hcalls⟩ := h.counted
      refine ⟨calls, hnodup, hlength, fun other hother => ?_⟩
      obtain ⟨hsucceeded, hreported⟩ := hcalls other hother
      refine ⟨Period.mem_succeeds.mpr (.inl hsucceeded), fun hreporting => ?_⟩
      cases Tasks.getElem?_set_cases hreporting with
      | inl hself => exact hnotYet (hself.1 ▸ hsucceeded)
      | inr hsame => exact hreported hsame.2
    past := by
      intro other hother
      cases Period.mem_succeeds.mp hother with
      | inl hbefore => exact hpast other hbefore
      | inr hself =>
          rw [hself.1]
          exact ⟨.successState, Tasks.getElem?_set_self hpoint, rfl⟩
    reporting := by
      intro other hother hreporting
      cases Tasks.getElem?_set_cases hreporting with
      | inl hself => exact Period.mem_succeeds.mpr (.inr ⟨hself.1, hself.1 ▸ hother⟩)
      | inr hsame => exact Period.mem_succeeds.mpr (.inl (h.reporting other hother hsame.2))
    closing := by
      intro other hother hclosing
      have hsame := (Tasks.getElem?_set_cases hclosing).resolve_left fun hself => nomatch hself.2
      exact Nat.le_trans (h.closing other hother hsame.2) Period.length_le_succeeds }

/-- A counted success is one more of the period's, and a call that decides to close has seen enough. -/
theorem Earned.count (h : Earned config (⟨breaker, tasks⟩, period)) (hpoint : tasks[task]? = some .successState)
    (hadmitted : task ∈ period.admitted) (hdecision : point' = .returned ∨ (point' = .successClose ∧
      config.successThreshold.toNat ≤ breaker.halfOpenSuccesses.toNat + 1 ∧ breaker.halfOpenSuccesses.toNat + 1 < 2 ^ 32)) :
    Earned config (⟨{ breaker with halfOpenSuccesses := breaker.halfOpenSuccesses + 1 }, tasks.set task point'⟩, period) := by
  have hreport : point' ≠ .successState := by
    cases hdecision with
    | inl hreturned => rw [hreturned]; decide
    | inr hclose => rw [hclose.1]; decide
  have hpast : point'.afterSuccess = true := by
    cases hdecision with
    | inl hreturned => rw [hreturned]; rfl
    | inr hclose => rw [hclose.1]; rfl
  obtain ⟨calls, hnodup, hlength, hcalls⟩ := h.counted
  have hnew : (task :: calls).Nodup :=
    List.nodup_cons.mpr ⟨fun hmem => (hcalls task hmem).2 hpoint, hnodup⟩
  have hsucceeded : ∀ other ∈ task :: calls, other ∈ period.succeeded :=
    List.forall_mem_cons.mpr ⟨h.reporting task hadmitted hpoint, fun other hother => (hcalls other hother).1⟩
  have henough : (task :: calls).length ≤ period.succeeded.length := hnew.length_le_of_subset fun _ hother => hsucceeded _ hother
  exact {
    counted := by
      refine ⟨task :: calls, hnew, ?_, fun other hother => ⟨hsucceeded other hother, ?_⟩⟩
      · have hwrap : (breaker.halfOpenSuccesses + 1).toNat ≤ breaker.halfOpenSuccesses.toNat + 1 := by
          rw [UInt32.toNat_add, UInt32.toNat_one]
          exact Nat.mod_le _ _
        rw [List.length_cons]
        exact Nat.le_trans hwrap (Nat.succ_le_succ hlength)
      · intro hreporting
        have hsame := (Tasks.getElem?_set_cases hreporting).resolve_left fun hself => hreport hself.2.symm
        have hmem := (List.mem_cons.mp hother).resolve_left hsame.1
        exact (hcalls other hmem).2 hsame.2
    past := Tasks.forall_getElem?_set h.past hpoint fun _ => hpast
    reporting := by
      intro other hother hreporting
      have hsame := (Tasks.getElem?_set_cases hreporting).resolve_left fun hself => hreport hself.2.symm
      exact h.reporting other hother hsame.2
    closing := by
      intro other hother hclosing
      cases Tasks.getElem?_set_cases hclosing with
      | inl hself =>
          have hclose := hdecision.resolve_left fun hreturned => nomatch hself.2.trans hreturned
          have hlengths : (task :: calls).length = calls.length + 1 := rfl
          have hseen : breaker.halfOpenSuccesses.toNat ≤ calls.length := hlength
          show config.successThreshold.toNat ≤ period.succeeded.length
          omega
      | inr hsame => exact h.closing other hother hsame.2 }

end

/-- A task that starts is at none of the points that count. -/
theorem getElem?_spawn {tasks : List Point} {other : Nat} {point : Point} (method : Method) (hcounts : point.counts = true)
    (h : (tasks ++ [method.entry])[other]? = some point) : tasks[other]? = some point := by
  refine (Tasks.getElem?_append_cases h).resolve_left fun hentry => ?_
  rw [hentry] at hcounts
  cases method <;> exact nomatch hcounts

theorem earned_spawn {breaker : CircuitBreaker} {tasks : List Point} {period : Period} (method : Method)
    (h : Earned config (⟨breaker, tasks⟩, period)) : Earned config (⟨breaker, tasks ++ [method.entry]⟩, period) where
  counted := by
    obtain ⟨calls, hnodup, hlength, hcalls⟩ := h.counted
    refine ⟨calls, hnodup, hlength, fun other hother => ⟨(hcalls other hother).1, fun hreporting => ?_⟩⟩
    exact (hcalls other hother).2 (getElem?_spawn method rfl hreporting)
  past := by
    intro other hother
    obtain ⟨point, hpoint, hpast⟩ := h.past other hother
    exact ⟨point, Tasks.getElem?_append_of_some hpoint, hpast⟩
  reporting := fun other hother hreporting => h.reporting other hother (getElem?_spawn method rfl hreporting)
  closing := fun other hother hclosing => h.closing other hother (getElem?_spawn method rfl hclosing)

def EarnedWhileHalfOpen (config : CircuitBreakerConfig) (watched : Watched) : Prop :=
  watched.1.shared.state = .halfOpen → Earned config watched

theorem earned_move {watched : Watched} {task : Nat} {input : Input} {point point' : Point} {breaker' : CircuitBreaker}
    (hearned : EarnedWhileHalfOpen config watched) (hreports : ReportsInPeriod watched (.turn task input))
    (hpoint : watched.1.tasks[task]? = some point) (hmove : Move config watched.1.shared point input breaker' point') :
    EarnedWhileHalfOpen config
      (⟨breaker', watched.1.tasks.set task point'⟩, watched.2.moved task watched.1.shared point breaker' point') := by
  intro hstate'
  cases hmove with
  | transition now =>
      by_cases hagain : watched.1.shared.state = .halfOpen
      · rw [moved_enter (by decide) hagain rfl]
        exact (hearned hagain).entered hpoint rfl (Nat.zero_le _)
      · rw [moved_transition hagain rfl]
        exact earned_new rfl (Tasks.getElem?_set_self hpoint)
  | enter now hstate hfits =>
      rw [moved_enter (by decide) hstate hstate']
      exact (hearned hstate).entered hpoint rfl (Nat.le_refl _)
  | pass now hclosed =>
      rw [hclosed] at hstate'
      cases hstate'
  | succeed now =>
      rw [moved_succeed]
      exact (hearned hstate').succeed hpoint
  | count now point' hstate hdecision =>
      rw [moved_same .successState hstate (ne_running_of_decision hdecision) (.inl (by decide))]
      exact (hearned hstate).count hpoint (hreports hstate (.inl hpoint)) hdecision
  | other point input breaker' point' hrequests hsuccesses hstate hleft hafter =>
      have hbefore := halfOpen_of_other hstate hstate'
      rw [moved_same point hbefore (ne_of_counts hleft rfl) (.inr (ne_of_counts hleft rfl))]
      exact (hearned hbefore).moved hpoint (Nat.le_of_eq (congrArg UInt32.toNat hsuccesses)) (ne_of_counts hleft rfl)
        (ne_of_counts hleft rfl) hafter fun other hother => .inr hother

theorem earned_step (watched : Watched) (label : Label) (hearned : EarnedWhileHalfOpen config watched)
    (hreports : ReportsInPeriod watched label) : EarnedWhileHalfOpen config (watch config watched label) := by
  apply watch_cases label hearned (fun method hstate => earned_spawn method (hearned hstate))
  intro task input point breaker' point' hlabel hpoint hmove
  rw [hlabel] at hreports
  exact earned_move hearned hreports hpoint hmove

/-- The turn is one of `force_close`, which closes the breaker whatever its state. -/
def Forces (watched : Watched) : Label → Prop
  | .turn task _ => watched.1.tasks[task]? = some .forceClose
  | .spawn _ => False

instance (watched : Watched) (label : Label) : Decidable (Forces watched label) :=
  match label with
  | .turn _ _ => by
      dsimp only [Forces]
      infer_instance
  | .spawn _ => isFalse id

/-- A call that closes a half-open breaker does so after enough of the period's requests succeeded. -/
def ClosesEarned (config : CircuitBreakerConfig) (watched : Watched) (label : Label) : Prop :=
  watched.1.shared.state = .halfOpen → (watch config watched label).1.shared.state = .closed →
    ¬ Forces watched label → config.successThreshold.toNat ≤ watched.2.succeeded.length

theorem closesEarned_move {watched : Watched} {task : Nat} {input : Input} {point point' : Point} {breaker' : CircuitBreaker}
    (hearned : Earned config watched) (hreports : ReportsInPeriod watched (.turn task input))
    (hpoint : watched.1.tasks[task]? = some point) (hmove : Move config watched.1.shared point input breaker' point')
    (hstate : watched.1.shared.state = .halfOpen) (hclosed : breaker'.state = .closed) (hforced : point ≠ .forceClose) :
    config.successThreshold.toNat ≤ watched.2.succeeded.length := by
  have hleft : breaker'.state ≠ watched.1.shared.state := by
    rw [hstate, hclosed]
    decide
  cases hmove with
  | transition now => exact nomatch hclosed
  | enter now hhalfOpen hfits => exact absurd rfl hleft
  | pass now hbefore => exact absurd rfl hleft
  | succeed now => exact absurd rfl hleft
  | count now point' hhalfOpen hdecision => exact absurd rfl hleft
  | other point input breaker' point' hrequests hsuccesses hchange hnext hafter =>
      have hnotOpened : breaker'.state ≠ .opened := by
        rw [hclosed]
        decide
      obtain ⟨_, hcloses, now, hinput⟩ := (hchange.resolve_left hleft).resolve_left hnotOpened
      have hcloses := hcloses.resolve_right hforced
      rw [hcloses] at hpoint
      rw [hinput] at hreports
      exact hearned.closing task (hreports hstate (.inr hpoint)) hpoint

theorem closesEarned_of_earned {watched : Watched} {label : Label} (hearned : EarnedWhileHalfOpen config watched)
    (hreports : ReportsInPeriod watched label) : ClosesEarned config watched label := by
  intro hstate hclosed hforced
  have hnot : watched.1.shared.state ≠ .closed := by
    rw [hstate]
    decide
  let enough (after : Watched) : Prop :=
    after.1.shared.state = .closed → config.successThreshold.toNat ≤ watched.2.succeeded.length
  have hstep : enough (watch config watched label) := by
    apply watch_cases label (fun hsame => absurd hsame hnot) (fun _ hsame => absurd hsame hnot)
    intro task input point breaker' point' hlabel hpoint hmove hclosed
    rw [hlabel] at hreports hforced
    have hfree : point ≠ .forceClose := by
      intro hforce
      rw [hforce] at hpoint
      exact hforced hpoint
    exact closesEarned_move (hearned hstate) hreports hpoint hmove hstate hclosed hfree
  exact hstep hclosed

/-- **Closing the breaker.** In a run where only calls of the period report successes to a half-open
breaker, it counts no success but theirs, and a call closes it only after enough of them. -/
theorem run_closesEarned {labels : List Label} {label : Label}
    (h : Run.Follows (watch config) ReportsInPeriod watchedStart (labels ++ [label])) :
    ClosesEarned config (Run.final (watch config) watchedStart labels) label ∧
      ((Run.final (watch config) watchedStart labels).1.shared.state = .halfOpen →
        (Run.final (watch config) watchedStart labels).1.shared.halfOpenSuccesses.toNat ≤
          (Run.final (watch config) watchedStart labels).2.succeeded.length) := by
  obtain ⟨hbefore, hlast⟩ := Run.follows_append.mp h
  have hearned : EarnedWhileHalfOpen config (Run.final (watch config) watchedStart labels) := by
    apply hbefore.invariant (EarnedWhileHalfOpen config) earned_step
    intro hstate
    exact nomatch hstate
  refine ⟨closesEarned_of_earned hearned hlast.1, fun hstate => ?_⟩
  obtain ⟨calls, hnodup, hlength, hcalls⟩ := (hearned hstate).counted
  exact Nat.le_trans hlength (hnodup.length_le_of_subset fun task htask => (hcalls task htask).1)

/-- The request that made the transition succeeds and closes the breaker. -/
theorem run_closesEarned_transition :
    let run := opens 0 0 ++ makesTransition 1 100 ++ [.turn 1 (.complete true 100), .turn 1 (.proceed 100)]
    ClosesEarned (hairTrigger 3) (Run.final (watch (hairTrigger 3)) watchedStart run) (.turn 1 (.proceed 100)) ∧
      ((Run.final (watch (hairTrigger 3)) watchedStart run).1.shared.state = .halfOpen →
        (Run.final (watch (hairTrigger 3)) watchedStart run).1.shared.halfOpenSuccesses.toNat ≤
          (Run.final (watch (hairTrigger 3)) watchedStart run).2.succeeded.length) :=
  run_closesEarned (by decide)

/-- A request admitted while the breaker was closed succeeds while it is half-open, and closes it. -/
theorem not_run_closesEarned :
    ¬ ∀ (config : CircuitBreakerConfig) (labels : List Label) (label : Label),
      ClosesEarned config (Run.final (watch config) watchedStart labels) label := by
  intro hall
  have hrun := hall (hairTrigger 3) (asks 0 0 ++ opens 1 0 ++ makesTransition 2 100 ++
    [.turn 0 (.complete true 100), .turn 0 (.proceed 100)]) (.turn 0 (.proceed 100))
  have henough := hrun (by decide) (by decide) (by decide)
  revert henough
  decide

end CircuitBreaker

end IrohRaft
