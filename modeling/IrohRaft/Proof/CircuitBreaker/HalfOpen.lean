import IrohRaft.Proof.CircuitBreaker.Moves

/-!
# The half-open cap

A half-open period is limited to some number of requests, and two things break the limit. The request
whose check opens the period is admitted without being counted, so one request too many fits in; and the
transition is written without looking at the state again, so a second one starts the count over.
-/

namespace IrohRaft

namespace CircuitBreaker

variable {config : CircuitBreakerConfig}

/-- The label neither writes the transition over a half-open state, nor checks a request when the count
says that one more fits. -/
def LeavesRoom (config : CircuitBreakerConfig) (watched : Watched) : Label → Prop
  | .turn task (.proceed _) =>
      (watched.1.tasks[task]? = some .allowTransition →
        watched.1.shared.state ≠ .halfOpen ∧ 1 ≤ config.halfOpenMaxRequests.toNat) ∧
      (watched.1.tasks[task]? = some .allowState → watched.1.shared.state = .halfOpen →
        watched.1.shared.halfOpenRequests.toNat + 1 ≠ config.halfOpenMaxRequests.toNat)
  | _ => True

instance (watched : Watched) (label : Label) : Decidable (LeavesRoom config watched label) :=
  match label with
  | .turn _ (.proceed _) => by
      dsimp only [LeavesRoom]
      infer_instance
  | .turn _ (.complete _ _) => isTrue trivial
  | .turn _ .cancel => isTrue trivial
  | .spawn _ => isTrue trivial

/-- While half-open, all but one of the admitted requests are counted, and there is room for that one. -/
def Capped (config : CircuitBreakerConfig) (watched : Watched) : Prop :=
  watched.1.shared.state = .halfOpen →
    watched.2.admitted.length ≤ watched.1.shared.halfOpenRequests.toNat + 1 ∧
      watched.1.shared.halfOpenRequests.toNat + 1 ≤ config.halfOpenMaxRequests.toNat

theorem capped_moved {watched : Watched} {task : Nat} {input : Input} {point point' : Point} {breaker' : CircuitBreaker}
    (hcapped : Capped config watched) (hroom : LeavesRoom config watched (.turn task input))
    (hpoint : watched.1.tasks[task]? = some point) (hmove : Move config watched.1.shared point input breaker' point') :
    Capped config (⟨breaker', watched.1.tasks.set task point'⟩, watched.2.moved task watched.1.shared point breaker' point') := by
  intro hstate'
  cases hmove with
  | transition now =>
      obtain ⟨hnew, hmax⟩ := hroom.1 hpoint
      rw [moved_transition hnew rfl]
      exact ⟨Nat.le_refl 1, hmax⟩
  | enter now hstate hfits =>
      have hcount := hroom.2 hpoint hstate
      have hbefore := hcapped hstate
      have hlt : watched.1.shared.halfOpenRequests.toNat < config.halfOpenMaxRequests.toNat := hfits
      have hmax := config.halfOpenMaxRequests.toNat_lt
      have hnext : (watched.1.shared.halfOpenRequests + 1).toNat = watched.1.shared.halfOpenRequests.toNat + 1 := by
        rw [UInt32.toNat_add, UInt32.toNat_one]
        omega
      rw [moved_enter (by decide) hstate hstate']
      simp only [hnext, List.length_append, List.length_singleton]
      omega
  | pass now hclosed =>
      rw [hclosed] at hstate'
      cases hstate'
  | succeed now =>
      rw [moved_succeed]
      exact hcapped hstate'
  | count now point' hstate hdecision =>
      rw [moved_same .successState hstate (ne_running_of_decision hdecision) (.inl (by decide))]
      exact hcapped hstate
  | other point input breaker' point' hrequests hsuccesses hstate hleft hafter =>
      have hbefore := halfOpen_of_other hstate hstate'
      rw [moved_same point hbefore (ne_of_counts hleft rfl) (.inr (ne_of_counts hleft rfl))]
      simp only [hrequests]
      exact hcapped hbefore

theorem capped_step (watched : Watched) (label : Label) (hcapped : Capped config watched)
    (hroom : LeavesRoom config watched label) : Capped config (watch config watched label) := by
  apply watch_cases label hcapped (fun _ => hcapped)
  intro task input point breaker' point' hlabel hpoint hmove
  rw [hlabel] at hroom
  exact capped_moved hcapped hroom hpoint hmove

/-- **The half-open cap.** In a run that never writes the transition over a half-open state, and never
checks a request when the count says that one more fits, no half-open period admits more than the limit. -/
theorem run_capped {labels : List Label}
    (h : Run.Follows (watch config) (LeavesRoom config) watchedStart labels) :
    (Run.final (watch config) watchedStart labels).1.shared.state = .halfOpen →
      (Run.final (watch config) watchedStart labels).2.admitted.length ≤ config.halfOpenMaxRequests.toNat := by
  have hcapped : Capped config (Run.final (watch config) watchedStart labels) := by
    apply h.invariant (Capped config) capped_step
    intro hstate
    cases hstate
  intro hstate
  obtain ⟨hcounted, hmax⟩ := hcapped hstate
  omega

theorem run_capped_three :
    (Run.final (watch (hairTrigger 3)) watchedStart (opens 0 0 ++ makesTransition 1 100 ++ asks 2 100)).2.admitted.length ≤
      (hairTrigger 3).halfOpenMaxRequests.toNat :=
  run_capped (by decide +kernel) (by decide)

/-- With a limit of one the request that makes the transition and the next one are both admitted. -/
theorem not_run_capped :
    ¬ ∀ (config : CircuitBreakerConfig) (labels : List Label),
      (Run.final (watch config) watchedStart labels).1.shared.state = .halfOpen →
        (Run.final (watch config) watchedStart labels).2.admitted.length ≤ config.halfOpenMaxRequests.toNat := by
  intro hall
  have hrun := hall (hairTrigger 1) (opens 0 0 ++ makesTransition 1 100 ++ asks 2 100) (by decide)
  revert hrun
  decide

end CircuitBreaker

end IrohRaft
