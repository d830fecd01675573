import IrohRaft.Proof.CircuitBreaker.Moves

/-!
# An open breaker and its failure time

State and failure time are written one after the other, and a success that closes the breaker clears the
time in a turn of its own. A failure that opens the breaker between the two loses its time: the breaker is
open, nothing is about to set the time again, and every request is rejected. A breaker is open without a
failure time and without anyone about to set it (`¬ Timed`) exactly after a turn that makes it so
(`KeepsTime`).
-/

namespace IrohRaft

namespace CircuitBreaker

variable {config : CircuitBreakerConfig} {breaker breaker' : CircuitBreaker} {tasks : List Point} {task : Nat}
  {point point' : Point} {input : Input} {now : Instant}

/-- Part of a handler is done, and part of it is still to do. -/
def Point.midway : Point → Bool
  | .allowState | .running | .forceOpen | .forceClose | .returned => false
  | _ => true

/-- The task's next turn sets the failure time. -/
def Point.setsTime : Point → Bool
  | .failureTime _ | .forceOpenTime _ => true
  | _ => false

theorem midway_of_setsTime (h : point.setsTime = true) : point.midway = true := by
  cases point with
  | failureTime _ | forceOpenTime _ => rfl
  | _ => exact nomatch h

def NoHandlerMidway (tasks : List Point) : Prop := ∀ point ∈ tasks, point.midway = false

def SetsTime (tasks : List Point) : Prop := ∃ point ∈ tasks, point.setsTime = true

instance (tasks : List Point) : Decidable (NoHandlerMidway tasks) := by
  dsimp only [NoHandlerMidway]
  infer_instance

instance (tasks : List Point) : Decidable (SetsTime tasks) := by
  dsimp only [SetsTime]
  infer_instance

/-- An open breaker has its failure time, or some task is about to set it. -/
def Timed (system : System) : Prop :=
  system.shared.state = .opened → system.shared.lastFailureTime = none → SetsTime system.tasks

/-- The failure time of an open breaker is cleared only, and a breaker without one is opened only, while
some task is about to set it; and the last such task of an open breaker without one is not dropped. -/
def KeepsTime (system : System) : Label → Prop
  | .turn task (.proceed _) =>
      (system.tasks[task]? = some .clearFailureTime → .allowTransition ∉ system.tasks → system.shared.state = .opened →
        SetsTime system.tasks) ∧
      (system.tasks[task]? = some .failureOpen → system.shared.lastFailureTime = none → SetsTime system.tasks)
  | .turn task .cancel =>
      system.shared.state = .opened → system.shared.lastFailureTime = none → SetsTime (system.tasks.set task .returned)
  | _ => True

instance (system : System) (label : Label) : Decidable (KeepsTime system label) :=
  match label with
  | .turn _ (.proceed _) => by
      dsimp only [KeepsTime]
      infer_instance
  | .turn _ (.complete _ _) => isTrue trivial
  | .turn _ .cancel => by
      dsimp only [KeepsTime]
      infer_instance
  | .spawn _ => isTrue trivial

/-! ### Moves -/

theorem setsTime_set (hpoint : tasks[task]? = some point) (hnot : point.setsTime = false) (h : SetsTime tasks) :
    SetsTime (tasks.set task point') := by
  refine Tasks.exists_mem_set hpoint ?_ h
  rw [hnot]
  exact Bool.false_ne_true

theorem setsTime_of_set (hnot : point'.setsTime = false) (h : SetsTime (tasks.set task point')) : SetsTime tasks := by
  obtain ⟨there, hthere, hsets⟩ := h
  cases List.mem_or_eq_of_mem_set hthere with
  | inl hmem => exact ⟨there, hmem, hsets⟩
  | inr hself =>
      rw [hself, hnot] at hsets
      exact nomatch hsets

/-- What a turn of a task that waits for a lock does to the state and the failure time. -/
inductive TimeMove (breaker : CircuitBreaker) (tasks : List Point) : Point → CircuitBreaker → Point → Prop where
  | sets (point : Point) (breaker' : CircuitBreaker) (point' : Point) (time : breaker'.lastFailureTime ≠ none)
      (others : point ≠ .clearFailureTime ∧ point ≠ .failureOpen) : TimeMove breaker tasks point breaker' point'
  | clears (unlocked : .allowTransition ∉ tasks) :
      TimeMove breaker tasks .clearFailureTime { breaker with lastFailureTime := none } .clearFailures
  | opens : TimeMove breaker tasks .failureOpen { breaker with state := .opened } .returned
  | forces (now : Instant) : TimeMove breaker tasks .forceOpen { breaker with state := .opened } (.forceOpenTime now)
  | leaves (point : Point) (breaker' : CircuitBreaker) (point' : Point) (state : breaker'.state ≠ .opened)
      (others : point ≠ .clearFailureTime ∧ point ≠ .failureOpen) : TimeMove breaker tasks point breaker' point'
  | same (point : Point) (breaker' : CircuitBreaker) (point' : Point) (state : breaker'.state = breaker.state)
      (time : breaker'.lastFailureTime = breaker.lastFailureTime)
      (setters : point.setsTime = false ∧ point'.setsTime = false)
      (others : point ≠ .clearFailureTime ∧ point ≠ .failureOpen) : TimeMove breaker tasks point breaker' point'

theorem Turn.timeMove (h : Turn config breaker tasks now point breaker' point') :
    TimeMove breaker tasks point breaker' point' := by
  cases h with
  | failureTime failed _ | forceOpenTime failed _ => exact .sets _ _ _ (by simp) (by simp)
  | clearFailureTime hunlocked => exact .clears hunlocked
  | failureOpen => exact .opens
  | forceOpen => exact .forces now
  | transition | close | forceClose => exact .leaves _ _ _ (by simp) (by decide)
  | failurePush failed => exact .same _ _ _ rfl rfl ⟨rfl, rfl⟩ (by simp)
  | _ => exact .same _ _ _ rfl rfl ⟨rfl, rfl⟩ (by decide)

theorem timed_proceed (htimed : Timed ⟨breaker, tasks⟩) (hpoint : tasks[task]? = some point)
    (hmove : TimeMove breaker tasks point breaker' point') :
    KeepsTime ⟨breaker, tasks⟩ (.turn task (.proceed now)) ↔ Timed ⟨breaker', tasks.set task point'⟩ := by
  have hconditions : KeepsTime ⟨breaker, tasks⟩ (.turn task (.proceed now)) ↔
      (point = .clearFailureTime → .allowTransition ∉ tasks → breaker.state = .opened → SetsTime tasks) ∧
        (point = .failureOpen → breaker.lastFailureTime = none → SetsTime tasks) := by
    show (tasks[task]? = _ → _) ∧ (tasks[task]? = _ → _) ↔ _
    rw [hpoint, Option.some_inj, Option.some_inj]
  have hfree (h : point ≠ .clearFailureTime ∧ point ≠ .failureOpen) :
      KeepsTime ⟨breaker, tasks⟩ (.turn task (.proceed now)) :=
    hconditions.mpr ⟨fun hclear => absurd hclear h.1, fun hopen => absurd hopen h.2⟩
  cases hmove with
  | sets _ _ _ htime hothers => exact ⟨fun _ _ hnone => absurd hnone htime, fun _ => hfree hothers⟩
  | leaves _ _ _ hstate hothers => exact ⟨fun _ hopened => absurd hopened hstate, fun _ => hfree hothers⟩
  | forces now' =>
      exact ⟨fun _ _ _ => ⟨.forceOpenTime now', Tasks.mem_set_self hpoint, rfl⟩, fun _ => hfree ⟨nofun, nofun⟩⟩
  | same _ _ _ hstate htime hsetters hothers =>
      refine ⟨fun _ hopened hnone => ?_, fun _ => hfree hothers⟩
      exact setsTime_set hpoint hsetters.1 (htimed (hstate ▸ hopened) (htime ▸ hnone))
  | clears hunlocked =>
      rw [hconditions]
      apply Iff.intro
      · intro h hopened _
        exact setsTime_set hpoint rfl (h.1 rfl hunlocked hopened)
      · intro h
        exact ⟨fun _ _ hopened => setsTime_of_set rfl (h hopened rfl), nofun⟩
  | opens =>
      rw [hconditions]
      apply Iff.intro
      · intro h _ hnone
        exact setsTime_set hpoint rfl (h.2 rfl hnone)
      · intro h
        exact ⟨nofun, fun _ hnone => setsTime_of_set rfl (h rfl hnone)⟩

/-- A turn that is lost breaks nothing. -/
theorem keepsTime_of_lost (hpoint : tasks[task]? = some point) (hlost : proceed config breaker tasks now point = none) :
    KeepsTime ⟨breaker, tasks⟩ (.turn task (.proceed now)) := by
  refine ⟨fun hclear hunlocked _ => ?_, fun hopen _ => ?_⟩
  · rw [Option.some.inj (hpoint.symm.trans hclear), proceed, if_neg hunlocked] at hlost
    simp at hlost
  · rw [Option.some.inj (hpoint.symm.trans hopen), proceed] at hlost
    simp at hlost

theorem timed_complete {succeeded : Bool} (htimed : Timed ⟨breaker, tasks⟩) (hpoint : tasks[task]? = some point)
    (hmove : advance config breaker tasks point (.complete succeeded now) = some (breaker', point')) :
    Timed ⟨breaker', tasks.set task point'⟩ := by
  rw [advance] at hmove
  split at hmove
  · next hrunning =>
      cases hmove
      rw [hrunning] at hpoint
      exact fun hopened hnone => setsTime_set hpoint rfl (htimed hopened hnone)
  · simp at hmove

/-- A step keeps an open breaker timed exactly under the condition. -/
theorem keepsTime_iff (system : System) (label : Label) (htimed : Timed system) :
    KeepsTime system label ↔ Timed (Tasks.step (program config) system label) := by
  cases label with
  | spawn method =>
      refine ⟨fun _ hopened hnone => ?_, fun _ => trivial⟩
      obtain ⟨point, hpoint, hsets⟩ := htimed hopened hnone
      exact ⟨point, List.mem_append_left _ hpoint, hsets⟩
  | turn task input =>
      cases hpoint : system.tasks[task]? with
      | none =>
          rw [Tasks.step_turn_of_absent (program config) input hpoint]
          refine ⟨fun _ => htimed, fun _ => ?_⟩
          cases input with
          | proceed now => simp [KeepsTime, hpoint]
          | complete succeeded now => trivial
          | cancel =>
              show _ → _ → SetsTime (system.tasks.set task .returned)
              rw [List.set_eq_of_length_le (List.getElem?_eq_none_iff.mp hpoint)]
              exact htimed
      | some point =>
          cases input with
          | cancel =>
              have hmove : (program config).advance system.shared system.tasks point .cancel = some (system.shared, .returned) :=
                rfl
              rw [Tasks.step_turn_of_move (program config) .cancel hpoint hmove]
              exact Iff.rfl
          | proceed now =>
              cases hmove : proceed config system.shared system.tasks now point with
              | none =>
                  rw [Tasks.step_turn_of_lost (program config) (.proceed now) hpoint hmove]
                  exact ⟨fun _ => htimed, fun _ => keepsTime_of_lost hpoint hmove⟩
              | some moved =>
                  rw [Tasks.step_turn_of_move (program config) (.proceed now) hpoint hmove]
                  exact timed_proceed htimed hpoint (turn_of_proceed hmove).timeMove
          | complete succeeded now =>
              refine ⟨fun _ => ?_, fun _ => trivial⟩
              cases hmove : advance config system.shared system.tasks point (.complete succeeded now) with
              | none =>
                  rw [Tasks.step_turn_of_lost (program config) (.complete succeeded now) hpoint hmove]
                  exact htimed
              | some moved =>
                  rw [Tasks.step_turn_of_move (program config) (.complete succeeded now) hpoint hmove]
                  exact timed_complete htimed hpoint hmove

/-! ### Runs -/

/-- A run meets the condition exactly if nothing it comes to is open, without a failure time, and without
anyone about to set it. -/
theorem follows_keepsTime_iff (config : CircuitBreakerConfig) (labels : List Label) :
    Run.Follows (Tasks.step (program config)) KeepsTime start labels ↔
      ∀ done, done <+: labels → Timed (Run.final (Tasks.step (program config)) start done) :=
  Run.follows_iff_forall_prefix Timed keepsTime_iff fun hopened => absurd hopened (by decide)

/-- **An open breaker has its failure time.** In a run that keeps it, whenever no handler is midway and the
breaker is open, the failure time is set. -/
theorem opened_timed {config : CircuitBreakerConfig} {labels : List Label}
    (h : Run.Follows (Tasks.step (program config)) KeepsTime start labels)
    (hmidway : NoHandlerMidway (Run.final (Tasks.step (program config)) start labels).tasks) :
    (Run.final (Tasks.step (program config)) start labels).shared.state = .opened →
      (Run.final (Tasks.step (program config)) start labels).shared.lastFailureTime ≠ none := by
  intro hopened hnone
  have htimed := (follows_keepsTime_iff config labels).mp h labels (List.prefix_refl labels)
  obtain ⟨point, hpoint, hsets⟩ := htimed hopened hnone
  exact Bool.false_ne_true ((hmidway point hpoint).symm.trans (midway_of_setsTime hsets))

theorem opened_timed_failure :
    (Run.final (Tasks.step (program (hairTrigger 1))) start (opens 0 7)).shared.state = .opened ∧
      (Run.final (Tasks.step (program (hairTrigger 1))) start (opens 0 7)).shared.lastFailureTime ≠ none :=
  ⟨by decide, opened_timed (by decide) (by decide) (by decide)⟩

/-- A success closes the half-open breaker, a failure opens it again, and then the success clears the time. -/
def clearsReopened : List Label :=
  opens 0 0 ++ makesTransition 1 100 ++ asks 2 100 ++
    [.turn 1 (.complete true 101), .turn 1 (.proceed 101), .turn 1 (.proceed 101), .turn 2 (.complete false 102)] ++
    List.replicate 6 (.turn 2 (.proceed 102)) ++ List.replicate 2 (.turn 1 (.proceed 103))

theorem not_opened_timed :
    ¬ ∀ (config : CircuitBreakerConfig) (labels : List Label),
      NoHandlerMidway (Run.final (Tasks.step (program config)) start labels).tasks →
        (Run.final (Tasks.step (program config)) start labels).shared.state = .opened →
          (Run.final (Tasks.step (program config)) start labels).shared.lastFailureTime ≠ none := by
  intro hall
  exact hall (hairTrigger 3) clearsReopened (by decide) (by decide) (by decide)

end CircuitBreaker

end IrohRaft
