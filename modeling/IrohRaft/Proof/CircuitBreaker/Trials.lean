import IrohRaft.Proof.CircuitBreaker.Moves

/-!
# The trial requests of a half-open breaker

A half-open breaker admits some number of trial requests and never gives an admission back. It stays
half-open until enough of them succeed or one fails, so it is stuck once all are spent: when callers were
dropped after they were admitted, or when it takes more successes than there are trials. A `Trial` is the
record of the requests admitted since the counters were last reset; as long as the calls dropped and the
successes needed fit in the trials (`Spares`), the last trial closes or opens the breaker.
-/

namespace IrohRaft

namespace CircuitBreaker

variable {config : CircuitBreakerConfig} {breaker breaker' : CircuitBreaker} {tasks : List Point} {task : Nat}
  {point point' : Point} {input : Input} {now : Instant}

/-- The calls admitted since the counters were reset that have yet to report, and how many such calls were
dropped. -/
structure Trial where
  pending : List Nat
  dropped : Nat
  deriving DecidableEq

def Trial.moved (task : Nat) (point : Point) (input : Input) (point' : Point) (trial : Trial) : Trial :=
  match point, point' with
  | .allowTransition, .running => ⟨[task], 0⟩
  | .allowState, .running => { trial with pending := trial.pending ++ [task] }
  | _, .returned =>
      if task ∈ trial.pending then
        { pending := trial.pending.erase task
          dropped := if input = .cancel then trial.dropped + 1 else trial.dropped }
      else trial
  | _, _ => trial

def Trial.record (before : System) (label : Label) (after : System) (trial : Trial) : Trial :=
  match label with
  | .spawn _ => trial
  | .turn task input =>
      match before.tasks[task]?, after.tasks[task]? with
      | some point, some point' => trial.moved task point input point'
      | _, _ => trial

/-- A breaker, its tasks, and the record of the trial. -/
abbrev Tried := System × Trial

def tryOut (config : CircuitBreakerConfig) : Tried → Label → Tried := Tasks.recording (program config) Trial.record

def triedStart : Tried := (start, ⟨[], 0⟩)

/-- The successes needed and the calls dropped fit in the trial requests, of which the one that makes the
transition is not counted; and the successes counted fit in a `u32`. -/
def Spares (config : CircuitBreakerConfig) (tried : Tried) : Label → Prop
  | .turn task (.proceed _) =>
      (tried.1.tasks[task]? = some .allowTransition →
        config.successThreshold.toNat ≤ config.halfOpenMaxRequests.toNat + 1) ∧
      (tried.1.tasks[task]? = some .successState → tried.1.shared.state = .halfOpen →
        tried.1.shared.halfOpenSuccesses.toNat + 1 < 2 ^ 32)
  | .turn task .cancel =>
      tried.1.shared.state = .halfOpen → task ∈ tried.2.pending →
        config.successThreshold.toNat + (tried.2.dropped + 1) ≤ config.halfOpenMaxRequests.toNat + 1
  | _ => True

instance (tried : Tried) (label : Label) : Decidable (Spares config tried label) :=
  match label with
  | .turn _ (.proceed _) => by
      dsimp only [Spares]
      infer_instance
  | .turn _ (.complete _ _) => isTrue trivial
  | .turn _ .cancel => by
      dsimp only [Spares]
      infer_instance
  | .spawn _ => isTrue trivial

/-! ### Moves -/

/-- An admitted call that has yet to report how its operation went. -/
def Point.reports : Point → Bool
  | .running | .successState | .successClose | .failureTime _ | .failurePush _ | .failureClean | .failureState
  | .failureOpen => true
  | _ => false

/-- What a turn does to the counters of a half-open breaker, and to a call that has yet to report. -/
inductive TrialMove (config : CircuitBreakerConfig) (breaker : CircuitBreaker) :
    Point → Input → CircuitBreaker → Point → Prop where
  | resets (now : Instant) :
      TrialMove config breaker .allowTransition (.proceed now)
        { breaker with state := .halfOpen, halfOpenRequests := 0, halfOpenSuccesses := 0 } .running
  | admits (now : Instant) (room : breaker.halfOpenRequests < config.halfOpenMaxRequests) :
      TrialMove config breaker .allowState (.proceed now)
        { breaker with halfOpenRequests := breaker.halfOpenRequests + 1 } .running
  | counts (now : Instant) (few : breaker.halfOpenSuccesses.toNat + 1 < 2 ^ 32 →
        breaker.halfOpenSuccesses.toNat + 1 < config.successThreshold.toNat) :
      TrialMove config breaker .successState (.proceed now)
        { breaker with halfOpenSuccesses := breaker.halfOpenSuccesses + 1 } .returned
  | decides (now : Instant) :
      TrialMove config breaker .successState (.proceed now)
        { breaker with halfOpenSuccesses := breaker.halfOpenSuccesses + 1 } .successClose
  | drops (point : Point) : TrialMove config breaker point .cancel breaker .returned
  | leaves (point : Point) (input : Input) (breaker' : CircuitBreaker) (point' : Point) (state : breaker'.state ≠ .halfOpen) :
      TrialMove config breaker point input breaker' point'
  | other (point : Point) (input : Input) (breaker' : CircuitBreaker) (point' : Point)
      (state : breaker'.state = breaker.state) (requests : breaker'.halfOpenRequests = breaker.halfOpenRequests)
      (successes : breaker'.halfOpenSuccesses = breaker.halfOpenSuccesses)
      (stays : point.reports = true → point'.reports = true) (entered : point = .allowState → point' ≠ .running)
      (reset : point ≠ .allowTransition) : TrialMove config breaker point input breaker' point'

theorem TrialMove.of_same (hstate : breaker'.state = breaker.state)
    (hrequests : breaker'.halfOpenRequests = breaker.halfOpenRequests)
    (hsuccesses : breaker'.halfOpenSuccesses = breaker.halfOpenSuccesses)
    (hstays : point.reports = true → point'.reports = true) (hentered : point ≠ .allowState)
    (hreset : point ≠ .allowTransition) : TrialMove config breaker point input breaker' point' :=
  .other _ _ _ _ hstate hrequests hsuccesses hstays (fun heq => absurd heq hentered) hreset

theorem Turn.trialMove (h : Turn config breaker tasks now point breaker' point') :
    TrialMove config breaker point (.proceed now) breaker' point' := by
  cases h with
  | enter _ hroom => exact .admits now hroom
  | transition => exact .resets now
  | decide _ _ _ => exact .decides now
  | count _ hfew => exact .counts now hfew
  | pass hstate | asksTime hstate | failureClosed hstate | failureOpened hstate =>
      exact .leaves _ _ _ _ (by rw [hstate]; decide)
  | uncounted hother => exact .leaves _ _ _ _ hother
  | close | forceClose | failureOpen | forceOpen => exact .leaves _ _ _ _ (by simp)
  | full _ _ => exact .other _ _ _ _ rfl rfl rfl (by simp [Point.reports]) (by simp) (by simp)
  | failureTime _ _ | failurePush _ | failureClean | failureHalfOpen _ =>
      exact .of_same rfl rfl rfl (fun _ => rfl) (by simp) (by simp)
  | _ => exact .of_same rfl rfl rfl (by simp [Point.reports]) (by simp) (by simp)

theorem trialMove_of_advance (h : advance config breaker tasks point input = some (breaker', point')) :
    TrialMove config breaker point input breaker' point' := by
  cases input with
  | proceed now => exact (turn_of_proceed h).trialMove
  | cancel =>
      cases h
      exact .drops point
  | complete succeeded now =>
      rw [advance] at h
      split at h
      · next hrunning =>
          cases h
          rw [hrunning]
          refine .of_same rfl rfl rfl (fun _ => ?_) (by simp) (by simp)
          split <;> rfl
      · simp at h

/-! ### Accounts -/

/-- Each trial request that was admitted is pending, was dropped, or has reported a success that was counted
without closing the breaker; and there are trials to spare. -/
structure Accounted (config : CircuitBreakerConfig) (tried : Tried) : Prop where
  nodup : tried.2.pending.Nodup
  reporting : ∀ task ∈ tried.2.pending, ∃ point, tried.1.tasks[task]? = some point ∧ point.reports = true
  spent : ∃ good, good ≤ tried.1.shared.halfOpenSuccesses.toNat ∧ good + 1 ≤ config.successThreshold.toNat ∧
    tried.1.shared.halfOpenRequests.toNat + 1 ≤ tried.2.pending.length + good + tried.2.dropped
  spare : config.successThreshold.toNat + tried.2.dropped ≤ config.halfOpenMaxRequests.toNat + 1

def AccountedWhileHalfOpen (config : CircuitBreakerConfig) (tried : Tried) : Prop :=
  tried.1.shared.state = .halfOpen → Accounted config tried

section

variable {trial : Trial}

theorem Trial.moved_returned (point : Point) (input : Input) : trial.moved task point input .returned =
    if task ∈ trial.pending then
      ⟨trial.pending.erase task, if input = .cancel then trial.dropped + 1 else trial.dropped⟩
    else trial := by
  cases point <;> rfl

theorem Trial.moved_other (input : Input) (hentered : point = .allowState → point' ≠ .running)
    (hreset : point ≠ .allowTransition) (hreturned : point' = .returned → task ∉ trial.pending) :
    trial.moved task point input point' = trial := by
  by_cases h : point' = .returned
  · rw [h, moved_returned, if_neg (hreturned h)]
  · unfold moved
    split
    · exact absurd rfl hreset
    · exact absurd rfl (hentered rfl)
    · exact absurd rfl h
    · rfl

/-- A pending call has yet to report, so a task at another point is not pending. -/
theorem Accounted.not_pending (h : Accounted config (⟨breaker, tasks⟩, trial)) (hpoint : tasks[task]? = some point)
    (hreports : point.reports = false) : task ∉ trial.pending := by
  intro hmem
  obtain ⟨there, hthere, htrue⟩ := h.reporting task hmem
  rw [Option.some.inj (hthere.symm.trans hpoint), hreports] at htrue
  exact nomatch htrue

theorem accounted_resets (hpositive : 1 ≤ config.successThreshold.toNat) (hrequests : breaker.halfOpenRequests = 0)
    (hfits : config.successThreshold.toNat ≤ config.halfOpenMaxRequests.toNat + 1) (hpoint : tasks[task]? = some .running) :
    Accounted config (⟨breaker, tasks⟩, ⟨[task], 0⟩) where
  nodup := List.pairwise_singleton _ task
  reporting := by
    intro other hother
    rw [List.mem_singleton.mp hother]
    exact ⟨.running, hpoint, rfl⟩
  spent := by
    refine ⟨0, Nat.zero_le _, hpositive, ?_⟩
    simp only [hrequests]
    exact Nat.le_refl 1
  spare := hfits

/-- An admitted request is pending. -/
theorem Accounted.admits (h : Accounted config (⟨breaker, tasks⟩, trial)) (hpoint : tasks[task]? = some .allowState)
    (hroom : breaker.halfOpenRequests < config.halfOpenMaxRequests) :
    Accounted config (⟨{ breaker with halfOpenRequests := breaker.halfOpenRequests + 1 }, tasks.set task .running⟩,
      { trial with pending := trial.pending ++ [task] }) where
  nodup := by
    refine List.nodup_append.mpr ⟨h.nodup, List.pairwise_singleton _ task, fun other hother last hlast => ?_⟩
    rw [List.mem_singleton.mp hlast]
    intro hself
    exact h.not_pending hpoint rfl (hself ▸ hother)
  reporting := by
    intro other hother
    cases List.mem_append.mp hother with
    | inl hmem => exact Tasks.forall_getElem?_set h.reporting hpoint (fun _ => rfl) other hmem
    | inr hlast =>
        rw [List.mem_singleton.mp hlast]
        exact ⟨.running, Tasks.getElem?_set_self hpoint, rfl⟩
  spent := by
    obtain ⟨good, hsuccesses, hfew, hspent⟩ := h.spent
    have hlt : breaker.halfOpenRequests.toNat < config.halfOpenMaxRequests.toNat := hroom
    have hmax := config.halfOpenMaxRequests.toNat_lt
    refine ⟨good, hsuccesses, hfew, ?_⟩
    simp only [UInt32.toNat_add, UInt32.toNat_one, List.length_append, List.length_singleton]
    have hspent' : breaker.halfOpenRequests.toNat + 1 ≤ trial.pending.length + good + trial.dropped := hspent
    omega
  spare := h.spare

/-- A move after which the call still has to report, or was not pending. -/
theorem Accounted.moved (h : Accounted config (⟨breaker, tasks⟩, trial)) (hpoint : tasks[task]? = some point)
    (hrequests : breaker'.halfOpenRequests = breaker.halfOpenRequests)
    (hsuccesses : breaker.halfOpenSuccesses.toNat ≤ breaker'.halfOpenSuccesses.toNat)
    (hstays : point.reports = true → point'.reports = true) :
    Accounted config (⟨breaker', tasks.set task point'⟩, trial) where
  nodup := h.nodup
  reporting := Tasks.forall_getElem?_set h.reporting hpoint hstays
  spent := by
    obtain ⟨good, hgood, hfew, hspent⟩ := h.spent
    exact ⟨good, Nat.le_trans hgood hsuccesses, hfew, hrequests ▸ hspent⟩
  spare := h.spare

/-- A call that returns is no longer pending; if it was, the accounts say why. -/
theorem Accounted.returned (h : Accounted config (⟨breaker, tasks⟩, trial)) (input : Input)
    (hrequests : breaker'.halfOpenRequests = breaker.halfOpenRequests)
    (hsuccesses : breaker.halfOpenSuccesses.toNat ≤ breaker'.halfOpenSuccesses.toNat)
    (hwhy : task ∈ trial.pending →
      (input = .cancel ∧ config.successThreshold.toNat + (trial.dropped + 1) ≤ config.halfOpenMaxRequests.toNat + 1) ∨
      (input ≠ .cancel ∧ breaker'.halfOpenSuccesses.toNat = breaker.halfOpenSuccesses.toNat + 1 ∧
        breaker'.halfOpenSuccesses.toNat < config.successThreshold.toNat)) :
    Accounted config (⟨breaker', tasks.set task .returned⟩, trial.moved task point input .returned) := by
  have hothers : ∀ other ∈ trial.pending, other ≠ task →
      ∃ there, (tasks.set task .returned)[other]? = some there ∧ there.reports = true := by
    intro other hother hne
    obtain ⟨there, hthere, hreports⟩ := h.reporting other hother
    exact ⟨there, by rw [List.getElem?_set_ne (Ne.symm hne), hthere], hreports⟩
  obtain ⟨good, hgood, hfew, hspent⟩ := h.spent
  have hspent : breaker.halfOpenRequests.toNat + 1 ≤ trial.pending.length + good + trial.dropped := hspent
  have hgood : good ≤ breaker.halfOpenSuccesses.toNat := hgood
  rw [Trial.moved_returned]
  by_cases hmem : task ∈ trial.pending
  · have hlength := List.length_erase_of_mem hmem
    have hpositive := List.length_pos_of_mem hmem
    rw [if_pos hmem]
    have hkept (dropped : Nat) (hspare : config.successThreshold.toNat + dropped ≤ config.halfOpenMaxRequests.toNat + 1)
        (hgood' : ∃ good', good' ≤ breaker'.halfOpenSuccesses.toNat ∧ good' + 1 ≤ config.successThreshold.toNat ∧
          good' + dropped = good + trial.dropped + 1) :
        Accounted config (⟨breaker', tasks.set task .returned⟩, ⟨trial.pending.erase task, dropped⟩) := by
      obtain ⟨good', hsuccesses', hfew', hsum⟩ := hgood'
      exact {
        nodup := h.nodup.erase task
        reporting := fun other hother => by
          have hother := (h.nodup.mem_erase_iff).mp hother
          exact hothers other hother.2 hother.1
        spent := by
          refine ⟨good', hsuccesses', hfew', ?_⟩
          simp only [hrequests]
          omega
        spare := hspare }
    cases hwhy hmem with
    | inl hdropped =>
        rw [if_pos hdropped.1]
        exact hkept _ hdropped.2 ⟨good, Nat.le_trans hgood hsuccesses, hfew, by omega⟩
    | inr hcounted =>
        rw [if_neg hcounted.1]
        exact hkept _ h.spare ⟨good + 1, by omega, by omega, by omega⟩
  · rw [if_neg hmem]
    exact {
      nodup := h.nodup
      reporting := fun other hother => hothers other hother fun hself => hmem (hself ▸ hother)
      spent := ⟨good, Nat.le_trans hgood hsuccesses, hfew, hrequests ▸ hspent⟩
      spare := h.spare }

end

/-! ### Steps -/

theorem accounted_moved {trial : Trial} (hpositive : 1 ≤ config.successThreshold.toNat)
    (haccounted : AccountedWhileHalfOpen config (⟨breaker, tasks⟩, trial))
    (hspares : Spares config (⟨breaker, tasks⟩, trial) (.turn task input)) (hpoint : tasks[task]? = some point)
    (hmove : TrialMove config breaker point input breaker' point') :
    AccountedWhileHalfOpen config (⟨breaker', tasks.set task point'⟩, trial.moved task point input point') := by
  intro hstate'
  cases hmove with
  | resets now => exact accounted_resets hpositive rfl (hspares.1 hpoint) (Tasks.getElem?_set_self hpoint)
  | admits now hroom => exact (haccounted hstate').admits hpoint hroom
  | leaves _ _ _ _ hleft => exact absurd hstate' hleft
  | drops _ =>
      exact (haccounted hstate').returned .cancel rfl (Nat.le_refl _) fun hmem => .inl ⟨rfl, hspares hstate' hmem⟩
  | counts now hfew =>
      have hfits := hspares.2 hpoint hstate'
      have hnext : (breaker.halfOpenSuccesses + 1).toNat = breaker.halfOpenSuccesses.toNat + 1 := by
        rw [UInt32.toNat_add, UInt32.toNat_one]
        exact Nat.mod_eq_of_lt hfits
      refine (haccounted hstate').returned (.proceed now) rfl ?_ fun _ => .inr ⟨nofun, hnext, ?_⟩
      · rw [hnext]
        exact Nat.le_succ _
      · rw [hnext]
        exact hfew hfits
  | decides now =>
      have hfits := hspares.2 hpoint hstate'
      refine (haccounted hstate').moved hpoint rfl ?_ fun _ => rfl
      rw [UInt32.toNat_add, UInt32.toNat_one]
      exact Nat.le_of_lt (Nat.lt_of_lt_of_eq (Nat.lt_succ_self _) (Nat.mod_eq_of_lt hfits).symm)
  | other _ _ _ _ hstate hrequests hsuccesses hstays hentered hreset =>
      have hbefore := haccounted (hstate ▸ hstate')
      rw [Trial.moved_other input hentered hreset]
      · exact hbefore.moved hpoint hrequests (Nat.le_of_eq (congrArg UInt32.toNat hsuccesses.symm)) hstays
      · intro hreturned
        refine hbefore.not_pending hpoint (Bool.eq_false_iff.mpr fun hreports => ?_)
        have hafter := hstays hreports
        rw [hreturned] at hafter
        exact nomatch hafter

theorem Trial.moved_lost {trial : Trial} (h : point = .returned → task ∉ trial.pending) :
    trial.moved task point input point = trial := by
  cases point with
  | returned => rw [moved_returned, if_neg (h rfl)]
  | _ => rfl

theorem accounted_step (hpositive : 1 ≤ config.successThreshold.toNat) (tried : Tried) (label : Label)
    (haccounted : AccountedWhileHalfOpen config tried) (hspares : Spares config tried label) :
    AccountedWhileHalfOpen config (tryOut config tried label) := by
  cases label with
  | spawn method =>
      intro hstate
      have hbefore := haccounted hstate
      exact {
        nodup := hbefore.nodup
        reporting := fun other hother => by
          obtain ⟨point, hpoint, hreports⟩ := hbefore.reporting other hother
          exact ⟨point, Tasks.getElem?_append_of_some hpoint, hreports⟩
        spent := hbefore.spent
        spare := hbefore.spare }
  | turn task input =>
      cases hpoint : tried.1.tasks[task]? with
      | none =>
          have hsame : tryOut config tried (.turn task input) = tried := by
            rw [tryOut, Tasks.recording, Tasks.step_turn_of_absent _ _ hpoint]
            simp only [Trial.record, hpoint]
          rw [hsame]
          exact haccounted
      | some point =>
          cases hmove : advance config tried.1.shared tried.1.tasks point input with
          | none =>
              have hlost : tryOut config tried (.turn task input) = (tried.1, tried.2.moved task point input point) := by
                rw [tryOut, Tasks.recording, Tasks.step_turn_of_lost (program config) input hpoint hmove]
                simp only [Trial.record, hpoint]
              rw [hlost]
              intro hstate
              rw [Trial.moved_lost]
              · exact haccounted hstate
              · intro hreturned
                exact (haccounted hstate).not_pending hpoint (by rw [hreturned]; rfl)
          | some moved =>
              have hmoved : tryOut config tried (.turn task input) =
                  (⟨moved.1, tried.1.tasks.set task moved.2⟩, tried.2.moved task point input moved.2) := by
                rw [tryOut, Tasks.recording, Tasks.step_turn_of_move (program config) input hpoint hmove]
                simp only [Trial.record, hpoint, Tasks.getElem?_set_self hpoint]
              rw [hmoved]
              exact accounted_moved hpositive haccounted hspares hpoint (trialMove_of_advance hmove)

/-! ### Runs -/

def NoCallInFlight (tasks : List Point) : Prop := ∀ point ∈ tasks, point.reports = false

instance (tasks : List Point) : Decidable (NoCallInFlight tasks) := by
  dsimp only [NoCallInFlight]
  infer_instance

/-- The next call, if it takes its turns alone at this time, comes to run its operation. -/
def Admits (config : CircuitBreakerConfig) (system : System) (now : Instant) : Prop :=
  (Run.final (Tasks.step (program config)) system
    (.spawn .call :: List.replicate 3 (.turn system.tasks.length (.proceed now)))).tasks[system.tasks.length]? = some .running

theorem admits_of_room {system : System} (hstate : system.shared.state = .halfOpen)
    (hroom : system.shared.halfOpenRequests < config.halfOpenMaxRequests) (now : Instant) : Admits config system now := by
  have hasked : (system.tasks ++ [Point.allowState])[system.tasks.length]? = some .allowState := List.getElem?_concat_length
  have hadmitted : (program config).advance system.shared (system.tasks ++ [.allowState]) .allowState (.proceed now) =
      some ({ system.shared with halfOpenRequests := system.shared.halfOpenRequests + 1 }, .running) := by
    show proceed config system.shared (system.tasks ++ [.allowState]) now .allowState = _
    simp only [proceed, hstate, if_pos hroom]
  have hrunning : ((system.tasks ++ [Point.allowState]).set system.tasks.length .running)[system.tasks.length]? =
      some .running := Tasks.getElem?_set_self hasked
  have hstays (shared : CircuitBreaker) (tasks : List Point) (h : tasks[system.tasks.length]? = some .running) :
      Tasks.step (program config) ⟨shared, tasks⟩ (.turn system.tasks.length (.proceed now)) = ⟨shared, tasks⟩ :=
    Tasks.step_turn_of_lost (program config) (.proceed now) h rfl
  have hspawn : Tasks.step (program config) system (.spawn .call) = ⟨system.shared, system.tasks ++ [Point.allowState]⟩ := rfl
  have hturn : Tasks.step (program config) ⟨system.shared, system.tasks ++ [Point.allowState]⟩
      (.turn system.tasks.length (.proceed now)) =
        ⟨{ system.shared with halfOpenRequests := system.shared.halfOpenRequests + 1 },
          (system.tasks ++ [Point.allowState]).set system.tasks.length .running⟩ :=
    Tasks.step_turn_of_move (program config) (.proceed now) hasked hadmitted
  simp only [Admits, List.replicate, Run.final_cons, Run.final_nil, hspawn, hturn, hstays _ _ hrunning]
  exact hrunning

/-- **No wedge.** While the successes needed and the calls dropped fit in the trial requests, a half-open
breaker without an admitted call in flight admits the next request at once. -/
theorem halfOpen_admits {config : CircuitBreakerConfig} {labels : List Label} (hpositive : 1 ≤ config.successThreshold.toNat)
    (h : Run.Follows (tryOut config) (Spares config) triedStart labels)
    (hidle : NoCallInFlight (Run.final (tryOut config) triedStart labels).1.tasks) :
    (Run.final (tryOut config) triedStart labels).1.shared.state = .halfOpen →
      ∀ now, Admits config (Run.final (tryOut config) triedStart labels).1 now := by
  intro hstate
  have haccounted : AccountedWhileHalfOpen config (Run.final (tryOut config) triedStart labels) := by
    apply h.invariant (AccountedWhileHalfOpen config) (accounted_step hpositive)
    intro hhalfOpen
    exact nomatch hhalfOpen
  have hall := haccounted hstate
  have hempty : (Run.final (tryOut config) triedStart labels).2.pending = [] := by
    apply List.eq_nil_iff_forall_not_mem.mpr
    intro task htask
    obtain ⟨point, hpoint, hreports⟩ := hall.reporting task htask
    rw [hidle point (List.mem_of_getElem? hpoint)] at hreports
    exact nomatch hreports
  obtain ⟨good, hgood, hfew, hspent⟩ := hall.spent
  have hspare := hall.spare
  rw [hempty, List.length_nil] at hspent
  exact admits_of_room hstate (UInt32.lt_iff_toNat_lt.mpr (by omega))

/-- A request that is dropped after it was admitted is made up for by one more trial. -/
theorem halfOpen_admits_dropped :
    let run := opens 0 0 ++ makesTransition 1 100 ++ [.turn 1 .cancel]
    (Run.final (tryOut (hairTrigger 1)) triedStart run).1.shared.state = .halfOpen →
      ∀ now, Admits (hairTrigger 1) (Run.final (tryOut (hairTrigger 1)) triedStart run).1 now :=
  halfOpen_admits (by decide) (by decide) (by decide)

/-! ### The wedge -/

/-- The trials are spent, and nobody is left to report. -/
structure Wedged (config : CircuitBreakerConfig) (system : System) : Prop where
  state : system.shared.state = .halfOpen
  spent : config.halfOpenMaxRequests ≤ system.shared.halfOpenRequests
  idle : ∀ point ∈ system.tasks, point = .allowState ∨ point = .returned

theorem wedged_move (h : Wedged config ⟨breaker, tasks⟩) (hpoint : tasks[task]? = some point)
    (hmove : advance config breaker tasks point input = some (breaker', point')) :
    breaker' = breaker ∧ point' = .returned := by
  have hidle := h.idle point (List.mem_of_getElem? hpoint)
  cases input with
  | cancel =>
      cases hmove
      exact ⟨rfl, rfl⟩
  | complete succeeded now =>
      cases hidle with
      | inl hasks => simp [hasks, advance] at hmove
      | inr hreturned => simp [hreturned, advance] at hmove
  | proceed now =>
      cases hidle with
      | inl hasks =>
          rw [hasks] at hmove
          have hstate : breaker.state = .halfOpen := h.state
          have hspent : ¬ breaker.halfOpenRequests < config.halfOpenMaxRequests := UInt32.not_lt.mpr h.spent
          simp only [advance, proceed, hstate, if_neg hspent] at hmove
          cases hmove
          exact ⟨rfl, rfl⟩
      | inr hreturned => simp [hreturned, advance, proceed] at hmove

/-- No call gets a wedged breaker out of its state, or is admitted by it. -/
theorem wedged_step {system : System} (h : Wedged config system) {label : Label}
    (hcalls : ∀ method, label = .spawn method → method = .call) :
    Wedged config (Tasks.step (program config) system label) := by
  cases label with
  | spawn method =>
      refine ⟨h.state, h.spent, fun point hpoint => ?_⟩
      cases List.mem_append.mp hpoint with
      | inl hmem => exact h.idle point hmem
      | inr hlast =>
          left
          rw [List.mem_singleton.mp hlast, hcalls method rfl]
          rfl
  | turn task input =>
      cases Tasks.step_turn_cases (program config) system task input with
      | inl hlost =>
          rw [hlost]
          exact h
      | inr hmoved =>
          obtain ⟨point, breaker', point', hpoint, hmove, hstep⟩ := hmoved
          obtain ⟨hbreaker, hreturned⟩ := wedged_move h hpoint hmove
          rw [hstep, hbreaker, hreturned]
          refine ⟨h.state, h.spent, fun there hthere => ?_⟩
          cases List.mem_or_eq_of_mem_set hthere with
          | inl hmem => exact h.idle there hmem
          | inr hself => exact .inr hself

theorem wedged_run {system : System} (h : Wedged config system) {labels : List Label}
    (hcalls : ∀ label ∈ labels, ∀ method, label = .spawn method → method = .call) :
    Wedged config (Run.final (Tasks.step (program config)) system labels) :=
  Run.final_invariant (Wedged config) (fun label hlabel _ hwedged => wedged_step hwedged (hcalls label hlabel)) h

theorem Wedged.not_admits {system : System} (h : Wedged config system) (now : Instant) : ¬ Admits config system now := by
  intro hadmits
  have hcalls : ∀ label ∈ (.spawn .call :: List.replicate 3 (.turn system.tasks.length (.proceed now)) : List Label),
      ∀ method, label = .spawn method → method = .call := by
    simp
  have hstill := wedged_run h hcalls
  cases hstill.idle .running (List.mem_of_getElem? hadmits) with
  | inl hasks => exact nomatch hasks
  | inr hreturned => exact nomatch hreturned

/-- Two callers are admitted, one by making the transition, and both are dropped. -/
def dropsBoth : List Label :=
  opens 0 0 ++ makesTransition 1 100 ++ asks 2 100 ++ [.turn 1 .cancel, .turn 2 .cancel]

/-- A half-open breaker without a call in flight that rejects every future request, with every threshold and
limit equal to one. -/
theorem not_halfOpen_admits :
    ¬ ∀ (config : CircuitBreakerConfig) (labels : List Label), 1 ≤ config.failureThreshold.toNat →
      1 ≤ config.successThreshold.toNat → 1 ≤ config.halfOpenMaxRequests.toNat →
        NoCallInFlight (Run.final (tryOut config) triedStart labels).1.tasks →
          (Run.final (tryOut config) triedStart labels).1.shared.state = .halfOpen →
            ∃ now, Admits config (Run.final (tryOut config) triedStart labels).1 now := by
  intro hall
  obtain ⟨now, hadmits⟩ := hall (hairTrigger 1) dropsBoth (by decide) (by decide) (by decide) (by decide) (by decide)
  have hwedged : Wedged (hairTrigger 1) (Run.final (tryOut (hairTrigger 1)) triedStart dropsBoth).1 :=
    ⟨by decide, by decide, by decide⟩
  exact hwedged.not_admits now hadmits

end CircuitBreaker

end IrohRaft
