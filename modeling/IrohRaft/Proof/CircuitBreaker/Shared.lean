import IrohRaft.CircuitBreakerManager
import IrohRaft.Proof.CircuitBreaker.Moves

/-!
# All calls for a service share its breaker

A call that finds no breaker for its service makes one, and puts it into the map in a second critical
section without looking again. Two calls that both look before either has put its breaker in come away with
different breakers, and only the last one put in is found from then on.
-/

namespace IrohRaft

namespace CircuitBreakerManager

open Rust

variable {manager manager' : CircuitBreakerManager} {tasks : List Point} {task : Nat} {point point' : Point} {service : Str}
  {breaker : BreakerArc}

/-- The calls that returned for a service hold the breaker the map has for it; while a call is about to put
one in, there is none, and no other call is about to. -/
structure Shared (system : System) : Prop where
  found : ∀ service breaker, .returned service breaker ∈ system.tasks → system.shared.breakers[service]? = some breaker
  missing : ∀ service breaker, .insert service breaker ∈ system.tasks → system.shared.breakers[service]? = none
  alone : ∀ (first second : Nat) (service : Str) (breaker breaker' : BreakerArc),
    system.tasks[first]? = some (.insert service breaker) → system.tasks[second]? = some (.insert service breaker') →
      first = second

def Point.inserts (service : Str) : Point → Bool
  | .insert other _ => other == service
  | _ => false

/-- A call does not look for a missing breaker while another is about to put it in. -/
def LooksAlone (system : System) : Label → Prop
  | .turn task .proceed =>
      match system.tasks[task]? with
      | some (.lookup service) =>
          system.shared.breakers[service]? = none → ∀ point ∈ system.tasks, point.inserts service = false
      | _ => True
  | _ => True

instance (system : System) (label : Label) : Decidable (LooksAlone system label) :=
  match label with
  | .spawn _ => isTrue trivial
  | .turn _ .cancel => isTrue trivial
  | .turn task .proceed => by
      dsimp only [LooksAlone]
      split <;> infer_instance

theorem inserts_eq_true : point.inserts service = true ↔ ∃ breaker, point = .insert service breaker := by
  cases point <;> simp [Point.inserts, Subtype.ext_iff]

/-! ### Turns -/

/-- A turn that leaves the map alone, and after which the call is not about to put a breaker in. -/
theorem Shared.kept (h : Shared ⟨manager, tasks⟩) (hbreakers : manager'.breakers = manager.breakers)
    (hinserts : ∀ service breaker, point' ≠ .insert service breaker)
    (hfound : ∀ service breaker, point' = .returned service breaker → manager.breakers[service]? = some breaker) :
    Shared ⟨manager', tasks.set task point'⟩ where
  found := by
    intro service breaker hmem
    simp only [hbreakers]
    cases List.mem_or_eq_of_mem_set hmem with
    | inl hold => exact h.found service breaker hold
    | inr hself => exact hfound service breaker hself.symm
  missing := by
    intro service breaker hmem
    simp only [hbreakers]
    cases List.mem_or_eq_of_mem_set hmem with
    | inl hold => exact h.missing service breaker hold
    | inr hself => exact absurd hself.symm (hinserts service breaker)
  alone := by
    intro first second service breaker breaker' hfirst hsecond
    have hfirst := (Tasks.getElem?_set_cases hfirst).resolve_left fun hself => hinserts _ _ hself.2.symm
    have hsecond := (Tasks.getElem?_set_cases hsecond).resolve_left fun hself => hinserts _ _ hself.2.symm
    exact h.alone first second service breaker breaker' hfirst.2 hsecond.2

/-- A call that looks alone makes the only breaker for its service. -/
theorem Shared.made (h : Shared ⟨manager, tasks⟩) (hbreakers : manager'.breakers = manager.breakers)
    (hmissing : manager.breakers[service]? = none) (halone : ∀ point ∈ tasks, point.inserts service = false) :
    Shared ⟨manager', tasks.set task (.insert service breaker)⟩ where
  found := by
    intro other held hmem
    simp only [hbreakers]
    cases List.mem_or_eq_of_mem_set hmem with
    | inl hold => exact h.found other held hold
    | inr hself => exact nomatch hself
  missing := by
    intro other held hmem
    simp only [hbreakers]
    cases List.mem_or_eq_of_mem_set hmem with
    | inl hold => exact h.missing other held hold
    | inr hself =>
        rw [(Point.insert.inj hself).1]
        exact hmissing
  alone := by
    intro first second other held held' hfirst hsecond
    have hnone : ∀ (there : Nat) (held : BreakerArc), tasks[there]? ≠ some (.insert service held) := by
      intro there held hthere
      have hinserts := halone _ (List.mem_of_getElem? hthere)
      rw [inserts_eq_true.mpr ⟨held, rfl⟩] at hinserts
      exact nomatch hinserts
    cases Tasks.getElem?_set_cases hfirst with
    | inl hself =>
        cases Tasks.getElem?_set_cases hsecond with
        | inl hself' => exact hself.1.trans hself'.1.symm
        | inr hother =>
            rw [(Point.insert.inj hself.2).1] at hother
            exact absurd hother.2 (hnone second held')
    | inr hother =>
        cases Tasks.getElem?_set_cases hsecond with
        | inl hself' =>
            rw [(Point.insert.inj hself'.2).1] at hother
            exact absurd hother.2 (hnone first held)
        | inr hother' => exact h.alone first second other held held' hother.2 hother'.2

/-- The breaker that is put in is the first and only one for its service. -/
theorem Shared.put (h : Shared ⟨manager, tasks⟩) (hpoint : tasks[task]? = some (.insert service breaker))
    (hbreakers : manager'.breakers = manager.breakers.insert service breaker) :
    Shared ⟨manager', tasks.set task (.returned service breaker)⟩ where
  found := by
    intro other held hmem
    simp only [hbreakers]
    cases List.mem_or_eq_of_mem_set hmem with
    | inl hold =>
        have hfound := h.found other held hold
        have hne : service ≠ other := by
          intro hsame
          have hmissing := h.missing service breaker (List.mem_of_getElem? hpoint)
          rw [hsame, hfound] at hmissing
          exact nomatch hmissing
        rw [HashMap.getElem?_insert_of_ne hne]
        exact hfound
    | inr hself =>
        obtain ⟨hservice, hheld⟩ := Point.returned.inj hself
        rw [hservice, hheld]
        exact Std.ExtTreeMap.getElem?_insert_self
  missing := by
    intro other held hmem
    obtain ⟨there, hthere⟩ := List.mem_iff_getElem?.mp hmem
    have hold := (Tasks.getElem?_set_cases hthere).resolve_left fun hself => nomatch hself.2
    have hne : service ≠ other := by
      intro hsame
      rw [← hsame] at hold
      exact hold.1 (h.alone there task service held breaker hold.2 hpoint)
    simp only [hbreakers]
    rw [HashMap.getElem?_insert_of_ne hne]
    exact h.missing other held (List.mem_of_getElem? hold.2)
  alone := by
    intro first second other held held' hfirst hsecond
    have hfirst := (Tasks.getElem?_set_cases hfirst).resolve_left fun hself => nomatch hself.2
    have hsecond := (Tasks.getElem?_set_cases hsecond).resolve_left fun hself => nomatch hself.2
    exact h.alone first second other held held' hfirst.2 hsecond.2

/-! ### Runs -/

/-- A call that looks for a missing breaker while another is about to put it in, is about to do the same. -/
theorem not_shared_of_not_alone (hpoint : tasks[task]? = some (.lookup service))
    (hother : ∃ other ∈ tasks, other.inserts service = true) :
    ¬ Shared ⟨manager', tasks.set task (.insert service breaker)⟩ := by
  intro h
  obtain ⟨other, hmem, hinserts⟩ := hother
  obtain ⟨held, rfl⟩ := inserts_eq_true.mp hinserts
  obtain ⟨there, hthere⟩ := List.mem_iff_getElem?.mp hmem
  have hne : task ≠ there := by
    intro hself
    rw [hself, hthere] at hpoint
    exact nomatch hpoint
  have hstill : (tasks.set task (.insert service breaker))[there]? = some (.insert service held) := by
    rw [List.getElem?_set_ne hne, hthere]
  exact hne (h.alone task there service breaker held (Tasks.getElem?_set_self hpoint) hstill)

theorem looksAlone_proceed_iff (h : Shared ⟨manager, tasks⟩) (hpoint : tasks[task]? = some point) :
    LooksAlone ⟨manager, tasks⟩ (.turn task .proceed) ↔ Shared (Tasks.step program ⟨manager, tasks⟩ (.turn task .proceed)) := by
  have hfree (hother : ∀ service, point ≠ .lookup service) : LooksAlone ⟨manager, tasks⟩ (.turn task .proceed) := by
    simp only [LooksAlone, hpoint]
    split
    · next hlookup => exact absurd (Option.some.inj hlookup) (hother _)
    · trivial
  cases point with
  | returned _ _ | dropped =>
      rw [Tasks.step_turn_of_lost program .proceed hpoint rfl]
      exact ⟨fun _ => h, fun _ => hfree nofun⟩
  | insert service breaker =>
      rw [Tasks.step_turn_of_move program .proceed hpoint rfl]
      exact ⟨fun _ => h.put hpoint rfl, fun _ => hfree nofun⟩
  | lookup service =>
      have hcondition : LooksAlone ⟨manager, tasks⟩ (.turn task .proceed) ↔
          (manager.breakers[service]? = none → ∀ other ∈ tasks, other.inserts service = false) := by
        simp only [LooksAlone, hpoint]
      rw [hcondition]
      cases hfound : manager.breakers[service]? with
      | some breaker =>
          have hmove : program.advance manager tasks (.lookup service) .proceed = some (manager, .returned service breaker) := by
            simp only [program, advance, getBreaker, hfound]
          rw [Tasks.step_turn_of_move program .proceed hpoint hmove]
          refine ⟨fun _ => h.kept rfl nofun fun other held hself => ?_, fun _ => nofun⟩
          obtain ⟨hservice, hheld⟩ := Point.returned.inj hself
          rw [← hservice, ← hheld, hfound]
      | none =>
          have hmove : program.advance manager tasks (.lookup service) .proceed =
              some ({ manager with allocated := manager.allocated ++ [(manager.defaultConfig, CircuitBreaker.new)] },
                .insert service manager.allocated.length) := by
            simp only [program, advance, getBreaker, hfound]
          rw [Tasks.step_turn_of_move program .proceed hpoint hmove]
          refine ⟨fun halone => h.made rfl hfound (halone rfl), fun hafter _ other hmem => ?_⟩
          apply Bool.eq_false_iff.mpr
          intro hinserts
          exact not_shared_of_not_alone hpoint ⟨other, hmem, hinserts⟩ hafter

theorem shared_cancel (h : Shared ⟨manager, tasks⟩) (hpoint : tasks[task]? = some point) :
    Shared (Tasks.step program ⟨manager, tasks⟩ (.turn task .cancel)) := by
  cases point with
  | returned _ _ =>
      rw [Tasks.step_turn_of_lost program .cancel hpoint rfl]
      exact h
  | lookup _ | insert _ _ | dropped =>
      rw [Tasks.step_turn_of_move program .cancel hpoint rfl]
      exact h.kept rfl nofun nofun

/-- A step keeps the breakers shared exactly under the condition. -/
theorem looksAlone_iff (system : System) (label : Label) (hshared : Shared system) :
    LooksAlone system label ↔ Shared (Tasks.step program system label) := by
  cases label with
  | spawn service =>
      refine ⟨fun _ => ⟨?_, ?_, ?_⟩, fun _ => trivial⟩
      · intro other held hmem
        cases List.mem_append.mp hmem with
        | inl hold => exact hshared.found other held hold
        | inr hnew => exact nomatch List.mem_singleton.mp hnew
      · intro other held hmem
        cases List.mem_append.mp hmem with
        | inl hold => exact hshared.missing other held hold
        | inr hnew => exact nomatch List.mem_singleton.mp hnew
      · intro first second other held held' hfirst hsecond
        have hfirst := (Tasks.getElem?_append_cases hfirst).resolve_left nofun
        have hsecond := (Tasks.getElem?_append_cases hsecond).resolve_left nofun
        exact hshared.alone first second other held held' hfirst hsecond
  | turn task input =>
      cases hpoint : system.tasks[task]? with
      | none =>
          rw [Tasks.step_turn_of_absent program input hpoint]
          refine ⟨fun _ => hshared, fun _ => ?_⟩
          cases input <;> simp only [LooksAlone, hpoint]
      | some point =>
          cases input with
          | proceed => exact looksAlone_proceed_iff hshared hpoint
          | cancel => exact ⟨fun _ => shared_cancel hshared hpoint, fun _ => trivial⟩

theorem shared_start (defaultConfig : CircuitBreakerConfig) : Shared (start defaultConfig) where
  found _ _ hmem := nomatch hmem
  missing _ _ hmem := nomatch hmem
  alone _ _ _ _ _ hfirst := nomatch hfirst

theorem follows_looksAlone_iff (defaultConfig : CircuitBreakerConfig) (labels : List Label) :
    Run.Follows (Tasks.step program) LooksAlone (start defaultConfig) labels ↔
      ∀ done, done <+: labels → Shared (Run.final (Tasks.step program) (start defaultConfig) done) :=
  Run.follows_iff_forall_prefix Shared looksAlone_iff (shared_start defaultConfig)

/-- **One breaker for a service.** In a run in which no call looks for a missing breaker while another is
about to put it in, all calls that return for a service return the same one. -/
theorem getBreaker_shared {defaultConfig : CircuitBreakerConfig} {labels : List Label}
    (h : Run.Follows (Tasks.step program) LooksAlone (start defaultConfig) labels) (service : Str)
    (breaker breaker' : BreakerArc) :
    .returned service breaker ∈ (Run.final (Tasks.step program) (start defaultConfig) labels).tasks →
      .returned service breaker' ∈ (Run.final (Tasks.step program) (start defaultConfig) labels).tasks →
        breaker = breaker' := by
  intro hfirst hsecond
  have hshared := (follows_looksAlone_iff defaultConfig labels).mp h labels (List.prefix_refl labels)
  have hfound := hshared.found service breaker hfirst
  rw [hshared.found service breaker' hsecond] at hfound
  exact (Option.some.inj hfound).symm

/-- Two calls for a service, the second after the first has returned. -/
def oneByOne (service : Str) : List Label :=
  [.spawn service, .turn 0 .proceed, .turn 0 .proceed, .spawn service, .turn 1 .proceed]

/-- Two calls for a service that both look before either has put its breaker in. -/
def bothMiss (service : Str) : List Label :=
  [.spawn service, .spawn service, .turn 0 .proceed, .turn 1 .proceed, .turn 0 .proceed, .turn 1 .proceed]

def service1 : Str := ⟨"service1", by decide⟩

/-- The second call finds the breaker of the first. -/
theorem getBreaker_shared_oneByOne :
    (Run.final (Tasks.step program) (start (CircuitBreaker.hairTrigger 1)) (oneByOne service1)).tasks =
        [.returned service1 0, .returned service1 0] ∧
      (0 : BreakerArc) = 0 :=
  have hlone : Run.Follows (Tasks.step program) LooksAlone (start (CircuitBreaker.hairTrigger 1)) (oneByOne service1) := by
    decide
  ⟨by decide, getBreaker_shared hlone service1 0 0 (by decide) (by decide)⟩

theorem not_getBreaker_shared :
    ¬ ∀ (defaultConfig : CircuitBreakerConfig) (labels : List Label) (service : Str) (breaker breaker' : BreakerArc),
      .returned service breaker ∈ (Run.final (Tasks.step program) (start defaultConfig) labels).tasks →
        .returned service breaker' ∈ (Run.final (Tasks.step program) (start defaultConfig) labels).tasks →
          breaker = breaker' := by
  intro hall
  have hsame := hall (CircuitBreaker.hairTrigger 1) (bothMiss service1) service1 0 1 (by decide) (by decide)
  exact nomatch hsame

end CircuitBreakerManager

end IrohRaft
