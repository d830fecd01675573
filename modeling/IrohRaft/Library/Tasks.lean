import IrohRaft.Library.Run

/-!
# Tasks that take turns

Concurrent tasks share a state. A turn runs one task from the await point it stands at to the next one
it comes to; between two turns any other task may run. A task that cannot move, because it has returned
or waits for a lock, loses its turn. A record of what happened can be kept beside the system
(`recording`), which the system does not see.
-/

namespace Tasks

structure System (σ π : Type) where
  shared : σ
  tasks : List π
  deriving DecidableEq

/-- Who moves: a new task of some kind starts, or a task takes a turn, with what its surroundings give it. -/
inductive Label (κ ι : Type) where
  | spawn (kind : κ)
  | turn (task : Nat) (input : ι)
  deriving DecidableEq

/-- Where each kind of task starts, and what a turn does at each point. -/
structure Program (σ π κ ι : Type) where
  entry : κ → π
  advance : σ → List π → π → ι → Option (σ × π)

variable {σ π κ ι γ : Type}

def step (program : Program σ π κ ι) (system : System σ π) : Label κ ι → System σ π
  | .spawn kind => { system with tasks := system.tasks ++ [program.entry kind] }
  | .turn task input =>
      match system.tasks[task]? with
      | none => system
      | some point =>
          match program.advance system.shared system.tasks point input with
          | none => system
          | some (shared, point') => { shared, tasks := system.tasks.set task point' }

theorem step_turn_of_absent (program : Program σ π κ ι) (input : ι) {system : System σ π} {task : Nat}
    (h : system.tasks[task]? = none) : step program system (.turn task input) = system := by
  rw [step, h]

theorem step_turn_of_lost (program : Program σ π κ ι) (input : ι) {system : System σ π} {task : Nat} {point : π}
    (hpoint : system.tasks[task]? = some point) (hlost : program.advance system.shared system.tasks point input = none) :
    step program system (.turn task input) = system := by
  simp only [step, hpoint, hlost]

theorem step_turn_of_move (program : Program σ π κ ι) (input : ι) {system : System σ π} {task : Nat} {point point' : π}
    {shared : σ} (hpoint : system.tasks[task]? = some point)
    (hmove : program.advance system.shared system.tasks point input = some (shared, point')) :
    step program system (.turn task input) = { shared, tasks := system.tasks.set task point' } := by
  simp only [step, hpoint, hmove]

/-- A turn that changes something is the move of one task. -/
theorem step_turn_cases (program : Program σ π κ ι) (system : System σ π) (task : Nat) (input : ι) :
    step program system (.turn task input) = system ∨
      ∃ point shared point', system.tasks[task]? = some point ∧
        program.advance system.shared system.tasks point input = some (shared, point') ∧
        step program system (.turn task input) = { shared, tasks := system.tasks.set task point' } := by
  cases hpoint : system.tasks[task]? with
  | none => exact .inl (step_turn_of_absent program input hpoint)
  | some point =>
      cases hmove : program.advance system.shared system.tasks point input with
      | none => exact .inl (step_turn_of_lost program input hpoint hmove)
      | some moved => exact .inr ⟨point, moved.1, moved.2, rfl, hmove, step_turn_of_move program input hpoint hmove⟩

theorem getElem?_set_self {tasks : List π} {task : Nat} {point point' : π} (h : tasks[task]? = some point) :
    (tasks.set task point')[task]? = some point' := by
  have hlt := (List.getElem?_eq_some_iff.mp h).1
  rw [List.getElem?_set_self hlt]

/-- Other tasks stay where they are. -/
theorem getElem?_set_cases {tasks : List π} {task other : Nat} {point point' : π}
    (h : (tasks.set task point')[other]? = some point) :
    (other = task ∧ point = point') ∨ (other ≠ task ∧ tasks[other]? = some point) := by
  by_cases hsame : other = task
  · subst hsame
    have hlt := (List.getElem?_eq_some_iff.mp h).1
    rw [List.length_set] at hlt
    rw [List.getElem?_set_self hlt] at h
    exact .inl ⟨rfl, (Option.some.inj h).symm⟩
  · rw [List.getElem?_set_ne (Ne.symm hsame)] at h
    exact .inr ⟨hsame, h⟩

theorem getElem?_set_ne_some {tasks : List π} {task other : Nat} {point point' : π} (h : tasks[other]? ≠ some point)
    (hne : point' ≠ point) : (tasks.set task point')[other]? ≠ some point := by
  intro hafter
  cases getElem?_set_cases hafter with
  | inl hself => exact hne hself.2.symm
  | inr hsame => exact h hsame.2

/-- A property of points that the moving task keeps is kept by all the tasks that have it. -/
theorem forall_getElem?_set {tasks : List π} {holds : π → Prop} {which : List Nat} {task : Nat} {point point' : π}
    (h : ∀ other ∈ which, ∃ there, tasks[other]? = some there ∧ holds there) (hpoint : tasks[task]? = some point)
    (hkeeps : holds point → holds point') :
    ∀ other ∈ which, ∃ there, (tasks.set task point')[other]? = some there ∧ holds there := by
  intro other hother
  obtain ⟨there, hthere, hholds⟩ := h other hother
  by_cases hself : other = task
  · subst hself
    have hsame : there = point := Option.some.inj (hthere.symm.trans hpoint)
    exact ⟨point', getElem?_set_self hpoint, hkeeps (hsame ▸ hholds)⟩
  · exact ⟨there, by rw [List.getElem?_set_ne (Ne.symm hself), hthere], hholds⟩

/-- A point that another task stands at is still there after the move. -/
theorem exists_mem_set {tasks : List π} {holds : π → Prop} {task : Nat} {point point' : π} (hpoint : tasks[task]? = some point)
    (hnot : ¬ holds point) (h : ∃ there ∈ tasks, holds there) : ∃ there ∈ tasks.set task point', holds there := by
  obtain ⟨there, hthere, hholds⟩ := h
  obtain ⟨other, hother⟩ := List.mem_iff_getElem?.mp hthere
  have hne : task ≠ other := by
    intro hself
    rw [hself, hother] at hpoint
    exact hnot (Option.some.inj hpoint ▸ hholds)
  refine ⟨there, List.mem_iff_getElem?.mpr ⟨other, ?_⟩, hholds⟩
  rw [List.getElem?_set_ne hne, hother]

theorem exists_getElem?_set_iff {tasks : List π} (holds : π → Prop) {task other : Nat} {point point' : π}
    (h : tasks[task]? = some point) :
    (∃ there, (tasks.set task point')[other]? = some there ∧ holds there) ↔
      other = task ∧ holds point' ∨ other ≠ task ∧ ∃ there, tasks[other]? = some there ∧ holds there := by
  by_cases hself : other = task
  · subst hself
    simp [getElem?_set_self h]
  · simp [List.getElem?_set_ne (Ne.symm hself), hself]

/-- A move that does not change whether a task has a property. -/
theorem exists_getElem?_set_iff_of_iff {tasks : List π} {holds : π → Prop} {task : Nat} {point point' : π}
    (h : tasks[task]? = some point) (hkeeps : holds point' ↔ holds point) (other : Nat) :
    (∃ there, (tasks.set task point')[other]? = some there ∧ holds there) ↔ ∃ there, tasks[other]? = some there ∧ holds there := by
  rw [exists_getElem?_set_iff holds h, hkeeps]
  by_cases hself : other = task
  · simp [hself, h]
  · simp [hself]

/-- The task that moved stands at its new point. -/
theorem mem_set_self {tasks : List π} {task : Nat} {point point' : π} (h : tasks[task]? = some point) :
    point' ∈ tasks.set task point' :=
  List.mem_of_getElem? (getElem?_set_self h)

/-- Where no task stands at such a point, one does after the move exactly if the moving task came to it. -/
theorem forall_not_mem_set_iff {tasks : List π} {holds : π → Prop} {task : Nat} {point point' : π}
    (hpoint : tasks[task]? = some point) (h : ∀ there ∈ tasks, ¬ holds there) :
    (∀ there ∈ tasks.set task point', ¬ holds there) ↔ ¬ holds point' := by
  apply Iff.intro
  · intro hafter
    exact hafter point' (mem_set_self hpoint)
  · intro hnot there hthere
    obtain hbefore | rfl := List.mem_or_eq_of_mem_set hthere
    · exact h there hbefore
    · exact hnot

/-- How many tasks stand at points of a kind changes by what the moving task does. -/
theorem countP_set_add {tasks : List π} (kind : π → Bool) {task : Nat} {point point' : π} (h : tasks[task]? = some point) :
    (tasks.set task point').countP kind + (kind point).toNat = tasks.countP kind + (kind point').toNat := by
  obtain ⟨hlt, hget⟩ := List.getElem?_eq_some_iff.mp h
  have hset : (tasks.set task point').countP kind =
      tasks.countP kind - (if kind point = true then 1 else 0) + (if kind point' = true then 1 else 0) := by
    rw [List.countP_set hlt, hget]
  have hcounted : kind point = true → 0 < tasks.countP kind := fun hkind =>
    List.countP_pos_iff.mpr ⟨point, List.mem_of_getElem? h, hkind⟩
  rw [hset]
  cases hpoint : kind point with
  | false => cases kind point' <;> simp
  | true =>
      have hpositive := hcounted hpoint
      cases kind point' <;> simp <;> omega

/-- Starting a task leaves the others where they are. -/
theorem getElem?_append_cases {tasks : List π} {other : Nat} {point entry : π}
    (h : (tasks ++ [entry])[other]? = some point) : point = entry ∨ tasks[other]? = some point := by
  by_cases hlt : other < tasks.length
  · rw [List.getElem?_append_left hlt] at h
    exact .inr h
  · rw [List.getElem?_append_right (Nat.not_lt.mp hlt)] at h
    exact .inl (List.mem_singleton.mp (List.mem_of_getElem? h))

theorem getElem?_append_of_some {tasks : List π} {other : Nat} {point entry : π} (h : tasks[other]? = some point) :
    (tasks ++ [entry])[other]? = some point := by
  rw [List.getElem?_append_left (List.getElem?_eq_some_iff.mp h).1, h]

/-- A task that starts without the property. -/
theorem exists_getElem?_append_iff {tasks : List π} {holds : π → Prop} {entry : π} (h : ¬ holds entry) (other : Nat) :
    (∃ there, (tasks ++ [entry])[other]? = some there ∧ holds there) ↔ ∃ there, tasks[other]? = some there ∧ holds there := by
  apply Iff.intro
  · intro hafter
    obtain ⟨there, hthere, hholds⟩ := hafter
    obtain rfl | hbefore := getElem?_append_cases hthere
    · exact absurd hholds h
    · exact ⟨there, hbefore, hholds⟩
  · intro hbefore
    obtain ⟨there, hthere, hholds⟩ := hbefore
    exact ⟨there, getElem?_append_of_some hthere, hholds⟩

/-- The system with a record of its steps, made from the state before, the label and the state after. -/
def recording (program : Program σ π κ ι) (record : System σ π → Label κ ι → System σ π → γ → γ)
    (watched : System σ π × γ) (label : Label κ ι) : System σ π × γ :=
  (step program watched.1 label, record watched.1 label (step program watched.1 label) watched.2)

end Tasks
