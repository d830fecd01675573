import Mathlib.Data.List.Basic

/-!
# Runs of a state machine

A run applies operations one after another; each is allowed in some states and not in others. A
property that holds at the start and that every allowed operation preserves holds after every run,
also when it speaks about the operations performed so far.
-/

namespace Run

variable {σ ι : Type} (step : σ → ι → σ) (allowed : σ → ι → Prop)

/-- The state after the operations, in order. -/
def final (start : σ) (ops : List ι) : σ := ops.foldl step start

/-- Every operation is allowed in the state it meets. -/
def Follows : σ → List ι → Prop
  | _, [] => True
  | state, op :: rest => allowed state op ∧ Follows (step state op) rest

@[simp] theorem final_nil (start : σ) : final step start [] = start := rfl

@[simp] theorem final_cons (start : σ) (op : ι) (rest : List ι) :
    final step start (op :: rest) = final step (step start op) rest := rfl

theorem final_append (start : σ) (first second : List ι) :
    final step start (first ++ second) = final step (final step start first) second := by
  rw [final, final, final, List.foldl_append]

theorem final_concat (start : σ) (ops : List ι) (op : ι) :
    final step start (ops ++ [op]) = step (final step start ops) op := by
  rw [final_append, final_cons, final_nil]

/-- Two machines that keep step with each other do so over whole runs. -/
theorem final_related {σ' : Type} (step' : σ' → ι → σ') (related : σ → σ' → Prop)
    (hstep : ∀ state state' op, related state state' → related (step state op) (step' state' op))
    {start : σ} {start' : σ'} (hstart : related start start') (ops : List ι) :
    related (final step start ops) (final step' start' ops) := by
  induction ops generalizing start start' with
  | nil => exact hstart
  | cons op rest ih => exact ih (hstep start start' op hstart)

instance decidableFollows [∀ state op, Decidable (allowed state op)] (start : σ) (ops : List ι) :
    Decidable (Follows step allowed start ops) :=
  match ops with
  | [] => isTrue trivial
  | op :: rest =>
      have := decidableFollows (step start op) rest
      inferInstanceAs (Decidable (allowed start op ∧ Follows step allowed (step start op) rest))

variable {step allowed}

theorem follows_append {start : σ} {first second : List ι} :
    Follows step allowed start (first ++ second) ↔
      Follows step allowed start first ∧ Follows step allowed (final step start first) second := by
  induction first generalizing start with
  | nil => simp [Follows]
  | cons op rest ih => simp only [List.cons_append, Follows, final_cons, ih, and_assoc]

theorem follows_concat {start : σ} {ops : List ι} {op : ι} :
    Follows step allowed start (ops ++ [op]) ↔
      Follows step allowed start ops ∧ allowed (final step start ops) op := by
  rw [follows_append]
  simp only [Follows, and_true]

/-- A property every allowed operation preserves holds after every run. -/
theorem Follows.invariant (holds : σ → Prop)
    (hstep : ∀ state op, holds state → allowed state op → holds (step state op))
    {start : σ} (hstart : holds start) {ops : List ι} (h : Follows step allowed start ops) :
    holds (final step start ops) := by
  induction ops generalizing start with
  | nil => exact hstart
  | cons op rest ih => exact ih (hstep start op hstart h.1) h.2

/-- Where an operation is allowed exactly if it preserves the property, a run is allowed exactly if the property
holds all along. -/
theorem follows_iff_forall_prefix (holds : σ → Prop)
    (hstep : ∀ state op, holds state → (allowed state op ↔ holds (step state op))) {start : σ} (hstart : holds start)
    {ops : List ι} : Follows step allowed start ops ↔ ∀ done, done <+: ops → holds (final step start done) := by
  apply Iff.intro
  · intro h done hprefix
    obtain ⟨rest, hrest⟩ := hprefix
    rw [← hrest, follows_append] at h
    exact h.1.invariant holds (fun state op hholds hallowed => (hstep state op hholds).mp hallowed) hstart
  · intro h
    induction ops generalizing start with
    | nil => trivial
    | cons op rest ih =>
        have hfirst : holds (step start op) := h [op] ⟨rest, rfl⟩
        refine ⟨(hstep start op hstart).mpr hfirst, ih hfirst fun done hprefix => ?_⟩
        exact h (op :: done) (List.cons_prefix_cons.mpr ⟨rfl, hprefix⟩)

/-- Two rules that agree in every state that can be reached allow the same runs. -/
theorem follows_congr {allowed' : σ → ι → Prop} (holds : σ → Prop)
    (hstep : ∀ state op, holds state → allowed state op → holds (step state op))
    (hsame : ∀ state op, holds state → (allowed state op ↔ allowed' state op)) {start : σ} (hstart : holds start)
    {ops : List ι} : Follows step allowed start ops ↔ Follows step allowed' start ops := by
  induction ops generalizing start with
  | nil => simp [Follows]
  | cons op rest ih =>
      rw [Follows, Follows, ← hsame start op hstart]
      exact and_congr_right fun hallowed => ih (hstep start op hstart hallowed)

/-- Where it does not depend on the state what is allowed, a run is allowed exactly if each operation is. -/
theorem follows_iff_forall {allowed : ι → Prop} {start : σ} {ops : List ι} :
    Follows step (fun _ op => allowed op) start ops ↔ ∀ op ∈ ops, allowed op := by
  induction ops generalizing start with
  | nil => simp [Follows]
  | cons op rest ih => simp only [Follows, ih, List.forall_mem_cons]

/-- The same for a property of the state and of the operations that led to it. -/
theorem Follows.history (holds : List ι → σ → Prop)
    (hstep : ∀ done state op, holds done state → allowed state op → holds (done ++ [op]) (step state op))
    {start : σ} (hstart : holds [] start) {ops : List ι} (h : Follows step allowed start ops) :
    holds ops (final step start ops) := by
  suffices hgeneral : ∀ (rest done : List ι) (state : σ), holds done state → Follows step allowed state rest →
      holds (done ++ rest) (final step state rest) by
    simpa using hgeneral ops [] start hstart h
  intro rest
  induction rest with
  | nil =>
      intro done state hdone _
      simpa using hdone
  | cons op rest ih =>
      intro done state hdone hfollows
      have hnext := ih (done ++ [op]) (step state op) (hstep done state op hdone hfollows.1) hfollows.2
      simpa using hnext

theorem follows_of_forall {ops : List ι} (h : ∀ op ∈ ops, ∀ state, allowed state op) (start : σ) :
    Follows step allowed start ops := by
  induction ops generalizing start with
  | nil => trivial
  | cons op rest ih =>
      exact ⟨h op List.mem_cons_self start, ih (fun later hmem => h later (List.mem_cons_of_mem _ hmem)) _⟩

/-- A property every operation of a run preserves, in whatever state, holds after it. -/
theorem final_invariant (holds : σ → Prop) {ops : List ι}
    (hstep : ∀ op ∈ ops, ∀ state, holds state → holds (step state op)) {start : σ} (hstart : holds start) :
    holds (final step start ops) :=
  Follows.invariant holds (fun _ _ hholds hallowed => hallowed hholds) hstart
    (follows_of_forall hstep start : Follows step (fun state op => holds state → holds (step state op)) start ops)

/-- The same for a property of the state and of the operations that led to it. -/
theorem final_history (holds : List ι → σ → Prop)
    (hstep : ∀ done state op, holds done state → holds (done ++ [op]) (step state op))
    {start : σ} (hstart : holds [] start) (ops : List ι) : holds ops (final step start ops) :=
  Follows.history holds (fun done state op hholds _ => hstep done state op hholds) hstart
    (follows_of_forall (fun _ _ _ => trivial) start : Follows step (fun _ _ => True) start ops)

end Run
