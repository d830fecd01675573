import IrohRaft.Raft.Ready
import Mathlib.Data.List.Nodup

/-!
# Following the effects of a handler

What a handler of a Ready has done by some point: its effects so far, the Readys that were handled before, and what
holds of the node. One rule for each thing a handler can do.
-/

namespace IrohRaft

open Rust

/-! ### Committed entries -/

/-- The raft crate hands the committed entries out in the order of the log, each in one Ready or LightReady. -/
def HandsOutOnce (history : List Handled) : Prop :=
  (handedOut history).Pairwise fun first second => first.index < second.index

/-- Entries in the order of the log are there once each. -/
theorem count_filter_eq_one {entries : List Entry} {entry : Entry} {keep : Entry → Bool}
    (h : entries.Pairwise fun first second => first.index < second.index) (hentry : entry ∈ entries) (hkeep : keep entry = true) :
    (entries.filter keep).count entry = 1 := by
  have hnodup : entries.Nodup := by
    refine h.imp fun {first second} hlt heq => ?_
    rw [heq, UInt64.lt_iff_toNat_lt] at hlt
    exact Nat.lt_irrefl _ hlt
  exact List.count_eq_one_of_mem (List.Nodup.filter _ hnodup) (List.mem_filter.mpr ⟨hentry, hkeep⟩)

theorem handedOut_subset (handled : Handled) :
    handled.handedOut ⊆ handled.ready.committedEntries ++ handled.light.committedEntries := by
  rw [Handled.handedOut]
  split
  · exact List.Subset.refl _
  · rw [List.append_nil]
    exact List.subset_append_left _ _

/-- What every Ready of a history takes of its entries, the history takes of all of them. -/
theorem flatMap_filterMap_eq {history : List Handled} {read : Effect → Option Entry} {keep : Entry → Bool}
    (h : ∀ handled ∈ history, handled.effects.filterMap read = handled.handedOut.filter keep) :
    (history.flatMap fun handled => handled.effects.filterMap read) = (handedOut history).filter keep := by
  rw [handedOut, List.filter_flatMap]
  exact List.flatMap_congr h

namespace Handler

variable {σ τ α : Type}

/-! ### Lists of effects -/

/-- What an item does not occur in lies before every occurrence of it. -/
theorem prefix_before {ι : Type} {first rest before after : List ι} {item : ι} (h : first ++ rest = before ++ item :: after)
    (hitem : item ∉ first) : first <+: before := by
  obtain ⟨between, hbefore, -⟩ | ⟨between, hfirst, hafter⟩ := List.append_eq_append_iff.mp h
  · exact ⟨between, hbefore.symm⟩
  · cases between with
    | nil => exact ⟨[], by simpa using hfirst⟩
    | cons head tail =>
        obtain ⟨rfl, -⟩ := List.cons.inj hafter
        exact absurd (hfirst ▸ List.mem_append_right before List.mem_cons_self) hitem

/-- The effects so far, under the given faults and after the given history. -/
structure Tracks (faults : List (Option (Nat × RaftError))) (history : List Handled) (about : σ → Prop) (effects : List Effect)
    (seen : Observed σ) : Prop where
  effects_eq : seen.effects = effects
  history_eq : seen.history = history
  faults_mem : ∀ fault ∈ seen.faults, fault ∈ faults
  about_node : about seen.node

/-- A storage call can be made to fail, or fails by itself. -/
def CanFail (faults : List (Option (Nat × RaftError))) (session : Session τ RaftError α) : Prop :=
  ¬ ((∀ fault ∈ faults, fault = none) ∧ session.Succeeds)

variable {faults : List (Option (Nat × RaftError))} {history : List Handled} {about about' : σ → Prop} {effects : List Effect}
  {stop : Observed σ → Prop}

/-- What is left of a handler that stopped: its effects. -/
abbrev Left (faults : List (Option (Nat × RaftError))) (history : List Handled) (effects : List Effect) (seen : Observed σ) : Prop :=
  Tracks faults history (fun _ => True) effects seen

theorem Tracks.left {seen : Observed σ} (h : Tracks faults history about effects seen) : Left faults history effects seen :=
  { h with about_node := trivial }

theorem Tracks.of_eq {effects' : List Effect} {seen : Observed σ} (h : Tracks faults history about effects seen)
    (heq : effects = effects') : Tracks faults history about effects' seen :=
  heq ▸ h

theorem record_spec (effect : Effect) : Action.Triple (Tracks faults history about effects) (record effect)
    (fun _ => Tracks faults history about (effects ++ [effect])) stop := by
  apply Action.Triple.modify
  intro seen h
  exact { h with effects_eq := by rw [h.effects_eq] }

theorem onNode_spec {update : σ → σ} (h : ∀ node, about node → about' (update node)) :
    Action.Triple (Tracks faults history about effects) (onNode update) (fun _ => Tracks faults history about' effects) stop := by
  apply Action.Triple.modify
  intro seen hseen
  exact { hseen with about_node := h seen.node hseen.about_node }

theorem store_spec {part : σ → τ} {replace : σ → τ → σ} {session : Session τ RaftError α}
    (h : ∀ node, about node → ∀ value, session.result (part node) = .ok value → about' (replace node (session.final (part node)))) :
    Action.Triple (Tracks faults history about effects) (store part replace session)
      (fun _ => Tracks faults history about' effects)
      (fun seen => CanFail faults session ∧ Left faults history effects seen) := by
  intro seen hseen
  have hreturned (rest : List (Option (Nat × RaftError))) (hrest : ∀ fault ∈ rest, fault ∈ faults) (value : α)
      (hvalue : session.result (part seen.node) = .ok value) : Tracks faults history about' effects
        { seen with faults := rest, node := replace seen.node (session.final (part seen.node)) } :=
    ⟨hseen.effects_eq, hseen.history_eq, hrest, h seen.node hseen.about_node value hvalue⟩
  have hstopped (rest : List (Option (Nat × RaftError))) (hrest : ∀ fault ∈ rest, fault ∈ faults)
      (hnot : ∀ value, session.result (part seen.node) ≠ .ok value) : CanFail faults session ∧ Left faults history effects
        { seen with faults := rest, node := replace seen.node (session.final (part seen.node)) } := by
    refine ⟨fun hfine => ?_, hseen.effects_eq, hseen.history_eq, hrest, trivial⟩
    obtain ⟨value, hvalue⟩ := hfine.2 (part seen.node)
    exact hnot value hvalue
  cases hfaults : seen.faults with
  | nil =>
      simp only [store, hfaults, List.tail_nil]
      cases hresult : session.result (part seen.node) with
      | ok value => exact hreturned [] (by simp) value hresult
      | err error => exact hstopped [] (by simp) (by simp [hresult])
      | panic => exact hstopped [] (by simp) (by simp [hresult])
  | cons fault rest =>
      have hmem : ∀ other ∈ fault :: rest, other ∈ faults := fun other hother => hseen.faults_mem other (hfaults ▸ hother)
      cases fault with
      | none =>
          have hrest : ∀ other ∈ rest, other ∈ faults := fun other hother => hmem other (List.mem_cons_of_mem _ hother)
          simp only [store, hfaults, List.tail_cons]
          cases hresult : session.result (part seen.node) with
          | ok value => exact hreturned rest hrest value hresult
          | err error => exact hstopped rest hrest (by simp [hresult])
          | panic => exact hstopped rest hrest (by simp [hresult])
      | some fault =>
          simp only [store, hfaults]
          refine ⟨fun hfine => ?_, hseen.effects_eq, hseen.history_eq, ?_, trivial⟩
          · simpa using hfine.1 _ (hmem _ List.mem_cons_self)
          · exact fun other hother => hmem other (List.mem_cons_of_mem _ hother)

/-- A handled Ready joins the history with the effects its handling had, however that ended. -/
theorem handling_spec
    (about about' : σ → Prop) {ready : Ready} {light : LightReady} {body : Handler σ α} {holds : List Effect → Prop}
    (hbody : Action.Triple (Tracks faults history about []) body
      (fun _ seen => ∃ effects, holds effects ∧ Tracks faults history about' effects seen)
      (fun seen => ∃ effects, holds effects ∧ Left faults history effects seen)) :
    Action.Triple (fun seen => seen.history = history ∧ about seen.node) (handling ready light faults body)
      (fun _ seen => (∃ effects, holds effects ∧ seen.history = history ++ [⟨ready, light, effects⟩]) ∧ about' seen.node)
      (fun seen => ∃ effects, holds effects ∧ seen.history = history ++ [⟨ready, light, effects⟩]) := by
  intro seen hseen
  have hafter := hbody { seen with faults, effects := [] } ⟨rfl, hseen.1, fun _ => id, hseen.2⟩
  rcases hresult : body { seen with faults, effects := [] } with ⟨value | error | _, after⟩ <;>
    simp only [handling, hresult] at hafter ⊢
  · obtain ⟨effects, heffects, htracks⟩ := hafter
    exact ⟨⟨effects, heffects, by rw [htracks.history_eq, htracks.effects_eq]⟩, htracks.about_node⟩
  · obtain ⟨effects, heffects, htracks⟩ := hafter
    exact ⟨effects, heffects, by rw [htracks.history_eq, htracks.effects_eq]⟩
  · obtain ⟨effects, heffects, htracks⟩ := hafter
    exact ⟨effects, heffects, by rw [htracks.history_eq, htracks.effects_eq]⟩

/-- What a handling says about the node is what its body says. -/
theorem handling_about (about : σ → Prop) {pre pre' : Observed σ → Prop} {ready : Ready} {light : LightReady} {body : Handler σ α}
    (hpre : ∀ seen, pre seen → pre' { seen with faults, effects := [] })
    (hbody : Action.Triple pre' body (fun _ seen => about seen.node) (fun seen => about seen.node)) :
    Action.Triple pre (handling ready light faults body) (fun _ seen => about seen.node) (fun seen => about seen.node) := by
  intro seen hseen
  have hafter := hbody _ (hpre seen hseen)
  rcases hresult : body { seen with faults, effects := [] } with ⟨value | error | _, after⟩ <;>
    simpa only [handling, hresult] using hafter

end Handler

end IrohRaft
