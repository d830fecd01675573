import IrohRaft.Proof.Node.Messages

/-!
# Written before it shows

Whatever a Ready brings and whichever write fails, nothing of it shows outside of the storage before its entries and its
hard state are written: no message is sent, no entry is applied and raft is not told to go on. This holds of all three
ways to handle a Ready.
-/

namespace IrohRaft

open Rust

/-- What others can see, or what raft builds on. -/
def Effect.Shows : Effect → Prop
  | .send _ | .applyEntry _ | .applyConfChange _ | .advance | .advanceApplyTo _ => True
  | .installSnapshot _ | .append _ | .saveHardState _ => False

def Effect.appended : Effect → Option (List Entry)
  | .append entries => some entries
  | _ => none

/-- The writes of a handling come before all that shows, and the log is written once, with what the Ready brings. -/
structure WritesAhead (handled : Handled) : Prop where
  wrote : ∀ before effect after, handled.effects = before ++ effect :: after → effect.Shows → Wrote handled.ready before
  once : handled.effects.filterMap Effect.appended <+: [handled.ready.entries]

/-! ### One Ready -/

variable {ready : Ready} {light : LightReady} {writes effects : List Effect}

/-- A handling that ends in the midst of its writes. -/
theorem writesAhead_of_stopped (hwrites : ∀ effect ∈ writes, ¬ effect.Shows) (heffects : effects <+: writes)
    (honce : writes.filterMap Effect.appended <+: [ready.entries]) : WritesAhead ⟨ready, light, effects⟩ := by
  refine ⟨fun before effect after hsplit hshows => ?_, (heffects.filterMap _).trans honce⟩
  have hmem : effect ∈ effects := by
    rw [show effects = before ++ effect :: after from hsplit]
    exact List.mem_append_right before List.mem_cons_self
  exact absurd hshows (hwrites effect (heffects.subset hmem))

/-- A handling that gets beyond its writes. -/
theorem writesAhead_of_wrote (rest : List Effect) (hwrites : ∀ effect ∈ writes, ¬ effect.Shows) (hwrote : Wrote ready writes)
    (honce : writes.filterMap Effect.appended <+: [ready.entries]) (heffects : effects = writes ++ rest)
    (hrest : rest.filterMap Effect.appended = []) : WritesAhead ⟨ready, light, effects⟩ := by
  refine ⟨fun before effect after hsplit hshows => ?_, ?_⟩
  · have hsame : writes ++ rest = before ++ effect :: after := heffects.symm.trans hsplit
    exact hwrote.mono (Handler.prefix_before hsame fun hmem => hwrites effect hmem hshows).subset
  · simpa [heffects, hrest] using honce

namespace RaftManager

variable {codec : ManagerCodec} {round : Round} {nodeId : UInt64} {isOpen : Prop} {fetched entries : List Entry}
  {messages : List Message} {sent : List Effect}

theorem not_shows_of_write (h : effects ⊆ installEffects ready ++ persistEffects ready) :
    ∀ effect ∈ effects, ¬ effect.Shows := by
  intro effect heffect
  obtain ⟨_, rfl⟩ | ⟨_, rfl⟩ | ⟨_, rfl⟩ := mem_writes (h heffect) <;> exact id

theorem appended_persistEffects (ready : Ready) : (persistEffects ready).filterMap Effect.appended <+: [ready.entries] := by
  cases hhs : ready.hs <;> by_cases hentries : ready.entries.isEmpty = true <;>
    simp [persistEffects, hhs, hentries, Effect.appended, List.filterMap_cons]

theorem appended_writes (ready : Ready) :
    (installEffects ready ++ persistEffects ready).filterMap Effect.appended <+: [ready.entries] := by
  have hinstall : (installEffects ready).filterMap Effect.appended = [] := by
    rw [installEffects]
    split <;> simp [Effect.appended]
  rw [List.filterMap_append, hinstall, List.nil_append]
  exact appended_persistEffects ready

theorem appended_sends (h : Sends nodeId isOpen messages sent) : sent.filterMap Effect.appended = [] := by
  refine List.filterMap_eq_nil_iff.mpr fun effect heffect => ?_
  obtain ⟨message, rfl⟩ := h.only effect heffect
  rfl

theorem appended_entryEffects (entries : List Entry) : (entries.flatMap entryEffects).filterMap Effect.appended = [] := by
  refine List.filterMap_eq_nil_iff.mpr fun effect heffect => ?_
  obtain ⟨entry, -, hentry⟩ := List.mem_flatMap.mp heffect
  obtain rfl | rfl := mem_entryEffects hentry <;> rfl

theorem appended_confChangeEffects (entries : List Entry) :
    (entries.flatMap confChangeEffects).filterMap Effect.appended = [] := by
  refine List.filterMap_eq_nil_iff.mpr fun effect heffect => ?_
  obtain ⟨entry, -, hentry⟩ := List.mem_flatMap.mp heffect
  rw [mem_confChangeEffects hentry]
  rfl

theorem writesAhead_inline (h : InlineTrace codec round nodeId isOpen effects) :
    WritesAhead ⟨round.ready, round.light, effects⟩ := by
  have hwrites := not_shows_of_write (List.subset_append_right (installEffects round.ready) (persistEffects round.ready))
  have hwrote := wrote_persistEffects round.ready
  have honce := appended_persistEffects round.ready
  cases h with
  | writing done hdone hstop => exact writesAhead_of_stopped hwrites hdone honce
  | applying sent persisted done hsent hpersisted =>
      refine writesAhead_of_wrote (sent ++ persisted ++ done.flatMap confChangeEffects) hwrites hwrote honce (by simp) ?_
      simp only [List.filterMap_append, appended_sends hsent, appended_sends hpersisted, appended_confChangeEffects, List.append_nil]
  | advanced sent persisted hsent hpersisted =>
      refine writesAhead_of_wrote (sent ++ persisted ++ round.ready.committedEntries.flatMap confChangeEffects ++ [.advance])
        hwrites hwrote honce (by simp) ?_
      simp only [List.filterMap_append, appended_sends hsent, appended_sends hpersisted, appended_confChangeEffects, List.append_nil]
      rfl

theorem writesAhead_ready (h : ReadyTrace codec round nodeId isOpen fetched effects) :
    WritesAhead ⟨round.ready, round.light, effects⟩ := by
  have hwrites := not_shows_of_write (List.Subset.refl (installEffects round.ready ++ persistEffects round.ready))
  have hwrote : Wrote round.ready (installEffects round.ready ++ persistEffects round.ready) :=
    (wrote_persistEffects round.ready).mono (List.subset_append_right _ _)
  have honce := appended_writes round.ready
  cases h with
  | writing done hdone hstop => exact writesAhead_of_stopped hwrites hdone honce
  | applying sent done rest hsent hentries hstop =>
      refine writesAhead_of_wrote (sent ++ done.flatMap entryEffects) hwrites hwrote honce (by simp) ?_
      simp only [List.filterMap_append, appended_sends hsent, appended_entryEffects, List.append_nil]
  | advanced sent lightSent saved done rest applied hsent hlight hsaved hentries happlied hstop =>
      have hadvance : [Effect.advance].filterMap Effect.appended = [] := rfl
      have hsavedNone : saved.filterMap Effect.appended = [] := by
        refine List.filterMap_eq_nil_iff.mpr fun effect heffect => ?_
        obtain ⟨_, rfl⟩ := hsaved effect heffect
        rfl
      have happliedNone : applied.filterMap Effect.appended = [] := by
        refine List.filterMap_eq_nil_iff.mpr fun effect heffect => ?_
        obtain ⟨_, rfl⟩ := happlied effect heffect
        rfl
      refine writesAhead_of_wrote (sent ++ round.ready.committedEntries.flatMap entryEffects ++ [.advance] ++ lightSent ++ saved ++
          done.flatMap entryEffects ++ applied) hwrites hwrote honce (by simp) ?_
      simp only [List.filterMap_append, appended_sends hsent, appended_entryEffects, hadvance, appended_sends hlight, hsavedNone,
        happliedNone, List.append_nil]

theorem runMeets_any (codec : ManagerCodec) (manager : RaftManager) (inputs : List Input) :
    RunMeets codec (fun _ => True) (fun _ _ => True) manager inputs := by
  refine Run.follows_of_forall (fun input _ execution _ => ?_) _
  cases input <;> simp [Input.Meets]

end RaftManager

namespace RaftNode

variable {σ : Type} {machine : NodeStateMachine σ} {round : Round}

theorem not_shows_persistEffects (ready : Ready) : ∀ effect ∈ persistEffects ready, ¬ effect.Shows := by
  intro effect heffect
  obtain ⟨_, rfl⟩ | ⟨_, rfl⟩ := mem_persistEffects heffect <;> exact id

theorem appended_persistEffects (ready : Ready) : (persistEffects ready).filterMap Effect.appended <+: [ready.entries] := by
  cases hhs : ready.hs <;> by_cases hentries : ready.entries.isEmpty = true <;>
    simp [persistEffects, hhs, hentries, Effect.appended, List.filterMap_cons]

theorem appended_sends (messages : List Message) : (messages.map Effect.send).filterMap Effect.appended = [] := by
  simp [Effect.appended]

theorem appended_entryEffects (entries : List Entry) : (entries.flatMap entryEffects).filterMap Effect.appended = [] := by
  refine List.filterMap_eq_nil_iff.mpr fun effect heffect => ?_
  obtain ⟨entry, -, hentry⟩ := List.mem_flatMap.mp heffect
  rw [mem_entryEffects hentry]
  rfl

theorem appended_installEffects (ready : Ready) : (installEffects ready).filterMap Effect.appended = [] := by
  refine List.filterMap_eq_nil_iff.mpr fun effect heffect => ?_
  rw [mem_installEffects heffect]
  rfl

theorem writesAhead_of_trace (h : ReadyTrace machine round effects) : WritesAhead ⟨round.ready, round.light, effects⟩ := by
  have hwrites := not_shows_persistEffects round.ready
  have hwrote := wrote_persistEffects round.ready
  have honce := appended_persistEffects round.ready
  have hrest (entries : List Entry) :
      (round.ready.messages.map Effect.send ++ entries.flatMap entryEffects).filterMap Effect.appended = [] := by
    rw [List.filterMap_append, appended_sends, appended_entryEffects, List.append_nil]
  cases h with
  | writing done hdone hstop => exact writesAhead_of_stopped hwrites hdone honce
  | applying done rest hentries hstop => exact writesAhead_of_wrote _ hwrites hwrote honce (List.append_assoc _ _ _) (hrest done)
  | installing hstop => exact writesAhead_of_wrote _ hwrites hwrote honce (List.append_assoc _ _ _) (hrest _)
  | advanced =>
      refine writesAhead_of_wrote (round.ready.messages.map .send ++ round.ready.committedEntries.flatMap entryEffects ++
          installEffects round.ready ++ [.advance] ++ round.light.messages.map .send) hwrites hwrote honce (by simp) ?_
      have hadvance : [Effect.advance].filterMap Effect.appended = [] := rfl
      simp only [List.filterMap_append, appended_sends, appended_entryEffects, appended_installEffects, hadvance, List.append_nil]

end RaftNode

/-! ### Runs -/

/-- In every run of the manager and of the node. -/
theorem written_before_shown {σ : Type} (codec : ManagerCodec) (manager : RaftManager) (inputs : List RaftManager.Input)
    (machine : NodeStateMachine σ) (prost : ProstCodec Snapshot) (node : RaftNode σ) (nodeInputs : List RaftNode.Input) :
    (∀ handled ∈ RaftManager.history codec manager inputs, WritesAhead handled) ∧
      ∀ handled ∈ RaftNode.history machine prost node nodeInputs, WritesAhead handled := by
  refine ⟨RaftManager.history_good ⟨?_, ?_⟩ (RaftManager.runMeets_any codec manager inputs), ?_⟩
  · exact fun _ _ _ htrace => RaftManager.writesAhead_inline htrace
  · exact fun _ _ _ _ htrace => RaftManager.writesAhead_ready htrace
  · exact RaftNode.history_good node (fun _ _ _ => RaftNode.writesAhead_of_trace) fun _ _ _ _ => trivial

end IrohRaft
