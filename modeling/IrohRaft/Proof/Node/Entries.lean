import IrohRaft.Proof.Node.Rounds
import IrohRaft.Storage.Eraftpb

/-!
# Committed entries take effect once

Every entry takes effect once, in order, and its Ready is advanced past, in a run in which the entries all come with a
Ready, are proposals, and are handled without a failure. The entries of a LightReady are not looked at, and an entry
that changes the membership is read as a proposal, which it is not: its Ready is never advanced past.
-/

namespace IrohRaft.RaftNode

open Rust

variable {σ : Type}

/-! ### What is wanted -/

def hasData (entry : Entry) : Bool := !entry.data.isEmpty

def isConfChange (entry : Entry) : Bool := entry.kind ≠ .entryNormal

/-- A normal entry without data, as a new leader appends, has no effect to take. -/
structure EntriesTakeEffect (history : List Handled) : Prop where
  normalOnce : ∀ entry ∈ handedOut history, isConfChange entry = false → hasData entry = true →
    (appliedEntries history).count entry = 1
  confChangeOnce : ∀ entry ∈ handedOut history, isConfChange entry = true → (appliedConfChanges history).count entry = 1
  inOrder : (takenEntries history).Pairwise fun first second => first.index < second.index
  advances : ∀ handled ∈ history, handled.ready.committedEntries ≠ [] → .advance ∈ handled.effects

/-! ### When -/

/-- The entries are proposals, and nothing fails that is done for them. -/
structure Round.Succeeds (machine : NodeStateMachine σ) (round : Round) : Prop where
  faultless : round.Faultless
  installs : round.Installs machine
  reads : ∀ entry ∈ round.ready.committedEntries, isConfChange entry = false ∧ Reads entry

structure Round.TakesAll (machine : NodeStateMachine σ) (round : Round) : Prop where
  ready : round.ready.committedEntries = [] ∨ round.Succeeds machine
  light : ∀ entry ∈ round.light.committedEntries, isConfChange entry = false ∧ hasData entry = false

/-! ### One Ready -/

structure Takes (handled : Handled) : Prop where
  entries : handled.effects.filterMap Effect.takenEntry = handled.handedOut.filter hasData
  proposals : ∀ effect ∈ handled.effects, effect.appliedConfChange = none
  normal : ∀ entry ∈ handled.handedOut, isConfChange entry = false
  advances : handled.ready.committedEntries ≠ [] → .advance ∈ handled.effects

theorem takenEntry_eq_appliedEntry {effect : Effect} (h : effect.appliedConfChange = none) :
    effect.takenEntry = effect.appliedEntry := by
  cases effect <;> simp_all [Effect.takenEntry, Effect.appliedEntry, Effect.appliedConfChange]

theorem filterMap_persistEffects {ready : Ready} {done : List Effect} (h : done ⊆ persistEffects ready) :
    done.filterMap Effect.takenEntry = [] := by
  refine List.filterMap_eq_nil_iff.mpr fun effect heffect => ?_
  obtain ⟨_, rfl⟩ | ⟨_, rfl⟩ := mem_persistEffects (h heffect) <;> simp [Effect.takenEntry]

theorem filterMap_sends (messages : List Message) : (messages.map Effect.send).filterMap Effect.takenEntry = [] := by
  simp [Effect.takenEntry]

theorem filterMap_entryEffects (entries : List Entry) :
    (entries.flatMap entryEffects).filterMap Effect.takenEntry = entries.filter hasData := by
  induction entries with
  | nil => simp
  | cons entry rest ih =>
      rw [List.flatMap_cons, List.filterMap_append, ih, List.filter_cons, entryEffects, hasData]
      cases entry.data.isEmpty <;> simp [Effect.takenEntry]

theorem filterMap_installEffects (ready : Ready) : (installEffects ready).filterMap Effect.takenEntry = [] := by
  refine List.filterMap_eq_nil_iff.mpr fun effect heffect => ?_
  simp [mem_installEffects heffect, Effect.takenEntry]

variable {machine : NodeStateMachine σ} {prost : ProstCodec Snapshot} {round : Round} {effects : List Effect}

/-- The membership is never changed. -/
theorem appliedConfChange_eq_none (h : ReadyTrace machine round effects) :
    ∀ effect ∈ effects, effect.appliedConfChange = none := by
  have hpersist : ∀ effect ∈ persistEffects round.ready, effect.appliedConfChange = none := by
    intro effect heffect
    obtain ⟨_, rfl⟩ | ⟨_, rfl⟩ := mem_persistEffects heffect <;> simp [Effect.appliedConfChange]
  have hsent (messages : List Message) : ∀ effect ∈ messages.map Effect.send, effect.appliedConfChange = none := by
    intro effect heffect
    obtain ⟨message, -, rfl⟩ := List.mem_map.mp heffect
    simp [Effect.appliedConfChange]
  have hentries (entries : List Entry) : ∀ effect ∈ entries.flatMap entryEffects, effect.appliedConfChange = none := by
    intro effect heffect
    obtain ⟨entry, -, hentry⟩ := List.mem_flatMap.mp heffect
    simp [mem_entryEffects hentry, Effect.appliedConfChange]
  have hinstall : ∀ effect ∈ installEffects round.ready, effect.appliedConfChange = none := by
    intro effect heffect
    simp [mem_installEffects heffect, Effect.appliedConfChange]
  cases h with
  | writing done hdone hstop => exact fun effect heffect => hpersist effect (hdone.subset heffect)
  | applying done rest hrest hstop =>
      simp only [List.forall_mem_append]
      exact ⟨⟨hpersist, hsent _⟩, hentries _⟩
  | installing hstop =>
      simp only [List.forall_mem_append]
      exact ⟨⟨hpersist, hsent _⟩, hentries _⟩
  | advanced =>
      simp only [List.forall_mem_append]
      exact ⟨⟨⟨⟨⟨hpersist, hsent _⟩, hentries _⟩, hinstall⟩, by simp [Effect.appliedConfChange]⟩, hsent _⟩

/-- The LightReady hands out only what has no effect. -/
theorem filter_handedOut (hround : round.TakesAll machine) :
    (Handled.handedOut ⟨round.ready, round.light, effects⟩).filter hasData = round.ready.committedEntries.filter hasData := by
  rw [Handled.handedOut, List.filter_append]
  refine List.append_right_eq_self.mpr (List.filter_eq_nil_iff.mpr fun entry hentry => ?_)
  split at hentry
  · simp [(hround.light entry hentry).2]
  · simp at hentry

theorem takes_of_trace (hround : round.TakesAll machine) (h : ReadyTrace machine round effects) :
    Takes ⟨round.ready, round.light, effects⟩ := by
  have hproposals := appliedConfChange_eq_none h
  have hnormal : ∀ entry ∈ Handled.handedOut ⟨round.ready, round.light, effects⟩, isConfChange entry = false := by
    intro entry hentry
    obtain hready | hlight := List.mem_append.mp (handedOut_subset _ hentry)
    · obtain hnone | hsucceeds := hround.ready
      · simp [hnone] at hready
      · exact (hsucceeds.reads entry hready).1
    · exact (hround.light entry hlight).1
  -- A handling that stops early has no committed entries to take.
  have hstopped (hstop : ¬ round.Succeeds machine) (htaken : effects.filterMap Effect.takenEntry = [] ∨
      effects.filterMap Effect.takenEntry = round.ready.committedEntries.filter hasData) :
      Takes ⟨round.ready, round.light, effects⟩ := by
    have hnone : round.ready.committedEntries = [] := hround.ready.resolve_right hstop
    refine ⟨?_, hproposals, hnormal, fun hsome => absurd hnone hsome⟩
    rw [filter_handedOut hround]
    simpa [hnone] using htaken
  cases h with
  | writing done hdone hstop =>
      exact hstopped (fun hsucceeds => hstop hsucceeds.faultless) (.inl (filterMap_persistEffects hdone.subset))
  | applying done rest hentries hstop =>
      obtain ⟨entry, hentry, hunread⟩ := hstop
      have hmem : entry ∈ round.ready.committedEntries := hentries ▸ List.mem_append_right done hentry
      obtain hnone | hsucceeds := hround.ready
      · simp [hnone] at hmem
      · exact absurd (hsucceeds.reads entry hmem).2 hunread
  | installing hstop =>
      refine hstopped (fun hsucceeds => hstop ⟨hsucceeds.faultless, hsucceeds.installs⟩) (.inr ?_)
      simp only [List.filterMap_append, filterMap_persistEffects (List.Subset.refl _), filterMap_sends, filterMap_entryEffects,
        List.nil_append]
  | advanced =>
      refine ⟨?_, hproposals, hnormal, by simp⟩
      have hadvance : [Effect.advance].filterMap Effect.takenEntry = [] := by simp [Effect.takenEntry]
      rw [filter_handedOut hround]
      simp only [List.filterMap_append, filterMap_persistEffects (List.Subset.refl _), filterMap_sends, filterMap_entryEffects,
        filterMap_installEffects, hadvance, List.nil_append, List.append_nil]

/-! ### Runs -/

theorem entries_take_effect (machine : NodeStateMachine σ) (prost : ProstCodec Snapshot) (node : RaftNode σ) (inputs : List Input)
    (hcontract : HandsOutOnce (history machine prost node inputs))
    (hinputs : ∀ input ∈ inputs, ∀ round ∈ input.next, round.TakesAll machine) :
    EntriesTakeEffect (history machine prost node inputs) := by
  have hgood : ∀ handled ∈ history machine prost node inputs, Takes handled :=
    history_good node (fun _ hround _ => takes_of_trace hround) hinputs
  have htaken :
      takenEntries (history machine prost node inputs) = (handedOut (history machine prost node inputs)).filter hasData :=
    flatMap_filterMap_eq fun handled hhandled => (hgood handled hhandled).entries
  have happlied : appliedEntries (history machine prost node inputs) = takenEntries (history machine prost node inputs) := by
    refine List.flatMap_congr fun handled hhandled => List.filterMap_congr fun effect heffect => ?_
    exact (takenEntry_eq_appliedEntry ((hgood handled hhandled).proposals effect heffect)).symm
  refine ⟨fun entry hentry _ hdata => ?_, fun entry hentry hchange => ?_, ?_, fun handled hhandled => ?_⟩
  · rw [happlied, htaken]
    exact count_filter_eq_one hcontract hentry hdata
  · obtain ⟨handled, hhandled, hout⟩ := List.mem_flatMap.mp hentry
    simp [(hgood handled hhandled).normal entry hout] at hchange
  · rw [htaken]
    exact hcontract.filter _
  · exact (hgood handled hhandled).advances

/-- A proposal, as the log of a leader carries it. -/
def proposed : Entry :=
  { entryType := 0, term := 1, index := 2, data := (ProposalData.raw [7]).encode, context := [], syncLog := false }

/-- A leader whose first entry and whose first proposal are committed. -/
def proposalCommitted : Round where
  ready := { committedEntries := [.noop 1 1, proposed] }

theorem entries_take_effect_proposal :
    EntriesTakeEffect (history recorder prostSnapshot freshNode [.tick (some proposalCommitted)]) := by
  refine entries_take_effect recorder prostSnapshot freshNode [.tick (some proposalCommitted)] ?_ fun input hinput round hround => ?_
  · show List.Pairwise _ _
    decide
  · obtain rfl := List.mem_singleton.mp hinput
    obtain rfl := Option.some.inj hround
    refine ⟨.inr ⟨by simp [Round.Faultless, proposalCommitted], fun _ _ => rfl, fun entry hentry => ?_⟩, by decide⟩
    obtain rfl | rfl : entry = .noop 1 1 ∨ entry = proposed := by simpa [proposalCommitted] using hentry
    · exact ⟨by decide, .inl rfl⟩
    · exact ⟨by decide, .inr ⟨(.raw [7], []), by decide⟩⟩

/-- The leader of three nodes, when the removal of the third is committed. -/
def removalCommitted : Round where
  ready :=
    { committedEntries :=
        [{ entryType := 1, term := 1, index := 2, data := (removePeer 3).encode, context := [], syncLog := false }] }

theorem not_entries_take_effect :
    ¬ ∀ (σ : Type) (machine : NodeStateMachine σ) (prost : ProstCodec Snapshot) (node : RaftNode σ) (inputs : List Input),
      HandsOutOnce (history machine prost node inputs) → EntriesTakeEffect (history machine prost node inputs) := by
  intro h
  have hcontract : HandsOutOnce (history recorder prostSnapshot freshNode [.tick (some removalCommitted)]) := by
    show List.Pairwise _ _
    decide
  have hadvances := (h _ recorder prostSnapshot freshNode [.tick (some removalCommitted)] hcontract).advances
  exact absurd (hadvances ⟨removalCommitted.ready, {}, []⟩ (by decide) (by decide)) (by decide)

end IrohRaft.RaftNode
