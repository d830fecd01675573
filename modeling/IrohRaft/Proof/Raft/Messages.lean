import IrohRaft.Proof.Raft.Runs

/-!
# What the manager does about messages

Every message of a Ready reaches the transport once, and the persisted ones after the writes, in a run in which
`on_ready` is handed no persisted messages, in which what `advance` answers after a step carries no messages, and in
which the writes of a Ready with messages succeed. A node that is no leader has all its messages among the persisted
ones: those of a Ready that follows a tick or a proposal are lost.
-/

namespace IrohRaft

open Rust

/-! ### Handing over -/

/-- The entries and the hard state of the Ready are written. -/
structure Wrote (ready : Ready) (effects : List Effect) : Prop where
  entries : ready.entries ≠ [] → .append ready.entries ∈ effects
  hardState : ∀ hs ∈ ready.hs, .saveHardState hs ∈ effects

/-- What the raft crate emits is handed over, each message once, in the form the transport is given it. -/
structure HandsOver (deliver : Message → Message) (handled : Handled) : Prop where
  once : (handled.effects.filterMap Effect.sentMessage).Perm (handled.emitted.map deliver)
  afterWrites : ∀ message ∈ handled.ready.persistedMessages, ∀ before after,
    handled.effects = before ++ .send (deliver message) :: after → Wrote handled.ready before

theorem Wrote.mono {ready : Ready} {effects more : List Effect} (h : Wrote ready effects) (hmore : effects ⊆ more) :
    Wrote ready more :=
  ⟨fun hentries => hmore (h.entries hentries), fun hs hhs => hmore (h.hardState hs hhs)⟩

theorem send_not_mem {effects : List Effect} (h : effects.filterMap Effect.sentMessage = []) (message : Message) :
    .send message ∉ effects := by
  intro hmem
  have hnone := List.filterMap_eq_nil_iff.mp h (.send message) hmem
  simp [Effect.sentMessage] at hnone

theorem emitted_of_not_mem {handled : Handled} (h : .advance ∉ handled.effects) :
    handled.emitted = handled.ready.messages ++ handled.ready.persistedMessages := by
  rw [Handled.emitted, if_neg h, List.append_nil]

theorem emitted_of_mem {handled : Handled} (h : .advance ∈ handled.effects) :
    handled.emitted = handled.ready.messages ++ handled.ready.persistedMessages ++ handled.light.messages := by
  rw [Handled.emitted, if_pos h]

/-- Messages are handed over behind the writes. -/
theorem handsOver_of_writes {deliver : Message → Message} {handled : Handled} {writes : List Effect} (rest : List Effect)
    (heffects : handled.effects = writes ++ rest) (hwrote : Wrote handled.ready writes)
    (hwrites : writes.filterMap Effect.sentMessage = [])
    (hrest : rest.filterMap Effect.sentMessage = handled.emitted.map deliver) : HandsOver deliver handled := by
  refine ⟨?_, fun message _ before after hsplit => ?_⟩
  · rw [heffects, List.filterMap_append, hwrites, List.nil_append, hrest]
  · rw [heffects] at hsplit
    exact hwrote.mono (Handler.prefix_before hsplit (send_not_mem hwrites _)).subset

/-- There is nothing to hand over. -/
theorem handsOver_of_nothing {deliver : Message → Message} {handled : Handled}
    (hemitted : handled.emitted = []) (heffects : handled.effects.filterMap Effect.sentMessage = []) :
    HandsOver deliver handled := by
  refine ⟨?_, fun message _ before after hsplit => ?_⟩
  · rw [heffects, hemitted, List.map_nil]
  · exact absurd (hsplit ▸ List.mem_append_right before List.mem_cons_self) (send_not_mem heffects _)

namespace RaftManager

/-! ### When -/

/-- A Ready that is handled right after a step: all its own messages are handed over. -/
structure Round.SendsInline (codec : ManagerCodec) (round : Round) : Prop where
  light : round.light.messages = []
  persists : round.ready.messages ++ round.ready.persistedMessages = [] ∨ round.Persists codec

/-- A Ready that `on_ready` handles: the messages of the LightReady are handed over as well. -/
structure Round.SendsReady (codec : ManagerCodec) (round : Round) : Prop where
  persistedMessages : round.ready.persistedMessages = []
  persists : round.ready.messages = [] ∨ round.Installs codec ∧ round.Persists codec

/-- A run whose Readys hand over what they bring. -/
def SendsInRun (codec : ManagerCodec) : RaftManager → List Input → Prop :=
  RunMeets codec (Round.SendsInline codec) fun _ => Round.SendsReady codec

/-! ### One Ready -/

variable {codec : ManagerCodec} {round : Round} {nodeId : UInt64} {isOpen : Prop} {effects : List Effect} {messages : List Message}

theorem wrote_persistEffects (ready : Ready) : Wrote ready (persistEffects ready) := by
  refine ⟨fun hentries => ?_, fun hs hhs => ?_⟩
  · simp [persistEffects, hentries]
  · rw [persistEffects, Option.mem_def.mp hhs]
    simp

theorem sent_writes {ready : Ready} (h : effects ⊆ installEffects ready ++ persistEffects ready) :
    effects.filterMap Effect.sentMessage = [] := by
  refine List.filterMap_eq_nil_iff.mpr fun effect heffect => ?_
  obtain ⟨_, rfl⟩ | ⟨_, rfl⟩ | ⟨_, rfl⟩ := mem_writes (h heffect) <;> simp [Effect.sentMessage]

theorem sent_sends (hopen : isOpen) (h : Sends nodeId isOpen messages effects) :
    effects.filterMap Effect.sentMessage = messages.map (fixFrom nodeId) := by
  rw [h.complete hopen]
  simp [Function.comp_def, Effect.sentMessage]

theorem sent_entryEffects (entries : List Entry) : (entries.flatMap entryEffects).filterMap Effect.sentMessage = [] := by
  refine List.filterMap_eq_nil_iff.mpr fun effect heffect => ?_
  obtain ⟨entry, -, hentry⟩ := List.mem_flatMap.mp heffect
  obtain rfl | rfl := mem_entryEffects hentry <;> simp [Effect.sentMessage]

theorem sent_confChangeEffects (entries : List Entry) :
    (entries.flatMap confChangeEffects).filterMap Effect.sentMessage = [] := by
  refine List.filterMap_eq_nil_iff.mpr fun effect heffect => ?_
  obtain ⟨entry, -, hentry⟩ := List.mem_flatMap.mp heffect
  simp [mem_confChangeEffects hentry, Effect.sentMessage]

theorem handsOver_inline (hopen : isOpen) (hround : round.SendsInline codec) (h : InlineTrace codec round nodeId isOpen effects) :
    HandsOver (fixFrom nodeId) ⟨round.ready, round.light, effects⟩ := by
  have hemitted : Handled.emitted ⟨round.ready, round.light, effects⟩ = round.ready.messages ++ round.ready.persistedMessages := by
    simp [Handled.emitted, hround.light]
  have hwrites : (persistEffects round.ready).filterMap Effect.sentMessage = [] := sent_writes (List.subset_append_right _ _)
  cases h with
  | writing done hdone hstop =>
      have hsubset : effects ⊆ installEffects round.ready ++ persistEffects round.ready :=
        List.Subset.trans hdone.subset (List.subset_append_right _ _)
      exact handsOver_of_nothing (hemitted.trans (hround.persists.resolve_right hstop)) (sent_writes hsubset)
  | applying sent persisted done hsent hpersisted =>
      refine handsOver_of_writes (sent ++ persisted ++ done.flatMap confChangeEffects) (by simp) (wrote_persistEffects _) hwrites ?_
      rw [hemitted]
      simp [sent_sends hopen hsent, sent_sends hopen hpersisted, sent_confChangeEffects]
  | advanced sent persisted hsent hpersisted =>
      refine handsOver_of_writes (sent ++ persisted ++ round.ready.committedEntries.flatMap confChangeEffects ++ [.advance]) (by simp)
        (wrote_persistEffects _) hwrites ?_
      rw [hemitted]
      simp [sent_sends hopen hsent, sent_sends hopen hpersisted, sent_confChangeEffects, List.filterMap_cons, Effect.sentMessage]

theorem handsOver_ready (hopen : isOpen) (hround : round.SendsReady codec) {fetched : List Entry}
    (h : ReadyTrace codec round nodeId isOpen fetched effects) :
    HandsOver (fixFrom nodeId) ⟨round.ready, round.light, effects⟩ := by
  have hwrote : Wrote round.ready (installEffects round.ready ++ persistEffects round.ready) :=
    (wrote_persistEffects round.ready).mono (List.subset_append_right _ _)
  have hwrites := sent_writes (List.Subset.refl (installEffects round.ready ++ persistEffects round.ready))
  cases h with
  | writing done hdone hstop =>
      refine handsOver_of_nothing ?_ (sent_writes hdone.subset)
      rw [emitted_of_not_mem (advance_not_mem_writes hdone.subset), hround.persistedMessages, hround.persists.resolve_right hstop]
      simp
  | applying sent done rest hsent hentries hstop =>
      refine handsOver_of_writes (sent ++ done.flatMap entryEffects) (by simp) hwrote hwrites ?_
      rw [emitted_of_not_mem (advance_not_mem_before hsent done), hround.persistedMessages]
      simp [sent_sends hopen hsent, sent_entryEffects]
  | advanced sent lightSent saved done rest applied hsent hlight hsaved hentries happlied hstop =>
      have hsavedNone : saved.filterMap Effect.sentMessage = [] := by
        refine List.filterMap_eq_nil_iff.mpr fun effect heffect => ?_
        obtain ⟨hardState, rfl⟩ := hsaved effect heffect
        simp [Effect.sentMessage]
      have happliedNone : applied.filterMap Effect.sentMessage = [] := by
        refine List.filterMap_eq_nil_iff.mpr fun effect heffect => ?_
        obtain ⟨index, rfl⟩ := happlied effect heffect
        simp [Effect.sentMessage]
      refine handsOver_of_writes (sent ++ round.ready.committedEntries.flatMap entryEffects ++ [.advance] ++ lightSent ++ saved ++
        done.flatMap entryEffects ++ applied) (by simp) hwrote hwrites ?_
      rw [emitted_of_mem (by simp), hround.persistedMessages]
      simp [sent_sends hopen hsent, sent_sends hopen hlight, sent_entryEffects, hsavedNone, happliedNone, List.filterMap_cons,
        Effect.sentMessage]

/-! ### Runs -/

theorem ensures_handsOver (codec : ManagerCodec) (nodeId : UInt64) (hopen : isOpen) :
    Ensures codec (Round.SendsInline codec) (fun _ => Round.SendsReady codec) nodeId isOpen (HandsOver (fixFrom nodeId)) where
  ofInline _ hround _ h := handsOver_inline hopen hround h
  ofReady _ _ hround _ h := handsOver_ready hopen hround h

theorem history_handsOver {manager : RaftManager} {inputs : List Input} (hopen : manager.outgoingMessages = none)
    (hmeets : SendsInRun codec manager inputs) :
    ∀ handled ∈ history codec manager inputs, HandsOver (fixFrom manager.nodeId) handled :=
  history_good (ensures_handsOver codec manager.nodeId hopen) hmeets

end RaftManager

end IrohRaft
