import IrohRaft.Proof.Node.Rounds
import IrohRaft.Proof.Raft.Messages
import IrohRaft.Storage.Eraftpb

/-!
# What the node does about messages

The node never looks at the persisted messages of a Ready. A run in which there are none, and in which the writes of a
Ready with messages succeed, hands every message over; with the runs of the manager, that is what holds of messages.
-/

namespace IrohRaft

open Rust

namespace RaftNode

variable {σ : Type}

structure Round.Sends (round : Round) : Prop where
  persistedMessages : round.ready.persistedMessages = []
  persists : round.ready.messages = [] ∨ round.Faultless

/-! ### One Ready -/

variable {machine : NodeStateMachine σ} {prost : ProstCodec Snapshot} {round : Round} {effects : List Effect}

theorem wrote_persistEffects (ready : Ready) : Wrote ready (persistEffects ready) := by
  refine ⟨fun hentries => ?_, fun hs hhs => ?_⟩
  · simp [persistEffects, hentries]
  · rw [persistEffects, Option.mem_def.mp hhs]
    simp

theorem sent_persistEffects {ready : Ready} (h : effects ⊆ persistEffects ready) : effects.filterMap Effect.sentMessage = [] := by
  refine List.filterMap_eq_nil_iff.mpr fun effect heffect => ?_
  obtain ⟨_, rfl⟩ | ⟨_, rfl⟩ := mem_persistEffects (h heffect) <;> simp [Effect.sentMessage]

theorem sent_sends (messages : List Message) : (messages.map Effect.send).filterMap Effect.sentMessage = messages := by
  simp [Function.comp_def, Effect.sentMessage]

theorem sent_entryEffects (entries : List Entry) : (entries.flatMap entryEffects).filterMap Effect.sentMessage = [] := by
  refine List.filterMap_eq_nil_iff.mpr fun effect heffect => ?_
  obtain ⟨entry, -, hentry⟩ := List.mem_flatMap.mp heffect
  simp [mem_entryEffects hentry, Effect.sentMessage]

theorem sent_installEffects (ready : Ready) : (installEffects ready).filterMap Effect.sentMessage = [] := by
  refine List.filterMap_eq_nil_iff.mpr fun effect heffect => ?_
  simp [mem_installEffects heffect, Effect.sentMessage]

theorem advance_not_mem_writes {ready : Ready} (h : effects ⊆ persistEffects ready) : Effect.advance ∉ effects := by
  intro hmem
  obtain ⟨_, heq⟩ | ⟨_, heq⟩ := mem_persistEffects (h hmem) <;> simp at heq

theorem advance_not_mem_before (ready : Ready) (entries : List Entry) :
    Effect.advance ∉ persistEffects ready ++ ready.messages.map Effect.send ++ entries.flatMap entryEffects := by
  intro hmem
  obtain hbefore | happlied := List.mem_append.mp hmem
  · obtain hwrites | hsends := List.mem_append.mp hbefore
    · exact advance_not_mem_writes (List.Subset.refl _) hwrites
    · obtain ⟨message, -, heq⟩ := List.mem_map.mp hsends
      simp at heq
  · obtain ⟨entry, -, hentry⟩ := List.mem_flatMap.mp happlied
    have heq := mem_entryEffects hentry
    simp at heq

theorem handsOver_of_trace (hround : round.Sends) (h : ReadyTrace machine round effects) :
    HandsOver id ⟨round.ready, round.light, effects⟩ := by
  have hwrites := sent_persistEffects (List.Subset.refl (persistEffects round.ready))
  have hbefore (entries : List Entry) : HandsOver id ⟨round.ready, round.light,
      persistEffects round.ready ++ round.ready.messages.map .send ++ entries.flatMap entryEffects⟩ := by
    refine handsOver_of_writes (round.ready.messages.map .send ++ entries.flatMap entryEffects) (by simp)
      (wrote_persistEffects _) hwrites ?_
    rw [emitted_of_not_mem (advance_not_mem_before round.ready entries), hround.persistedMessages]
    simp only [List.filterMap_append, sent_sends, sent_entryEffects, List.append_nil, List.map_id]
  cases h with
  | writing done hdone hstop =>
      refine handsOver_of_nothing ?_ (sent_persistEffects hdone.subset)
      rw [emitted_of_not_mem (advance_not_mem_writes hdone.subset), hround.persistedMessages, hround.persists.resolve_right hstop]
      simp
  | applying done rest hentries hstop => exact hbefore done
  | installing hstop => exact hbefore round.ready.committedEntries
  | advanced =>
      have hadvance : [Effect.advance].filterMap Effect.sentMessage = [] := by simp [Effect.sentMessage]
      refine handsOver_of_writes (round.ready.messages.map .send ++ round.ready.committedEntries.flatMap entryEffects ++
        installEffects round.ready ++ [.advance] ++ round.light.messages.map .send) (by simp) (wrote_persistEffects _) hwrites ?_
      rw [emitted_of_mem (by simp), hround.persistedMessages]
      simp only [List.filterMap_append, sent_sends, sent_entryEffects, sent_installEffects, hadvance, List.append_nil, List.map_id]

end RaftNode

/-! ### Runs -/

/-- A follower that is sent an entry answers once it is written. -/
def answered : RaftManager.Round where
  ready :=
    { entries := [.noop 1 1]
      persistedMessages := [{ msgType := 4, toId := 1, fromId := 0, term := 1, index := 1 }] }

def entrySent : RaftManager.Input :=
  .message 1 { msgType := 3, toId := 2, fromId := 1, term := 1 } (fun _ => .ok ()) (some answered) none

/-- A leader's heartbeat. -/
def heartbeat : RaftNode.Round where
  ready := { messages := [{ msgType := 8, toId := 2, fromId := 1, term := 1 }] }

/-- A node that starts an election is no leader: its requests for votes are among the persisted messages. -/
def campaign : Ready where
  hs := some { term := 1, vote := 1 }
  persistedMessages := [{ msgType := 5, toId := 2, fromId := 1, term := 1 }]

end IrohRaft
