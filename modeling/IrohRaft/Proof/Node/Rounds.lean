import IrohRaft.Node
import IrohRaft.Proof.Raft.Handling

/-!
# What the node's handling of a Ready does

The effects of `handle_ready`, wherever it stops: at a write that fails, at an entry whose data is no proposal, or at a
snapshot that is not taken. From them, what all the Readys of a run have in common.
-/

namespace IrohRaft.RaftNode

open Rust Redb Handler

variable {σ : Type}

/-! ### The effects -/

def persistEffects (ready : Ready) : List Effect :=
  (ready.hs.map Effect.saveHardState).toList ++ (if ready.entries.isEmpty then [] else [.append ready.entries])

def entryEffects (entry : Entry) : List Effect := if entry.data.isEmpty then [] else [.applyEntry entry]

def installEffects (ready : Ready) : List Effect := if hasSnapshot ready then [.installSnapshot ready.snapshot] else []

/-- The data of an entry is a proposal, or there is none. -/
def Reads (entry : Entry) : Prop := entry.data = [] ∨ ∃ proposal, ProposalData.decode entry.data = .ok proposal

/-- The state machine takes the snapshot, whatever its state. -/
def Round.Installs (machine : NodeStateMachine σ) (round : Round) : Prop :=
  hasSnapshot round.ready = true → ∀ state, (machine.restore round.ready.snapshot.data state).1 = .ok ()

def Round.Faultless (round : Round) : Prop := ∀ fault ∈ round.faults, fault = none

inductive ReadyTrace (machine : NodeStateMachine σ) (round : Round) : List Effect → Prop where
  | writing (done : List Effect) (hdone : done <+: persistEffects round.ready) (hstop : ¬ round.Faultless) : ReadyTrace machine round done
  | applying (done rest : List Entry) (hentries : round.ready.committedEntries = done ++ rest) (hstop : ∃ entry ∈ rest, ¬ Reads entry) :
      ReadyTrace machine round
        (persistEffects round.ready ++ round.ready.messages.map .send ++ done.flatMap entryEffects)
  | installing (hstop : ¬ (round.Faultless ∧ round.Installs machine)) :
      ReadyTrace machine round
        (persistEffects round.ready ++ round.ready.messages.map .send ++ round.ready.committedEntries.flatMap entryEffects)
  | advanced :
      ReadyTrace machine round
        (persistEffects round.ready ++ round.ready.messages.map .send ++ round.ready.committedEntries.flatMap entryEffects ++
          installEffects round.ready ++ [.advance] ++ round.light.messages.map .send)

theorem mem_persistEffects {ready : Ready} {effect : Effect} (h : effect ∈ persistEffects ready) :
    (∃ hardState, effect = .saveHardState hardState) ∨ ∃ entries, effect = .append entries := by
  simp only [persistEffects, List.mem_append, Option.mem_toList, Option.map_eq_some_iff] at h
  obtain ⟨hs, -, rfl⟩ | happend := h
  · exact .inl ⟨hs, rfl⟩
  · split at happend
    · simp at happend
    · exact .inr ⟨_, List.mem_singleton.mp happend⟩

theorem mem_installEffects {ready : Ready} {effect : Effect} (h : effect ∈ installEffects ready) :
    effect = .installSnapshot ready.snapshot := by
  rw [installEffects] at h
  split at h
  · exact List.mem_singleton.mp h
  · simp at h

theorem mem_entryEffects {entry : Entry} {effect : Effect} (h : effect ∈ entryEffects entry) : effect = .applyEntry entry := by
  rw [entryEffects] at h
  split at h
  · simp at h
  · exact List.mem_singleton.mp h

/-! ### The parts -/

variable {machine : NodeStateMachine σ} {prost : ProstCodec Snapshot} {round : Round} {past : List Handled} {effects : List Effect}
  {stop : Observed (RaftNode σ) → Prop}

/-- Nothing needs to be known of the node itself. -/
abbrev Doing (round : Round) (past : List Handled) (effects : List Effect) (seen : Observed (RaftNode σ)) : Prop :=
  Left round.faults past effects seen

theorem writeStorage_spec (update : RaftStorage → RaftStorage) :
    Action.Triple (fun seen : Observed (RaftNode σ) => Doing round past effects seen) (writeStorage update)
      (fun _ => Doing round past effects)
      (fun seen => ¬ round.Faultless ∧ Doing round past effects seen) := by
  refine (store_spec fun _ _ _ _ => trivial).stopping fun seen ⟨hfails, h⟩ => ⟨fun hfine => hfails ⟨hfine, ?_⟩, h⟩
  exact fun start => ⟨(), rfl⟩

theorem saveHardState_spec :
    Action.Triple (Doing round past effects) (saveHardState round.ready : Handler (RaftNode σ) Unit)
      (fun _ => Doing round past (effects ++ (round.ready.hs.map Effect.saveHardState).toList))
      (fun seen => ¬ round.Faultless ∧ Doing round past effects seen) := by
  rw [saveHardState]
  cases round.ready.hs with
  | none =>
      simp only [Option.map_none, Option.toList_none, List.append_nil]
      exact Action.Triple.pure fun _ => id
  | some hs => exact (writeStorage_spec _).bind fun _ => record_spec _

theorem saveEntries_spec :
    Action.Triple (Doing round past effects) (saveEntries round.ready : Handler (RaftNode σ) Unit)
      (fun _ => Doing round past (effects ++ if round.ready.entries.isEmpty then [] else [.append round.ready.entries]))
      (fun seen => ¬ round.Faultless ∧ Doing round past effects seen) := by
  rw [saveEntries]
  by_cases hempty : round.ready.entries.isEmpty = true
  · simp only [if_pos hempty, List.append_nil]
    exact Action.Triple.pure fun _ => id
  · simp only [if_neg hempty]
    exact (writeStorage_spec _).bind fun _ => record_spec _

theorem sendAll_spec (messages : List Message) :
    Action.Triple (Doing round past effects) (messages.forM sendMessage : Handler (RaftNode σ) Unit)
      (fun _ => Doing round past (effects ++ messages.map .send)) stop := by
  refine Action.Triple.strengthen (Action.Triple.forM (fun (done : List Message) => Doing round past (effects ++ done.map .send))
    fun done message rest _ => ?_) fun seen h => by simpa using h
  exact (record_spec (.send message)).weaken fun _ seen h => h.of_eq (by simp)

theorem answerContext_spec (context : Bytes) (result : Except RaftError Bytes) :
    Action.Triple (fun seen : Observed (RaftNode σ) => Doing round past effects seen) (answerContext context result)
      (fun _ => Doing round past effects) stop := by
  rw [answerContext]
  split
  · exact Action.Triple.pure fun _ => id
  · exact onNode_spec fun _ _ => trivial

theorem applyEntry_spec (entry : Entry) :
    Action.Triple (Doing round past effects) (applyEntry machine entry)
      (fun _ => Doing round past (effects ++ entryEffects entry))
      (fun seen => ¬ Reads entry ∧ Doing round past effects seen) := by
  rw [applyEntry, entryEffects]
  by_cases hempty : entry.data.isEmpty = true
  · simp only [if_pos hempty, List.append_nil]
    exact Action.Triple.pure fun _ => id
  · simp only [if_neg hempty]
    cases hdecode : ProposalData.decode entry.data with
    | error e =>
        refine Action.Triple.lift (by simp) fun _ seen h => ⟨fun hreads => ?_, h⟩
        obtain hnil | ⟨proposal, hproposal⟩ := hreads
        · simp [hnil] at hempty
        · simp [hdecode] at hproposal
    | ok proposal =>
        refine Action.Triple.get_bind fun seen _ => ?_
        exact (onNode_spec fun _ _ => trivial).bind fun _ => (record_spec _).bind fun _ => answerContext_spec _ _

theorem applyEntries_spec (entries : List Entry) :
    Action.Triple (Doing round past effects) (entries.forM (applyEntry machine))
      (fun _ => Doing round past (effects ++ entries.flatMap entryEffects))
      (fun seen => ∃ done rest, entries = done ++ rest ∧ (∃ entry ∈ rest, ¬ Reads entry) ∧
        Doing round past (effects ++ done.flatMap entryEffects) seen) := by
  refine Action.Triple.strengthen (Action.Triple.forM (fun (done : List Entry) =>
    Doing round past (effects ++ done.flatMap entryEffects)) fun done entry rest hentries => ?_) fun seen h => by simpa using h
  refine (applyEntry_spec entry).consequence (fun _ => id) (fun _ seen h => h.of_eq (by simp)) fun seen ⟨hunread, h⟩ => ?_
  exact ⟨done, entry :: rest, hentries, ⟨entry, List.mem_cons_self, hunread⟩, h⟩

theorem restore_spec (data : Bytes) :
    Action.Triple (Doing round past effects) (restore machine data) (fun _ => Doing round past effects)
      (fun seen => (∃ state, (machine.restore data state).1 ≠ .ok ()) ∧ Doing round past effects seen) := by
  intro seen h
  rcases hrestore : machine.restore data seen.node.stateMachine with ⟨error | done, stateMachine⟩ <;> simp only [restore, hrestore]
  · exact ⟨⟨seen.node.stateMachine, by simp [hrestore]⟩, h.effects_eq, h.history_eq, h.faults_mem, trivial⟩
  · exact ⟨h.effects_eq, h.history_eq, h.faults_mem, trivial⟩

theorem applySnapshot_spec :
    Action.Triple (Doing round past effects) (applySnapshot machine prost round.ready)
      (fun _ => Doing round past (effects ++ installEffects round.ready))
      (fun seen => ¬ (round.Faultless ∧ round.Installs machine) ∧ Doing round past effects seen) := by
  rw [applySnapshot, installEffects]
  by_cases hsnapshot : hasSnapshot round.ready = true
  · simp only [if_pos hsnapshot]
    refine Action.Triple.bind ((restore_spec _).stopping ?_) fun _ =>
      Action.Triple.bind ((writeStorage_spec _).stopping ?_) fun _ => record_spec _
    · intro seen ⟨⟨state, hfails⟩, h⟩
      exact ⟨fun hfine => hfails (hfine.2 hsnapshot state), h⟩
    · exact fun seen ⟨hfails, h⟩ => ⟨fun hfine => hfails hfine.1, h⟩
  · simp only [if_neg hsnapshot, List.append_nil]
    exact Action.Triple.pure fun _ => id

/-! ### A whole handling -/

theorem handleReady_spec :
    Action.Triple (fun seen => seen.history = past) (handleReady machine prost round)
      (fun _ seen => ∃ effects, ReadyTrace machine round effects ∧ seen.history = past ++ [⟨round.ready, round.light, effects⟩])
      (fun seen => ∃ effects, ReadyTrace machine round effects ∧ seen.history = past ++ [⟨round.ready, round.light, effects⟩]) := by
  refine Action.Triple.consequence (handling_spec (fun _ => True) (fun _ => True) ?_) (fun seen h => ⟨h, trivial⟩)
    (fun _ seen h => h.1) fun _ => id
  refine Action.Triple.bind (saveHardState_spec.stopping ?_) fun _ => Action.Triple.bind (saveEntries_spec.stopping ?_) fun _ =>
    (sendAll_spec _).bind fun _ => Action.Triple.bind ((applyEntries_spec _).stopping ?_) fun _ =>
      Action.Triple.bind (applySnapshot_spec.stopping ?_) fun _ => (record_spec _).bind fun _ => (sendAll_spec _).weaken ?_
  · exact fun seen ⟨hfails, h⟩ => ⟨[], .writing [] List.nil_prefix hfails, h⟩
  · exact fun seen ⟨hfails, h⟩ => ⟨_, .writing _ (List.prefix_append _ _) hfails, h⟩
  · intro seen ⟨done, rest, hentries, hunread, h⟩
    exact ⟨_, .applying done rest hentries hunread, h.of_eq (by simp [persistEffects])⟩
  · exact fun seen ⟨hfails, h⟩ => ⟨_, .installing hfails, h.of_eq (by simp [persistEffects])⟩
  · exact fun _ seen h => ⟨_, .advanced, h.of_eq (by simp [persistEffects])⟩

/-! ### Runs -/

section Runs

variable {holds : Observed (RaftNode σ) → Prop}

/-- What a write and its effect keep, the saving of the hard state keeps. -/
theorem saveHardState_keeps (ready : Ready)
    (hwrite : ∀ hardState, Action.Triple holds (writeStorage fun storage => storage.saveHardState hardState) (fun _ => holds) stop)
    (hrecord : ∀ effect, Action.Triple holds (record effect) (fun _ => holds) stop) :
    Action.Triple holds (saveHardState ready) (fun _ => holds) stop := by
  rw [saveHardState]
  cases ready.hs with
  | none => exact Action.Triple.pure fun _ => id
  | some hardState => exact (hwrite hardState).bind fun _ => hrecord _

theorem saveEntries_keeps (ready : Ready)
    (hwrite : Action.Triple holds (writeStorage fun storage => storage.append ready.entries) (fun _ => holds) stop)
    (hrecord : ∀ effect, Action.Triple holds (record effect) (fun _ => holds) stop) :
    Action.Triple holds (saveEntries ready) (fun _ => holds) stop := by
  rw [saveEntries]
  split
  · exact Action.Triple.pure fun _ => id
  · exact hwrite.bind fun _ => hrecord _

theorem proposeConfChange_keeps (operation : String) (confChange : ConfChange) (leadership : Leadership)
    (submit : ConfChange → Except String Unit) :
    Action.Triple holds (proposeConfChange operation confChange leadership submit) (fun _ => holds) holds := by
  rw [proposeConfChange]
  split
  · split
    · exact Action.Triple.pure fun _ => id
    · exact Action.Triple.lift (by simp) fun _ _ => id
  · exact Action.Triple.lift (by simp) fun _ _ => id

/-- Besides what is done about a Ready, an input changes only the proposals that wait for an answer. -/
theorem handle_keeps {input : Input}
    (hpending : ∀ seen pendingProposals, holds seen → holds { seen with node.pendingProposals := pendingProposals })
    (hready : ∀ round ∈ input.next, Action.Triple holds (handleReady machine prost round) (fun _ => holds) holds) :
    Action.Triple holds (input.handle machine prost) (fun _ => holds) holds := by
  have hnext : Action.Triple holds (handleIfReady machine prost input.next) (fun _ => holds) holds := by
    cases hround : input.next with
    | none => exact Action.Triple.pure fun _ => id
    | some round => exact hready round hround
  cases input with
  | tick next => exact hnext
  | message answer next =>
      cases answer with
      | error e => exact Action.Triple.lift (by simp) fun _ _ => id
      | ok done => exact hnext
  | addPeer peerId address leadership submit => exact proposeConfChange_keeps _ _ _ _
  | removePeer peerId leadership submit => exact proposeConfChange_keeps _ _ _ _
  | propose proposalId responseTx data leadership submit =>
      have hnode (update : RaftNode σ → HashMap Bytes Nat) : Action.Triple holds
          (onNode fun node => { node with pendingProposals := update node }) (fun _ => holds) holds :=
        Action.Triple.modify fun seen => hpending seen (update seen.node)
      refine (hnode _).bind fun _ => ?_
      split
      · split
        · exact Action.Triple.pure fun _ => id
        · exact Action.Triple.lift (by simp) fun _ _ => id
      · exact (hnode _).bind fun _ => Action.Triple.lift (by simp) fun _ _ => id

/-- What the handling of every Ready of a run keeps. -/
theorem final_keeps (holds : Observed (RaftNode σ) → Prop) (node : RaftNode σ) {inputs : List Input}
    (hpending : ∀ seen pendingProposals, holds seen → holds { seen with node.pendingProposals := pendingProposals })
    (hready : ∀ input ∈ inputs, ∀ round ∈ input.next,
      Action.Triple holds (handleReady machine prost round) (fun _ => holds) holds) (hstart : holds { node }) :
    holds (Run.final (step machine prost) { node } inputs) :=
  Run.final_invariant holds (fun input hinput _ hseen => (handle_keeps hpending (hready input hinput)).final hseen) hstart

end Runs

/-- Every Ready of a run is handled as its condition ensures. -/
theorem history_good (node : RaftNode σ) {inputs : List Input} {ok : Round → Prop} {good : Handled → Prop}
    (h : ∀ round, ok round → ∀ effects, ReadyTrace machine round effects → good ⟨round.ready, round.light, effects⟩)
    (hinputs : ∀ input ∈ inputs, ∀ round ∈ input.next, ok round) :
    ∀ handled ∈ history machine prost node inputs, good handled := by
  have hready (round : Round) (hround : ok round) :
      Action.Triple (fun seen : Observed (RaftNode σ) => ∀ handled ∈ seen.history, good handled) (handleReady machine prost round)
        (fun _ seen => ∀ handled ∈ seen.history, good handled) (fun seen => ∀ handled ∈ seen.history, good handled) := by
    refine Action.Triple.of_start fun start hstart => ?_
    have hafter (seen : Observed (RaftNode σ)) (hseen : ∃ effects, ReadyTrace machine round effects ∧
        seen.history = start.history ++ [⟨round.ready, round.light, effects⟩]) : ∀ handled ∈ seen.history, good handled := by
      obtain ⟨effects, htrace, hhistory⟩ := hseen
      intro handled hhandled
      rw [hhistory] at hhandled
      obtain hold | hnew := List.mem_append.mp hhandled
      · exact hstart handled hold
      · exact List.mem_singleton.mp hnew ▸ h round hround effects htrace
    exact handleReady_spec.consequence (fun seen hseen => hseen ▸ rfl) (fun _ => hafter) hafter
  exact final_keeps (fun seen => ∀ handled ∈ seen.history, good handled) node (fun _ _ => id)
    (fun input hinput round hround => hready round (hinputs input hinput round hround)) (by simp)

/-- A state machine that keeps what it is given. -/
def recorder : NodeStateMachine (List ProposalData) where
  apply _ proposal seen := (.ok [], seen ++ [proposal])
  restore _ _ := (.ok (), [])

def freshNode : RaftNode (List ProposalData) where
  storage := .new {}
  stateMachine := []

end IrohRaft.RaftNode
