import IrohRaft.Proof.Raft.Waiting
import IrohRaft.Raft.Handlers

/-!
# Proposals that wait for an answer

The handling of a Ready answers proposals that wait, and registers none. A proposal is registered before its data is
serialized and before raft is asked to take it, and an error of either leaves it registered.
-/

namespace IrohRaft.RaftManager

open Rust Redb Handler Oneshot Waiting

def waiting : Waiting RaftManager (Except RaftError Unit) where
  pending := pendingProposals
  answers := answers

variable {codec : ManagerCodec} {round : Round} {holds : Observed RaftManager → Prop}

/-! ### The parts of the handling of a Ready -/

namespace Answering

variable (h : waiting.Answering holds)

include h

theorem answerPending (id : Bytes) (result : Except RaftError Unit) : Preserves holds (RaftManager.answerPending id result) :=
  Action.Triple.modify fun seen hseen => h.answer seen _ id result (by rfl) (by rfl) hseen

theorem answerContext (context : Bytes) (result : Except RaftError Unit) :
    Preserves holds (RaftManager.answerContext context result) := by
  rw [RaftManager.answerContext]
  split
  · exact Action.Triple.pure fun _ => id
  · exact answerPending h context result

theorem sendRaftMessage (msg : Message) : Preserves holds (RaftManager.sendRaftMessage msg) := by
  apply Action.Triple.modify
  intro seen hseen
  cases hroom : seen.node.outgoingMessages with
  | none => exact h.frame seen _ (by simp) (by simp) hseen
  | some room =>
      cases room with
      | zero => exact hseen
      | succ room => exact h.frame seen _ (by simp [waiting]) (by simp [waiting]) hseen

theorem callStorage {α : Type} (session : Session Redb.Database RaftError α) :
    Preserves holds (RaftManager.callStorage session) :=
  h.store (fun _ _ => by rfl) (fun _ _ => by rfl) session

/-! ### The handling of a Ready -/

theorem processSnapshotIfPresent (ready : Ready) : Preserves holds (RaftManager.processSnapshotIfPresent codec ready) := by
  rw [RaftManager.processSnapshotIfPresent]
  split
  · exact Action.Triple.pure fun _ => id
  · exact (callStorage h _).bind fun _ => h.record _

theorem saveEntriesToStorage (ready : Ready) : Preserves holds (RaftManager.saveEntriesToStorage codec ready) := by
  rw [RaftManager.saveEntriesToStorage]
  split
  · exact Action.Triple.pure fun _ => id
  · exact (callStorage h _).bind fun _ => h.record _

theorem saveHardState (hardState : HardState) : Preserves holds (RaftManager.saveHardState codec hardState) :=
  (callStorage h _).bind fun _ => h.record _

theorem saveHardStateIfChanged (ready : Ready) : Preserves holds (RaftManager.saveHardStateIfChanged codec ready) := by
  rw [RaftManager.saveHardStateIfChanged]
  split
  · exact saveHardState h _
  · exact Action.Triple.pure fun _ => id

theorem sendAll (messages : List Message) : Preserves holds (messages.forM RaftManager.sendRaftMessage) :=
  Action.Triple.forM (fun _ => holds) fun _ message _ _ => sendRaftMessage h message

theorem processConfChangeEntry (entry : Entry) : Preserves holds (RaftManager.processConfChangeEntry codec round entry) := by
  rw [RaftManager.processConfChangeEntry]
  split
  · exact (answerContext h _ _).bind fun _ => preserves_lift _
  · refine Action.Triple.get_bind fun seen _ => (callStorage h _).bind fun configManager => ?_
    exact (h.modify (fun _ => by rfl) fun _ => by rfl).bind fun _ => h.record _

theorem processEntry (entry : Entry) : Preserves holds (RaftManager.processEntry codec round entry) := by
  rw [RaftManager.processEntry]
  cases entry.kind with
  | entryNormal => exact (h.record _).bind fun _ => answerContext h _ _
  | entryConfChange => exact processConfChangeEntry h entry
  | entryConfChangeV2 => exact Action.Triple.pure fun _ => id

theorem processEntries (last : UInt64) (entries : List Entry) :
    Preserves holds (RaftManager.processEntries codec round last entries) := by
  induction entries generalizing last with
  | nil => exact Action.Triple.pure fun _ => id
  | cons entry rest ih => exact (processEntry h entry).bind fun _ => ih entry.index

theorem handleNewlyCommittedEntries (last : UInt64) (hadCommitUpdate : Bool) :
    Preserves holds (RaftManager.handleNewlyCommittedEntries codec round last hadCommitUpdate) := by
  rw [RaftManager.handleNewlyCommittedEntries]
  split
  · refine (preserves_lift _).bind fun start => (preserves_lift _).bind fun stop => Action.Triple.get_bind fun seen _ => ?_
    split
    · refine (processEntries h last _).bind fun applied => ?_
      split
      · exact h.record _
      · exact Action.Triple.pure fun _ => id
    · exact Action.Triple.pure fun _ => id
    · exact preserves_lift _
  · exact Action.Triple.pure fun _ => id

theorem saveCommitIndex : Preserves holds (RaftManager.saveCommitIndex codec round) := by
  rw [RaftManager.saveCommitIndex]
  split
  · exact (saveHardState h _).bind fun _ => Action.Triple.pure fun _ => id
  · exact Action.Triple.pure fun _ => id

theorem advanceRaftNode (last : UInt64) : Preserves holds (RaftManager.advanceRaftNode codec round last) :=
  (h.record _).bind fun _ => (sendAll h _).bind fun _ => (saveCommitIndex h).bind fun _ => handleNewlyCommittedEntries h last _

theorem checkAndTriggerLogCompaction : Preserves holds (RaftManager.checkAndTriggerLogCompaction codec round) :=
  Action.Triple.get_bind fun _ _ => (preserves_lift _).bind fun _ => h.modify (fun _ => by rfl) fun _ => by rfl

theorem onReady (next : Option Round) : Preserves holds (RaftManager.onReady codec next) := by
  cases next with
  | none => exact Action.Triple.pure fun _ => id
  | some round =>
      rw [RaftManager.onReady, handleReady]
      apply h.handling
      refine (processSnapshotIfPresent h _).bind fun _ => (saveEntriesToStorage h _).bind fun _ =>
        (saveHardStateIfChanged h _).bind fun _ => (sendAll h _).bind fun _ => (processEntries h _ _).bind fun last => ?_
      exact (advanceRaftNode h last).bind fun _ => checkAndTriggerLogCompaction h

theorem handleReadyInline : Preserves holds (RaftManager.handleReadyInline codec round) := by
  rw [RaftManager.handleReadyInline]
  apply h.handling
  refine (saveEntriesToStorage h _).bind fun _ => (saveHardStateIfChanged h _).bind fun _ => (sendAll h _).bind fun _ =>
    (sendAll h _).bind fun _ => Action.Triple.bind (Action.Triple.forM (fun _ => holds) ?_) fun _ => h.record _
  intro _ entry _ _
  split
  · exact processConfChangeEntry h entry
  · exact Action.Triple.pure fun _ => id

theorem stepMessage (sender : UInt64) (msg : Message) (step : Message → Except String Unit) (inlined : Option Round) :
    Preserves holds (RaftManager.stepMessage codec sender msg step inlined) := by
  unfold RaftManager.stepMessage
  split
  · exact preserves_lift _
  · split
    · exact handleReadyInline h
    · exact Action.Triple.pure fun _ => id

end Answering

/-! ### Inputs -/

/-- The sender of the response to a request. -/
def Input.responseTx : Input → Option ResponseTx
  | .proposal request _ _ _ => request.responseTx
  | .confChange request _ _ _ => request.responseTx
  | .bootstrap .. | .tick .. | .message .. => none

/-! ### One proposal -/

/-- The two copies of `handle_proposal` differ in what they call for a Ready, and in the answer of a node that is not the
leader. -/
def handleProposalWith (codec : ManagerCodec) (onReadyFn : Handler RaftManager Unit) (refusal : Except RaftError Unit)
    (proposal : RaftProposal) (leadership : Leadership) (propose : Bytes → Bytes → Except String Unit) :
    Handler RaftManager Unit := do
  registerProposal proposal
  let data ← Action.lift (serializeProposal codec proposal.data)
  if leadership.isLeader then do
    Action.lift (ofExcept (propose proposal.id data))
    onReadyFn
  else answerPending proposal.id refusal

/-- The manager with the proposal's sender registered, if it has one. -/
def registered (proposal : RaftProposal) (seen : Observed RaftManager) : Observed RaftManager :=
  match proposal.responseTx with
  | some responseTx => { seen with node.pendingProposals := seen.node.pendingProposals.insert proposal.id responseTx }
  | none => seen

/-- Nothing waits under the proposal's id, or its data serializes and, on the leader, raft takes it and the handling of
the Ready fails only once whoever waits has an answer. -/
def Settles (codec : ManagerCodec) (onReadyFn : Handler RaftManager Unit) (proposal : RaftProposal) (leadership : Leadership)
    (propose : Bytes → Bytes → Except String Unit) (seen : Observed RaftManager) : Prop :=
  (proposal.responseTx = none ∧ seen.node.pendingProposals[proposal.id]? = none) ∨
    ∃ data, codec.serializeProposal proposal.data = .ok data ∧
      (leadership.isLeader = true → propose proposal.id data = .ok () ∧
        ∀ error after, onReadyFn (registered proposal seen) = (.err error, after) →
          ∀ responseTx, (registered proposal seen).node.pendingProposals[proposal.id]? = some responseTx →
            Used after.node.answers responseTx)

variable {onReadyFn : Handler RaftManager Unit} {refusal : Except RaftError Unit} {proposal : RaftProposal}
  {leadership : Leadership} {propose : Bytes → Bytes → Except String Unit} {seen : Observed RaftManager} {data : Bytes}

theorem registerProposal_eq : registerProposal proposal seen = (.ok (), registered proposal seen) := by
  rw [registerProposal, registered]
  cases proposal.responseTx <;> rfl

theorem handleProposalWith_of_unserialized {e : String} (hdata : codec.serializeProposal proposal.data = .error e) :
    handleProposalWith codec onReadyFn refusal proposal leadership propose seen =
      (.err (.serialization "serialize proposal" e), registered proposal seen) := by
  rw [handleProposalWith, Action.bind_of_ok registerProposal_eq, serializeProposal, hdata]
  rfl

theorem handleProposalWith_of_serialized (hdata : codec.serializeProposal proposal.data = .ok data) :
    handleProposalWith codec onReadyFn refusal proposal leadership propose seen =
      (if leadership.isLeader then do
        Action.lift (ofExcept (propose proposal.id data))
        onReadyFn
      else answerPending proposal.id refusal) (registered proposal seen) := by
  rw [handleProposalWith, Action.bind_of_ok registerProposal_eq, serializeProposal, hdata]
  rfl

theorem registered_free_iff : (registered proposal seen).node.pendingProposals[proposal.id]? = none ↔
    proposal.responseTx = none ∧ seen.node.pendingProposals[proposal.id]? = none := by
  rw [registered]
  cases hresponse : proposal.responseTx with
  | none => simp
  | some responseTx => simp

theorem registered_once (honce : waiting.AnsweredOnce seen) (hfresh : ∀ responseTx ∈ proposal.responseTx, waiting.FreshIn seen responseTx) :
    waiting.AnsweredOnce (registered proposal seen) := by
  rw [registered]
  cases hresponse : proposal.responseTx with
  | none => exact honce
  | some responseTx => exact Once.insert honce (hfresh responseTx hresponse) proposal.id

/-- Once an error is returned, the proposal's id is free exactly if the call settles the proposal. -/
theorem dropped_iff_settles (hready : ∀ holds, waiting.Answering holds → Preserves holds onReadyFn) (honce : waiting.AnsweredOnce seen)
    (hfresh : ∀ responseTx ∈ proposal.responseTx, waiting.FreshIn seen responseTx) :
    (∀ error after, handleProposalWith codec onReadyFn refusal proposal leadership propose seen = (.err error, after) →
      after.node.pendingProposals[proposal.id]? = none) ↔
      Settles codec onReadyFn proposal leadership propose seen := by
  rw [Settles, ← registered_free_iff]
  cases hdata : codec.serializeProposal proposal.data with
  | error e =>
      rw [handleProposalWith_of_unserialized hdata]
      simp
  | ok data =>
      rw [handleProposalWith_of_serialized hdata]
      by_cases hleader : leadership.isLeader = true
      · rw [if_pos hleader]
        cases hpropose : propose proposal.id data with
        | error e =>
            rw [Action.bind_of_err (show Action.lift (ofExcept (.error e)) (registered proposal seen) = _ from rfl)]
            simp [hleader, hpropose]
        | ok done =>
            rw [Action.bind_of_ok (show Action.lift (ofExcept (.ok done)) (registered proposal seen) = _ from rfl)]
            apply Iff.intro
            · intro hdropped
              refine .inr ⟨data, rfl, fun _ => ⟨hpropose, fun error after hafter responseTx hwaits => ?_⟩⟩
              have hused := (used_iff_free hready (registered_once honce hfresh) hwaits).mpr
              rw [hafter] at hused
              exact hused (hdropped error after hafter)
            · intro hsettles error after hafter
              cases hwaits : (registered proposal seen).node.pendingProposals[proposal.id]? with
              | none =>
                  have hfree := (hready _ (answering_free proposal.id)).final hwaits
                  rw [hafter] at hfree
                  exact hfree
              | some responseTx =>
                  obtain hidle | ⟨data', hsame, hsettles⟩ := hsettles
                  · simp [hidle] at hwaits
                  · have hused := (used_iff_free hready (registered_once honce hfresh) hwaits).mp
                    rw [hafter] at hused
                    exact hused ((hsettles hleader).2 error after hafter responseTx hwaits)
      · rw [if_neg hleader]
        refine iff_of_true ?_ (.inr ⟨data, rfl, fun htrue => absurd htrue hleader⟩)
        intro error after hanswered
        exact absurd (congrArg Prod.fst hanswered) (by simp [answerPending, onNode, Action.modify])

/-! ### Later inputs -/

theorem answer_once (responseTx : Option ResponseTx) (result : Except RaftError Unit) :
    Action.Triple (waiting.Receives responseTx) (answer responseTx result) (fun _ => waiting.AnsweredOnce) waiting.AnsweredOnce := by
  apply Action.Triple.modify
  intro seen hseen
  cases responseTx with
  | none => simpa [Waiting.AnsweredOnce, waiting] using hseen.1
  | some sender => exact Once.use hseen.1 (hseen.2 sender rfl) result

theorem handleProposalWith_once (hready : ∀ holds, waiting.Answering holds → Preserves holds onReadyFn) :
    Action.Triple (waiting.Receives proposal.responseTx) (handleProposalWith codec onReadyFn refusal proposal leadership propose)
      (fun _ => waiting.AnsweredOnce) waiting.AnsweredOnce := by
  refine Action.Triple.bind ?_ fun _ => (preserves_lift _).bind fun data => ?_
  · refine Action.Triple.of_final fun seen hseen => ?_
    rw [registerProposal_eq]
    exact registered_once hseen.1 hseen.2
  · split
    · exact (preserves_lift _).bind fun _ => hready _ answering_once
    · exact Answering.answerPending answering_once _ _

theorem handleConfChange_once (request : RaftConfChange) (leadership : Leadership) (propose : ConfChange → Except String Unit)
    (connect : Except RaftError Unit) :
    Action.Triple (waiting.Receives request.responseTx) (handleConfChange request leadership propose connect)
      (fun _ => waiting.AnsweredOnce) waiting.AnsweredOnce := by
  unfold handleConfChange
  split
  · split
    · split
      · exact answer_once _ _
      · refine (modify_receives (fun _ => by rfl) fun _ => by rfl).bind fun _ => ?_
        split
        · exact answer_once _ _
        · exact Action.Triple.lift (fun _ _ _ h => h.1) fun _ _ h => h.1
    · exact answer_once _ _
  · exact answer_once _ _

theorem handleProposal_eq (round : Option Round) : handleProposal codec proposal leadership propose round =
    handleProposalWith codec (onReady codec round) (notLeader "propose" leadership) proposal leadership propose := by
  rfl

theorem handle_once (input : Input) :
    Action.Triple (waiting.Receives input.responseTx) (input.handle codec) (fun _ => waiting.AnsweredOnce) waiting.AnsweredOnce := by
  have honce (seen : Observed RaftManager) (hseen : waiting.Receives none seen) : waiting.AnsweredOnce seen := hseen.1
  have hready (next : Option Round) : Preserves waiting.AnsweredOnce (onReady codec next) := Answering.onReady answering_once next
  cases input with
  | bootstrap joins first isLeader propose second =>
      refine Action.Triple.strengthen ?_ honce
      exact (preserves_lift _).bind fun _ => (hready _).bind fun _ => (preserves_lift _).bind fun _ => hready _
  | tick first isLeader second =>
      refine Action.Triple.strengthen ((hready _).bind fun _ => Action.Triple.get_bind fun seen _ => ?_) honce
      refine (answering_once.modify (fun _ => by rfl) fun _ => by rfl).bind fun _ => ?_
      split
      · exact hready _
      · exact Action.Triple.pure fun _ => id
  | proposal request leadership propose round =>
      rw [Input.handle, handleProposal_eq]
      exact handleProposalWith_once fun _ hanswering => Answering.onReady hanswering round
  | message sender msg step inlined remaining =>
      exact Action.Triple.strengthen ((Answering.stepMessage answering_once sender msg step inlined).bind fun _ => hready _) honce
  | confChange request leadership propose connect => exact handleConfChange_once request leadership propose connect

/-- The senders of an input are new. -/
def NewSender (execution : Execution) (input : Input) : Prop :=
  ∀ sender ∈ input.responseTx, waiting.FreshIn execution.observed sender

theorem step_once {execution : Execution} {input : Input} (honce : waiting.AnsweredOnce execution.observed)
    (hnew : NewSender execution input) : waiting.AnsweredOnce (execution.step codec input).observed := by
  have hfinal : waiting.AnsweredOnce (input.handle codec execution.observed).2 := (handle_once input).final ⟨honce, hnew⟩
  rw [Execution.step]
  split
  · exact honce
  · split
    · next hresult => rwa [hresult] at hfinal
    · next hresult => rwa [hresult] at hfinal

/-- What is promised of a call for a proposal: an error leaves nothing behind, and whatever comes later, whoever waits gets
at most one answer. -/
structure Bookkept (codec : ManagerCodec) (proposal : RaftProposal) (handler : Handler RaftManager Unit)
    (seen : Observed RaftManager) : Prop where
  dropped : ∀ error after, handler seen = (.err error, after) → after.node.pendingProposals[proposal.id]? = none
  answeredOnce : ∀ responseTx ∈ proposal.responseTx, ∀ inputs,
    Run.Follows (Execution.step codec) NewSender { observed := (handler seen).2 } inputs →
      ((Run.final (Execution.step codec) { observed := (handler seen).2 } inputs).observed.node.answers.map Prod.fst).count
        responseTx ≤ 1

theorem bookkept_iff (hready : ∀ holds, waiting.Answering holds → Preserves holds onReadyFn) (honce : waiting.AnsweredOnce seen)
    (hfresh : ∀ responseTx ∈ proposal.responseTx, waiting.FreshIn seen responseTx) :
    Bookkept codec proposal (handleProposalWith codec onReadyFn refusal proposal leadership propose) seen ↔
      Settles codec onReadyFn proposal leadership propose seen := by
  have hdropped : (∀ error after, handleProposalWith codec onReadyFn refusal proposal leadership propose seen =
      (.err error, after) → after.node.pendingProposals[proposal.id]? = none) ↔
      Settles codec onReadyFn proposal leadership propose seen := dropped_iff_settles hready honce hfresh
  have hafter : waiting.AnsweredOnce (handleProposalWith codec onReadyFn refusal proposal leadership propose seen).2 :=
    (handleProposalWith_once hready).final ⟨honce, hfresh⟩
  apply Iff.intro
  · exact fun hbookkept => hdropped.mp hbookkept.dropped
  · intro hsettles
    refine ⟨hdropped.mpr hsettles, fun responseTx _ inputs hfollows => ?_⟩
    have hfinal := hfollows.invariant (fun execution => waiting.AnsweredOnce execution.observed) (fun _ _ => step_once) hafter
    exact Once.count_le_one hfinal responseTx

end IrohRaft.RaftManager
