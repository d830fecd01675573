import IrohRaft.Proof.Node.Rounds
import IrohRaft.Proof.Raft.Bookkeeping
import IrohRaft.Proof.Raft.Runs

/-!
# Proposals of a node that wait for an answer

`propose` takes the proposal back where the node is not the leader, but not where raft refuses it, nor when the wait
for the answer is over.
-/

namespace IrohRaft.RaftNode

open Rust Redb Handler Oneshot Waiting

variable {σ : Type}

def waiting : Waiting (RaftNode σ) (Except RaftError Bytes) where
  pending := pendingProposals
  answers := answers

def Input.responseTx : Input → Option Nat
  | .propose _ responseTx _ _ _ => some responseTx
  | .tick .. | .message .. | .addPeer .. | .removePeer .. => none

def Input.proposalId : Input → Option Bytes
  | .propose proposalId _ _ _ _ => some proposalId
  | .tick .. | .message .. | .addPeer .. | .removePeer .. => none

variable {machine : NodeStateMachine σ} {prost : ProstCodec Snapshot} {holds : Observed (RaftNode σ) → Prop}

/-! ### The handling of a Ready -/

namespace Answering

variable (h : waiting.Answering holds)

include h

theorem writeStorage (update : RaftStorage → RaftStorage) : Preserves holds (RaftNode.writeStorage update) :=
  h.store (fun _ _ => by rfl) (fun _ _ => by rfl) _

theorem saveHardState (ready : Ready) : Preserves holds (RaftNode.saveHardState ready) := by
  rw [RaftNode.saveHardState]
  split
  · exact (writeStorage h _).bind fun _ => h.record _
  · exact Action.Triple.pure fun _ => id

theorem saveEntries (ready : Ready) : Preserves holds (RaftNode.saveEntries ready) := by
  rw [RaftNode.saveEntries]
  split
  · exact Action.Triple.pure fun _ => id
  · exact (writeStorage h _).bind fun _ => h.record _

theorem sendAll (messages : List Message) : Preserves holds (messages.forM RaftNode.sendMessage) :=
  Action.Triple.forM (fun _ => holds) fun _ _ _ _ => h.record _

theorem answerContext (context : Bytes) (result : Except RaftError Bytes) :
    Preserves holds (RaftNode.answerContext context result) := by
  rw [RaftNode.answerContext]
  split
  · exact Action.Triple.pure fun _ => id
  · exact Action.Triple.modify fun seen hseen => h.answer seen _ context result (by rfl) (by rfl) hseen

theorem applyEntry (entry : Entry) : Preserves holds (RaftNode.applyEntry machine entry) := by
  rw [RaftNode.applyEntry]
  split
  · exact Action.Triple.pure fun _ => id
  · split
    · exact preserves_lift _
    · refine Action.Triple.get_bind fun seen _ => ?_
      exact (h.modify (fun _ => by rfl) fun _ => by rfl).bind fun _ => (h.record _).bind fun _ => answerContext h _ _

theorem restore (data : Bytes) : Preserves holds (RaftNode.restore machine data) := by
  refine Action.Triple.of_final fun seen hseen => ?_
  rw [RaftNode.restore]
  split
  · exact h.frame seen _ (by rfl) (by rfl) hseen
  · exact h.frame seen _ (by rfl) (by rfl) hseen

theorem applySnapshot (ready : Ready) : Preserves holds (RaftNode.applySnapshot machine prost ready) := by
  rw [RaftNode.applySnapshot]
  split
  · exact (restore h _).bind fun _ => (writeStorage h _).bind fun _ => h.record _
  · exact Action.Triple.pure fun _ => id

theorem handleIfReady (next : Option Round) : Preserves holds (RaftNode.handleIfReady machine prost next) := by
  cases next with
  | none => exact Action.Triple.pure fun _ => id
  | some round =>
      rw [RaftNode.handleIfReady, handleReady]
      apply h.handling
      refine (saveHardState h _).bind fun _ => (saveEntries h _).bind fun _ => (sendAll h _).bind fun _ => ?_
      refine (Action.Triple.forM (fun _ => holds) fun _ entry _ _ => applyEntry h entry).bind fun _ => ?_
      exact (applySnapshot h _).bind fun _ => (h.record _).bind fun _ => sendAll h _

theorem handleMessage (answer : Except String Unit) (next : Option Round) :
    Preserves holds (RaftNode.handleMessage machine prost answer next) := by
  cases answer with
  | ok done => exact handleIfReady h next
  | error e => exact preserves_lift _

omit h in
theorem proposeConfChange (operation : String) (confChange : ConfChange) (leadership : Leadership)
    (submit : ConfChange → Except String Unit) :
    Preserves holds (RaftNode.proposeConfChange operation confChange leadership submit) := by
  rw [RaftNode.proposeConfChange]
  split
  · split
    · exact Action.Triple.pure fun _ => id
    · exact preserves_lift _
  · exact preserves_lift _

end Answering

/-! ### Giving a proposal to raft -/

/-- The node with the proposal's sender registered. -/
def registered (proposalId : Bytes) (responseTx : Nat) (seen : Observed (RaftNode σ)) : Observed (RaftNode σ) :=
  { seen with node := { seen.node with pendingProposals := seen.node.pendingProposals.insert proposalId responseTx } }

/-- The node without a proposal. -/
def withdrawn (proposalId : Bytes) (seen : Observed (RaftNode σ)) : Observed (RaftNode σ) :=
  { seen with node := { seen.node with pendingProposals := seen.node.pendingProposals.erase proposalId } }

variable {proposalId : Bytes} {responseTx : Nat} {data : ProposalData} {leadership : Leadership}
  {submit : Bytes → Bytes → Except String Unit} {seen : Observed (RaftNode σ)} {meanwhile : List Input}

theorem propose_of_submitted (hleader : leadership.isLeader = true) (hsubmit : submit proposalId data.encode = .ok ()) :
    propose proposalId responseTx data leadership submit seen = (.ok (), registered proposalId responseTx seen) := by
  rw [propose, if_pos hleader, hsubmit]
  rfl

theorem propose_of_refused (hleader : leadership.isLeader = true) {e : String}
    (hsubmit : submit proposalId data.encode = .error e) :
    propose proposalId responseTx data leadership submit seen =
      (.err (.raft "propose data" e), registered proposalId responseTx seen) := by
  rw [propose, if_pos hleader, hsubmit]
  rfl

theorem propose_of_not_leader (hleader : ¬ leadership.isLeader = true) :
    propose proposalId responseTx data leadership submit seen =
      (.err (.notLeader "propose" leadership.current), withdrawn proposalId (registered proposalId responseTx seen)) := by
  rw [propose, if_neg hleader]
  rfl

theorem registered_once (honce : waiting.AnsweredOnce seen) (hfresh : waiting.FreshIn seen responseTx) :
    waiting.AnsweredOnce (registered proposalId responseTx seen) :=
  Once.insert honce hfresh proposalId

theorem propose_once :
    Action.Triple (waiting.Receives (some responseTx)) (propose proposalId responseTx data leadership submit)
      (fun _ => waiting.AnsweredOnce) (waiting.AnsweredOnce : Observed (RaftNode σ) → Prop) := by
  refine Action.Triple.of_final fun seen hseen => ?_
  have honce : waiting.AnsweredOnce (registered proposalId responseTx seen) := registered_once hseen.1 (hseen.2 responseTx rfl)
  by_cases hleader : leadership.isLeader = true
  · cases hsubmit : submit proposalId data.encode with
    | ok done => rwa [propose_of_submitted hleader hsubmit]
    | error e => rwa [propose_of_refused hleader hsubmit]
  · rw [propose_of_not_leader hleader]
    exact Once.erase honce proposalId

/-- A proposal under another id does not disturb one that waits. -/
theorem propose_awaits {id : Bytes} {sender : Nat} (hne : proposalId ≠ id) :
    Preserves (fun seen : Observed (RaftNode σ) => Awaits id sender seen.node.pendingProposals seen.node.answers)
      (propose proposalId responseTx data leadership submit) := by
  refine Action.Triple.of_final fun seen hseen => ?_
  have hawaits := Awaits.insert_of_ne hseen hne responseTx
  by_cases hleader : leadership.isLeader = true
  · cases hsubmit : submit proposalId data.encode with
    | ok done => rwa [propose_of_submitted hleader hsubmit]
    | error e => rwa [propose_of_refused hleader hsubmit]
  · rw [propose_of_not_leader hleader]
    exact Awaits.erase_of_ne hawaits hne

/-! ### The main loop -/

/-- The sender of an input is new. -/
def NewSender (seen : Observed (RaftNode σ)) (input : Input) : Prop := ∀ sender ∈ input.responseTx, waiting.FreshIn seen sender

/-- So is its id, which `generate_proposal_id` counts up. -/
def NewProposal (id : Bytes) (seen : Observed (RaftNode σ)) (input : Input) : Prop :=
  NewSender seen input ∧ input.proposalId ≠ some id

theorem handle_preserves (h : waiting.Answering holds) {before : Observed (RaftNode σ) → Prop}
    (hbefore : ∀ seen, before seen → holds seen) {input : Input}
    (hpropose : ∀ proposalId responseTx data leadership submit, input = .propose proposalId responseTx data leadership submit →
      Action.Triple before (propose proposalId responseTx data leadership submit) (fun _ => holds) holds) :
    Action.Triple before (input.handle machine prost) (fun _ => holds) holds := by
  cases input with
  | tick next => exact Action.Triple.strengthen (Answering.handleIfReady h next) hbefore
  | message answer next => exact Action.Triple.strengthen (Answering.handleMessage h answer next) hbefore
  | addPeer peerId address leadership submit => exact Action.Triple.strengthen (Answering.proposeConfChange _ _ _ _) hbefore
  | removePeer peerId leadership submit => exact Action.Triple.strengthen (Answering.proposeConfChange _ _ _ _) hbefore
  | propose proposalId responseTx data leadership submit => exact hpropose _ _ _ _ _ rfl

theorem step_once {input : Input} (honce : waiting.AnsweredOnce seen) (hnew : NewSender seen input) :
    waiting.AnsweredOnce (step machine prost seen input) := by
  have hhandle : Action.Triple (waiting.Receives input.responseTx) (input.handle machine prost)
      (fun _ => waiting.AnsweredOnce) waiting.AnsweredOnce := by
    refine handle_preserves answering_once (fun _ h => h.1) ?_
    intro proposalId responseTx data leadership submit hinput
    rw [hinput]
    exact propose_once
  exact hhandle.final ⟨honce, hnew⟩

theorem step_awaits {id : Bytes} {sender : Nat} {input : Input} (hne : input.proposalId ≠ some id)
    (hawaits : Awaits id sender seen.node.pendingProposals seen.node.answers) :
    Awaits id sender (step machine prost seen input).node.pendingProposals (step machine prost seen input).node.answers := by
  have hhandle : Preserves (fun seen : Observed (RaftNode σ) => Awaits id sender seen.node.pendingProposals seen.node.answers)
      (input.handle machine prost) := by
    refine handle_preserves (answering_awaits id sender) (fun _ h => h) ?_
    intro proposalId responseTx data leadership submit hinput
    exact propose_awaits fun heq => hne (by rw [hinput, ← heq, Input.proposalId])
  exact hhandle.final hawaits

/-! ### The end of the wait -/

theorem awaitResponse_of_not_used {requestTimeoutMs : Nat} (h : ¬ Used seen.node.answers responseTx) :
    ∃ error, awaitResponse responseTx requestTimeoutMs seen = (.err error, seen) := by
  have hfind : (seen.node.answers.find? fun answer => answer.1 = responseTx) = none := by
    rw [List.find?_eq_none]
    intro answer hanswer hsame
    exact h (List.mem_map.mpr ⟨answer, hanswer, by simpa using hsame⟩)
  by_cases hkept : responseTx ∈ seen.node.pendingProposals.values
  · refine ⟨.timeout "proposal" (requestTimeoutMs * 1000000), ?_⟩
    simp [awaitResponse, Action.bind_of_ok (show Action.get seen = (.ok seen, seen) from rfl), hfind, hkept, Action.lift]
  · refine ⟨.internal "proposal channel closed", ?_⟩
    simp [awaitResponse, Action.bind_of_ok (show Action.get seen = (.ok seen, seen) from rfl), hfind, hkept, Action.lift]

theorem awaitResponse_unchanged {requestTimeoutMs : Nat} : (awaitResponse responseTx requestTimeoutMs seen).2 = seen := by
  rw [awaitResponse, Action.bind_of_ok (show Action.get seen = (.ok seen, seen) from rfl)]
  cases seen.node.answers.find? fun answer => answer.1 = responseTx with
  | none => by_cases hkept : responseTx ∈ seen.node.pendingProposals.values <;> simp [hkept, Action.lift]
  | some answer =>
      obtain ⟨sender, response | e⟩ := answer
      · simp [Action.lift]
      · simp [Action.pure_apply]

/-! ### One proposal -/

/-- What is promised of `propose`: an error leaves nothing behind, and whatever comes later, whoever waits gets at most one
answer. -/
structure Bookkept (machine : NodeStateMachine σ) (prost : ProstCodec Snapshot) (proposalId : Bytes) (responseTx : Nat)
    (handler : Handler (RaftNode σ) Bytes) (seen : Observed (RaftNode σ)) : Prop where
  dropped : ∀ error after, handler seen = (.err error, after) → after.node.pendingProposals[proposalId]? = none
  answeredOnce : ∀ inputs, Run.Follows (step machine prost) NewSender (handler seen).2 inputs →
    ((Run.final (step machine prost) (handler seen).2 inputs).node.answers.map Prod.fst).count responseTx ≤ 1

/-- The proposal is not registered, or withdrawn, or raft takes it and the main loop answers it before the wait is over. -/
def Settles (machine : NodeStateMachine σ) (prost : ProstCodec Snapshot) (serialized : Except String Unit) (proposalId : Bytes)
    (responseTx : Nat) (data : ProposalData) (leadership : Leadership) (submit : Bytes → Bytes → Except String Unit)
    (meanwhile : List Input) (seen : Observed (RaftNode σ)) : Prop :=
  (∃ e, serialized = .error e) ∨ leadership.isLeader = false ∨
    submit proposalId data.encode = .ok () ∧
      Used (Run.final (step machine prost) (registered proposalId responseTx seen) meanwhile).node.answers responseTx

section Propose

variable {serialized : Except String Unit} {requestTimeoutMs : Nat}

/-- While the proposal waits, it stays what it is until it is answered. -/
theorem awaits_meanwhile (honce : waiting.AnsweredOnce seen) (hfresh : waiting.FreshIn seen responseTx)
    (hmeanwhile : Run.Follows (step machine prost) (NewProposal proposalId) (registered proposalId responseTx seen) meanwhile) :
    let after := Run.final (step machine prost) (registered proposalId responseTx seen) meanwhile
    waiting.AnsweredOnce after ∧ Awaits proposalId responseTx after.node.pendingProposals after.node.answers := by
  refine hmeanwhile.invariant (fun after => waiting.AnsweredOnce after ∧
    Awaits proposalId responseTx after.node.pendingProposals after.node.answers) ?_ ⟨registered_once honce hfresh, .inl ?_⟩
  · intro before input hbefore hnew
    exact ⟨step_once hbefore.1 hnew.1, step_awaits hnew.2 hbefore.2⟩
  · simp [registered]

theorem proposeAndWait_of_unserialized {e : String} :
    proposeAndWait machine prost (.error e) proposalId responseTx data leadership submit meanwhile requestTimeoutMs seen =
      (.err (.serialization "serialize proposal" e), seen) := by
  rfl

theorem proposeAndWait_of_refused {error : RaftError} {after : Observed (RaftNode σ)}
    (hpropose : propose proposalId responseTx data leadership submit seen = (.err error, after)) :
    proposeAndWait machine prost (.ok ()) proposalId responseTx data leadership submit meanwhile requestTimeoutMs seen =
      (.err error, after) :=
  Action.bind_of_err hpropose

theorem proposeAndWait_of_submitted (hleader : leadership.isLeader = true) (hsubmit : submit proposalId data.encode = .ok ()) :
    proposeAndWait machine prost (.ok ()) proposalId responseTx data leadership submit meanwhile requestTimeoutMs seen =
      awaitResponse responseTx requestTimeoutMs
        (Run.final (step machine prost) (registered proposalId responseTx seen) meanwhile) :=
  Action.bind_of_ok (propose_of_submitted hleader hsubmit)

theorem withdrawn_free : (withdrawn proposalId (registered proposalId responseTx seen)).node.pendingProposals[proposalId]? = none := by
  simp [withdrawn]

theorem registered_not_free :
    (registered proposalId responseTx seen).node.pendingProposals[proposalId]? ≠ none := by
  simp [registered]

theorem proposeAndWait_once (honce : waiting.AnsweredOnce seen) (hfresh : waiting.FreshIn seen responseTx)
    (hmeanwhile : Run.Follows (step machine prost) (NewProposal proposalId) (registered proposalId responseTx seen) meanwhile) :
    waiting.AnsweredOnce (proposeAndWait machine prost serialized proposalId responseTx data leadership submit meanwhile
      requestTimeoutMs seen).2 := by
  cases serialized with
  | error e => rwa [proposeAndWait_of_unserialized]
  | ok done =>
      have hregistered : waiting.AnsweredOnce (registered proposalId responseTx seen) := registered_once honce hfresh
      by_cases hleader : leadership.isLeader = true
      · cases hsubmit : submit proposalId data.encode with
        | ok done =>
            rw [proposeAndWait_of_submitted hleader hsubmit, awaitResponse_unchanged]
            exact (awaits_meanwhile honce hfresh hmeanwhile).1
        | error e => rwa [proposeAndWait_of_refused (propose_of_refused hleader hsubmit)]
      · rw [proposeAndWait_of_refused (propose_of_not_leader hleader)]
        exact Once.erase hregistered proposalId

/-- Once an error is returned, the proposal's id is free exactly if the call settles the proposal. -/
theorem dropped_iff_settles (honce : waiting.AnsweredOnce seen) (hfresh : waiting.FreshIn seen responseTx)
    (hid : seen.node.pendingProposals[proposalId]? = none)
    (hmeanwhile : Run.Follows (step machine prost) (NewProposal proposalId) (registered proposalId responseTx seen) meanwhile) :
    (∀ error after, proposeAndWait machine prost serialized proposalId responseTx data leadership submit meanwhile
      requestTimeoutMs seen = (.err error, after) → after.node.pendingProposals[proposalId]? = none) ↔
      Settles machine prost serialized proposalId responseTx data leadership submit meanwhile seen := by
  rw [Settles]
  cases serialized with
  | error e =>
      refine iff_of_true ?_ (.inl ⟨e, rfl⟩)
      intro error after hresult
      obtain ⟨_, hafter⟩ := Prod.mk.inj hresult
      rwa [← hafter]
  | ok done =>
      by_cases hleader : leadership.isLeader = true
      · cases hsubmit : submit proposalId data.encode with
        | error e =>
            rw [proposeAndWait_of_refused (propose_of_refused hleader hsubmit)]
            simpa [hleader] using registered_not_free
        | ok done =>
            obtain ⟨hafter, hawaits⟩ := awaits_meanwhile honce hfresh hmeanwhile
            have hused := Awaits.used_iff hawaits hafter
            rw [proposeAndWait_of_submitted hleader hsubmit]
            apply Iff.intro
            · intro hdropped
              by_contra hnot
              have hwaits : ¬ Used (Run.final (step machine prost) (registered proposalId responseTx seen)
                  meanwhile).node.answers responseTx := fun h => hnot (.inr (.inr ⟨rfl, h⟩))
              obtain ⟨error, hresult⟩ := awaitResponse_of_not_used hwaits
              exact hwaits (hused.mpr (hdropped error _ hresult))
            · intro hsettles error after hresult
              have hsame : Run.final (step machine prost) (registered proposalId responseTx seen) meanwhile = after :=
                awaitResponse_unchanged.symm.trans (congrArg Prod.snd hresult)
              simp only [reduceCtorEq, exists_false, hleader, false_or, true_and] at hsettles
              rw [← hsame]
              exact hused.mp hsettles
      · rw [proposeAndWait_of_refused (propose_of_not_leader hleader)]
        refine iff_of_true ?_ (.inr (.inl (by simpa using hleader)))
        intro error after hresult
        obtain ⟨_, hafter⟩ := Prod.mk.inj hresult
        rw [← hafter]
        exact withdrawn_free

theorem bookkept_iff (honce : waiting.AnsweredOnce seen) (hfresh : waiting.FreshIn seen responseTx)
    (hid : seen.node.pendingProposals[proposalId]? = none)
    (hmeanwhile : Run.Follows (step machine prost) (NewProposal proposalId) (registered proposalId responseTx seen) meanwhile) :
    Bookkept machine prost proposalId responseTx
        (proposeAndWait machine prost serialized proposalId responseTx data leadership submit meanwhile requestTimeoutMs) seen ↔
      Settles machine prost serialized proposalId responseTx data leadership submit meanwhile seen := by
  rw [← dropped_iff_settles honce hfresh hid hmeanwhile]
  apply Iff.intro
  · exact fun hbookkept => hbookkept.dropped
  · intro hdropped
    refine ⟨hdropped, fun inputs hfollows => ?_⟩
    have hfinal := hfollows.invariant waiting.AnsweredOnce (fun _ _ => step_once) (proposeAndWait_once honce hfresh hmeanwhile)
    exact Once.count_le_one hfinal responseTx

end Propose

end IrohRaft.RaftNode

namespace IrohRaft

open Rust

/-! ### The three ways to propose -/

/-- The manager, its copy in the event loop's handlers, and the node keep their books exactly where a proposal is settled.
The senders are new, and so are the ids a node gives out. -/
theorem proposals_bookkept_iff {σ : Type} (codec : ManagerCodec) (machine : NodeStateMachine σ) (prost : ProstCodec Snapshot)
    (leadership : Leadership) :
    (∀ (proposal : RaftProposal) propose round (seen : Observed RaftManager),
      RaftManager.waiting.AnsweredOnce seen → (∀ sender ∈ proposal.responseTx, RaftManager.waiting.FreshIn seen sender) →
        (RaftManager.Bookkept codec proposal (RaftManager.handleProposal codec proposal leadership propose round) seen ↔
          RaftManager.Settles codec (RaftManager.onReady codec round) proposal leadership propose seen)) ∧
    (∀ (proposal : RaftProposal) propose round (seen : Observed RaftManager),
      RaftManager.waiting.AnsweredOnce seen → (∀ sender ∈ proposal.responseTx, RaftManager.waiting.FreshIn seen sender) →
        (RaftManager.Bookkept codec proposal
            (RaftProposalHandler.handleProposal codec (RaftManager.onReady codec round) proposal leadership propose) seen ↔
          RaftManager.Settles codec (RaftManager.onReady codec round) proposal leadership propose seen)) ∧
    ∀ serialized proposalId sender data submit meanwhile requestTimeoutMs (seen : Observed (RaftNode σ)),
      RaftNode.waiting.AnsweredOnce seen → RaftNode.waiting.FreshIn seen sender →
      seen.node.pendingProposals[proposalId]? = none →
      Run.Follows (RaftNode.step machine prost) (RaftNode.NewProposal proposalId) (RaftNode.registered proposalId sender seen)
        meanwhile →
        (RaftNode.Bookkept machine prost proposalId sender
            (RaftNode.proposeAndWait machine prost serialized proposalId sender data leadership submit meanwhile requestTimeoutMs)
            seen ↔
          RaftNode.Settles machine prost serialized proposalId sender data leadership submit meanwhile seen) := by
  refine ⟨?_, ?_, ?_⟩
  · intro proposal propose round seen honce hfresh
    rw [RaftManager.handleProposal_eq]
    exact RaftManager.bookkept_iff (fun _ h => RaftManager.Answering.onReady h round) honce hfresh
  · intro proposal propose round seen honce hfresh
    exact RaftManager.bookkept_iff (fun _ h => RaftManager.Answering.onReady h round) honce hfresh
  · intro serialized proposalId sender data submit meanwhile requestTimeoutMs seen honce hfresh hid hmeanwhile
    exact RaftNode.bookkept_iff honce hfresh hid hmeanwhile

/-- A client proposes no data. -/
def firstProposal : RaftProposal where
  id := [1]
  data := .raw []
  responseTx := some 0

def follower : Leadership where
  isLeader := false
  leaderId := 0

def leader : Leadership where
  isLeader := true
  leaderId := 1

theorem empty_once {κ τ ρ : Type} [Ord κ] [Std.TransOrd κ] : Oneshot.Once (∅ : HashMap κ τ) ([] : List (τ × ρ)) := by
  refine ⟨by simp, ?_, ?_⟩ <;> simp

theorem empty_fresh {κ τ ρ : Type} [Ord κ] [Std.TransOrd κ] (sender : τ) :
    Oneshot.Fresh (∅ : HashMap κ τ) ([] : List (τ × ρ)) sender := by
  refine ⟨by simp, by simp [Oneshot.Used]⟩

theorem proposals_bookkept_follower :
    RaftManager.Bookkept .ofStorage firstProposal
      (RaftManager.handleProposal .ofStorage firstProposal follower (fun _ _ => .ok ()) none)
      { node := RaftManager.freshManager 1 } :=
  ((proposals_bookkept_iff .ofStorage RaftNode.recorder prostSnapshot follower).1 firstProposal (fun _ _ => .ok ()) none
    { node := RaftManager.freshManager 1 } empty_once fun sender _ => empty_fresh sender).mpr
      (.inr ⟨_, rfl, fun hleader => absurd hleader (by decide)⟩)

/-- Raft refuses a proposal of the manager; and the node's wait is over before anything is committed. -/
theorem not_proposals_bookkept :
    ¬ RaftManager.Bookkept .ofStorage firstProposal
      (RaftManager.handleProposal .ofStorage firstProposal leader (fun _ _ => .error "proposal dropped") none)
      { node := RaftManager.freshManager 1 } ∧
    ¬ RaftNode.Bookkept RaftNode.recorder prostSnapshot [1] 0
      (RaftNode.proposeAndWait RaftNode.recorder prostSnapshot (.ok ()) [1] 0 (.raw []) leader (fun _ _ => .ok ()) [] 5000)
      { node := RaftNode.freshNode } := by
  refine ⟨?_, ?_⟩
  · intro hbookkept
    exact absurd (hbookkept.dropped _ _ rfl) (by decide)
  · intro hbookkept
    exact absurd (hbookkept.dropped _ _ rfl) (by decide)

end IrohRaft
