import IrohRaft.Proof.Raft.Settling

/-!
# No proposal is lost

What a run that meets the condition does for every proposal; and a run that loses one, in which the background task
comes before the flush timer.
-/

namespace IrohRaft.OptimizedRaftBatchProcessor

open Rust Lanes

variable {Data F : Type}

/-! ### Whom raft answers -/

def ResponseSender.channels : ResponseSender → List ResponseTx
  | .client responseTx => [responseTx]
  | .batch channels => channels.map Prod.snd

/-- The channels that go to raft with a message are those of its proposals. -/
theorem channels_message (batch : List Data → Data) (message : Forwarded Data) :
    (message.message batch).responseTx.toList.flatMap ResponseSender.channels =
      message.proposals.filterMap (·.inner.responseTx) := by
  rw [Forwarded.message]
  split
  · next proposal hsingle =>
      rw [hsingle]
      cases hresponse : proposal.inner.responseTx <;> simp [ResponseSender.channels, hresponse]
  · simp [createBatchedProposal, ResponseSender.channels, responseChannels, List.map_filterMap, Function.comp_def]

/-! ### Runs -/

/-- What has become of the proposals. Raft's answers reach the clients whose proposals it has, once each (`carried`). -/
structure LosesNone [Zero F] [LT F] [DecidableLT F] (batch : List Data → Data) (perSecond : Nat → Nat → F)
    (processor : OptimizedRaftBatchProcessor Data F) : Prop where
  accounted : processor.ledger.submitted.Perm
    (processor.forwarded ++ processor.held ++ processor.proposalRx ++ processor.ledger.failed)
  inOrder : InOrder EnhancedRaftProposal.priority processor.forwarded processor.ledger.submitted
  carried :
    (processor.raftTx.flatMap fun message => (message.message batch).responseTx.toList.flatMap ResponseSender.channels) =
      processor.forwarded.filterMap (·.inner.responseTx)
  answered : processor.ledger.Answered
  settles : processor.raftOpen = true → CanSettle perSecond processor

/-- A proposal of a client that waits on the channel. -/
def proposalOf (responseTx : ResponseTx) : EnhancedRaftProposal Unit where
  inner := { id := [], data := (), responseTx := some responseTx }
  priority := .normal
  submittedAt := 0
  estimatedSize := 68
  timeout := none

/-- Two proposals go to raft in one batch. -/
def batched : List (Event Unit) :=
  [.submit (proposalOf 0), .submit (proposalOf 1), .launch, .receive 0 {}, .receive 0 {}, .startGroup 0, .groupRound 0 true {}]

/-- The background task finds a proposal that waits longer than its five milliseconds, before the batch is due. -/
def cleanedUp : List (Event Unit) :=
  [.submit { proposalOf 0 with timeout := some (fromMillis 5) }, .launch, .receive 0 {}, .removeExpired (fromMillis 6)]

end IrohRaft.OptimizedRaftBatchProcessor
