import IrohRaft.Raft.Manager

/-!
# The handlers of the event loop

The copy of the manager's proposal handling in `raft/handlers.rs`, which works on the manager's shared parts. What it
calls for a Ready is given to it when it is created.
-/

namespace IrohRaft.RaftProposalHandler

open Rust RaftManager

/-- A leader that is not known is reported as the leader zero. -/
def notLeader (leadership : Leadership) : Except RaftError Unit := .error (.notLeader "propose" (some leadership.leaderId))

def handleProposal (codec : ManagerCodec) (onReadyFn : Handler RaftManager Unit) (proposal : RaftProposal)
    (leadership : Leadership) (propose : Bytes → Bytes → Except String Unit) : Handler RaftManager Unit := do
  registerProposal proposal
  let data ← Action.lift (serializeProposal codec proposal.data)
  if leadership.isLeader then do
    Action.lift (ofExcept (propose proposal.id data))
    onReadyFn
  else answerPending proposal.id (notLeader leadership)

end IrohRaft.RaftProposalHandler
