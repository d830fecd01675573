import IrohRaft.CircuitBreaker
import IrohRaft.Library.Run
import IrohRaft.Library.Text
import IrohRaft.Raft.Ready

/-!
# The message buffer of the iroh transport

The queues of `transport/iroh.rs` for messages that could not be sent at once. `buffer_message` and a
round of `process_message_batches` each hold the lock of the buffer from beginning to end, so they are
the steps of a run. What the clock shows and how each send ends is input.
-/

namespace IrohRaft

open Rust

inductive RaftMessagePriority where
  | election
  | heartbeat
  | logAppend
  | snapshot
  deriving DecidableEq, Repr

namespace RaftMessagePriority

/-- The numbers are those of `raft::eraftpb::MessageType`. -/
def fromRaftMessage (message : Message) : RaftMessagePriority :=
  -- MsgRequestVote, MsgRequestVoteResponse
  if message.msgType = 5 ∨ message.msgType = 6 then .election
  -- MsgHeartbeat, MsgHeartbeatResponse
  else if message.msgType = 8 ∨ message.msgType = 9 then .heartbeat
  -- MsgSnapshot
  else if message.msgType = 7 then .snapshot
  else .logAppend

def asU8 : RaftMessagePriority → Nat
  | .election => 0
  | .heartbeat => 1
  | .logAppend => 2
  | .snapshot => 3

end RaftMessagePriority

structure BufferedRaftMessage where
  message : Message
  priority : RaftMessagePriority
  timestamp : Instant
  deriving DecidableEq, Repr

/-- `message_buffer`: a queue for each peer. -/
abbrev MessageBuffer := HashMap UInt64 (List BufferedRaftMessage)

def nanosPerSecond : Nat := 1000000000

/-- `instant.elapsed()`, which is zero for an instant to come. -/
def Instant.elapsed (instant now : Instant) : Nat := (now - instant).toNat

/-! ### Buffering -/

def maxBuffered : Nat := 1000

/-- In front of the first message of a lower priority. -/
def insertPos (priority : RaftMessagePriority) (queue : List BufferedRaftMessage) : Nat :=
  (queue.findIdx? fun m => m.priority.asU8 > priority.asU8).getD queue.length

/-- `while queue.len() > MAX_BUFFERED { queue.pop_back(); }`. -/
def limitQueue (queue : List BufferedRaftMessage) : List BufferedRaftMessage :=
  if _h : queue.length > maxBuffered then limitQueue queue.dropLast else queue
termination_by queue.length
decreasing_by
  rw [List.length_dropLast]
  omega

def bufferMessage (toId : UInt64) (message : Message) (priority : RaftMessagePriority) (now : Instant)
    (buffer : MessageBuffer) : MessageBuffer :=
  let queue := buffer[toId]?.getD []
  let buffered : BufferedRaftMessage := { message, priority, timestamp := now }
  buffer.insert toId (limitQueue (queue.insertIdx (insertPos priority queue) buffered))

/-! ### Batches -/

def batchLimit : Nat := 100

/-- What a message meets when it is taken up: the time, and whether `send_single_message` succeeds. -/
structure Attempt where
  now : Instant
  succeeds : Bool

/-- `while let Some(buffered) = messages.pop_front() { .. }`: what is left of the queue, and what was sent. -/
def sendMessages : List BufferedRaftMessage → (attempts : Nat → Attempt) → (sentCount : Nat) →
    List BufferedRaftMessage × List BufferedRaftMessage
  | [], _, _ => ([], [])
  | buffered :: messages, attempts, sentCount =>
      -- skip old messages
      if buffered.timestamp.elapsed (attempts 0).now > 30 * nanosPerSecond then
        sendMessages messages (fun taken => attempts (taken + 1)) sentCount
      else if (attempts 0).succeeds then
        if sentCount + 1 ≥ batchLimit then (messages, [buffered])
        else
          let rest := sendMessages messages (fun taken => attempts (taken + 1)) (sentCount + 1)
          (rest.1, buffered :: rest.2)
      -- put the message back
      else (buffered :: messages, [])

/-- What a round meets at one peer: whether there is a connection or one is made, and each message. -/
structure PeerRound where
  connected : Bool
  attempts : Nat → Attempt

def processPeer (round : PeerRound) (messages : List BufferedRaftMessage) :
    List BufferedRaftMessage × List BufferedRaftMessage :=
  if messages.isEmpty then (messages, [])
  else if round.connected then sendMessages messages round.attempts 0
  else (messages, [])

/-- The peers do not share anything, so the order in which they are visited makes no difference. -/
def processMessageBatches (rounds : UInt64 → PeerRound) (buffer : MessageBuffer) : MessageBuffer :=
  buffer.map fun peerId messages => (processPeer (rounds peerId) messages).1

/-! ### Runs -/

namespace MessageBuffer

inductive Op where
  | bufferMessage (toId : UInt64) (message : Message) (priority : RaftMessagePriority) (now : Instant)
  | processMessageBatches (rounds : UInt64 → PeerRound)

def step (buffer : MessageBuffer) : Op → MessageBuffer
  | .bufferMessage toId message priority now => IrohRaft.bufferMessage toId message priority now buffer
  | .processMessageBatches rounds => IrohRaft.processMessageBatches rounds buffer

/-- The buffer after the operations, in order. -/
def run (ops : List Op) : MessageBuffer := Run.final step ∅ ops

def queue (buffer : MessageBuffer) (peer : UInt64) : List BufferedRaftMessage := buffer[peer]?.getD []

/-- What an operation gives the buffer for a peer. -/
def Op.arrival (peer : UInt64) : Op → Option BufferedRaftMessage
  | .bufferMessage toId message priority now => if toId = peer then some { message, priority, timestamp := now } else none
  | .processMessageBatches _ => none

/-- What an operation sends to a peer. -/
def Op.sent (peer : UInt64) (buffer : MessageBuffer) : Op → List BufferedRaftMessage
  | .bufferMessage _ _ _ _ => []
  | .processMessageBatches rounds => (processPeer (rounds peer) (buffer.queue peer)).2

def arrivals (peer : UInt64) (ops : List Op) : List BufferedRaftMessage := ops.filterMap (Op.arrival peer)

def sentFrom (peer : UInt64) : MessageBuffer → List Op → List BufferedRaftMessage
  | _, [] => []
  | buffer, op :: rest => op.sent peer buffer ++ sentFrom peer (step buffer op) rest

/-- What was sent to a peer in a run. -/
def sentTo (peer : UInt64) (ops : List Op) : List BufferedRaftMessage := sentFrom peer ∅ ops

end MessageBuffer

end IrohRaft
