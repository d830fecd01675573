import IrohRaft.Library.Run
import IrohRaft.Raft.Ready

/-!
# Message processing with reused buffers

The `OptimizedRaftProcessor` of `raft/optimized_processing.rs`. `serialize_message` is of `raft_codec`, which is not here, so
it stays open. The calls are taken one after another. The counts of the statistics wrap around, as in a release build; the
capacity of a buffer makes no difference to what is in it.
-/

namespace IrohRaft

open Rust

structure ProcessingStats where
  messagesProcessed : UInt64 := 0
  bytesProcessed : UInt64 := 0
  batchesProcessed : UInt64 := 0
  zeroCopyForwards : UInt64 := 0
  serializationReuses : UInt64 := 0
  deriving DecidableEq, Repr

inductive BatchPriority where
  | election
  | heartbeat
  | normal
  | snapshot
  deriving DecidableEq, Repr

namespace BatchPriority

def rank : BatchPriority → Nat
  | .election => 0
  | .heartbeat => 1
  | .normal => 2
  | .snapshot => 3

theorem rank_injective : Function.Injective rank := by
  intro first second h
  cases first <;> cases second <;> simp_all [rank]

instance : LinearOrder BatchPriority := LinearOrder.lift' rank rank_injective

/-- The numbers are those of `raft::eraftpb::MessageType`. -/
def fromMessageType (msgType : Int32) : BatchPriority :=
  -- MsgRequestVote, MsgRequestVoteResponse
  if msgType = 5 ∨ msgType = 6 then .election
  -- MsgHeartbeat, MsgHeartbeatResponse
  else if msgType = 8 ∨ msgType = 9 then .heartbeat
  -- MsgSnapshot
  else if msgType = 7 then .snapshot
  else .normal

end BatchPriority

/-! ### Buffers -/

/-- Which of the three buffers. -/
inductive BufferSize where
  | small
  | medium
  | large
  deriving DecidableEq, Repr

structure SerializationBuffer where
  smallBuffer : Bytes := []
  mediumBuffer : Bytes := []
  largeBuffer : Bytes := []
  reuseCount : UInt64 := 0
  deriving DecidableEq, Repr

namespace SerializationBuffer

def buffer (size : BufferSize) (buffers : SerializationBuffer) : Bytes :=
  match size with
  | .small => buffers.smallBuffer
  | .medium => buffers.mediumBuffer
  | .large => buffers.largeBuffer

def setBuffer (size : BufferSize) (content : Bytes) (buffers : SerializationBuffer) : SerializationBuffer :=
  match size with
  | .small => { buffers with smallBuffer := content }
  | .medium => { buffers with mediumBuffer := content }
  | .large => { buffers with largeBuffer := content }

/-- The buffer for a message of this size is handed out empty. -/
def getBuffer (sizeHint : Nat) : Action SerializationBuffer RaftError BufferSize := fun buffers =>
  let counted := { buffers with reuseCount := buffers.reuseCount + 1 }
  if sizeHint ≤ 4096 then (.ok .small, counted.setBuffer .small [])
  else if sizeHint ≤ 65536 then (.ok .medium, counted.setBuffer .medium [])
  else (.ok .large, counted.setBuffer .large [])

/-- `buf.extend_from_slice(..)`, and a copy of what is in it then. -/
def extendFromSlice (size : BufferSize) (slice : Bytes) : Action SerializationBuffer RaftError Bytes := fun buffers =>
  (.ok (buffers.buffer size ++ slice), buffers.setBuffer size (buffers.buffer size ++ slice))

end SerializationBuffer

/-! ### The processor -/

structure OptimizedRaftProcessor where
  serializationBuffer : SerializationBuffer := {}
  stats : ProcessingStats := {}
  electionQueue : List (List Message) := []
  heartbeatQueue : List (List Message) := []
  normalQueue : List (List Message) := []
  snapshotQueue : List (List Message) := []
  deriving DecidableEq, Repr

namespace OptimizedRaftProcessor

def new : OptimizedRaftProcessor := {}

def estimateMessageSize (message : Message) : Nat :=
  -- MsgAppend
  if message.msgType = 3 then 64 + message.entries.length * 256
  -- MsgSnapshot
  else if message.msgType = 7 then 64 + 1024 * 1024
  -- MsgRequestVote, MsgRequestVoteResponse
  else if message.msgType = 5 ∨ message.msgType = 6 then 64 + 32
  -- MsgHeartbeat, MsgHeartbeatResponse
  else if message.msgType = 8 ∨ message.msgType = 9 then 64 + 16
  else 64 + 128

variable (serializeMessage : Message → Outcome RaftError Bytes)

def serializeMessageOptimized (message : Message) : Action SerializationBuffer RaftError Bytes := do
  let buf ← SerializationBuffer.getBuffer (estimateMessageSize message)
  let serialized ← Action.lift (serializeMessage message)
  SerializationBuffer.extendFromSlice buf serialized

/-- The loop over a batch, which an error leaves at once. -/
def serializeAll : List Message → Action SerializationBuffer RaftError (List Bytes)
  | [] => return []
  | message :: rest => do
      let serialized ← serializeMessageOptimized serializeMessage message
      let results ← serializeAll rest
      return serialized :: results

def processMessageBatchRef (messages : List Message) (totalSize : Nat) :
    Action OptimizedRaftProcessor RaftError (List Bytes) := do
  let results ← (serializeAll serializeMessage messages).onPart serializationBuffer
    fun processor buffers => { processor with serializationBuffer := buffers }
  Action.modify fun processor =>
    { processor with
      stats.messagesProcessed := processor.stats.messagesProcessed + .ofNat messages.length
      stats.bytesProcessed := processor.stats.bytesProcessed + .ofNat totalSize
      stats.batchesProcessed := processor.stats.batchesProcessed + 1
      stats.serializationReuses := processor.serializationBuffer.reuseCount }
  return results

def processBatchOwned (messages : List Message) : Action OptimizedRaftProcessor RaftError (List Bytes) :=
  processMessageBatchRef serializeMessage messages (messages.map estimateMessageSize).sum

/-! ### Queues -/

/-- A message is put on the last batch of a queue, or on a new one if that is full. -/
def pushMessage (limit : Nat) (message : Message) : Action (List (List Message)) RaftError Unit := fun queue =>
  let queue := if queue.isEmpty || queue.getLast?.any fun batch => batch.length ≥ limit then queue ++ [[]] else queue
  -- queue must have an element after conditional push
  match queue.getLast? with
  | some back => (.ok (), queue.dropLast ++ [back ++ [message]])
  | none => (.panic, queue)

def queueMessage (message : Message) : Action OptimizedRaftProcessor RaftError Unit :=
  match BatchPriority.fromMessageType message.msgType with
  | .election =>
      (pushMessage 32 message).onPart electionQueue fun processor queue => { processor with electionQueue := queue }
  | .heartbeat =>
      (pushMessage 64 message).onPart heartbeatQueue fun processor queue => { processor with heartbeatQueue := queue }
  | .normal =>
      (pushMessage 16 message).onPart normalQueue fun processor queue => { processor with normalQueue := queue }
  | .snapshot =>
      (pushMessage 4 message).onPart snapshotQueue fun processor queue => { processor with snapshotQueue := queue }

/-- The first batch of the first queue that has one. -/
def processNextBatch : Action OptimizedRaftProcessor RaftError (Option (List Bytes)) := fun processor =>
  match processor.electionQueue with
  | batch :: rest => (some <$> processBatchOwned serializeMessage batch) { processor with electionQueue := rest }
  | [] =>
      match processor.heartbeatQueue with
      | batch :: rest => (some <$> processBatchOwned serializeMessage batch) { processor with heartbeatQueue := rest }
      | [] =>
          match processor.normalQueue with
          | batch :: rest => (some <$> processBatchOwned serializeMessage batch) { processor with normalQueue := rest }
          | [] =>
              match processor.snapshotQueue with
              | batch :: rest => (some <$> processBatchOwned serializeMessage batch) { processor with snapshotQueue := rest }
              | [] => (.ok none, processor)

/-! ### Runs -/

inductive Call where
  | queueMessage (message : Message)
  | processNextBatch
  deriving DecidableEq, Repr

/-- A call, and what it gives back: there is nothing in what `queue_message` returns. -/
def step (processor : OptimizedRaftProcessor) : Call → Outcome RaftError (Option (List Bytes)) × OptimizedRaftProcessor
  | .queueMessage message => ((fun _ => none) <$> queueMessage message) processor
  | .processNextBatch => processNextBatch serializeMessage processor

/-- What the calls give back, in order. -/
def results (processor : OptimizedRaftProcessor) : List Call → List (Outcome RaftError (Option (List Bytes)))
  | [] => []
  | call :: rest => (step serializeMessage processor call).1 :: results (step serializeMessage processor call).2 rest

/-- The processor after the calls. -/
def final (processor : OptimizedRaftProcessor) (calls : List Call) : OptimizedRaftProcessor :=
  Run.final (fun processor call => (step serializeMessage processor call).2) processor calls

end OptimizedRaftProcessor

end IrohRaft
