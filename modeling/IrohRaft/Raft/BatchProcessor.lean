import IrohRaft.Error
import IrohRaft.Library.Outcome
import IrohRaft.Library.Run
import IrohRaft.Library.Triple
import Mathlib.Data.UInt
import Mathlib.Order.Basic

/-!
# The batch processor

`OptimizedRaftBatchProcessor` of `raft/optimized_batch_processor.rs`, which collects proposals into batches on their way
to raft. Its main task, the concurrent calls that it waits for and the background task take turns; a turn ends where
another task can notice. The data that is proposed, the throughput in floating point and the circuit breaker are not of
this file and stay open. Times are in nanoseconds. What becomes of the proposals is written down on the side.
-/

namespace IrohRaft

open Rust

namespace OptimizedRaftBatchProcessor

/-! ### Configuration -/

structure OptimizedBatchConfig where
  maxBatchSize : Nat := 100
  batchTimeoutMs : UInt64 := 10
  maxBatchBytes : Nat := 1024 * 1024
  enabled : Bool := true
  enableStreaming : Bool := true
  streamBufferSize : Nat := 1000
  maxConcurrentBatches : Nat := 4
  enableAdaptiveBatching : Bool := true
  minBatchSize : Nat := 5
  highPriorityThreshold : Nat := 5000000
  enableBackpressure : Bool := true
  maxPendingProposals : UInt64 := 10000
  deriving DecidableEq, Repr

inductive Mode where
  | passthrough
  | streaming
  | traditional
  deriving DecidableEq, Repr

/-- Which loop `run` enters. -/
def OptimizedBatchConfig.mode (config : OptimizedBatchConfig) : Mode :=
  if config.enabled then if config.enableStreaming then .streaming else .traditional else .passthrough

/-- `Duration::from_millis`. -/
def fromMillis (millis : UInt64) : Nat := millis.toNat * 1000000

/-! ### Proposals -/

inductive ProposalPriority where
  | low
  | normal
  | high
  | critical
  deriving DecidableEq, Repr

def ProposalPriority.rank : ProposalPriority → Nat
  | .low => 0
  | .normal => 1
  | .high => 2
  | .critical => 3

theorem ProposalPriority.rank_injective : Function.Injective ProposalPriority.rank := by
  intro first second h
  cases first <;> cases second <;> simp_all [ProposalPriority.rank]

instance : LinearOrder ProposalPriority := LinearOrder.lift' ProposalPriority.rank ProposalPriority.rank_injective

/-- The sender of a client's response channel, by a number of its own. -/
abbrev ResponseTx : Type := Nat

/-- Whom raft answers: a client, or the task that answers the clients of a batch. -/
inductive ResponseSender where
  | client (responseTx : ResponseTx)
  | batch (channels : List (Bytes × ResponseTx))
  deriving DecidableEq, Repr

/-- `Data` is the `ProposalData` of a crate that is not here. -/
structure RaftProposal (Data Sender : Type) where
  id : Bytes
  data : Data
  responseTx : Option Sender
  deriving DecidableEq, Repr

structure EnhancedRaftProposal (Data : Type) where
  inner : RaftProposal Data ResponseTx
  priority : ProposalPriority
  submittedAt : Nat
  estimatedSize : Nat
  timeout : Option Nat
  deriving DecidableEq, Repr

variable {Data : Type}

namespace EnhancedRaftProposal

def age (now : Nat) (proposal : EnhancedRaftProposal Data) : Nat := now - proposal.submittedAt

def isExpired (now : Nat) (proposal : EnhancedRaftProposal Data) : Bool :=
  match proposal.timeout with
  | some timeout => proposal.age now > timeout
  | none => false

end EnhancedRaftProposal

/-! ### Batches -/

structure OptimizedProposalBatch (Data : Type) where
  proposals : List (EnhancedRaftProposal Data)
  totalSize : Nat
  createdAt : Nat
  priority : ProposalPriority
  deriving DecidableEq, Repr

namespace OptimizedProposalBatch

def new (now : Nat) : OptimizedProposalBatch Data := { proposals := [], totalSize := 0, createdAt := now, priority := .normal }

def add (batch : OptimizedProposalBatch Data) (proposal : EnhancedRaftProposal Data) : OptimizedProposalBatch Data :=
  { batch with
    totalSize := batch.totalSize + proposal.estimatedSize
    priority := if proposal.priority > batch.priority then proposal.priority else batch.priority
    proposals := batch.proposals ++ [proposal] }

def timeout (config : OptimizedBatchConfig) (batch : OptimizedProposalBatch Data) : Nat :=
  match batch.priority with
  | .critical => fromMillis 1
  | .high => config.highPriorityThreshold
  | .normal => fromMillis config.batchTimeoutMs
  | .low => fromMillis (config.batchTimeoutMs * 2)

def shouldFlush (config : OptimizedBatchConfig) (now : Nat) (batch : OptimizedProposalBatch Data) : Bool :=
  if batch.proposals.isEmpty then false
  else if batch.proposals.length ≥ config.maxBatchSize ∨ batch.totalSize ≥ config.maxBatchBytes then true
  else now - batch.createdAt ≥ batch.timeout config

def expired (now : Nat) (batch : OptimizedProposalBatch Data) : List (EnhancedRaftProposal Data) :=
  batch.proposals.filter (·.isExpired now)

/-- What `remove_expired` leaves, with the priority found anew. -/
def removeExpired (now : Nat) (batch : OptimizedProposalBatch Data) : OptimizedProposalBatch Data :=
  let kept := batch.proposals.filter fun proposal => !proposal.isExpired now
  { batch with
    proposals := kept
    totalSize := batch.totalSize - ((batch.expired now).map EnhancedRaftProposal.estimatedSize).sum
    priority := (kept.map EnhancedRaftProposal.priority).max?.getD .normal }

end OptimizedProposalBatch

/-! ### Performance metrics -/

/-- The throughput is a floating-point number. -/
structure BatchPerformanceMetrics (F : Type) where
  batchSizes : List Nat := []
  throughputSamples : List F := []
  deriving DecidableEq, Repr

namespace BatchPerformanceMetrics

variable {F : Type}

def maxSamples : Nat := 50

/-- `push_back`, of each kind of sample. -/
def push (batchSize : Nat) (throughput : F) (metrics : BatchPerformanceMetrics F) : BatchPerformanceMetrics F :=
  { batchSizes := metrics.batchSizes ++ [batchSize], throughputSamples := metrics.throughputSamples ++ [throughput] }

/-- `pop_front`, of each kind of sample. -/
def pop (metrics : BatchPerformanceMetrics F) : BatchPerformanceMetrics F :=
  { batchSizes := metrics.batchSizes.tail, throughputSamples := metrics.throughputSamples.tail }

def recordBatch (batchSize : Nat) (throughput : F) (metrics : BatchPerformanceMetrics F) : BatchPerformanceMetrics F :=
  if (metrics.push batchSize throughput).batchSizes.length > maxSamples then (metrics.push batchSize throughput).pop
  else metrics.push batchSize throughput

/-- The size with the best throughput, the first of several. -/
def bestSize [Zero F] [LT F] [DecidableLT F] (config : OptimizedBatchConfig) (metrics : BatchPerformanceMetrics F) : Nat :=
  ((metrics.batchSizes.zip metrics.throughputSamples).foldl
    (fun best sample => if sample.2 > best.2 then sample else best) (config.minBatchSize, 0)).1

/-- `clamp` panics on bounds that are the wrong way round. -/
def getOptimalBatchSize [Zero F] [LT F] [DecidableLT F] (config : OptimizedBatchConfig) (metrics : BatchPerformanceMetrics F) :
    Outcome RaftError Nat :=
  if metrics.throughputSamples.length < 5 then .ok (config.maxBatchSize / 2)
  else if config.minBatchSize ≤ config.maxBatchSize then
    .ok (min (max (metrics.bestSize config) config.minBatchSize) config.maxBatchSize)
  else .panic

end BatchPerformanceMetrics

/-! ### What goes to raft -/

/-- A message to raft: the proposals it carries, and the id that a batch is given. -/
structure Forwarded (Data : Type) where
  proposals : List (EnhancedRaftProposal Data)
  batchId : Bytes
  deriving DecidableEq, Repr

/-- The channels of the clients that wait for a proposal of the batch. -/
def responseChannels (proposals : List (EnhancedRaftProposal Data)) : List (Bytes × ResponseTx) :=
  proposals.filterMap fun proposal => proposal.inner.responseTx.map (proposal.inner.id, ·)

/-- `create_batched_proposal`, where `batch` is `ProposalData::Batch`. -/
def createBatchedProposal (batch : List Data → Data) (batchId : Bytes) (proposals : List (EnhancedRaftProposal Data)) :
    RaftProposal Data ResponseSender where
  id := batchId
  data := batch (proposals.map fun proposal => proposal.inner.data)
  responseTx := some (.batch (responseChannels proposals))

/-- A proposal that is alone goes as it is. -/
def Forwarded.message (batch : List Data → Data) (forwarded : Forwarded Data) : RaftProposal Data ResponseSender :=
  match forwarded.proposals with
  | [proposal] => { proposal.inner with responseTx := proposal.inner.responseTx.map .client }
  | proposals => createBatchedProposal batch forwarded.batchId proposals

/-- What the clients of a batch are told when raft answers, where an error is its text, or drops the channel. -/
def told : Option (Except String Unit) → Except RaftError Unit
  | some (.ok ()) => .ok ()
  | some (.error e) => .error (.internal s!"Batch proposal failed: {e}")
  | none => .error (.internal "Batch response channel dropped")

/-- The task that answers the clients of a batch. -/
def distribute (answer : Option (Except String Unit)) (channels : List (Bytes × ResponseTx)) :
    List (ResponseTx × Except RaftError Unit) :=
  channels.map fun channel => (channel.2, told answer)

/-! ### The processor -/

/-- Proposals of one priority, out of one chunk. The size of their batches is set when the group has its permit. -/
structure Group (Data : Type) where
  priority : ProposalPriority
  remaining : List (EnhancedRaftProposal Data)
  optimalSize : Option Nat := none
  deriving DecidableEq, Repr

/-- What the main task waits for: a proposal, when it has a chunk so far, or the calls it makes at once. -/
inductive Phase (Data : Type) where
  | created
  | receiving (chunk : List (EnhancedRaftProposal Data))
  | flushing (batches : List (OptimizedProposalBatch Data))
  | processing (groups : List (Group Data))
  | stopped
  deriving DecidableEq, Repr

/-- The proposals that the channel took, those that failed with an answer to the client if there is one that waits, and the
answers. A proposal that is dropped without an answer is nowhere any more. -/
structure Ledger (Data : Type) where
  submitted : List (EnhancedRaftProposal Data) := []
  failed : List (EnhancedRaftProposal Data) := []
  answers : List (ResponseTx × Except RaftError Unit) := []
  deriving Repr

end OptimizedRaftBatchProcessor

open OptimizedRaftBatchProcessor in
/-- `raftOpen` is false once the receiver of `raft_tx` is gone. -/
structure OptimizedRaftBatchProcessor (Data F : Type) where
  config : OptimizedBatchConfig
  proposalRx : List (EnhancedRaftProposal Data) := []
  raftOpen : Bool := true
  raftTx : List (Forwarded Data) := []
  priorityBatches : List (OptimizedProposalBatch Data) := []
  performanceMetrics : BatchPerformanceMetrics F := {}
  pendingProposals : UInt64 := 0
  phase : Phase Data := .created
  ledger : Ledger Data := {}

namespace OptimizedRaftBatchProcessor

variable {F : Type}

/-- What a call of `process_single_batch` gets from outside: the time it takes, and a random id. -/
structure Sending where
  processingTime : Nat := 0
  batchId : Bytes := []
  deriving DecidableEq, Repr

/-! ### The ledger -/

def submitted (proposal : EnhancedRaftProposal Data) (processor : OptimizedRaftBatchProcessor Data F) :
    OptimizedRaftBatchProcessor Data F :=
  { processor with
    proposalRx := processor.proposalRx ++ [proposal]
    ledger.submitted := processor.ledger.submitted ++ [proposal] }

def fail (proposals : List (EnhancedRaftProposal Data)) (answers : List (ResponseTx × Except RaftError Unit))
    (processor : OptimizedRaftBatchProcessor Data F) : OptimizedRaftBatchProcessor Data F :=
  { processor with
    ledger.failed := processor.ledger.failed ++ proposals
    ledger.answers := processor.ledger.answers ++ answers }

/-! ### One batch -/

variable (perSecond : Nat → Nat → F)

/-- A message that cannot be sent is dropped, and its response channel with it. -/
def loseMessage (proposals : List (EnhancedRaftProposal Data)) (processor : OptimizedRaftBatchProcessor Data F) :
    OptimizedRaftBatchProcessor Data F :=
  match proposals with
  | [_] => processor
  | proposals => fail proposals (distribute none (responseChannels proposals)) processor

def sendError (forwarded : Forwarded Data) : RaftError :=
  if forwarded.proposals.length = 1 then .internal "Failed to send proposal: channel closed"
  else .internal "Failed to send batched proposal: channel closed"

/-- `raft_tx.send(..)`. -/
def sendToRaft (forwarded : Forwarded Data) : Action (OptimizedRaftBatchProcessor Data F) RaftError Unit := fun processor =>
  if processor.raftOpen then (.ok (), { processor with raftTx := processor.raftTx ++ [forwarded] })
  else (.err (sendError forwarded), loseMessage forwarded.proposals processor)

def processSingleBatch (sending : Sending) (batch : OptimizedProposalBatch Data) :
    Action (OptimizedRaftBatchProcessor Data F) RaftError Unit :=
  if batch.proposals.isEmpty then return ()
  else do
    sendToRaft { proposals := batch.proposals, batchId := sending.batchId }
    Action.modify fun processor =>
      { processor with
        performanceMetrics :=
          processor.performanceMetrics.recordBatch batch.proposals.length (perSecond batch.proposals.length sending.processingTime)
        pendingProposals := processor.pendingProposals - .ofNat batch.proposals.length }

/-! ### Traditional batching -/

/-- The batch for a priority, which is opened if there is none, and where it stands. -/
def findBatch (now : Nat) (priority : ProposalPriority) (batches : List (OptimizedProposalBatch Data)) :
    Nat × List (OptimizedProposalBatch Data) :=
  match batches.findIdx? fun batch => batch.priority = priority with
  | some index => (index, batches)
  | none => (batches.length, batches ++ [.new now])

def isSaturated (processor : OptimizedRaftBatchProcessor Data F) : Bool :=
  processor.config.enableBackpressure && processor.pendingProposals ≥ processor.config.maxPendingProposals

def pendingExhausted (config : OptimizedBatchConfig) : RaftError :=
  .resourceExhausted s!"Pending proposals queue (limit: {config.maxPendingProposals})"

def addToPriorityBatch (now : Nat) (sending : Sending) (proposal : EnhancedRaftProposal Data) :
    Action (OptimizedRaftBatchProcessor Data F) RaftError Unit := fun processor =>
  if processor.isSaturated then (.err (pendingExhausted processor.config), processor)
  else
    let (index, batches) := findBatch now proposal.priority processor.priorityBatches
    let counted := { processor with pendingProposals := processor.pendingProposals + 1 }
    match batches[index]? with
    | none => (.panic, counted)
    | some found =>
        let batch := found.add proposal
        if batch.shouldFlush processor.config now then
          processSingleBatch perSecond sending batch { counted with priorityBatches := batches.eraseIdx index }
        else (.ok (), { counted with priorityBatches := batches.set index batch })

/-- What the clients of expired proposals are told. -/
def timedOut (now : Nat) (expired : List (EnhancedRaftProposal Data)) : List (ResponseTx × Except RaftError Unit) :=
  expired.filterMap fun proposal =>
    proposal.inner.responseTx.map (·, .error (.timeout "Proposal processing" (proposal.age now)))

/-- `flush_ready_batches` up to the concurrent calls: the other batches lose what has expired. -/
def flushReadyBatches (now : Nat) (processor : OptimizedRaftBatchProcessor Data F) : OptimizedRaftBatchProcessor Data F :=
  let ready := processor.priorityBatches.filter fun batch => batch.shouldFlush processor.config now
  let rest := processor.priorityBatches.filter fun batch => !batch.shouldFlush processor.config now
  let expired := rest.flatMap (·.expired now)
  fail expired (timedOut now expired)
    { processor with
      priorityBatches := rest.map (·.removeExpired now)
      phase := if ready.isEmpty then .receiving [] else .flushing ready }

/-- The background task, which does nothing about what has expired. -/
def removeExpired (now : Nat) (processor : OptimizedRaftBatchProcessor Data F) : OptimizedRaftBatchProcessor Data F :=
  { processor with priorityBatches := processor.priorityBatches.map (·.removeExpired now) }

/-! ### Streaming -/

def priorityGroup (chunk : List (EnhancedRaftProposal Data)) (priority : ProposalPriority) : Option (Group Data) :=
  if (chunk.filter fun proposal => proposal.priority = priority).isEmpty then none
  else some { priority, remaining := chunk.filter fun proposal => proposal.priority = priority }

def priorities : List ProposalPriority := [.low, .normal, .high, .critical]

/-- One group for each priority that occurs; the order, which a hash map decides, makes no difference. -/
def priorityGroups (chunk : List (EnhancedRaftProposal Data)) : List (Group Data) := priorities.filterMap (priorityGroup chunk)

/-- The size of a group's batches. -/
def optimalSize [Zero F] [LT F] [DecidableLT F] (processor : OptimizedRaftBatchProcessor Data F) : Outcome RaftError Nat :=
  if processor.config.enableAdaptiveBatching then processor.performanceMetrics.getOptimalBatchSize processor.config
  else .ok processor.config.maxBatchSize

/-- The main task panics, and its end of the channel is dropped. -/
def crash (processor : OptimizedRaftBatchProcessor Data F) : OptimizedRaftBatchProcessor Data F :=
  { processor with phase := .stopped, proposalRx := [] }

/-- A group gets its permit, of which there are `max_concurrent_batches`. -/
def startGroup [Zero F] [LT F] [DecidableLT F] (index : Nat) (groups : List (Group Data))
    (processor : OptimizedRaftBatchProcessor Data F) : OptimizedRaftBatchProcessor Data F :=
  match groups[index]? with
  | none => processor
  | some group =>
      if group.optimalSize = none ∧ (groups.filter (·.optimalSize.isSome)).length < processor.config.maxConcurrentBatches then
        match processor.optimalSize with
        | .ok size => { processor with phase := .processing (groups.set index { group with optimalSize := some size }) }
        | _ => crash processor
      else processor

/-- The calls that are left, and when there are none the next proposal is received. -/
def processing (groups : List (Group Data)) : Phase Data := if groups.isEmpty then .receiving [] else .processing groups

/-- The next batch of a group. -/
def groupBatch (priority : ProposalPriority) (proposals : List (EnhancedRaftProposal Data)) : OptimizedProposalBatch Data :=
  proposals.foldl OptimizedProposalBatch.add { OptimizedProposalBatch.new 0 with priority }

/-- One round of the loop of `process_priority_group`, which the circuit breaker admits or not. A group that fails is
dropped with what is left of it. -/
def groupRound (index : Nat) (admitted : Bool) (sending : Sending) (groups : List (Group Data))
    (processor : OptimizedRaftBatchProcessor Data F) : OptimizedRaftBatchProcessor Data F :=
  match groups[index]? with
  | some { priority, remaining, optimalSize := some size } =>
      if admitted then
        match processSingleBatch perSecond sending (groupBatch priority (remaining.take size)) processor with
        | (.ok (), after) =>
            { after with
              phase :=
                if (remaining.drop size).isEmpty then processing (groups.eraseIdx index)
                else .processing (groups.set index { priority, remaining := remaining.drop size, optimalSize := some size }) }
        | (_, after) => { after with phase := processing (groups.eraseIdx index) }
      else { processor with phase := processing (groups.eraseIdx index) }
  | _ => processor

def circuitOpen : RaftError := .internal "Circuit breaker open"

/-- The same round as a call: it returns what is left of the group. -/
def processNextBatch (priority : ProposalPriority) (optimalSize : Nat) (admitted : Bool) (sending : Sending)
    (remaining : List (EnhancedRaftProposal Data)) :
    Action (OptimizedRaftBatchProcessor Data F) RaftError (List (EnhancedRaftProposal Data)) :=
  if admitted then do
    processSingleBatch perSecond sending (groupBatch priority (remaining.take optimalSize))
    return remaining.drop optimalSize
  else Action.lift (.err circuitOpen)

/-- The loop of `process_priority_group`, with what each round gets from outside. It has not ended when they are used up. -/
def groupLoop (priority : ProposalPriority) (optimalSize : Nat) : (rounds : List (Bool × Sending)) →
    (remaining : List (EnhancedRaftProposal Data)) → OptimizedRaftBatchProcessor Data F →
    Option (Outcome RaftError Unit × OptimizedRaftBatchProcessor Data F)
  | _, [], processor => some (.ok (), processor)
  | [], _ :: _, _ => none
  | (admitted, sending) :: rounds, proposal :: rest, processor =>
      match processNextBatch perSecond priority optimalSize admitted sending (proposal :: rest) processor with
      | (.ok remaining, after) => groupLoop priority optimalSize rounds remaining after
      | (.err e, after) => some (.err e, after)
      | (.panic, after) => some (.panic, after)

/-- `process_priority_group`. Without any permits it waits for one for ever. -/
def processPriorityGroup [Zero F] [LT F] [DecidableLT F] (priority : ProposalPriority) (rounds : List (Bool × Sending))
    (proposals : List (EnhancedRaftProposal Data)) (processor : OptimizedRaftBatchProcessor Data F) :
    Option (Outcome RaftError Unit × OptimizedRaftBatchProcessor Data F) :=
  if processor.config.maxConcurrentBatches = 0 then none
  else
    match processor.optimalSize with
    | .ok optimalSize => groupLoop perSecond priority optimalSize rounds proposals processor
    | .err e => some (.err e, processor)
    | .panic => some (.panic, processor)

/-! ### The main task -/

/-- `run`, up to its loop: an interval of zero panics. -/
def launch (processor : OptimizedRaftBatchProcessor Data F) : OptimizedRaftBatchProcessor Data F :=
  if processor.config.mode = .traditional ∧ processor.config.batchTimeoutMs = 0 then crash processor
  else { processor with phase := .receiving [] }

/-- What is done with the next proposal, of which `more` says whether there is another one. -/
def receive (now : Nat) (sending : Sending) (proposal : EnhancedRaftProposal Data) (more : Bool)
    (chunk : List (EnhancedRaftProposal Data)) (processor : OptimizedRaftBatchProcessor Data F) :
    OptimizedRaftBatchProcessor Data F :=
  match processor.config.mode with
  | .passthrough => (sendToRaft { proposals := [proposal], batchId := sending.batchId } processor).2
  | .traditional => (addToPriorityBatch perSecond now sending proposal processor).2
  | .streaming =>
      let chunk := chunk ++ [proposal]
      { processor with
        phase :=
          if chunk.length = processor.config.streamBufferSize ∨ more = false then processing (priorityGroups chunk)
          else .receiving chunk }

/-- The turns of the tasks, and what happens outside. -/
inductive Event (Data : Type) where
  | submit (proposal : EnhancedRaftProposal Data)
  | launch
  | receive (now : Nat) (sending : Sending)
  | tick (now : Nat)
  | flushBatch (index : Nat) (sending : Sending)
  | startGroup (index : Nat)
  | groupRound (index : Nat) (admitted : Bool) (sending : Sending)
  | removeExpired (now : Nat)
  | raftStops

/-- Without room for a chunk, the streaming loop never comes to receive. -/
def receives (config : OptimizedBatchConfig) : Bool := config.mode ≠ .streaming || config.streamBufferSize > 0

/-- What cannot happen in a state changes nothing. The flush timer keeps the loop of the traditional mode from ever ending. -/
def step [Zero F] [LT F] [DecidableLT F] (processor : OptimizedRaftBatchProcessor Data F) : Event Data →
    OptimizedRaftBatchProcessor Data F
  | .submit proposal => if processor.phase matches .stopped then processor else submitted proposal processor
  | .launch => if processor.phase matches .created then launch processor else processor
  | .receive now sending =>
      match processor.phase, processor.proposalRx with
      | .receiving chunk, proposal :: rest =>
          if receives processor.config then
            receive perSecond now sending proposal (!rest.isEmpty) chunk { processor with proposalRx := rest }
          else processor
      | _, _ => processor
  | .tick now =>
      match processor.phase with
      | .receiving _ => if processor.config.mode = .traditional then flushReadyBatches now processor else processor
      | _ => processor
  | .flushBatch index sending =>
      match processor.phase with
      | .flushing batches =>
          match batches[index]? with
          | some batch =>
              let after := (processSingleBatch perSecond sending batch processor).2
              { after with phase := if (batches.eraseIdx index).isEmpty then .receiving [] else .flushing (batches.eraseIdx index) }
          | none => processor
      | _ => processor
  | .startGroup index =>
      match processor.phase with
      | .processing groups => startGroup index groups processor
      | _ => processor
  | .groupRound index admitted sending =>
      match processor.phase with
      | .processing groups => groupRound perSecond index admitted sending groups processor
      | _ => processor
  | .removeExpired now => removeExpired now processor
  | .raftStops => { processor with raftOpen := false }

/-- The processor after a run. -/
def run [Zero F] [LT F] [DecidableLT F] (config : OptimizedBatchConfig) (events : List (Event Data)) :
    OptimizedRaftBatchProcessor Data F :=
  Run.final (step perSecond) { config } events

end OptimizedRaftBatchProcessor

end IrohRaft
