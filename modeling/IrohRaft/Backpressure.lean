import IrohRaft.Library.Stream
import IrohRaft.Library.Tasks
import IrohRaft.Error

/-!
# Backpressure

`backpressure.rs`: a bounded channel whose senders also take a permit from a semaphore, which the receiver
gives back. The operations are tasks that share the channel. A send takes a turn for each of its steps, also
for the one after its message was accepted; a receive runs from its await to its end in one turn. The
channel of the runtime holds as many messages as there are permits. A time is in nanoseconds of the monotonic
clock, in 64 bits.
-/

namespace IrohRaft

open Rust

namespace Backpressure

inductive Priority where
  | low
  | normal
  | high
  | critical
  deriving DecidableEq, Repr

/-- `Semaphore::MAX_PERMITS`, above which the runtime panics. -/
def maxPermits : Nat := (2 ^ 64 - 1) / 8

structure BackpressureConfig where
  maxPending : Nat
  sendTimeout : Nat
  deriving DecidableEq, Repr

structure PrioritizedMessage (T : Type) where
  data : T
  priority : Priority
  createdAt : UInt64
  retryCount : UInt32
  deriving DecidableEq, Repr

def PrioritizedMessage.new {T : Type} (data : T) (priority : Priority) (now : UInt64) : PrioritizedMessage T :=
  { data, priority, createdAt := now, retryCount := 0 }

/-- `self.created_at.elapsed()`, which is zero where the clock seems to have gone back. -/
def PrioritizedMessage.age {T : Type} (message : PrioritizedMessage T) (now : UInt64) : Nat :=
  now.toNat - message.createdAt.toNat

/-! ### Metrics -/

structure BackpressureMetrics where
  totalSent : UInt64
  totalReceived : UInt64
  totalDropped : UInt64
  totalTimeouts : UInt64
  currentPending : UInt64
  maxPendingReached : UInt64
  avgLatencyMs : UInt64
  deriving DecidableEq, Repr

namespace BackpressureMetrics

def new : BackpressureMetrics :=
  { totalSent := 0, totalReceived := 0, totalDropped := 0, totalTimeouts := 0, currentPending := 0, maxPendingReached := 0,
    avgLatencyMs := 0 }

-- the atomic counters wrap around

def recordSent (metrics : BackpressureMetrics) : BackpressureMetrics :=
  { metrics with totalSent := metrics.totalSent + 1 }

def recordReceived (metrics : BackpressureMetrics) : BackpressureMetrics :=
  { metrics with totalReceived := metrics.totalReceived + 1, currentPending := metrics.currentPending - 1 }

def recordTimeout (metrics : BackpressureMetrics) : BackpressureMetrics :=
  { metrics with totalTimeouts := metrics.totalTimeouts + 1 }

/-- Simple exponential moving average. -/
def recordLatency (latency : Nat) (metrics : BackpressureMetrics) : Outcome RaftError BackpressureMetrics := do
  let latencyMs := UInt64.ofNat (latency / 1000000)
  let current := metrics.avgLatencyMs
  let newAvg ←
    if current = 0 then pure latencyMs
    else do
      let weighted ← u64Mul current 7
      let sum ← u64Add weighted latencyMs
      pure (sum / 8)
  return { metrics with avgLatencyMs := newAvg }

end BackpressureMetrics

/-! ### The channel -/

/-- What `bounded_with_backpressure` makes, shared by the sender's clones and the receiver. -/
structure Channel (T : Type) where
  config : BackpressureConfig
  queue : List (PrioritizedMessage T)
  sendersAlive : Bool
  receiverAlive : Bool
  /-- The semaphore. -/
  permits : Nat
  metrics : BackpressureMetrics
  deriving DecidableEq, Repr

/-- The runtime panics where it is asked for no room, or for too many permits. -/
def boundedWithBackpressure (T : Type) (config : BackpressureConfig) : Outcome RaftError (Channel T) :=
  if config.maxPending = 0 ∨ maxPermits < config.maxPending then .panic
  else
    .ok { config, queue := [], sendersAlive := true, receiverAlive := true, permits := config.maxPending,
          metrics := BackpressureMetrics.new }

namespace Channel

variable {T : Type}

/-- What a receive does once it has taken a message off the queue. -/
def received (message : PrioritizedMessage T) (now : UInt64) : Action (Channel T) RaftError (PrioritizedMessage T) :=
  fun channel =>
    let metrics := channel.metrics.recordReceived
    match metrics.recordLatency (message.age now) with
    | .ok metrics => (.ok message, { channel with metrics, permits := channel.permits + 1 })
    | .err error => (.err error, { channel with metrics })
    | .panic => (.panic, { channel with metrics })

def tryRecv (now : UInt64) : Action (Channel T) RaftError (PrioritizedMessage T) := fun channel =>
  match channel.queue with
  | message :: rest => received message now { channel with queue := rest }
  | [] =>
      if channel.sendersAlive then (.err (.internal "No messages available"), channel)
      else (.err (.internal "Channel disconnected"), channel)

/-- `recv`, where it does not wait. -/
def recv (now : UInt64) (channel : Channel T) : Option (Outcome RaftError (Option (PrioritizedMessage T)) × Channel T) :=
  match channel.queue with
  | message :: rest => some ((some <$> received message now) { channel with queue := rest })
  | [] => if channel.sendersAlive then none else some (.ok none, channel)

/-- The comparison with the threshold is floating-point arithmetic. -/
def isUnderBackpressure (exceedsThreshold : (used total : Nat) → Bool) (channel : Channel T) : Outcome RaftError Bool :=
  let available := channel.permits
  let total := channel.config.maxPending
  if available ≤ total then .ok (exceedsThreshold (total - available) total) else .panic

end Channel

/-! ### The operations on a channel -/

/-- The step an operation is at. -/
inductive Point (T : Type) where
  -- send: semaphore.acquire(), which nobody closes, and sender.send(message)
  | acquire (data : T) (priority : Priority)
  | sending (message : PrioritizedMessage T)
  -- try_send: semaphore.try_acquire(), sender.try_send(message)
  | tryAcquire (data : T) (priority : Priority)
  | trySending (message : PrioritizedMessage T)
  -- both, once the message was accepted: record_sent(), mem::forget(permit)
  | accepted
  | recv
  | tryRecv
  | dropReceiver
  | dropSenders
  | sent (result : Outcome RaftError Unit)
  | received (result : Outcome RaftError (Option (PrioritizedMessage T)))
  | dropped
  deriving DecidableEq

inductive Operation (T : Type) where
  | send (data : T) (priority : Priority)
  | trySend (data : T) (priority : Priority)
  | recv
  | tryRecv
  | dropReceiver
  | dropSenders
  deriving DecidableEq

def Operation.entry {T : Type} : Operation T → Point T
  | .send data priority => .acquire data priority
  | .trySend data priority => .tryAcquire data priority
  | .recv => .recv
  | .tryRecv => .tryRecv
  | .dropReceiver => .dropReceiver
  | .dropSenders => .dropSenders

/-- What lets an operation go on: what it waits for is there, its timeout has passed, or its caller drops it. -/
inductive Input where
  | proceed (now : UInt64)
  | elapse
  | cancel
  deriving DecidableEq, Repr

section

variable {T : Type}

/-- The permit is dropped, which gives it back. -/
def Channel.releasePermit (channel : Channel T) : Channel T := { channel with permits := channel.permits + 1 }

def Channel.accept (channel : Channel T) (message : PrioritizedMessage T) : Channel T :=
  { channel with queue := channel.queue ++ [message] }

def proceed (channel : Channel T) (now : UInt64) : Point T → Option (Channel T × Point T)
  | .acquire data priority =>
      if channel.permits = 0 then none
      else some ({ channel with permits := channel.permits - 1 }, .sending (.new data priority now))
  | .sending message =>
      if ¬ channel.receiverAlive then some (channel.releasePermit, .sent (.err (.internal "Channel closed")))
      else if channel.queue.length < channel.config.maxPending then some (channel.accept message, .accepted)
      else none
  | .tryAcquire data priority =>
      if channel.permits = 0 then some (channel, .sent (.err (.internal "Channel at capacity")))
      else some ({ channel with permits := channel.permits - 1 }, .trySending (.new data priority now))
  | .trySending message =>
      if ¬ channel.receiverAlive then some (channel.releasePermit, .sent (.err (.internal "Channel closed")))
      else if channel.queue.length < channel.config.maxPending then some (channel.accept message, .accepted)
      else some (channel.releasePermit, .sent (.err (.internal "Channel full")))
  | .accepted => some ({ channel with metrics := channel.metrics.recordSent }, .sent (.ok ()))
  | .recv =>
      match channel.recv now with
      | some (result, channel) => some (channel, .received result)
      | none => none
  | .tryRecv => some ((channel.tryRecv now).2, .received ((channel.tryRecv now).1 >>= fun message => .ok (some message)))
  | .dropReceiver => some ({ channel with receiverAlive := false, queue := [] }, .dropped)
  | .dropSenders => some ({ channel with sendersAlive := false }, .dropped)
  | .sent _ | .received _ | .dropped => none

/-- The timeout of a `send` passes at one of its two awaits. -/
def elapse (channel : Channel T) : Point T → Option (Channel T × Point T)
  | .acquire _ _ => some (channel, .sent (.err (.timeout "acquire send permit" channel.config.sendTimeout)))
  | .sending _ =>
      some ({ channel.releasePermit with metrics := channel.metrics.recordTimeout },
        .sent (.err (.timeout "send message" channel.config.sendTimeout)))
  | _ => none

/-- A future is dropped at an await. -/
def cancel (channel : Channel T) : Point T → Option (Channel T × Point T)
  | .acquire _ _ | .recv => some (channel, .dropped)
  | .sending _ => some (channel.releasePermit, .dropped)
  | _ => none

def advance (channel : Channel T) (_tasks : List (Point T)) (point : Point T) : Input → Option (Channel T × Point T)
  | .proceed now => proceed channel now point
  | .elapse => elapse channel point
  | .cancel => cancel channel point

abbrev System (T : Type) := Tasks.System (Channel T) (Point T)

abbrev Label (T : Type) := Tasks.Label (Operation T) Input

def program (T : Type) : Tasks.Program (Channel T) (Point T) (Operation T) Input where
  entry := Operation.entry
  advance := advance

end

/-! ### Priorities -/

/-- A queue for each priority, with the operations on it. -/
structure PriorityBackpressureManager (T : Type) where
  queues : Priority → System T

/-- No call of `recv_prioritized` is in progress, and what the last one returned; or the queue it polls next;
or it waits on the queue of the highest priority. -/
inductive Receiver (T : Type) where
  | ready (last : Option (Outcome RaftError (Option (PrioritizedMessage T))))
  | polling (priority : Priority)
  | awaiting
  deriving DecidableEq

/-- The queue that is polled after this one. -/
def Priority.next : Priority → Option Priority
  | .critical => some .high
  | .high => some .normal
  | .normal => some .low
  | .low => none

/-- A snapshot has the fields of the metrics. -/
abbrev BackpressureSnapshot := BackpressureMetrics

namespace PriorityBackpressureManager

variable {T : Type}

def new (T : Type) (config : BackpressureConfig) : Outcome RaftError (PriorityBackpressureManager T) := do
  -- distribute capacity
  let channel ← boundedWithBackpressure T { config with maxPending := config.maxPending / 4 }
  return { queues := fun _ => ⟨channel, []⟩ }

def channel (manager : PriorityBackpressureManager T) (priority : Priority) : Channel T := (manager.queues priority).shared

def setQueue (manager : PriorityBackpressureManager T) (priority : Priority) (queue : System T) :
    PriorityBackpressureManager T :=
  { queues := fun other => if other = priority then queue else manager.queues other }

def setChannel (manager : PriorityBackpressureManager T) (priority : Priority) (channel : Channel T) :
    PriorityBackpressureManager T :=
  manager.setQueue priority { manager.queues priority with shared := channel }

/-- One turn of `recv_prioritized`. -/
def recvPrioritized (manager : PriorityBackpressureManager T) (now : UInt64) :
    Receiver T → Option (PriorityBackpressureManager T × Receiver T)
  | .ready _ => none
  | .polling priority =>
      match (manager.channel priority).tryRecv now with
      | (.ok message, channel) => some (manager.setChannel priority channel, .ready (some (.ok (some message))))
      | (.err _, channel) =>
          some (manager.setChannel priority channel,
            match priority.next with
            | some next => .polling next
            | none => .awaiting)
      | (.panic, channel) => some (manager.setChannel priority channel, .ready (some .panic))
  | .awaiting =>
      match (manager.channel .critical).recv now with
      | some (result, channel) => some (manager.setChannel .critical channel, .ready (some result))
      | none => none

/-- The totals so far, and the sum and count of the latencies. -/
def addMetrics (sums : BackpressureSnapshot × UInt64 × UInt64) (metrics : BackpressureSnapshot) :
    Outcome RaftError (BackpressureSnapshot × UInt64 × UInt64) := do
  let (total, latencySum, latencyCount) := sums
  let totalSent ← u64Add total.totalSent metrics.totalSent
  let totalReceived ← u64Add total.totalReceived metrics.totalReceived
  let totalDropped ← u64Add total.totalDropped metrics.totalDropped
  let totalTimeouts ← u64Add total.totalTimeouts metrics.totalTimeouts
  let currentPending ← u64Add total.currentPending metrics.currentPending
  let maxPendingReached :=
    if total.maxPendingReached < metrics.maxPendingReached then metrics.maxPendingReached else total.maxPendingReached
  let total :=
    { totalSent, totalReceived, totalDropped, totalTimeouts, currentPending, maxPendingReached,
      avgLatencyMs := total.avgLatencyMs }
  if 0 < metrics.totalReceived then do
    let weighted ← u64Mul metrics.avgLatencyMs metrics.totalReceived
    let latencySum ← u64Add latencySum weighted
    let latencyCount ← u64Add latencyCount metrics.totalReceived
    return (total, latencySum, latencyCount)
  else return (total, latencySum, latencyCount)

def aggregateMetrics (manager : PriorityBackpressureManager T) : Outcome RaftError BackpressureSnapshot := do
  let metrics := [Priority.low, .normal, .high, .critical].map fun priority => (manager.channel priority).metrics
  let (total, latencySum, latencyCount) ← metrics.foldlM addMetrics (BackpressureMetrics.new, 0, 0)
  return if 0 < latencyCount then { total with avgLatencyMs := latencySum / latencyCount } else total

end PriorityBackpressureManager

/-- The manager with its one receiver. -/
structure Reception (T : Type) where
  manager : PriorityBackpressureManager T
  receiver : Receiver T

/-- An operation on a queue takes a step, `recv_prioritized` is called, takes a turn, or is dropped. -/
inductive Event (T : Type) where
  | queue (priority : Priority) (label : Label T)
  | call
  | receive (now : UInt64)
  | drop

def Reception.step {T : Type} (reception : Reception T) : Event T → Reception T
  | .queue priority label =>
      { reception with
        manager := reception.manager.setQueue priority
          (Tasks.step (program T) (reception.manager.queues priority) label) }
  | .call =>
      match reception.receiver with
      | .ready _ => { reception with receiver := .polling .critical }
      | _ => reception
  | .receive now =>
      match reception.manager.recvPrioritized now reception.receiver with
      | some (manager, receiver) => { manager, receiver }
      | none => reception
  | .drop =>
      -- the polls have no await between them
      match reception.receiver with
      | .awaiting => { reception with receiver := .ready none }
      | _ => reception

end Backpressure

end IrohRaft
