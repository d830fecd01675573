import IrohRaft.CircuitBreaker
import IrohRaft.Error
import IrohRaft.Library.Outcome
import Mathlib.Algebra.Order.Floor.Semiring
import Mathlib.Data.NNRat.Floor

/-!
# The timeout manager

`timeout_manager.rs`: timeouts that follow how an operation has done so far, and retries with a growing
delay. The maps hold every type of operation from `new` on and are functions here. Durations are rational
numbers without an upper bound and what the source computes in floating point is exact; a factor of a
duration is not negative. What an operation does, what the clock shows and the random numbers are input.
-/

namespace IrohRaft

open Rust

namespace TimeoutManager

/-- In milliseconds. -/
abbrev Duration := ℚ≥0

def fromMillis (millis : Nat) : Duration := millis

def asMillis (duration : Duration) : Nat := ⌊duration⌋₊

structure TimeoutConfig where
  baseTimeout : Duration
  maxTimeout : Duration
  minTimeout : Duration
  enableAdaptive : Bool
  backoffMultiplier : ℚ≥0
  maxRetries : UInt32
  jitterFactor : ℚ

def TimeoutConfig.default : TimeoutConfig where
  baseTimeout := fromMillis 1000
  maxTimeout := fromMillis 30000
  minTimeout := fromMillis 100
  enableAdaptive := true
  backoffMultiplier := 2
  maxRetries := 3
  jitterFactor := 1 / 10

inductive OperationType where
  | raftMessage
  | connection
  | proposal
  | storage
  | configChange
  | healthCheck
  | network
  deriving DecidableEq, Repr

namespace OperationType

/-- `format!("{:?}", op_type)`. -/
def debug : OperationType → String
  | .raftMessage => "RaftMessage"
  | .connection => "Connection"
  | .proposal => "Proposal"
  | .storage => "Storage"
  | .configChange => "ConfigChange"
  | .healthCheck => "HealthCheck"
  | .network => "Network"

def defaultConfig : OperationType → TimeoutConfig
  | .raftMessage =>
      { TimeoutConfig.default with
        baseTimeout := fromMillis 500, maxTimeout := fromMillis 5000, minTimeout := fromMillis 100, maxRetries := 2 }
  | .connection =>
      { TimeoutConfig.default with
        baseTimeout := fromMillis 5000, maxTimeout := fromMillis 30000, minTimeout := fromMillis 1000, maxRetries := 3 }
  | .proposal =>
      { TimeoutConfig.default with
        baseTimeout := fromMillis 2000, maxTimeout := fromMillis 10000, minTimeout := fromMillis 500, maxRetries := 2 }
  | .storage =>
      { TimeoutConfig.default with
        baseTimeout := fromMillis 1000, maxTimeout := fromMillis 15000, minTimeout := fromMillis 200, maxRetries := 2 }
  | .configChange =>
      { TimeoutConfig.default with
        baseTimeout := fromMillis 5000, maxTimeout := fromMillis 30000, minTimeout := fromMillis 1000, maxRetries := 1 }
  | .healthCheck =>
      { TimeoutConfig.default with
        baseTimeout := fromMillis 1000, maxTimeout := fromMillis 5000, minTimeout := fromMillis 200, maxRetries := 1 }
  | .network =>
      { TimeoutConfig.default with
        baseTimeout := fromMillis 3000, maxTimeout := fromMillis 15000, minTimeout := fromMillis 500, maxRetries := 3 }

end OperationType

/-! ### Statistics -/

/-- Every counter wraps around, as `fetch_add` does. -/
structure TimeoutStats where
  totalOperations : UInt64
  timeoutCount : UInt64
  successCount : UInt64
  totalDurationMs : UInt64
  currentTimeoutMs : UInt64
  adjustmentCount : UInt32
  deriving DecidableEq, Repr

namespace TimeoutStats

def default : TimeoutStats := ⟨0, 0, 0, 0, 0, 0⟩

def recordSuccess (duration : Duration) (stats : TimeoutStats) : TimeoutStats :=
  { stats with
    totalOperations := stats.totalOperations + 1
    successCount := stats.successCount + 1
    totalDurationMs := stats.totalDurationMs + UInt64.ofNat (asMillis duration) }

def recordTimeout (stats : TimeoutStats) : TimeoutStats :=
  { stats with totalOperations := stats.totalOperations + 1, timeoutCount := stats.timeoutCount + 1 }

def recordAdjustment (newTimeout : Duration) (stats : TimeoutStats) : TimeoutStats :=
  { stats with
    adjustmentCount := stats.adjustmentCount + 1
    currentTimeoutMs := UInt64.ofNat (asMillis newTimeout) }

def getTimeoutRate (stats : TimeoutStats) : ℚ≥0 :=
  if stats.totalOperations = 0 then 0 else (stats.timeoutCount.toNat : ℚ≥0) / stats.totalOperations.toNat

def getAvgDuration (stats : TimeoutStats) : Duration :=
  if stats.successCount = 0 then fromMillis 0 else fromMillis (stats.totalDurationMs / stats.successCount).toNat

end TimeoutStats

end TimeoutManager

open TimeoutManager

structure TimeoutManager where
  configs : OperationType → TimeoutConfig
  stats : OperationType → TimeoutStats
  lastAdjustment : OperationType → Instant

namespace TimeoutManager

def new (now : OperationType → Instant) : TimeoutManager where
  configs := OperationType.defaultConfig
  stats := fun _ => .default
  lastAdjustment := now

def updateConfig (opType : OperationType) (config : TimeoutConfig) (manager : TimeoutManager) : TimeoutManager :=
  { manager with configs := Function.update manager.configs opType config }

def withStats (opType : OperationType) (change : TimeoutStats → TimeoutStats) (manager : TimeoutManager) :
    TimeoutManager :=
  { manager with stats := Function.update manager.stats opType (change (manager.stats opType)) }

def getCurrentTimeout (manager : TimeoutManager) (opType : OperationType) : Duration :=
  if (manager.stats opType).currentTimeoutMs = 0 then (manager.configs opType).baseTimeout
  else fromMillis (manager.stats opType).currentTimeoutMs.toNat

/-- `let new_timeout = ..`, the rule by which the timeout follows the statistics. -/
def newTimeout (config : TimeoutConfig) (stats : TimeoutStats) (currentTimeout : Duration) : Duration :=
  if stats.getTimeoutRate > 1 / 10 then min (currentTimeout * (3 / 2)) config.maxTimeout
  else if stats.getTimeoutRate < 1 / 50 ∧ asMillis stats.getAvgDuration > 0 then
    max (max (stats.getAvgDuration * 3) (currentTimeout * (4 / 5))) config.minTimeout
  else currentTimeout

/-- Thirty seconds, in nanoseconds. -/
def adjustmentInterval : Nat := 30000000000

def adjustTimeoutIfNeeded (opType : OperationType) (now : Instant) (manager : TimeoutManager) : TimeoutManager :=
  if now.durationSince (manager.lastAdjustment opType) < adjustmentInterval then manager
  else
    let currentTimeout := manager.getCurrentTimeout opType
    let timeout := newTimeout (manager.configs opType) (manager.stats opType) currentTimeout
    if timeout ≠ currentTimeout then
      { manager.withStats opType (.recordAdjustment timeout) with
        lastAdjustment := Function.update manager.lastAdjustment opType now }
    else manager

/-- What becomes of the operation under the timeout, and the time at which the adjustment reads the clock. -/
inductive Invocation (α : Type) where
  | success (value : α) (duration : Duration) (now : Instant)
  | failure (error : String) (duration : Duration)
  | timeout (now : Instant)

def adjustIfAdaptive (opType : OperationType) (now : Instant) (manager : TimeoutManager) : TimeoutManager :=
  if (manager.configs opType).enableAdaptive then manager.adjustTimeoutIfNeeded opType now else manager

/-- The error's duration is in nanoseconds. -/
def executeWithTimeout {α : Type} (opType : OperationType) (invocation : Invocation α) (manager : TimeoutManager) :
    Except RaftError α × TimeoutManager :=
  match invocation with
  | .success value duration now => (.ok value, adjustIfAdaptive opType now (manager.withStats opType (.recordSuccess duration)))
  | .failure error duration =>
      (.error (.internal s!"Operation failed: {error}"), manager.withStats opType (.recordSuccess duration))
  | .timeout now =>
      (.error (.timeout opType.debug ⌊manager.getCurrentTimeout opType * 1000000⌋₊),
        adjustIfAdaptive opType now (manager.withStats opType .recordTimeout))

/-! ### Retries -/

/-- `rng.gen::<f64>()`. -/
abbrev Random := { number : ℚ // 0 ≤ number ∧ number < 1 }

/-- The cast to `u64` stops at its bounds. -/
def calculateJitter (baseDelay : Duration) (jitterFactor : ℚ) (random : Random) : Duration :=
  fromMillis (min ⌊(asMillis baseDelay : ℚ) * jitterFactor * random⌋₊ (2 ^ 64 - 1))

/-- What a call of `execute_with_retry` does: its result, how often it called the operation, and how long it slept in
between. -/
structure Retried (α : Type) where
  result : Outcome RaftError α
  invoked : Nat
  slept : List Duration
  manager : TimeoutManager

/-- `loop { .. }`, with the invocations and the random numbers still to come. -/
def retryLoop {α : Type} (opType : OperationType) (config : TimeoutConfig) (invocations : Nat → Invocation α)
    (randoms : Nat → Random) (retryCount : UInt32) (delay : Duration) (manager : TimeoutManager) : Retried α :=
  match manager.executeWithTimeout opType (invocations 0) with
  | (.ok value, manager) => { result := .ok value, invoked := 1, slept := [], manager }
  | (.error error, manager) =>
      -- retry_count += 1, which panics at the end of a u32
      if _h : retryCount.toNat + 1 < 2 ^ 32 then
        if retryCount + 1 > config.maxRetries then { result := .err error, invoked := 1, slept := [], manager }
        else
          let jitter := calculateJitter delay config.jitterFactor (randoms 0)
          let delay := min (delay * config.backoffMultiplier + jitter) config.maxTimeout
          let rest := retryLoop opType config (fun n => invocations (n + 1)) (fun n => randoms (n + 1)) (retryCount + 1)
            delay manager
          { rest with invoked := rest.invoked + 1, slept := delay :: rest.slept }
      else { result := .panic, invoked := 1, slept := [], manager }
termination_by 2 ^ 32 - retryCount.toNat
decreasing_by
  rw [UInt32.toNat_add, UInt32.toNat_one, Nat.mod_eq_of_lt _h]
  omega

def executeWithRetry {α : Type} (opType : OperationType) (invocations : Nat → Invocation α) (randoms : Nat → Random)
    (manager : TimeoutManager) : Retried α :=
  let config := manager.configs opType
  retryLoop opType config invocations randoms 0 config.baseTimeout manager

/-! ### Runs -/

inductive Op where
  | recordSuccess (opType : OperationType) (duration : Duration)
  | recordTimeout (opType : OperationType)
  | adjust (opType : OperationType) (now : Instant)

def step (manager : TimeoutManager) : Op → TimeoutManager
  | .recordSuccess opType duration => manager.withStats opType (.recordSuccess duration)
  | .recordTimeout opType => manager.withStats opType .recordTimeout
  | .adjust opType now => manager.adjustTimeoutIfNeeded opType now

end TimeoutManager

end IrohRaft
