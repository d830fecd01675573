import IrohRaft.Library.Tasks
import Mathlib.Algebra.Order.Ring.Int

/-!
# The circuit breaker

`circuit_breaker.rs`, as tasks that share the breaker's fields: calls, and the two ways to force a state.
A task's point is the `await` it stands at; what the source does up to the next one is one turn. Locks
held across an `await` block others: `allow_request` keeps its read guard of `last_failure_time` while it
waits to write the state. The metrics are not part of the model.
-/

namespace IrohRaft

/-- A point in time, in nanoseconds. -/
abbrev Instant := Int

/-- How long it has been, zero for an instant to come; in nanoseconds. -/
def Instant.durationSince (now earlier : Instant) : Nat := (now - earlier).toNat

inductive CircuitBreakerState where
  | closed
  /-- `Open`. -/
  | opened
  | halfOpen
  deriving DecidableEq, Repr

/-- The fields the breaker reads. A duration is in nanoseconds. -/
structure CircuitBreakerConfig where
  failureThreshold : UInt32
  timeout : Nat
  successThreshold : UInt32
  halfOpenMaxRequests : UInt32
  deriving DecidableEq, Repr

structure CircuitBreaker where
  state : CircuitBreakerState
  lastFailureTime : Option Instant
  halfOpenRequests : UInt32
  halfOpenSuccesses : UInt32
  recentFailures : List Instant
  deriving DecidableEq, Repr

namespace CircuitBreaker

def new : CircuitBreaker where
  state := .closed
  lastFailureTime := none
  halfOpenRequests := 0
  halfOpenSuccesses := 0
  recentFailures := []

/-- The await point a task stands at. -/
inductive Point where
  -- allow_request: state.read(), last_failure_time.read(), state.write()
  | allowState
  | allowElapsed
  | allowTransition
  -- call: the protected operation
  | running
  -- on_success: state.read(), state.write(), last_failure_time.write(), recent_failures.write()
  | successState
  | successClose
  | clearFailureTime
  | clearFailures
  | successClean
  -- on_failure: last_failure_time.write(), recent_failures.write() twice, state.read(), recent_failures.read(),
  -- state.write()
  | failureTime (now : Instant)
  | failurePush (now : Instant)
  | failureClean
  | failureState
  | failureCount
  | failureOpen
  -- force_open: state.write(), last_failure_time.write(); force_close: state.write(), and then as in on_success
  | forceOpen
  | forceOpenTime (now : Instant)
  | forceClose
  | returned
  deriving DecidableEq, Repr

inductive Method where
  | call
  | forceOpen
  | forceClose
  deriving DecidableEq, Repr

def Method.entry : Method → Point
  | .call => .allowState
  | .forceOpen => .forceOpen
  | .forceClose => .forceClose

/-- What lets a task go on: its lock is granted, the protected operation ends, or the caller drops it. -/
inductive Input where
  | proceed (now : Instant)
  | complete (succeeded : Bool) (now : Instant)
  | cancel
  deriving DecidableEq, Repr

/-- `while let Some(&front) = failures.front() { .. }`, with a window of sixty seconds. -/
def cleanOldFailures (now : Instant) (failures : List Instant) : List Instant :=
  failures.dropWhile (· < now - 60000000000)

/-- One turn of a task that waits for a lock. -/
def proceed (config : CircuitBreakerConfig) (breaker : CircuitBreaker) (tasks : List Point) (now : Instant) :
    Point → Option (CircuitBreaker × Point)
  | .allowState =>
      match breaker.state with
      | .closed => some (breaker, .running)
      | .opened => some (breaker, .allowElapsed)
      | .halfOpen =>
          if breaker.halfOpenRequests < config.halfOpenMaxRequests then
            some ({ breaker with halfOpenRequests := breaker.halfOpenRequests + 1 }, .running)
          else some (breaker, .returned)
  | .allowElapsed =>
      match breaker.lastFailureTime with
      | some lastFailure => some (breaker, if now - lastFailure > config.timeout then .allowTransition else .returned)
      | none => some (breaker, .returned)
  | .allowTransition =>
      some ({ breaker with state := .halfOpen, halfOpenRequests := 0, halfOpenSuccesses := 0 }, .running)
  | .running => none
  | .successState =>
      match breaker.state with
      | .halfOpen =>
          let successes := breaker.halfOpenSuccesses.toNat + 1
          -- the counter wraps, and the sum after it panics
          some ({ breaker with halfOpenSuccesses := breaker.halfOpenSuccesses + 1 },
            if successes < 2 ^ 32 ∧ config.successThreshold.toNat ≤ successes then .successClose else .returned)
      | _ => some (breaker, .successClean)
  | .successClose => some ({ breaker with state := .closed }, .clearFailureTime)
  | .clearFailureTime =>
      if .allowTransition ∈ tasks then none else some ({ breaker with lastFailureTime := none }, .clearFailures)
  | .clearFailures => some ({ breaker with recentFailures := [] }, .returned)
  | .successClean => some ({ breaker with recentFailures := cleanOldFailures now breaker.recentFailures }, .returned)
  | .failureTime failed =>
      if .allowTransition ∈ tasks then none
      else some ({ breaker with lastFailureTime := some failed }, .failurePush failed)
  | .failurePush failed => some ({ breaker with recentFailures := breaker.recentFailures ++ [failed] }, .failureClean)
  | .failureClean => some ({ breaker with recentFailures := cleanOldFailures now breaker.recentFailures }, .failureState)
  | .failureState =>
      match breaker.state with
      | .closed => some (breaker, .failureCount)
      | .halfOpen => some (breaker, .failureOpen)
      | .opened => some (breaker, .returned)
  | .failureCount =>
      some (breaker, if config.failureThreshold.toNat ≤ breaker.recentFailures.length then .failureOpen else .returned)
  | .failureOpen => some ({ breaker with state := .opened }, .returned)
  | .forceOpen => some ({ breaker with state := .opened }, .forceOpenTime now)
  | .forceOpenTime opened =>
      if .allowTransition ∈ tasks then none else some ({ breaker with lastFailureTime := some opened }, .returned)
  | .forceClose => some ({ breaker with state := .closed }, .clearFailureTime)
  | .returned => none

def advance (config : CircuitBreakerConfig) (breaker : CircuitBreaker) (tasks : List Point) (point : Point) :
    Input → Option (CircuitBreaker × Point)
  | .proceed now => proceed config breaker tasks now point
  | .complete succeeded now =>
      if point = .running then some (breaker, if succeeded then .successState else .failureTime now) else none
  | .cancel => some (breaker, .returned)

abbrev System := Tasks.System CircuitBreaker Point

abbrev Label := Tasks.Label Method Input

def program (config : CircuitBreakerConfig) : Tasks.Program CircuitBreaker Point Method Input where
  entry := Method.entry
  advance := advance config

def start : System := ⟨new, []⟩

end CircuitBreaker

end IrohRaft
