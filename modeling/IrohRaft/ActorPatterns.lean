import IrohRaft.CircuitBreaker
import IrohRaft.Library.Outcome
import IrohRaft.Library.Text

/-!
# The connection pool actor

`ConnectionPoolActor` of `actor_patterns.rs`. The actor takes one command or one round of the health check at
a time; a counter that overflows panics, and with that the actor is gone.
-/

namespace IrohRaft

open Rust

structure ConnectionPoolMetrics where
  activeConnections : Nat
  totalCreated : UInt64
  totalRemoved : UInt64
  healthCheckFailures : UInt64
  deriving DecidableEq, Repr

inductive ConnectionPoolCommand (τ : Type) where
  | getConnection (peerId : UInt64)
  | addConnection (peerId : UInt64) (connection : τ)
  | removeConnection (peerId : UInt64)
  | healthCheck
  | getMetrics

/-- What is sent through a command's `response`. -/
inductive ConnectionPoolResponse (τ : Type) where
  | connection (connection : Option τ)
  | added
  | staleIds (peerIds : List UInt64)
  | metrics (metrics : ConnectionPoolMetrics)

structure ConnectionPoolActor (τ : Type) where
  connections : HashMap UInt64 (τ × Instant)
  metrics : ConnectionPoolMetrics

namespace ConnectionPoolActor

variable {τ : Type}

def new : ConnectionPoolActor τ where
  connections := ∅
  metrics := { activeConnections := 0, totalCreated := 0, totalRemoved := 0, healthCheckFailures := 0 }

/-- Five minutes, in nanoseconds. -/
def staleTimeout : Nat := 300000000000

def getStaleConnections (now : Instant) (actor : ConnectionPoolActor τ) : List UInt64 :=
  (actor.connections.filter fun _ entry => now.durationSince entry.2 > staleTimeout).keys

def handleCommand (now : Instant) (actor : ConnectionPoolActor τ) :
    ConnectionPoolCommand τ → Outcome Empty (ConnectionPoolResponse τ × ConnectionPoolActor τ)
  | .getConnection peerId => return (.connection (actor.connections[peerId]?.map Prod.fst), actor)
  | .addConnection peerId connection => do
      let connections := actor.connections.insert peerId (connection, now)
      let totalCreated ← u64Add actor.metrics.totalCreated 1
      return (.added, { connections, metrics := { actor.metrics with activeConnections := connections.size, totalCreated } })
  | .removeConnection peerId => do
      let removed := actor.connections[peerId]?.map Prod.fst
      let connections := actor.connections.erase peerId
      if removed.isSome then
        let totalRemoved ← u64Add actor.metrics.totalRemoved 1
        return (.connection removed,
          { connections, metrics := { actor.metrics with activeConnections := connections.size, totalRemoved } })
      else return (.connection removed, { actor with connections })
  | .healthCheck => return (.staleIds (actor.getStaleConnections now), actor)
  | .getMetrics =>
      let metrics := { actor.metrics with activeConnections := actor.connections.size }
      return (.metrics metrics, { actor with metrics })

/-- One turn of the loop over the stale connections. -/
def dropStale (actor : ConnectionPoolActor τ) (peerId : UInt64) : Outcome Empty (ConnectionPoolActor τ) := do
  let healthCheckFailures ← u64Add actor.metrics.healthCheckFailures 1
  return { connections := actor.connections.erase peerId, metrics := { actor.metrics with healthCheckFailures } }

def performHealthCheck (now : Instant) (actor : ConnectionPoolActor τ) : Outcome Empty (ConnectionPoolActor τ) := do
  let actor ← (actor.getStaleConnections now).foldlM dropStale actor
  return { actor with metrics := { actor.metrics with activeConnections := actor.connections.size } }

/-! ### Runs -/

inductive Op (τ : Type) where
  | command (command : ConnectionPoolCommand τ) (now : Instant)
  | tick (now : Instant)

def handle (actor : ConnectionPoolActor τ) : Op τ → Outcome Empty (ConnectionPoolActor τ)
  | .command command now => do
      let (_, actor) ← actor.handleCommand now command
      return actor
  | .tick now => actor.performHealthCheck now

/-- An actor that has panicked takes no more commands. -/
def step (state : Outcome Empty (ConnectionPoolActor τ)) (op : Op τ) : Outcome Empty (ConnectionPoolActor τ) :=
  state >>= fun actor => actor.handle op

end ConnectionPoolActor

end IrohRaft
