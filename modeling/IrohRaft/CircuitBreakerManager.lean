import IrohRaft.CircuitBreaker
import IrohRaft.Library.Text

/-!
# One breaker for each service

`CircuitBreakerManager` of `circuit_breaker.rs`, as calls of `get_breaker` that share it. A breaker is
reached through an `Arc`, here its place among the breakers made so far, and two calls share a breaker
exactly if they hold the same one.
-/

namespace IrohRaft

open Rust

/-- An `Arc<CircuitBreaker>`. -/
abbrev BreakerArc := Nat

structure CircuitBreakerManager where
  breakers : HashMap Str BreakerArc
  defaultConfig : CircuitBreakerConfig
  /-- Every breaker made so far, with its configuration. -/
  allocated : List (CircuitBreakerConfig × CircuitBreaker)

namespace CircuitBreakerManager

def new (defaultConfig : CircuitBreakerConfig) : CircuitBreakerManager :=
  { breakers := ∅, defaultConfig, allocated := [] }

/-- The await point a call of `get_breaker` stands at. -/
inductive Point where
  -- breakers.read()
  | lookup (service : Str)
  -- breakers.write(), with the breaker just made
  | insert (service : Str) (breaker : BreakerArc)
  | returned (service : Str) (breaker : BreakerArc)
  | dropped
  deriving DecidableEq

inductive Input where
  | proceed
  | cancel
  deriving DecidableEq

/-- One turn of `get_breaker`. -/
def getBreaker (manager : CircuitBreakerManager) : Point → Option (CircuitBreakerManager × Point)
  | .lookup service =>
      match manager.breakers[service]? with
      | some breaker => some (manager, .returned service breaker)
      | none =>
          some ({ manager with allocated := manager.allocated ++ [(manager.defaultConfig, CircuitBreaker.new)] },
            .insert service manager.allocated.length)
  | .insert service breaker =>
      some ({ manager with breakers := manager.breakers.insert service breaker }, .returned service breaker)
  | .returned _ _ | .dropped => none

def advance (manager : CircuitBreakerManager) (_tasks : List Point) (point : Point) :
    Input → Option (CircuitBreakerManager × Point)
  | .proceed => getBreaker manager point
  | .cancel =>
      match point with
      | .returned _ _ => none
      | _ => some (manager, .dropped)

abbrev System := Tasks.System CircuitBreakerManager Point

abbrev Label := Tasks.Label Str Input

/-- A call is started for a service. -/
def program : Tasks.Program CircuitBreakerManager Point Str Input where
  entry := .lookup
  advance := advance

def start (defaultConfig : CircuitBreakerConfig) : System := ⟨new defaultConfig, []⟩

end CircuitBreakerManager

end IrohRaft
