import IrohRaft.CircuitBreaker
import IrohRaft.Library.Binary64
import IrohRaft.Library.OrderStatistics
import IrohRaft.Library.Outcome
import IrohRaft.Library.Text

/-!
# The lock-free structures

The histogram of latencies and the connection pool of `lock_free.rs`. Each call is one step on the counters
and the map; a counter wraps around, as `fetch_add` does.
-/

namespace IrohRaft

open Rust

/-! ### The histogram -/

structure LockFreeHistogram where
  buckets : List UInt64
  bucketBoundaries : List Nat
  deriving DecidableEq, Repr

structure HistogramSnapshot where
  buckets : List UInt64
  boundaries : List Nat
  deriving DecidableEq, Repr

namespace LockFreeHistogram

/-- In microseconds. -/
def exponentialBoundaries : List Nat := [1, 10, 100, 1000, 10000, 100000, 1000000, 10000000]

def newExponential : LockFreeHistogram where
  buckets := List.replicate (exponentialBoundaries.length + 1) 0
  bucketBoundaries := exponentialBoundaries

/-- The first boundary above the value, or else the bucket for what overflows. -/
def findBucketIndex (histogram : LockFreeHistogram) (value : Nat) : Nat :=
  OrderStatistics.bucketIndex histogram.bucketBoundaries value

def record (histogram : LockFreeHistogram) (value : Nat) : LockFreeHistogram :=
  { histogram with buckets := histogram.buckets.modify (histogram.findBucketIndex value) (· + 1) }

def snapshot (histogram : LockFreeHistogram) : HistogramSnapshot where
  buckets := histogram.buckets
  boundaries := histogram.bucketBoundaries

end LockFreeHistogram

namespace HistogramSnapshot

/-- `iter().sum()`. -/
def totalCount (snapshot : HistogramSnapshot) : Outcome Empty UInt64 := snapshot.buckets.foldlM u64Add 0

/-- `(total as f64 * p).ceil() as u64`. -/
def target (total : UInt64) (p : Binary64) : UInt64 := (Binary64.ofNat total.toNat * p).ceil.toUInt64

/-- What is returned for the bucket in which the target is reached. -/
def bound (boundaries : List Nat) (i : Nat) : Option Nat :=
  if i = 0 then some 0
  else if i ≤ boundaries.length then boundaries[i - 1]?
  else some (2 ^ 64 - 1)

/-- `for (i, &count) in self.buckets.iter().enumerate() { .. }`. -/
def scan (boundaries : List Nat) (target : UInt64) (i : Nat) (cumulative : UInt64) : List UInt64 → Outcome Empty (Option Nat)
  | [] => return none
  | count :: rest => do
      let cumulative ← u64Add cumulative count
      if cumulative ≥ target then return bound boundaries i
      else scan boundaries target (i + 1) cumulative rest

def percentile (snapshot : HistogramSnapshot) (p : Binary64) : Outcome Empty (Option Nat) := do
  let total ← snapshot.totalCount
  if total = 0 then return none
  else scan snapshot.boundaries (target total p) 0 0 snapshot.buckets

end HistogramSnapshot

/-! ### The connection pool -/

structure LockFreeConnectionPool (τ : Type) where
  connections : HashMap UInt64 (τ × Instant)
  totalCreated : UInt64
  totalRemoved : UInt64
  /-- In nanoseconds. -/
  healthCheckTimeout : Nat

namespace LockFreeConnectionPool

variable {τ : Type}

def new (healthCheckTimeout : Nat) : LockFreeConnectionPool τ where
  connections := ∅
  totalCreated := 0
  totalRemoved := 0
  healthCheckTimeout

def insert (key : UInt64) (connection : τ) (now : Instant) (pool : LockFreeConnectionPool τ) :
    Option τ × LockFreeConnectionPool τ :=
  let old := pool.connections[key]?
  (old.map Prod.fst,
    { pool with
      connections := pool.connections.insert key (connection, now)
      totalCreated := if old.isNone then pool.totalCreated + 1 else pool.totalCreated })

def remove (key : UInt64) (pool : LockFreeConnectionPool τ) : Option τ × LockFreeConnectionPool τ :=
  let removed := pool.connections[key]?
  (removed.map Prod.fst,
    { pool with
      connections := pool.connections.erase key
      totalRemoved := if removed.isSome then pool.totalRemoved + 1 else pool.totalRemoved })

def isStale (pool : LockFreeConnectionPool τ) (now : Instant) (lastActivity : Instant) : Bool :=
  now.durationSince lastActivity > pool.healthCheckTimeout

/-- The keys that are stale, and the pool without them. -/
def cleanupStale (now : Instant) (pool : LockFreeConnectionPool τ) : List UInt64 × LockFreeConnectionPool τ :=
  let staleKeys := (pool.connections.filter fun _ entry => pool.isStale now entry.2).keys
  (staleKeys,
    { pool with
      connections := pool.connections.filter fun _ entry => !pool.isStale now entry.2
      totalRemoved :=
        if staleKeys.isEmpty then pool.totalRemoved else pool.totalRemoved + UInt64.ofNat staleKeys.length })

def len (pool : LockFreeConnectionPool τ) : Nat := pool.connections.size

inductive Op (τ : Type) where
  | insert (key : UInt64) (connection : τ) (now : Instant)
  | remove (key : UInt64)
  | cleanupStale (now : Instant)

def step (pool : LockFreeConnectionPool τ) : Op τ → LockFreeConnectionPool τ
  | .insert key connection now => (pool.insert key connection now).2
  | .remove key => (pool.remove key).2
  | .cleanupStale now => (pool.cleanupStale now).2

end LockFreeConnectionPool

end IrohRaft
