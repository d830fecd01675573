import IrohRaft.Library.Tasks
import IrohRaft.Transport.Iroh

/-!
# The connections of the iroh transport

`get_or_create_connection` and `check_connection_health` of `transport/iroh.rs`, with the two senders that use the
connections. Calls, rounds over the queue of a peer, and health checks are tasks that share the map of connections,
and what is done under its lock is one turn. A round holds the read lock while it opens a connection of its own, which
it does not put into the map.
-/

namespace IrohRaft

open Rust

/-- `iroh::endpoint::Connection`, named by its number and by when it was opened. -/
structure ConnectionHandle where
  number : Nat
  opened : Instant
  deriving DecidableEq

structure PeerConnection where
  nodeId : UInt64
  irohNodeId : Bytes
  connection : ConnectionHandle
  lastActivity : Instant
  deriving DecidableEq

/-- `Duration::from_secs(300)`. -/
def idleLimit : Nat := 300 * nanosPerSecond

/-- The map, and how many connections were opened so far. -/
structure Connections where
  connections : HashMap UInt64 PeerConnection
  opened : Nat

namespace Connections

/-- The peers whose connections are stale, with what the clock shows at each. -/
def toRemove (readings : UInt64 → Instant) (connections : HashMap UInt64 PeerConnection) : List UInt64 :=
  (connections.filter fun peerId conn => decide (conn.lastActivity.elapsed (readings peerId) > idleLimit)).keys

def removeAll (peers : List UInt64) (connections : HashMap UInt64 PeerConnection) : HashMap UInt64 PeerConnection :=
  peers.foldl (fun connections peerId => connections.erase peerId) connections

/-! ### Tasks -/

/-- Where a task waits. -/
inductive Point where
  -- get_or_create_connection, called by try_send_immediate
  | lookup (peerId : UInt64)
  | connect (peerId : UInt64)
  | store (peerId : UInt64) (conn : PeerConnection)
  | sendImmediate (conn : PeerConnection)
  -- process_message_batches, at one peer
  | batchLookup (peerId : UInt64)
  | batchConnect
  | sendBatch (connection : ConnectionHandle)
  -- check_connection_health
  | collect
  | remove (toRemove : List UInt64)
  | done
  deriving DecidableEq

def Point.holdsRead : Point → Bool
  | .batchConnect => true
  | _ => false

inductive Kind where
  | trySendImmediate (peerId : UInt64)
  | processPeer (peerId : UInt64)
  | checkConnectionHealth

def Kind.entry : Kind → Point
  | .trySendImmediate peerId => .lookup peerId
  | .processPeer peerId => .batchLookup peerId
  | .checkConnectionHealth => .collect

/-- What a turn is given: the time, how an attempt to connect or to send ended, or that the caller is gone. -/
inductive Input where
  | proceed (now : Instant)
  | connected (result : Outcome RaftError Bytes) (now : Instant)
  | sent (delivered : Bool) (now : Instant)
  | checked (readings : UInt64 → Instant)
  | cancel

def advance (shared : Connections) (tasks : List Point) (point : Point) (input : Input) : Option (Connections × Point) :=
  match point, input with
  | .lookup peerId, .proceed now =>
      match shared.connections[peerId]? with
      | some conn =>
          if conn.lastActivity.elapsed now < idleLimit then some (shared, .sendImmediate conn)
          else some (shared, .connect peerId)
      | none => some (shared, .connect peerId)
  | .connect peerId, .connected (.ok irohNodeId) now =>
      some ({ shared with opened := shared.opened + 1 },
        .store peerId { nodeId := peerId, irohNodeId, connection := ⟨shared.opened, now⟩, lastActivity := now })
  | .store peerId conn, .proceed now =>
      if tasks.any Point.holdsRead then none
      else
        some ({ shared with connections := shared.connections.insert peerId conn },
          .sendImmediate { conn with lastActivity := now })
  | .sendImmediate _, .sent _ _ => some (shared, .done)
  | .batchLookup peerId, .proceed _ =>
      match shared.connections[peerId]? with
      | some conn => some (shared, .sendBatch conn.connection)
      | none => some (shared, .batchConnect)
  | .batchConnect, .connected (.ok _) now => some ({ shared with opened := shared.opened + 1 }, .sendBatch ⟨shared.opened, now⟩)
  | .sendBatch connection, .sent delivered _ => if delivered then some (shared, .sendBatch connection) else some (shared, .done)
  | .collect, .checked readings =>
      let peers := toRemove readings shared.connections
      if peers.isEmpty then some (shared, .done) else some (shared, .remove peers)
  | .remove peers, .proceed _ =>
      if tasks.any Point.holdsRead then none
      else some ({ shared with connections := removeAll peers shared.connections }, .done)
  | .connect _, .connected _ _ | .batchConnect, .connected _ _ => some (shared, .done)
  | .done, _ => none
  | _, .cancel => some (shared, .done)
  | _, _ => none

def program : Tasks.Program Connections Point Kind Input where
  entry := Kind.entry
  advance := advance

abbrev System := Tasks.System Connections Point

abbrev Label := Tasks.Label Kind Input

def start : System := { shared := { connections := ∅, opened := 0 }, tasks := [] }

end Connections

end IrohRaft
