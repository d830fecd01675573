import IrohRaft.Library.Session
import IrohRaft.Library.Triple
import IrohRaft.Storage.Codec

/-!
# What the raft crate hands out

A `Ready`, and the `LightReady` that `advance` answers it with, as the raft crate gives them to the node. The crate
itself is outside the repository: which Ready comes next, and how its calls end, is input to the model. What the node
does about a Ready is kept as a list of effects.
-/

namespace IrohRaft

open Rust

inductive EntryType where
  | entryNormal
  | entryConfChange
  | entryConfChangeV2
  deriving DecidableEq, Repr

/-- `entry.entry_type()`: a number outside the enumeration reads as its first variant. -/
def Entry.kind (entry : Entry) : EntryType :=
  if entry.entryType = 1 then .entryConfChange
  else if entry.entryType = 2 then .entryConfChangeV2
  else .entryNormal

/-- A message between raft nodes. The fields `to` and `from` are named `toId` and `fromId`. -/
structure Message where
  msgType : Int32
  toId : UInt64
  fromId : UInt64
  term : UInt64 := 0
  logTerm : UInt64 := 0
  index : UInt64 := 0
  entries : List Entry := []
  commit : UInt64 := 0
  deriving DecidableEq, Repr

/-- A leader's messages are in `messages`, those of every other node in `persistedMessages`. -/
structure Ready where
  hs : Option HardState := none
  entries : List Entry := []
  snapshot : Snapshot := { data := [], metadata := none }
  committedEntries : List Entry := []
  messages : List Message := []
  persistedMessages : List Message := []
  deriving DecidableEq, Repr

structure LightReady where
  commitIndex : Option UInt64 := none
  committedEntries : List Entry := []
  messages : List Message := []
  deriving DecidableEq, Repr

/-- Whether a node is the leader, and the leader it knows, where zero is none. -/
structure Leadership where
  isLeader : Bool
  leaderId : UInt64
  deriving DecidableEq, Repr

def Leadership.current (leadership : Leadership) : Option UInt64 :=
  if leadership.leaderId = 0 then none else some leadership.leaderId

/-! ### What a node does about a Ready -/

/-- A write counts once it has succeeded, a message once the transport has taken it, and a conf change once the raft
node has applied it. -/
inductive Effect where
  | installSnapshot (snapshot : Snapshot)
  | append (entries : List Entry)
  | saveHardState (hardState : HardState)
  | send (message : Message)
  | applyEntry (entry : Entry)
  | applyConfChange (entry : Entry)
  | advance
  | advanceApplyTo (index : UInt64)
  deriving DecidableEq, Repr

/-- A Ready that was handed out, the LightReady that answers it if the node advances, and what the node did. -/
structure Handled where
  ready : Ready
  light : LightReady
  effects : List Effect
  deriving DecidableEq, Repr

/-- A node, and what was seen of it. A storage call fails where `faults` says so, after that many transactions. -/
structure Observed (σ : Type) where
  node : σ
  faults : List (Option (Nat × RaftError)) := []
  effects : List Effect := []
  history : List Handled := []

abbrev Handler (σ α : Type) : Type := Action (Observed σ) RaftError α

namespace Handler

variable {σ τ α : Type}

def onNode (update : σ → σ) : Handler σ Unit := Action.modify fun seen => { seen with node := update seen.node }

def record (effect : Effect) : Handler σ Unit := Action.modify fun seen => { seen with effects := seen.effects ++ [effect] }

/-- A call of the storage, which is a part of the node. -/
def store (part : σ → τ) (replace : σ → τ → σ) (session : Session τ RaftError α) : Handler σ α := fun seen =>
  match seen.faults with
  | some (transactions, error) :: faults =>
      (.err error, { seen with faults, node := replace seen.node (session.stopped transactions (part seen.node)) })
  | faults =>
      (session.result (part seen.node),
        { seen with faults := faults.tail, node := replace seen.node (session.final (part seen.node)) })

/-- Handle a Ready, also where that stops halfway. -/
def handling (ready : Ready) (light : LightReady) (faults : List (Option (Nat × RaftError))) (body : Handler σ α) : Handler σ α :=
  fun seen =>
    let (result, after) := body { seen with faults, effects := [] }
    (result, { after with history := after.history ++ [{ ready, light, effects := after.effects }] })

end Handler

/-! ### Reading the effects -/

namespace Handled

/-- The committed entries that were handed out: those of the LightReady only if the node came to ask for it. -/
def handedOut (handled : Handled) : List Entry :=
  handled.ready.committedEntries ++ (if .advance ∈ handled.effects then handled.light.committedEntries else [])

def emitted (handled : Handled) : List Message :=
  handled.ready.messages ++ handled.ready.persistedMessages ++
    (if .advance ∈ handled.effects then handled.light.messages else [])

end Handled

def Effect.appliedEntry : Effect → Option Entry
  | .applyEntry entry => some entry
  | _ => none

def Effect.appliedConfChange : Effect → Option Entry
  | .applyConfChange entry => some entry
  | _ => none

/-- The entry that takes effect, on the state machine or on the membership. -/
def Effect.takenEntry : Effect → Option Entry
  | .applyEntry entry => some entry
  | .applyConfChange entry => some entry
  | _ => none

def Effect.sentMessage : Effect → Option Message
  | .send message => some message
  | _ => none

def handedOut (history : List Handled) : List Entry := history.flatMap Handled.handedOut

def appliedEntries (history : List Handled) : List Entry :=
  history.flatMap fun handled => handled.effects.filterMap Effect.appliedEntry

def appliedConfChanges (history : List Handled) : List Entry :=
  history.flatMap fun handled => handled.effects.filterMap Effect.appliedConfChange

def takenEntries (history : List Handled) : List Entry :=
  history.flatMap fun handled => handled.effects.filterMap Effect.takenEntry

end IrohRaft
