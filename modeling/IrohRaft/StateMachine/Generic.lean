import IrohRaft.Library.Bincode
import IrohRaft.Library.Stream
import IrohRaft.Error
import IrohRaft.Storage.Types

/-!
# The generic state machine

`raft/generic_state_machine.rs`: the interface an application implements, and the wrapper that decodes
log entries and snapshots around it. A method that reads the wall clock takes the reading as an
argument, so that runs at different times can be compared.
-/

namespace IrohRaft

open Rust Bincode

/-- A wall-clock time, in nanoseconds since the Unix epoch. -/
abbrev DateTime := Int

/-- What an application's type `T` implements, with the encodings serde derives for its commands and
states. -/
structure StateMachine (T Command State Response Query QueryResponse : Type) where
  command : Serde Command
  state : Serde State
  applyCommand : Command → DateTime → Action T RaftError Response
  createSnapshot : T → Outcome RaftError State
  restoreFromSnapshot : State → Action T RaftError Unit
  getCurrentState : T → State
  executeQuery : Query → T → Outcome RaftError QueryResponse

def StateMachine.applyCommands {T Command State Response Query QueryResponse : Type}
    (machine : StateMachine T Command State Response Query QueryResponse) (run : List (Command × DateTime)) :
    Action T RaftError Unit :=
  forM run fun (command, now) => do
    let _ ← machine.applyCommand command now

structure GenericRaftStateMachine (T : Type) where
  inner : T

/-- `bincode::deserialize(&data).map_err(RaftError::from)`. -/
def deserializeBinary {α : Type} (serde : Serde α) (data : Bytes) : Outcome RaftError α :=
  match serde.deserialize data with
  | .ok value => .ok value
  | .error e => .err (RaftError.fromBincode e)

theorem deserializeBinary_serialize {α : Type} {serde : Serde α} {value : α} (h : serde.RoundTrips value) :
    deserializeBinary serde (serde.serialize value) = .ok value := by
  rw [deserializeBinary, h]

namespace GenericRaftStateMachine

variable {T Command State Response Query QueryResponse : Type}

def onInner {α : Type} (call : Action T RaftError α) : Action (GenericRaftStateMachine T) RaftError α :=
  fun self => ((call self.inner).1, { inner := (call self.inner).2 })

variable (machine : StateMachine T Command State Response Query QueryResponse)

def applyEntry (entry : Entry) (now : DateTime) : Action (GenericRaftStateMachine T) RaftError Response := do
  Action.lift (Outcome.rejectIf (entry.data = []) (.invalidInput "entry" "Entry data is empty"))
  let command ← Action.lift (deserializeBinary machine.command entry.data)
  onInner (machine.applyCommand command now)

/-- Serializing to memory does not fail. -/
def createSnapshot (self : GenericRaftStateMachine T) : Outcome RaftError Bytes := do
  let state ← machine.createSnapshot self.inner
  return machine.state.serialize state

def restoreFromSnapshot (snapshotData : Bytes) : Action (GenericRaftStateMachine T) RaftError Unit := do
  let state ← Action.lift (deserializeBinary machine.state snapshotData)
  onInner (machine.restoreFromSnapshot state)

/-- `impl StateMachine for GenericRaftStateMachine<T>`. -/
def stateMachine : StateMachine (GenericRaftStateMachine T) Command State Response Query QueryResponse where
  command := machine.command
  state := machine.state
  applyCommand command now := onInner (machine.applyCommand command now)
  createSnapshot self := machine.createSnapshot self.inner
  restoreFromSnapshot snapshot := onInner (machine.restoreFromSnapshot snapshot)
  getCurrentState self := machine.getCurrentState self.inner
  executeQuery query self := machine.executeQuery query self.inner

/-- Each call's result, in order. An error does not keep the next entry from being applied. -/
def applyEntries : List (Entry × DateTime) → GenericRaftStateMachine T →
    List (Outcome RaftError Response) × GenericRaftStateMachine T
  | [], self => ([], self)
  | (entry, now) :: rest, self =>
      let (result, self) := applyEntry machine entry now self
      let (results, self) := applyEntries rest self
      (result :: results, self)

end GenericRaftStateMachine

end IrohRaft
