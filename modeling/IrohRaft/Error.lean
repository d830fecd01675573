import Mathlib.Data.List.Basic

/-!
# The crate's errors

`RaftError` of `error.rs`, with the variants the modelled functions build. A backtrace carries no
information the program reads and is left out; a boxed source is its text.
-/

namespace IrohRaft

inductive RaftError where
  | serialization (messageType source : String)
  | storage (operation source : String)
  | consensus (operation source : String)
  | raft (operation source : String)
  | notLeader (operation : String) (currentLeader : Option UInt64)
  | invalidInput (parameter message : String)
  | authorizationDenied (operation peerId : String)
  | internal (message : String)
  | resourceExhausted (resource : String)
  /-- A duration is in nanoseconds. -/
  | timeout (operation : String) (duration : Nat)
  deriving DecidableEq, Repr

/-- `RaftError::from(bincode::Error)`. -/
def RaftError.fromBincode (error : String) : RaftError := .serialization "binary" error

/-- `RaftError::from(raft::Error)`. -/
def RaftError.fromRaft (error : String) : RaftError := .consensus "unknown" error

/-- What the storage layer boxes into a storage error. -/
inductive BoxedError where
  | codec (error : RaftError)
  | tableDoesNotExist (name : String)
  deriving DecidableEq, Repr

/-- The storage errors of the raft crate, `raft::StorageError`. -/
inductive StorageError where
  | unavailable
  | snapshotTemporarilyUnavailable
  | other (source : BoxedError)
  deriving DecidableEq, Repr

/-- `StorageError::Other(Box::new(e))` of a codec error. -/
def StorageError.codec (error : RaftError) : StorageError := .other (.codec error)

end IrohRaft
