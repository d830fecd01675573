import IrohRaft.StateMachine.Generic

/-!
# The key-value store

`raft/kv_example.rs`, the crate's own implementation of the state machine interface. Every command
updates the metadata, also one that changes no key.
-/

namespace IrohRaft

open Rust Bincode

inductive KvCommand where
  | set (key value : Str)
  | delete (key : Str)
  | clear
  deriving DecidableEq

inductive KvResponse where
  | ok
  | value (value : Option Str)
  | keys (keys : List Str)
  deriving DecidableEq

inductive KvQuery where
  | get (key : Str)
  | list (prefixed : Option Str)
  | exists (key : Str)
  | size
  deriving DecidableEq

inductive KvQueryResponse where
  | value (value : Option Str)
  | keys (keys : List Str)
  | boolean (value : Bool)
  | number (value : Nat)
  deriving DecidableEq

structure KvMetadata where
  operationCount : UInt64
  lastUpdated : DateTime
  version : UInt64
  deriving DecidableEq

structure KvState where
  data : HashMap Str Str
  metadata : KvMetadata
  deriving DecidableEq

/-- `KvState::default()`, which reads the clock. -/
def KvState.new (now : DateTime) : KvState where
  data := ∅
  metadata := { operationCount := 0, lastUpdated := now, version := 0 }

structure KeyValueStore where
  state : KvState
  deriving DecidableEq

/-! ### Encodings -/

namespace KvCommand

def encode : KvCommand → Bytes
  | .set key value => u32ToLeBytes 0 ++ (encodeString key ++ encodeString value)
  | .delete key => u32ToLeBytes 1 ++ encodeString key
  | .clear => u32ToLeBytes 2

def decode : Decoder KvCommand := fun data => do
  let (variant, rest) ← decodeU32 data
  match variant.toNat with
  | 0 => do
      let (key, rest) ← decodeString rest
      let (value, rest) ← decodeString rest
      return (.set key value, rest)
  | 1 => do
      let (key, rest) ← decodeString rest
      return (.delete key, rest)
  | 2 => .ok (.clear, rest)
  | _ => .error s!"invalid value: integer `{variant}`, expected variant index 0 <= i < 3"

def serde : Serde KvCommand := .ofDecoder encode decode

end KvCommand

/-- How chrono prints a date for serde, and reads it back. -/
structure ChronoText where
  toText : DateTime → Str
  parse : Str → Except String DateTime

namespace KvState

/-- The data is iterated in key order here; any order reads back as the same map. -/
def encode (chrono : ChronoText) (state : KvState) : Bytes :=
  encodeSeq (encodePair encodeString encodeString) state.data.toList ++
  (u64ToLeBytes state.metadata.operationCount ++
  (encodeString (chrono.toText state.metadata.lastUpdated) ++
  u64ToLeBytes state.metadata.version))

def decode (chrono : ChronoText) : Decoder KvState := fun bytes => do
  let (pairs, rest) ← decodeSeq (decodePair decodeString decodeString) bytes
  let (operationCount, rest) ← decodeU64 rest
  let (text, rest) ← decodeString rest
  let lastUpdated ← chrono.parse text
  let (version, rest) ← decodeU64 rest
  return ({ data := .ofList pairs, metadata := { operationCount, lastUpdated, version } }, rest)

def serde (chrono : ChronoText) : Serde KvState := .ofDecoder (encode chrono) (decode chrono)

end KvState

/-! ### The state machine -/

namespace KeyValueStore

def new (now : DateTime) : KeyValueStore := ⟨KvState.new now⟩

def updateMetadata (now : DateTime) : Action KeyValueStore RaftError Unit := fun self =>
  let metadata := self.state.metadata
  match (u64Add metadata.operationCount 1 : Outcome RaftError UInt64) with
  | .ok operationCount =>
      let metadata := { metadata with operationCount, lastUpdated := now }
      match (u64Add metadata.version 1 : Outcome RaftError UInt64) with
      | .ok version => (.ok (), { self with state := { self.state with metadata := { metadata with version } } })
      | _ => (.panic, { self with state := { self.state with metadata } })
  | _ => (.panic, self)

def setData (data : HashMap Str Str) : Action KeyValueStore RaftError Unit := fun self =>
  (.ok (), { self with state := { self.state with data } })

/-- The clock is read while the metadata is updated. -/
def applyCommand (command : KvCommand) (now : DateTime) : Action KeyValueStore RaftError KvResponse := do
  let self : KeyValueStore ← fun self => (.ok self, self)
  match command with
  | .set key value => do
      setData (self.state.data.insert key value)
      updateMetadata now
  | .delete key => do
      -- a key that is not there is not removed, and still counts as an operation
      setData (self.state.data.erase key)
      updateMetadata now
  | .clear => do
      setData ∅
      updateMetadata now
  return .ok

def createSnapshot (self : KeyValueStore) : Outcome RaftError KvState := .ok self.state

def restoreFromSnapshot (snapshot : KvState) : Action KeyValueStore RaftError Unit := fun self =>
  (.ok (), { self with state := snapshot })

def executeQuery (query : KvQuery) (self : KeyValueStore) : Outcome RaftError KvQueryResponse :=
  match query with
  | .get key => .ok (.value self.state.data[key]?)
  | .list (some start) => .ok (.keys (self.state.data.keys.filter fun key => start.asBytes.isPrefixOf key.asBytes))
  | .list none => .ok (.keys self.state.data.keys)
  | .exists key => .ok (.boolean (self.state.data.contains key))
  | .size => .ok (.number self.state.data.size)

end KeyValueStore

/-- `impl StateMachine for KeyValueStore`. The encoding of a state is a parameter: it prints a date, which
chrono does, and iterates over a hash map, whose order is not determined. -/
def keyValueStore (state : Serde KvState) :
    StateMachine KeyValueStore KvCommand KvState KvResponse KvQuery KvQueryResponse where
  command := KvCommand.serde
  state
  applyCommand := KeyValueStore.applyCommand
  createSnapshot := KeyValueStore.createSnapshot
  restoreFromSnapshot := KeyValueStore.restoreFromSnapshot
  getCurrentState := KeyValueStore.state
  executeQuery := KeyValueStore.executeQuery

end IrohRaft
