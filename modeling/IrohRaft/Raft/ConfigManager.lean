import IrohRaft.Storage.Eraftpb
import IrohRaft.Storage.RedbStorage

/-!
# The configuration manager

`RaftConfigManager` of `raft/config_manager.rs`, for a membership change that raft has committed: the conf
state raft answers with is written to the database, and the addresses of the peers follow the change.
What the node shares with its other parts, `node_shared`, is outside the repository.
-/

namespace IrohRaft

open Rust Redb Bincode Protobuf

/-- The raft crate's `ConfChange`. The kind of change is the protobuf enumeration's number. -/
structure ConfChange where
  id : UInt64
  changeType : Int32
  nodeId : UInt64
  context : Bytes
  deriving DecidableEq, Repr

namespace ConfChange

def addNode : Int32 := 0

def removeNode : Int32 := 1

def encode (cc : ConfChange) : Bytes :=
  uintField 0x08 cc.id.toNat ++
  (uintField 0x10 cc.changeType.toUInt32.toNat ++
  (uintField 0x18 cc.nodeId.toNat ++
  (bytesField 0x22 cc.context ++ [])))

def decode (data : Bytes) : Option ConfChange := do
  let (id, data) ← readField 0x08 readVarint 0 data
  let (changeType, data) ← readField 0x10 readVarint 0 data
  let (nodeId, data) ← readField 0x18 readVarint 0 data
  let (context, _) ← readField 0x22 readDelimited [] data
  return { id := UInt64.ofNat id, changeType := Int32.ofNat changeType, nodeId := UInt64.ofNat nodeId, context }

/-- `merge_from_bytes`, on bytes that come from the encoder. -/
def merge (data : Bytes) : Except String ConfChange :=
  match decode data with
  | some cc => .ok cc
  | none => .error "failed to decode Protobuf message"

end ConfChange

/-- `ConfChangeContext` of `raft/messages.rs`. -/
structure ConfChangeContext where
  address : Str
  p2pNodeId : Option Str
  p2pAddresses : List Str
  p2pRelayUrl : Option Str
  deriving DecidableEq

def ConfChangeContext.encode (context : ConfChangeContext) : Bytes :=
  encodeString context.address ++ encodeOption encodeString context.p2pNodeId ++
    encodeSeq encodeString context.p2pAddresses ++ encodeOption encodeString context.p2pRelayUrl

def ConfChangeContext.decode : Decoder ConfChangeContext := fun data => do
  let (address, rest) ← decodeString data
  let (p2pNodeId, rest) ← decodeOption decodeString rest
  let (p2pAddresses, rest) ← decodeSeq decodeString rest
  let (p2pRelayUrl, rest) ← decodeOption decodeString rest
  return ({ address, p2pNodeId, p2pAddresses, p2pRelayUrl }, rest)

/-- `bincode::serialize(&SerializableConfState::from(conf_state))`: the same fields, in the same order. -/
def encodeSerializableConfState (confState : ConfState) : Bytes :=
  encodeSeq u64ToLeBytes confState.voters ++ encodeSeq u64ToLeBytes confState.learners ++
    encodeSeq u64ToLeBytes confState.votersOutgoing ++ encodeSeq u64ToLeBytes confState.learnersNext ++
    [if confState.autoLeave then 1 else 0]

structure RaftConfigManager where
  peers : Rust.HashMap UInt64 Str
  needsReplicationTrigger : Bool

namespace RaftConfigManager

/-- A context that cannot be parsed is logged. -/
def updateLocalPeersAfterConfChange (manager : RaftConfigManager) (cc : ConfChange) : RaftConfigManager :=
  if cc.changeType = ConfChange.addNode then
    if cc.context.isEmpty then manager
    else
      match ConfChangeContext.decode cc.context with
      | .ok (context, _) => { manager with peers := manager.peers.insert cc.nodeId context.address }
      | .error _ => manager
  else if cc.changeType = ConfChange.removeNode then { manager with peers := manager.peers.erase cc.nodeId }
  else manager

def saveConfState (confState : ConfState) : Session Redb.Database RaftError Unit :=
  .commit fun writeTxn =>
    return { writeTxn with
      stringTables := writeTxn.stringTables.insertInto clusterStateTable RedbRaftStorage.confStateRecord
        (encodeSerializableConfState confState) }

/-- With what `raft_node.apply_conf_change(cc)` answers. -/
def applyConfChange (manager : RaftConfigManager) (cc : ConfChange) (answer : Outcome RaftError ConfState) :
    Session Redb.Database RaftError RaftConfigManager := do
  let confState ← .read fun _ => answer
  saveConfState confState
  let manager := manager.updateLocalPeersAfterConfChange cc
  if cc.changeType = ConfChange.addNode then return { manager with needsReplicationTrigger := true }
  else return manager

/-- `needs_replication_trigger()`: the flag is taken back when it is read. -/
def takeReplicationTrigger (manager : RaftConfigManager) : Bool × RaftConfigManager :=
  (manager.needsReplicationTrigger, { manager with needsReplicationTrigger := false })

end RaftConfigManager

end IrohRaft
