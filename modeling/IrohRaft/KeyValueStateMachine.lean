import IrohRaft.Node

/-!
# The node's key-value state machine

`KeyValueStateMachine` of `node.rs`, which a node has unless it is given another. It lives in memory only, and answers
every proposal, also those that are not for it.
-/

namespace IrohRaft

open Rust Bincode

namespace KeyValueStateMachine

/-- `text.as_bytes()` of a literal. -/
def literal (text : String) : Bytes := text.toByteArray.data.toList

/-- Keys are iterated in their order here; which order a hash map has is not determined. -/
def list (prefixed : Option Str) (data : HashMap Str Str) : List Str :=
  match prefixed with
  | some start => data.keys.filter fun key => start.asBytes.isPrefixOf key.asBytes
  | none => data.keys

def applyOp (data : HashMap Str Str) : KeyValueOp → Except RaftError Bytes × HashMap Str Str
  | .set key value => (.ok (literal "ok"), data.insert key value)
  | .delete key => (.ok (literal (if data.contains key then "deleted" else "not_found")), data.erase key)
  | .get key => (.ok ((data[key]?.map Str.asBytes).getD []), data)
  | .list prefixed => (.ok ((literal "\n").intercalate ((list prefixed data).map Str.asBytes)), data)

def apply (_index : UInt64) (proposal : ProposalData) (data : HashMap Str Str) : Except RaftError Bytes × HashMap Str Str :=
  match proposal with
  | .keyValue op => applyOp data op
  | .raw _ | .text _ | .noop => (.ok (literal "ack"), data)

def encode (data : HashMap Str Str) : Bytes := encodeSeq (encodePair encodeString encodeString) data.toList

/-- Of a key that comes twice, the last value is kept. -/
def decode : Decoder (HashMap Str Str) := fun bytes => do
  let (pairs, rest) ← decodeSeq (decodePair decodeString decodeString) bytes
  return (.ofList pairs, rest)

def snapshot (data : HashMap Str Str) : Except RaftError Bytes := .ok (encode data)

def restore (bytes : Bytes) (data : HashMap Str Str) : Except RaftError Unit × HashMap Str Str :=
  match decode bytes with
  | .ok (restored, _) => (.ok (), restored)
  | .error e => (.error (.serialization "restore state machine" e), data)

end KeyValueStateMachine

def keyValueStateMachine : NodeStateMachine (HashMap Str Str) where
  apply := KeyValueStateMachine.apply
  restore := KeyValueStateMachine.restore

end IrohRaft
