import IrohRaft.Library.Protobuf
import IrohRaft.Raft.Ready

/-!
# Messages on the wire

The encodings prost generates for `Entry` and `Message` of the raft crate's schema, as a `ProstCodec`, for the
fields of a message that the model keeps; the other ones are at their defaults and take no bytes.
-/

namespace IrohRaft

open Rust Protobuf

/-- An `int32` is sent as the sixty-four bits it extends to. -/
def int32Bits (n : Int32) : Nat := n.toInt64.toUInt64.toNat

def int32OfBits (n : Nat) : Int32 := (UInt64.ofNat n).toInt64.toInt32

theorem int32OfBits_int32Bits (n : Int32) : int32OfBits (int32Bits n) = n := by
  rw [int32OfBits, int32Bits, UInt64.ofNat_toNat]
  simp

namespace Entry

def encode (entry : Entry) : Bytes :=
  uintField 0x08 (int32Bits entry.entryType) ++
  (uintField 0x10 entry.term.toNat ++
  (uintField 0x18 entry.index.toNat ++
  (bytesField 0x22 entry.data ++
  (uintField 0x28 entry.syncLog.toNat ++
  (bytesField 0x32 entry.context ++ [])))))

def decode (data : Bytes) : Option Entry := do
  let (entryType, data) ← readField 0x08 readVarint 0 data
  let (term, data) ← readField 0x10 readVarint 0 data
  let (index, data) ← readField 0x18 readVarint 0 data
  let (content, data) ← readField 0x22 readDelimited [] data
  let (syncLog, data) ← readField 0x28 readVarint 0 data
  let (context, _) ← readField 0x32 readDelimited [] data
  return {
    entryType := int32OfBits entryType
    term := UInt64.ofNat term
    index := UInt64.ofNat index
    data := content
    context
    syncLog := syncLog != 0 }

theorem decode_encode (entry : Entry) : decode (encode entry) = some entry := by
  have hflag : (entry.syncLog.toNat != 0) = entry.syncLog := by cases entry.syncLog <;> simp
  simp [decode, encode, -List.append_nil, int32OfBits_int32Bits, hflag]

theorem mapM_decode_encode (entries : List Entry) : entries.mapM (decode ∘ encode) = some entries := by
  induction entries with
  | nil => simp
  | cons entry entries ih => simp [decode_encode, ih]

end Entry

namespace Message

def encode (message : Message) : Bytes :=
  uintField 0x08 (int32Bits message.msgType) ++
  (uintField 0x10 message.toId.toNat ++
  (uintField 0x18 message.fromId.toNat ++
  (uintField 0x20 message.term.toNat ++
  (uintField 0x28 message.logTerm.toNat ++
  (uintField 0x30 message.index.toNat ++
  (repeatedField 0x3a (message.entries.map Entry.encode) ++
  (uintField 0x40 message.commit.toNat ++ [])))))))

def decode (data : Bytes) : Option Message := do
  let (msgType, data) ← readField 0x08 readVarint 0 data
  let (toId, data) ← readField 0x10 readVarint 0 data
  let (fromId, data) ← readField 0x18 readVarint 0 data
  let (term, data) ← readField 0x20 readVarint 0 data
  let (logTerm, data) ← readField 0x28 readVarint 0 data
  let (index, data) ← readField 0x30 readVarint 0 data
  let (entries, data) ← readRepeated 0x3a data
  let (commit, _) ← readField 0x40 readVarint 0 data
  let entries ← entries.mapM Entry.decode
  return {
    msgType := int32OfBits msgType
    toId := UInt64.ofNat toId
    fromId := UInt64.ofNat fromId
    term := UInt64.ofNat term
    logTerm := UInt64.ofNat logTerm
    index := UInt64.ofNat index
    entries
    commit := UInt64.ofNat commit }

theorem decode_encode (message : Message) : decode (encode message) = some message := by
  simp [decode, encode, -List.append_nil, int32OfBits_int32Bits, Entry.mapM_decode_encode]

end Message

/-- The codec of `Message`. -/
def prostMessage : ProstCodec Message where
  encodeToVec := Message.encode
  decode data :=
    match Message.decode data with
    | some message => .ok message
    | none => .error "failed to decode Protobuf message"
  decode_encodeToVec message := by rw [Message.decode_encode]

end IrohRaft
