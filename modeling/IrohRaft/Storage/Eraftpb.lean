import IrohRaft.Library.Protobuf
import IrohRaft.Storage.Codec

/-!
# The snapshot messages on the wire

The encodings prost generates for `Snapshot`, `SnapshotMetadata` and `ConfState` of the raft crate's
schema, as a `ProstCodec`. The decoder reads the fields in the order the encoder writes them, which
is all the storage ever gives it.
-/

namespace IrohRaft

open Rust Protobuf

/-- A packed list of node ids. -/
def packedIds (ids : List UInt64) : Bytes := (ids.map UInt64.toNat).flatMap varint

def unpackIds (data : Bytes) : Option (List UInt64) := (readVarints data.length data).map (List.map UInt64.ofNat)

theorem map_ofNat_toNat (ids : List UInt64) : (ids.map UInt64.toNat).map UInt64.ofNat = ids := by
  rw [List.map_map, show UInt64.ofNat ∘ UInt64.toNat = id from funext fun _ => UInt64.ofNat_toNat, List.map_id]

theorem unpackIds_packedIds (ids : List UInt64) : unpackIds (packedIds ids) = some ids := by
  rw [unpackIds, packedIds, readVarints_flatMap _ (Nat.le_refl _), Option.map_some, map_ofNat_toNat]

namespace ConfState

def encode (cs : ConfState) : Bytes :=
  bytesField 0x0a (packedIds cs.voters) ++
  (bytesField 0x12 (packedIds cs.learners) ++
  (bytesField 0x1a (packedIds cs.votersOutgoing) ++
  (bytesField 0x22 (packedIds cs.learnersNext) ++
  (uintField 0x28 cs.autoLeave.toNat ++ []))))

def decode (data : Bytes) : Option ConfState := do
  let (voters, data) ← readField 0x0a readDelimited [] data
  let (learners, data) ← readField 0x12 readDelimited [] data
  let (votersOutgoing, data) ← readField 0x1a readDelimited [] data
  let (learnersNext, data) ← readField 0x22 readDelimited [] data
  let (autoLeave, _) ← readField 0x28 readVarint 0 data
  return {
    voters := ← unpackIds voters
    learners := ← unpackIds learners
    votersOutgoing := ← unpackIds votersOutgoing
    learnersNext := ← unpackIds learnersNext
    autoLeave := autoLeave != 0 }

theorem decode_encode (cs : ConfState) : decode (encode cs) = some cs := by
  have hflag : (cs.autoLeave.toNat != 0) = cs.autoLeave := by cases cs.autoLeave <;> rfl
  simp [decode, encode, -List.append_nil, unpackIds_packedIds, hflag]

end ConfState

namespace SnapshotMetadata

def encode (metadata : SnapshotMetadata) : Bytes :=
  messageField 0x0a (metadata.confState.map ConfState.encode) ++
  (uintField 0x10 metadata.index.toNat ++
  (uintField 0x18 metadata.term.toNat ++ []))

def decode (data : Bytes) : Option SnapshotMetadata := do
  let (confState, data) ← readField 0x0a readMessage none data
  let (index, data) ← readField 0x10 readVarint 0 data
  let (term, _) ← readField 0x18 readVarint 0 data
  let confState ← confState.mapM ConfState.decode
  return { confState, index := UInt64.ofNat index, term := UInt64.ofNat term }

theorem decode_encode (metadata : SnapshotMetadata) : decode (encode metadata) = some metadata := by
  obtain ⟨confState, index, term⟩ := metadata
  cases confState <;> simp [decode, encode, -List.append_nil, ConfState.decode_encode]

end SnapshotMetadata

namespace Snapshot

def encode (snapshot : Snapshot) : Bytes :=
  bytesField 0x0a snapshot.data ++
  (messageField 0x12 (snapshot.metadata.map SnapshotMetadata.encode) ++ [])

def decode (data : Bytes) : Option Snapshot := do
  let (content, data) ← readField 0x0a readDelimited [] data
  let (metadata, _) ← readField 0x12 readMessage none data
  let metadata ← metadata.mapM SnapshotMetadata.decode
  return { data := content, metadata }

theorem decode_encode (snapshot : Snapshot) : decode (encode snapshot) = some snapshot := by
  obtain ⟨data, metadata⟩ := snapshot
  cases metadata <;> simp [decode, encode, -List.append_nil, SnapshotMetadata.decode_encode]

end Snapshot

/-- The codec of `Snapshot`. -/
def prostSnapshot : ProstCodec Snapshot where
  encodeToVec := Snapshot.encode
  decode data :=
    match Snapshot.decode data with
    | some snapshot => .ok snapshot
    | none => .error "failed to decode Protobuf message"
  decode_encodeToVec snapshot := by rw [Snapshot.decode_encode]

end IrohRaft
