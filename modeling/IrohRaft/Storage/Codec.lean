import IrohRaft.Error
import IrohRaft.Storage.Types

/-!
# The storage codec

The hand-written encodings of `storage/codec.rs`: entries, hard states and conf states to bytes and
back. Every decoder keeps a cursor, checks the bytes it needs are there, and slices. Snapshots are
encoded by prost, whose generated code is outside the repository: `ProstCodec` is its interface.
-/

namespace IrohRaft

open Rust

/-! ### Entries -/

/-- Format: `[index:8][term:8][entry_type:1][data_len:4][data][context_len:4][context][sync_log:1]`. -/
def serializeEntry (entry : Entry) : Bytes :=
  u64ToLeBytes entry.index ++
  u64ToLeBytes entry.term ++
  [i32AsU8 entry.entryType] ++
  u32ToLeBytes (UInt32.ofNat entry.data.length) ++
  entry.data ++
  u32ToLeBytes (UInt32.ofNat entry.context.length) ++
  entry.context ++
  [if entry.syncLog then 1 else 0]

def entryError (source : String) : RaftError := .serialization "Entry" source

def deserializeEntry (data : Bytes) : Outcome RaftError Entry := do
  Outcome.rejectIf (data.length < 26) (entryError "insufficient data")
  let cursor := 0
  let index ← readU64 data cursor (entryError "failed to read index bytes")
  let cursor ← usizeAdd cursor 8
  let term ← readU64 data cursor (entryError "failed to read term bytes")
  let cursor ← usizeAdd cursor 8
  let entryType ← Rust.index data cursor
  let cursor ← usizeAdd cursor 1
  let lengthEnd ← usizeAdd cursor 4
  Outcome.rejectIf (lengthEnd > data.length) (entryError "insufficient data for data length")
  let dataLen ← readU32 data cursor (entryError "failed to read data length bytes")
  let cursor ← usizeAdd cursor 4
  let dataEnd ← usizeAdd cursor dataLen.toNat
  Outcome.rejectIf (dataEnd > data.length) (entryError s!"insufficient data for entry data: need {dataEnd} bytes, have {data.length}")
  let entryData ← slice data cursor dataEnd
  let cursor := dataEnd
  let lengthEnd ← usizeAdd cursor 4
  Outcome.rejectIf (lengthEnd > data.length) (entryError "insufficient data for context length")
  let contextLen ← readU32 data cursor (entryError "failed to read context length bytes")
  let cursor ← usizeAdd cursor 4
  let contextEnd ← usizeAdd cursor contextLen.toNat
  Outcome.rejectIf (contextEnd > data.length) (entryError s!"insufficient data for context: need {contextEnd} bytes, have {data.length}")
  let context ← slice data cursor contextEnd
  let cursor := contextEnd
  Outcome.rejectIf (cursor ≥ data.length) (entryError "insufficient data for sync_log")
  let syncLog ← Rust.index data cursor
  return { entryType := u8AsI32 entryType, term, index, data := entryData, context, syncLog := syncLog != 0 }

/-! ### Hard states -/

/-- Format: `[term:8][vote:8][commit:8]`. -/
def serializeHardState (hs : HardState) : Bytes :=
  u64ToLeBytes hs.term ++ u64ToLeBytes hs.vote ++ u64ToLeBytes hs.commit

def hardStateError (source : String) : RaftError := .serialization "HardState" source

def deserializeHardState (data : Bytes) : Outcome RaftError HardState := do
  Outcome.rejectIf (data.length ≠ 24) (hardStateError "invalid data length")
  let term ← readU64 data 0 (hardStateError "failed to read term bytes")
  let vote ← readU64 data 8 (hardStateError "failed to read vote bytes")
  let commit ← readU64 data 16 (hardStateError "failed to read commit bytes")
  return { term, vote, commit }

/-! ### Conf states -/

/-- A list of node ids: how many, then each. -/
def serializeNodeIds (ids : List UInt64) : Bytes :=
  u32ToLeBytes (UInt32.ofNat ids.length) ++ ids.flatMap u64ToLeBytes

def serializeConfState (cs : ConfState) : Bytes :=
  serializeNodeIds cs.voters ++
  serializeNodeIds cs.learners ++
  serializeNodeIds cs.votersOutgoing ++
  serializeNodeIds cs.learnersNext ++
  [if cs.autoLeave then 1 else 0]

def confStateError (source : String) : RaftError := .serialization "ConfState" source

/-- `for _ in 0..count { .. }`: push the ids read so far and one more, eight bytes each. -/
def readNodeIdLoop (data : Bytes) (element : String) :
    (count cursor : Nat) → List UInt64 → Outcome RaftError (List UInt64 × Nat)
  | 0, cursor, ids => return (ids, cursor)
  | count + 1, cursor, ids => do
      let stop ← usizeAdd cursor 8
      Outcome.rejectIf (stop > data.length) (confStateError s!"insufficient data for {element}")
      let id ← readU64 data cursor (confStateError s!"failed to read {element} bytes")
      let cursor ← usizeAdd cursor 8
      readNodeIdLoop data element count cursor (ids ++ [id])

/-- One of the four lists: its length, then its ids. The list and its elements have their own names
in the error texts. -/
def readNodeIds (data : Bytes) (list element : String) (cursor : Nat) : Outcome RaftError (List UInt64 × Nat) := do
  let lengthEnd ← usizeAdd cursor 4
  Outcome.rejectIf (lengthEnd > data.length) (confStateError s!"insufficient data for {list} length")
  let count ← readU32 data cursor (confStateError s!"failed to read {list} length bytes")
  let cursor ← usizeAdd cursor 4
  readNodeIdLoop data element count.toNat cursor []

def deserializeConfState (data : Bytes) : Outcome RaftError ConfState := do
  Outcome.rejectIf (data.length < 16) (confStateError "insufficient data")
  let cursor := 0
  let (voters, cursor) ← readNodeIds data "voters" "voter" cursor
  let (learners, cursor) ← readNodeIds data "learners" "learner" cursor
  let (votersOutgoing, cursor) ← readNodeIds data "voters_outgoing" "voter_outgoing" cursor
  let (learnersNext, cursor) ← readNodeIds data "learners_next" "learner_next" cursor
  let autoLeave ← if cursor < data.length then (· != 0) <$> Rust.index data cursor else pure false
  return { voters, learners, votersOutgoing, learnersNext, autoLeave }

/-! ### Snapshots -/

/-- What the storage relies on of prost's generated code for a message type: decoding what was
encoded gives the message back. A decoding error is its text. -/
structure ProstCodec (α : Type) where
  encodeToVec : α → Bytes
  decode : Bytes → Except String α
  decode_encodeToVec : ∀ message, decode (encodeToVec message) = .ok message

def serializeSnapshot (prost : ProstCodec Snapshot) (snapshot : Snapshot) : Bytes := prost.encodeToVec snapshot

def deserializeSnapshot (prost : ProstCodec Snapshot) (data : Bytes) : Outcome RaftError Snapshot :=
  match prost.decode data with
  | .ok snapshot => .ok snapshot
  | .error source => .err (.serialization "Snapshot" source)

@[simp] theorem deserializeSnapshot_serializeSnapshot (prost : ProstCodec Snapshot) (snapshot : Snapshot) :
    deserializeSnapshot prost (serializeSnapshot prost snapshot) = .ok snapshot := by
  rw [deserializeSnapshot, serializeSnapshot, prost.decode_encodeToVec]

end IrohRaft
