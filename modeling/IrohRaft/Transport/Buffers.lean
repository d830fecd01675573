import IrohRaft.Transport.Protocol

/-!
# The buffers of a reader

The reading functions of `transport/protocol.rs` once more, with what they do besides looking at the
stream: every size that `with_capacity` or `resize` gives a buffer is noted, and every read is counted.
-/

namespace IrohRaft

open Rust

/-- The two buffers whose sizes the peer chooses. The header length itself is read into four bytes. -/
inductive Buffer where
  | header
  | payload
  deriving DecidableEq

/-- A stream that is being read, and what was done for that so far. -/
structure Reader where
  stream : ByteStream
  sizes : List (Buffer × Nat) := []
  reads : Nat := 0

namespace Reader

/-- `BytesMut::with_capacity(size)` or `buf.resize(size, 0)`. -/
def size (buffer : Buffer) (size : Nat) : Action Reader RaftError Unit :=
  fun reader => (.ok (), { reader with sizes := reader.sizes ++ [(buffer, size)] })

def readExact (count : Nat) : Action Reader String Bytes := fun reader =>
  let ended := Rust.readExact count reader.stream
  (ended.1, { reader with stream := ended.2, reads := reader.reads + 1 })

def readSmallPayloadDirect (payloadLen : Nat) : Action Reader RaftError Bytes := do
  size .payload payloadLen
  size .payload payloadLen
  (readExact payloadLen).mapErr fun e => .internal s!"Failed to read payload: {e}"

/-- `while remaining > 0 { .. }`. The buffer grows by a chunk before the chunk is read. -/
def readChunks (remaining : Nat) (payloadBuf : Bytes) : Action Reader RaftError Bytes :=
  if _h : remaining = 0 then pure payloadBuf
  else do
    let chunkSize := min remaining readChunkSize
    size .payload (payloadBuf.length + chunkSize)
    let chunk ← (readExact chunkSize).mapErr fun e => .internal s!"Failed to read payload chunk: {e}"
    readChunks (remaining - chunkSize) (payloadBuf ++ chunk)
termination_by remaining
decreasing_by
  have hchunk : 0 < readChunkSize := by decide
  omega

def readLargePayloadStreaming (payloadLen : Nat) : Action Reader RaftError Bytes := do
  size .payload payloadLen
  readChunks payloadLen []

def readMessageZeroCopy : Action Reader RaftError (MessageHeader × Bytes) := do
  let headerLenBytes ← (readExact 4).mapErr fun e => .internal s!"Failed to read header length: {e}"
  let headerLen := (u32FromBeBytes headerLenBytes).toNat
  Action.lift (Outcome.rejectIf (headerLen > maxHeaderSize)
    (.internal s!"Header too large: {headerLen} bytes (max {maxHeaderSize})"))
  size .header headerLen
  size .header headerLen
  let headerBuf ← (readExact headerLen).mapErr fun e => .internal s!"Failed to read header: {e}"
  let header ← Action.lift (deserializeHeader headerBuf)
  Action.lift (Outcome.rejectIf (header.payloadLen.toNat > maxPayloadSize)
    (.internal s!"Payload too large: {header.payloadLen} bytes"))
  let payload ←
    if header.payloadLen.toNat > largeMessageThreshold then readLargePayloadStreaming header.payloadLen.toNat
    else readSmallPayloadDirect header.payloadLen.toNat
  return (header, payload)

end Reader

end IrohRaft
