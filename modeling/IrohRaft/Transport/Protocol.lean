import IrohRaft.Library.Bincode
import IrohRaft.Library.Stream
import IrohRaft.Error

/-!
# The wire protocol

Messages on a stream, as `transport/protocol.rs` writes and reads them: a big-endian header length, a
bincode header, the payload. Writer and reader each have two ways to move the payload, chosen by its
length.
-/

namespace IrohRaft

open Rust

/-- Threshold for considering a message "large" and using streaming (64KB). -/
def largeMessageThreshold : Nat := 64 * 1024

def maxHeaderSize : Nat := 256

/-- The largest payload a reader takes, 100 MiB. -/
def maxPayloadSize : Nat := 100 * 1024 * 1024

def chunkSize : Nat := 32 * 1024

def readChunkSize : Nat := 32 * 1024

inductive MessageType where
  | request
  | response
  | raftMessage
  | heartbeat
  | error
  deriving DecidableEq, Repr

/-- The variants in the order of their declaration, which is how they are numbered. -/
def MessageType.variants : List MessageType := [.request, .response, .raftMessage, .heartbeat, .error]

def MessageType.variantIndex : MessageType → UInt32
  | .request => 0
  | .response => 1
  | .raftMessage => 2
  | .heartbeat => 3
  | .error => 4

abbrev RequestId := { bytes : Bytes // bytes.length = 16 }

structure MessageHeader where
  msgType : MessageType
  requestId : Option RequestId
  payloadLen : UInt32
  deriving DecidableEq

structure ZeroCopyMessage where
  msgType : MessageType
  requestId : Option RequestId
  payload : Bytes

def ZeroCopyMessage.isLargeMessage (message : ZeroCopyMessage) : Bool :=
  message.payload.length > largeMessageThreshold

/-! ### Headers -/

namespace MessageHeader

def encode (header : MessageHeader) : Bytes :=
  u32ToLeBytes header.msgType.variantIndex ++
  (Bincode.encodeOption Subtype.val header.requestId ++
  u32ToLeBytes header.payloadLen)

def decodeRequestId : Bincode.Decoder RequestId := fun data => do
  let (bytes, rest) ← Bincode.takeBytes Bincode.unexpectedEof 16 data
  if h : bytes.length = 16 then return (⟨bytes, h⟩, rest) else .error Bincode.unexpectedEof

def decode : Bincode.Decoder MessageHeader := fun data => do
  let (msgType, data) ← Bincode.decodeVariant MessageType.variants data
  let (requestId, data) ← Bincode.decodeOption decodeRequestId data
  let (payloadLen, data) ← Bincode.decodeU32 data
  return ({ msgType, requestId, payloadLen }, data)

end MessageHeader

/-- The buffer grows as it is written, so this never fails. -/
def serializeHeaderZeroCopy (header : MessageHeader) (buf : Bytes) : Bytes := buf ++ header.encode

/-- `deserialize_payload::<MessageHeader>`: bytes after the header are ignored. -/
def deserializeHeader (data : Bytes) : Outcome RaftError MessageHeader :=
  match MessageHeader.decode data with
  | .ok (header, _) => .ok header
  | .error e => .err (.internal s!"Failed to deserialize payload: {e}")

def ZeroCopyMessage.header (message : ZeroCopyMessage) : MessageHeader :=
  { msgType := message.msgType
    requestId := message.requestId
    payloadLen := UInt32.ofNat message.payload.length }

/-! ### Writing -/

/-- The branch for small messages: the whole message in one buffer, one write call. -/
def writeSingleBuffer (message : ZeroCopyMessage) : Action Sink RaftError Unit :=
  let buf := serializeHeaderZeroCopy message.header []
  let headerLen := UInt32.ofNat buf.length
  let finalBuf := u32ToBeBytes headerLen ++ (buf ++ message.payload)
  (writeAll finalBuf).mapErr fun e => .internal s!"Failed to write message: {e}"

def writeLargeMessageStreaming (message : ZeroCopyMessage) : Action Sink RaftError Unit := do
  let headerBuf := serializeHeaderZeroCopy message.header []
  let headerLen := UInt32.ofNat headerBuf.length
  (writeAll (u32ToBeBytes headerLen)).mapErr fun e => .internal s!"Failed to write header length: {e}"
  (writeAll headerBuf).mapErr fun e => .internal s!"Failed to write header: {e}"
  forM (chunks chunkSize message.payload) fun chunk =>
    (writeAll chunk).mapErr fun e => .internal s!"Failed to write payload chunk: {e}"

def writeMessageZeroCopy (message : ZeroCopyMessage) : Action Sink RaftError Unit := do
  if message.isLargeMessage then writeLargeMessageStreaming message else writeSingleBuffer message
  flush.mapErr fun e => .internal s!"Failed to flush stream: {e}"

/-! ### Reading -/

def readSmallPayloadDirect (payloadLen : Nat) : Action ByteStream RaftError Bytes :=
  (readExact payloadLen).mapErr fun e => .internal s!"Failed to read payload: {e}"

/-- `while remaining > 0 { .. }`, with the bytes read so far. -/
def readChunks (remaining : Nat) (payloadBuf : Bytes) : Action ByteStream RaftError Bytes :=
  if _h : remaining = 0 then pure payloadBuf
  else do
    let size := min remaining readChunkSize
    let chunk ← (readExact size).mapErr fun e => .internal s!"Failed to read payload chunk: {e}"
    readChunks (remaining - size) (payloadBuf ++ chunk)
termination_by remaining
decreasing_by
  have hchunk : 0 < readChunkSize := by decide
  omega

def readLargePayloadStreaming (payloadLen : Nat) : Action ByteStream RaftError Bytes := readChunks payloadLen []

def readMessageZeroCopy : Action ByteStream RaftError (MessageHeader × Bytes) := do
  let headerLenBytes ← (readExact 4).mapErr fun e => .internal s!"Failed to read header length: {e}"
  let headerLen := (u32FromBeBytes headerLenBytes).toNat
  Action.lift (Outcome.rejectIf (headerLen > maxHeaderSize)
    (.internal s!"Header too large: {headerLen} bytes (max {maxHeaderSize})"))
  let headerBuf ← (readExact headerLen).mapErr fun e => .internal s!"Failed to read header: {e}"
  let header ← Action.lift (deserializeHeader headerBuf)
  Action.lift (Outcome.rejectIf (header.payloadLen.toNat > maxPayloadSize)
    (.internal s!"Payload too large: {header.payloadLen} bytes"))
  let payload ←
    if header.payloadLen.toNat > largeMessageThreshold then readLargePayloadStreaming header.payloadLen.toNat
    else readSmallPayloadDirect header.payloadLen.toNat
  return (header, payload)

def writeMessages (messages : List ZeroCopyMessage) : Action Sink RaftError Unit := forM messages writeMessageZeroCopy

def readMessages : (count : Nat) → Action ByteStream RaftError (List (MessageHeader × Bytes))
  | 0 => pure []
  | count + 1 => do
      let message ← readMessageZeroCopy
      let rest ← readMessages count
      return message :: rest

end IrohRaft
