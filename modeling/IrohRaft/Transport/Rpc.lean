import IrohRaft.Management.Protocol
import IrohRaft.Transport.Iroh

/-!
# Sending a message to a peer

The senders of `transport/iroh.rs` call the peer: they write a request and read what
`RaftProtocolHandler` of `transport/protocol.rs` responds on the same stream. How the operations of a
stream end, and what the peer puts on it, is input.
-/

namespace IrohRaft

open Rust Bincode

structure RpcRequest where
  service : Str
  method : Str
  payload : Bytes

structure RpcResponse where
  success : Bool
  payload : Option Bytes
  error : Option Str

def RpcRequest.encode (request : RpcRequest) : Bytes :=
  encodeString request.service ++ (encodeString request.method ++ encodeBytes request.payload)

def RpcRequest.decode : Decoder RpcRequest := fun data => do
  let (service, data) ← decodeString data
  let (method, data) ← decodeString data
  let (payload, data) ← decodeBytes data
  return ({ service, method, payload }, data)

def RpcResponse.encode (response : RpcResponse) : Bytes :=
  encodeBool response.success ++ (encodeOption encodeBytes response.payload ++ encodeOption encodeString response.error)

def RpcResponse.decode : Decoder RpcResponse := fun data => do
  let (success, data) ← decodeBool data
  let (payload, data) ← decodeOption decodeBytes data
  let (error, data) ← decodeOption decodeString data
  return ({ success, payload, error }, data)

def deserializePayload {α : Type} (decode : Decoder α) (data : Bytes) : Outcome RaftError α :=
  match decode data with
  | .ok (value, _) => .ok value
  | .error e => .err (.internal s!"Failed to deserialize payload: {e}")

namespace ZeroCopyMessage

/-- The length prefix, an estimated header, the payload. The sum sizes a buffer and is kept nowhere else. -/
def calculateSize (payloadLen : Nat) : Outcome RaftError UInt32 := u32Add (4 + 32) (UInt32.ofNat payloadLen)

def newBorrowed (msgType : MessageType) (requestId : Option RequestId) (payload : Bytes) :
    Outcome RaftError ZeroCopyMessage := do
  let _totalSize ← calculateSize payload.length
  return { msgType, requestId, payload }

end ZeroCopyMessage

def writeMessage (msgType : MessageType) (requestId : Option RequestId) (payload : Bytes) : Action Sink RaftError Unit := do
  let msg ← Action.lift (ZeroCopyMessage.newBorrowed msgType requestId payload)
  writeMessageZeroCopy msg

def readMessage : Action ByteStream RaftError (MessageHeader × Bytes) := readMessageZeroCopy

def readZeroCopyMessage : Action ByteStream RaftError ZeroCopyMessage := do
  let (header, payload) ← readMessageZeroCopy
  return { msgType := header.msgType, requestId := header.requestId, payload }

/-! ### The sender -/

/-- The two halves of a stream, and how `finish` of the first ends. -/
structure BiStream where
  send : Sink
  finished : Outcome String Unit
  recv : ByteStream

namespace BiStream

variable {ε α : Type}

def onSend : Action Sink ε α → Action BiStream ε α :=
  Action.onPart send fun stream sink => { stream with send := sink }

def onRecv : Action ByteStream ε α → Action BiStream ε α :=
  Action.onPart recv fun stream bytes => { stream with recv := bytes }

end BiStream

def finish : Action BiStream String Unit := fun stream => (stream.finished, stream)

/-- A connection, by what its next `open_bi` gives. -/
abbrev Connection := Outcome String BiStream

section Sender

variable (prost : ProstCodec Message) (requestId : RequestId)

def serializeMessage (message : Message) : Bytes := prost.encodeToVec message

def raftRequest (message : Message) : RpcRequest :=
  { service := ⟨"raft", by decide⟩, method := ⟨"raft.message", by decide⟩, payload := serializeMessage prost message }

/-- What both senders do with the stream. -/
def callPeer (message : Message) : Action BiStream RaftError Unit := do
  BiStream.onSend (writeMessage .request (some requestId) (raftRequest prost message).encode)
  finish.mapErr fun e => .internal s!"Failed to finish send stream: {e}"
  -- whatever comes of the response is dropped
  let _ ← (BiStream.onRecv readMessage).succeeds
  return ()

def sendSingleMessage (connection : Connection) (message : Message) : Outcome RaftError Unit := do
  let stream ← connection.mapErr fun e => .internal s!"Failed to open bi stream: {e}"
  (callPeer prost requestId message stream).1

/-- What a call of `send_message` meets: the shutdown flag, what `get_or_create_connection` gives, and the time
once the message is buffered. -/
structure Sending where
  isShuttingDown : Bool
  getOrCreateConnection : UInt64 → Outcome RaftError Connection
  now : Instant

variable (sending : Sending)

def trySendImmediate (toId : UInt64) (message : Message) (_priority : RaftMessagePriority) : Outcome RaftError Unit := do
  let conn ← sending.getOrCreateConnection toId
  let stream ← conn.mapErr fun e => .internal s!"Failed to open bi stream: {e}"
  (callPeer prost requestId message stream).1

/-- What a round of `process_message_batches` meets at a message it sends. -/
def attempt (connection : Connection) (message : Message) (now : Instant) : Attempt :=
  { now, succeeds := sendSingleMessage prost requestId connection message = .ok () }

def sendMessage (toId : UInt64) (message : Message) : Action MessageBuffer RaftError Unit := fun buffer =>
  if sending.isShuttingDown then (.err (.internal "Transport is shutting down"), buffer)
  else
    let priority := RaftMessagePriority.fromRaftMessage message
    match priority with
    | .election | .heartbeat | .logAppend =>
        match trySendImmediate prost requestId sending toId message priority with
        | .ok () => (.ok (), buffer)
        | .err _ => (.ok (), bufferMessage toId message priority sending.now buffer)
        | .panic => (.panic, buffer)
    | .snapshot => (.ok (), bufferMessage toId message priority sending.now buffer)

end Sender

/-! ### The peer -/

open Management (UnboundedSender)

/-- An accepted stream, and the channel to the raft manager. -/
structure RaftStream where
  send : Sink
  recv : ByteStream
  raftRx : UnboundedSender (UInt64 × Message)

namespace RaftStream

variable {ε α : Type}

def onSend : Action Sink ε α → Action RaftStream ε α :=
  Action.onPart send fun stream sink => { stream with send := sink }

def onRecv : Action ByteStream ε α → Action RaftStream ε α :=
  Action.onPart recv fun stream bytes => { stream with recv := bytes }

def onRx : Action (UnboundedSender (UInt64 × Message)) ε α → Action RaftStream ε α :=
  Action.onPart raftRx fun stream rx => { stream with raftRx := rx }

end RaftStream

namespace RaftProtocolHandler

variable (prost : ProstCodec Message)

def deserializeRaftMessageFast (data : Bytes) : Outcome RaftError Message :=
  match prost.decode data with
  | .ok message => .ok message
  | .error source => .err (.serialization "RaftMessage" source)

def channelClosed : Str := ⟨"Failed to process message: channel closed", by decide⟩

def respond (request : RpcRequest) : Action RaftStream RaftError RpcResponse :=
  if request.service.val = "raft" ∧ request.method.val = "raft.message" then do
    let raftMessage ← Action.lift (deserializeRaftMessageFast prost request.payload)
    let taken ← (RaftStream.onRx (UnboundedSender.send (raftMessage.fromId, raftMessage))).succeeds
    if taken then return { success := true, payload := none, error := none }
    else return { success := false, payload := none, error := some channelClosed }
  else do
    let error ← Action.lift (Str.format s!"Unknown service/method: {request.service.val}/{request.method.val}")
    return { success := false, payload := none, error := some error }

def handleRpcRequestZeroCopy (message : ZeroCopyMessage) : Action RaftStream RaftError Unit := do
  let request ← Action.lift (deserializePayload RpcRequest.decode message.payload)
  let response ← respond prost request
  let responseMsg ← Action.lift (ZeroCopyMessage.newBorrowed .response message.requestId response.encode)
  RaftStream.onSend (writeMessageZeroCopy responseMsg)

def handleDirectRaftMessageZeroCopy (message : ZeroCopyMessage) : Action RaftStream RaftError Unit := do
  let raftMessage ← Action.lift (deserializeRaftMessageFast prost message.payload)
  let _ ← (RaftStream.onRx (UnboundedSender.send (raftMessage.fromId, raftMessage))).succeeds
  return ()

def processMessageZeroCopy (message : ZeroCopyMessage) : Action RaftStream RaftError Unit :=
  match message.msgType with
  | .request => handleRpcRequestZeroCopy prost message
  | .raftMessage => handleDirectRaftMessageZeroCopy prost message
  | _ => pure ()

/-- Handle a bidirectional stream within its deadline. -/
def handleStream : Action RaftStream RaftError Unit := do
  let message ← RaftStream.onRecv readZeroCopyMessage
  processMessageZeroCopy prost message
  -- a flush that fails is only logged
  let _ ← (RaftStream.onSend flush).succeeds
  return ()

end RaftProtocolHandler

end IrohRaft
