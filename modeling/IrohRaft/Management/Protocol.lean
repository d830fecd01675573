import IrohRaft.Library.Run
import IrohRaft.Transport.Protocol
import IrohRaft.Management.Types

/-!
# The management protocol

`ManagementProtocolHandler` of `management/protocol.rs`, from an accepted stream to the channel of the
cluster manager. A stream is served within a deadline, which may pass at any of its awaits; the manager
at the other end of the channel answers, drops the request, or is gone.
-/

namespace IrohRaft.Management

open Rust

inductive ManagementMessageType where
  | request
  | response
  | event
  | healthCheck
  | error
  deriving DecidableEq, Repr

/-- What the cluster manager answers. The data of its answers is opaque to the protocol. -/
inductive ManagementResponse (Answer : Type) where
  | answer (data : Answer)
  | success
  | error (message : Str)

/-- The variants before `Success` are those of the answers. -/
def ManagementResponse.encode {Answer : Type} (encodeAnswer : Answer → Bytes) : ManagementResponse Answer → Bytes
  | answer data => encodeAnswer data
  | success => u32ToLeBytes 11
  | error message => u32ToLeBytes 12 ++ Bincode.encodeString message

structure ZeroCopyManagementMessage where
  msgType : ManagementMessageType
  requestId : Option RequestId
  operation : Option ManagementOperation
  payload : Bytes
  totalSize : UInt32
  authorization : Option Str

structure ManagementPermissions where
  nodeId : UInt64
  role : ManagementRole

/-! ### Channels -/

/-- The sending half of an unbounded channel: whether the receiver still exists, and what was sent. -/
structure UnboundedSender (α : Type) where
  receiving : Bool
  sent : List α

/-- `tx.send(value)`, which hands the value back where nobody receives. -/
def UnboundedSender.send {α : Type} (value : α) : Action (UnboundedSender α) α Unit := fun tx =>
  if tx.receiving then (.ok (), { tx with sent := tx.sent ++ [value] }) else (.err value, tx)

/-! ### Streams -/

/-- A bidirectional stream, and the channel to the cluster manager. -/
structure ManagementStream where
  send : Sink
  recv : ByteStream
  managementTx : UnboundedSender ManagementRequest

namespace ManagementStream

variable {ε α : Type}

def onSend : Action Sink ε α → Action ManagementStream ε α :=
  Action.onPart send fun stream sink => { stream with send := sink }

def onRecv : Action ByteStream ε α → Action ManagementStream ε α :=
  Action.onPart recv fun stream bytes => { stream with recv := bytes }

def onTx : Action (UnboundedSender ManagementRequest) ε α → Action ManagementStream ε α :=
  Action.onPart managementTx fun stream tx => { stream with managementTx := tx }

end ManagementStream

/-- An await of a stream's handler; a write may have gone some way. -/
inductive Await where
  | reading
  | responding
  | writing (taken : Nat)
  deriving DecidableEq

/-- What a stream's handler meets: the manager's response, unless the request is dropped, and the await
the deadline passes at, if it does. -/
structure Surroundings (Answer : Type) where
  response : Option (ManagementResponse Answer)
  expires : Option Await

/-- How the work within the deadline is cut short. -/
inductive Interrupt where
  | elapsed
  | failed (error : RaftError)

/-- An await that either ends before the deadline or does nothing. -/
def within {σ α : Type} (expired : Prop) [Decidable expired] (x : Action σ RaftError α) : Action σ Interrupt α :=
  if expired then Action.lift (.err .elapsed) else x.mapErr .failed

/-- A write that the deadline stops after some bytes. -/
def stopped (taken : Nat) (write : Action Sink RaftError Unit) : Action Sink Interrupt Unit := fun sink =>
  (.err .elapsed, (write { sink with room := min taken sink.room }).2)

/-! ### Permissions -/

structure ManagementProtocolHandler where
  nodeId : UInt64
  permissions : HashMap UInt64 ManagementPermissions

namespace ManagementProtocolHandler

def new (nodeId : UInt64) : ManagementProtocolHandler := { nodeId, permissions := ∅ }

def checkPermission (handler : ManagementProtocolHandler) (nodeId : UInt64) (operation : ManagementOperation) : Bool :=
  match handler.permissions[nodeId]? with
  | some permissions =>
      match permissions.role with
      | .admin => true
      | .observer => operation.isReadOnly
      | .memberManager =>
          operation.isReadOnly ||
            match operation with
            | .addMember _ _ _ | .removeMember _ | .updateMemberRole _ _ => true
            | _ => false
      | .monitor =>
          match operation with
          | .getClusterStatus | .getHealthStatus | .getMetrics _ => true
          | _ => false
  -- default to observer permissions for unknown nodes
  | none => operation.isReadOnly

/-! ### Handlers -/

section Handlers

variable {Answer : Type} (encodeAnswer : Answer → Bytes) (surroundings : Surroundings Answer)

def sendManagementResponse (response : ManagementResponse Answer) (requestId : Option RequestId) :
    Action ManagementStream Interrupt Unit :=
  let responseMsg : ZeroCopyMessage := { msgType := .response, requestId, payload := response.encode encodeAnswer }
  ManagementStream.onSend <|
    match surroundings.expires with
    | some (.writing taken) => stopped taken (writeMessageZeroCopy responseMsg)
    | _ => (writeMessageZeroCopy responseMsg).mapErr .failed

/-- `deserialize_payload::<ManagementRequest>`. -/
def deserializeRequest (data : Bytes) : Outcome RaftError ManagementRequest :=
  match ManagementRequest.decode data with
  | .ok (request, _) => .ok request
  | .error e => .err (.internal s!"Failed to deserialize payload: {e}")

def handleManagementRequest (message : ZeroCopyManagementMessage)
    (_permissions : HashMap UInt64 ManagementPermissions) : Action ManagementStream Interrupt Unit := do
  let request ← (Action.lift (deserializeRequest message.payload)).mapErr Interrupt.failed
  let available ← (ManagementStream.onTx (UnboundedSender.send request)).succeeds
  if available then
    let response ← within (surroundings.expires = some .responding) (pure surroundings.response)
    match response with
    | some response => sendManagementResponse encodeAnswer surroundings response message.requestId
    | none =>
        let errorResponse := .error ⟨"Response channel closed", by decide⟩
        sendManagementResponse encodeAnswer surroundings errorResponse message.requestId
  else
    let errorResponse := .error ⟨"Cluster manager unavailable", by decide⟩
    sendManagementResponse encodeAnswer surroundings errorResponse message.requestId

/-- Handle event subscription: the channel it makes is a placeholder nobody holds on to. -/
def handleEventSubscription (_message : ZeroCopyManagementMessage) : Action ManagementStream Interrupt Unit := pure ()

def handleHealthCheck (message : ZeroCopyManagementMessage) : Action ManagementStream Interrupt Unit :=
  sendManagementResponse encodeAnswer surroundings .success message.requestId

def processManagementMessage (message : ZeroCopyManagementMessage) (permissions : HashMap UInt64 ManagementPermissions) :
    Action ManagementStream Interrupt Unit :=
  match message.msgType with
  | .request => handleManagementRequest encodeAnswer surroundings message permissions
  | .event => handleEventSubscription message
  | .healthCheck => handleHealthCheck encodeAnswer surroundings message
  | _ => pure ()

def managementMessage (header : MessageHeader) (payload : Bytes) : ZeroCopyManagementMessage :=
  { msgType :=
      match header.msgType with
      | .request => .request
      | .response => .response
      | .error => .error
      | .heartbeat => .healthCheck
      | .raftMessage => .error
    requestId := header.requestId
    operation := none
    payload
    totalSize := header.payloadLen + 4
    authorization := none }

/-- The part of a stream's handler that has to end before the deadline. -/
def serve (permissions : HashMap UInt64 ManagementPermissions) : Action ManagementStream Interrupt Unit := do
  let (header, payloadBytes) ← within (surroundings.expires = some .reading) (ManagementStream.onRecv readMessageZeroCopy)
  processManagementMessage encodeAnswer surroundings (managementMessage header payloadBytes) permissions

/-- Handle a bidirectional management stream. A flush that fails is only logged. -/
def handleManagementStream (_nodeId : UInt64) (permissions : HashMap UInt64 ManagementPermissions) :
    Action ManagementStream RaftError Unit := fun stream =>
  match serve encodeAnswer surroundings permissions stream with
  | (.ok (), stream) => (ManagementStream.onSend flush.succeeds >>= fun _ => pure ()) stream
  | (.err (.failed error), stream) => (.err error, stream)
  | (.err .elapsed, stream) => (.err (.internal "Management stream timeout"), stream)
  | (.panic, stream) => (.panic, stream)

end Handlers

end ManagementProtocolHandler

structure Accepted (Answer : Type) where
  send : Sink
  recv : ByteStream
  /-- The cluster manager still receives when the handler sends. -/
  receiving : Bool
  surroundings : Surroundings Answer

namespace ManagementProtocolHandler

variable {Answer : Type} (encodeAnswer : Answer → Bytes) (handler : ManagementProtocolHandler)

/-- The requests sent to the cluster manager once this stream was handled as well. -/
def handleAccepted (sent : List ManagementRequest) (accepted : Accepted Answer) : List ManagementRequest :=
  let stream : ManagementStream :=
    { send := accepted.send, recv := accepted.recv, managementTx := { receiving := accepted.receiving, sent } }
  (handleManagementStream encodeAnswer accepted.surroundings handler.nodeId handler.permissions stream).2.managementTx.sent

/-- Handle an incoming management connection: what it sends to the cluster manager. Every stream has a
task of its own that sends at most once, and they are listed in the order they send in. -/
def handleConnection (streams : List (Accepted Answer)) : List ManagementRequest :=
  Run.final (handler.handleAccepted encodeAnswer) [] streams

end ManagementProtocolHandler

end IrohRaft.Management
