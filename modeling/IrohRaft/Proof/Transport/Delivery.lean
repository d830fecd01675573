import IrohRaft.Proof.Transport.Framing
import IrohRaft.Transport.Eraftpb
import IrohRaft.Transport.Rpc

/-!
# Delivery reports

A sender reports an error only if its own half of the stream fails. What the peer responds is read and
dropped: a response that is missing, does not decode, or says that the message was not taken, leaves the
sender with `Ok`, and its caller does not keep the message.
-/

namespace IrohRaft

open Rust Bincode RaftProtocolHandler

variable {prost : ProstCodec Message} {requestId : RequestId} {message : Message} {stream : BiStream}

/-! ### Requests and responses -/

theorem RpcRequest.decode_encode {request : RpcRequest} (h : request.payload.length < 2 ^ 64) :
    RpcRequest.decode request.encode = .ok (request, []) := by
  have hpayload := decodeBytes_append h []
  rw [List.append_nil] at hpayload
  simp [decode, encode, decodeString_append, hpayload]

theorem RpcResponse.decode_encode {response : RpcResponse} (h : ∀ payload ∈ response.payload, payload.length < 2 ^ 64) :
    RpcResponse.decode response.encode = .ok (response, []) := by
  have hpayload := decodeOption_append (encodeOption encodeString response.error) response.payload
    fun payload hmem => decodeBytes_append (h payload hmem) _
  have herror := decodeOption_append [] response.error fun text _ => decodeString_append text []
  rw [List.append_nil] at herror
  simp [decode, encode, decodeBool_append, hpayload, herror]

theorem deserializePayload_of_ok {α : Type} {decode : Decoder α} {data rest : Bytes} {value : α}
    (h : decode data = .ok (value, rest)) : deserializePayload decode data = .ok value := by
  rw [deserializePayload, h]

/-! ### What is on the stream -/

/-- What a sender puts on the stream. -/
def requestMessage (prost : ProstCodec Message) (requestId : RequestId) (message : Message) : ZeroCopyMessage :=
  { msgType := .request, requestId := some requestId, payload := (raftRequest prost message).encode }

/-- A response of the peer can be read, and it says that the peer took the message. -/
def Acknowledges (recv : ByteStream) : Prop :=
  ∃ header payload rest response, readMessage recv = (.ok (header, payload), rest) ∧ header.msgType = .response ∧
    deserializePayload RpcResponse.decode payload = .ok response ∧ response.success = true

/-- The sum that sizes the buffer does not overflow. -/
def Sized (request : ZeroCopyMessage) : Prop := 4 + 32 + request.payload.length % 2 ^ 32 < 2 ^ 32

/-- The sending half does not take the whole message, or does not end well. -/
def Breaks (stream : BiStream) (request : ZeroCopyMessage) : Prop :=
  Sized request ∧ (stream.send.room < (frame request).length ∨ stream.send.flushed.Rejected ∨
    stream.send.flushed = .ok () ∧ stream.finished.Rejected)

/-! ### The sender -/

theorem newBorrowed_eq_ok_iff {msgType : MessageType} {id : Option RequestId} {payload : Bytes} {request : ZeroCopyMessage} :
    ZeroCopyMessage.newBorrowed msgType id payload = .ok request ↔ Sized ⟨msgType, id, payload⟩ ∧ request = ⟨msgType, id, payload⟩ := by
  have hsize : (4 + 32 : UInt32).toNat = 4 + 32 := by decide
  rw [ZeroCopyMessage.newBorrowed, ZeroCopyMessage.calculateSize, u32Add, hsize, UInt32.toNat_ofNat', Sized]
  split <;> simp_all [eq_comm]

theorem not_rejected_newBorrowed (msgType : MessageType) (id : Option RequestId) (payload : Bytes) :
    ¬ (ZeroCopyMessage.newBorrowed msgType id payload).Rejected := by
  rw [ZeroCopyMessage.newBorrowed, ZeroCopyMessage.calculateSize, u32Add]
  split <;> simp [Outcome.Rejected]

/-- Writing a message is sizing its buffer and writing its frame. -/
theorem writeMessage_of_sized {msgType : MessageType} {id : Option RequestId} {payload : Bytes}
    (h : Sized ⟨msgType, id, payload⟩) : writeMessage msgType id payload = writeMessageZeroCopy ⟨msgType, id, payload⟩ := by
  funext sink
  rw [writeMessage, newBorrowed_eq_ok_iff.mpr ⟨h, rfl⟩]
  exact Action.bind_of_ok rfl

theorem writeMessage_of_not_sized {msgType : MessageType} {id : Option RequestId} {payload : Bytes}
    (h : ¬ Sized ⟨msgType, id, payload⟩) (sink : Sink) : writeMessage msgType id payload sink = (.panic, sink) := by
  have hpanic : ZeroCopyMessage.newBorrowed msgType id payload = .panic := by
    cases hnew : ZeroCopyMessage.newBorrowed msgType id payload with
    | ok request => exact absurd (newBorrowed_eq_ok_iff.mp hnew).1 h
    | err error => exact absurd ⟨error, hnew⟩ (not_rejected_newBorrowed msgType id payload)
    | panic => simp
  rw [writeMessage, hpanic]
  exact Action.bind_of_panic rfl

/-- Once the request is written, only `finish` can fail: reading the response cannot. -/
theorem rejected_finish_read :
    ((do
      finish.mapErr fun e => .internal s!"Failed to finish send stream: {e}"
      let _ ← (BiStream.onRecv readMessage).succeeds
      return () : Action BiStream RaftError Unit) stream).1.Rejected ↔ stream.finished.Rejected := by
  rw [Action.rejected_bind, Action.rejected_mapErr]
  refine ⟨fun h => ?_, Or.inl⟩
  rcases h with hfinish | ⟨_, between, _, h⟩
  · exact hfinish
  · rcases Action.rejected_bind.mp h with hread | ⟨_, _, _, hdone⟩
    · exact absurd hread (Action.not_rejected_succeeds _ between)
    · exact absurd hdone (Outcome.not_rejected_ok _)

/-- The sender reports an error where its own half of the stream breaks, and only there. -/
theorem rejected_callPeer :
    (callPeer prost requestId message stream).1.Rejected ↔ Breaks stream (requestMessage prost requestId message) := by
  rw [callPeer, Action.rejected_bind]
  by_cases hsized : Sized (requestMessage prost requestId message)
  · rw [writeMessage_of_sized hsized]
    apply Iff.intro
    · intro h
      refine ⟨hsized, ?_⟩
      rcases h with hwrite | ⟨_, between, hwrite, hfinish⟩
      · rcases rejected_writeMessageZeroCopy.mp hwrite with hroom | hflushed
        · exact Or.inl hroom
        · exact Or.inr (Or.inl hflushed)
      · obtain ⟨left, hok, rfl⟩ := Action.onPart_eq_ok.mp hwrite
        have hflushed := (writeMessageZeroCopy_eq_ok_iff.mp hok).2.1
        have hfinished := rejected_finish_read.mp hfinish
        exact Or.inr (Or.inr ⟨hflushed, hfinished⟩)
    · intro h
      obtain ⟨_, hbreaks⟩ := h
      by_cases hwrite : stream.send.room < (frame (requestMessage prost requestId message)).length ∨ stream.send.flushed.Rejected
      · exact Or.inl (rejected_writeMessageZeroCopy.mpr hwrite)
      · rcases hbreaks with hroom | hflushed | ⟨hflushed, hfinished⟩
        · exact absurd (Or.inl hroom) hwrite
        · exact absurd (Or.inr hflushed) hwrite
        · have hroom := Nat.not_lt.mp fun hlt => hwrite (Or.inl hlt)
          have hok := writeMessageZeroCopy_eq_ok_iff.mpr ⟨hroom, hflushed, rfl⟩
          exact Or.inr ⟨(), _, Action.onPart_eq_ok.mpr ⟨_, hok, rfl⟩, rejected_finish_read.mpr hfinished⟩
  · have hpanic : BiStream.onSend (writeMessage .request (some requestId) (raftRequest prost message).encode) stream =
        (.panic, stream) := by
      rw [BiStream.onSend, Action.onPart, writeMessage_of_not_sized hsized]
    simp [hpanic, Breaks, hsized, Outcome.not_rejected_panic]

/-! ### The reports -/

/-- The outcome of a sender, with what the peer responded and whether its caller keeps the message: `Ok` only if the peer
acknowledged it, and an error and a message that is kept if not. -/
structure Reports (outcome : Outcome RaftError Unit) (acknowledged kept : Prop) : Prop where
  ok : outcome = .ok () → acknowledged
  otherwise : ¬ acknowledged → outcome.Rejected ∧ kept

theorem reports_iff {outcome : Outcome RaftError Unit} {acknowledged kept : Prop} (hkept : outcome.Rejected → kept) :
    Reports outcome acknowledged kept ↔ acknowledged ∨ outcome.Rejected := by
  apply Iff.intro
  · intro h
    by_cases hacknowledged : acknowledged
    · exact Or.inl hacknowledged
    · exact Or.inr (h.otherwise hacknowledged).1
  · intro h
    rcases h with hacknowledged | hrejected
    · exact ⟨fun _ => hacknowledged, fun hnot => absurd hacknowledged hnot⟩
    · refine ⟨fun hok => ?_, fun _ => ⟨hrejected, hkept hrejected⟩⟩
      rw [hok] at hrejected
      exact absurd hrejected (Outcome.not_rejected_ok ())

/-- The connection gives a stream on which the peer acknowledges the message. -/
def Acknowledged (connection : Connection) : Prop := ∃ stream, connection = .ok stream ∧ Acknowledges stream.recv

/-- The connection gives no stream, or one that breaks. -/
def Stopped (connection : Connection) (request : ZeroCopyMessage) : Prop :=
  connection.Rejected ∨ ∃ stream, connection = .ok stream ∧ Breaks stream request

theorem rejected_sendSingleMessage {connection : Connection} :
    (sendSingleMessage prost requestId connection message).Rejected ↔
      Stopped connection (requestMessage prost requestId message) := by
  rw [sendSingleMessage, Outcome.rejected_bind, Outcome.rejected_mapErr, Stopped]
  simp only [Outcome.mapErr_eq_ok, rejected_callPeer]

theorem rejected_trySendImmediate {sending : Sending} {toId : UInt64} {priority : RaftMessagePriority} :
    (trySendImmediate prost requestId sending toId message priority).Rejected ↔
      (sending.getOrCreateConnection toId).Rejected ∨
        ∃ connection, sending.getOrCreateConnection toId = .ok connection ∧
          Stopped connection (requestMessage prost requestId message) := by
  rw [trySendImmediate, Outcome.rejected_bind]
  simp only [← rejected_sendSingleMessage, sendSingleMessage]

/-- `send_message` buffers what could not be sent. -/
theorem sendMessage_of_rejected {sending : Sending} {toId : UInt64} (hrunning : sending.isShuttingDown = false)
    (hpriority : RaftMessagePriority.fromRaftMessage message ≠ .snapshot)
    (h : (trySendImmediate prost requestId sending toId message (.fromRaftMessage message)).Rejected) (buffer : MessageBuffer) :
    sendMessage prost requestId sending toId message buffer =
      (.ok (), bufferMessage toId message (.fromRaftMessage message) sending.now buffer) := by
  obtain ⟨error, herror⟩ := h
  rw [sendMessage, hrunning]
  cases hcase : RaftMessagePriority.fromRaftMessage message <;> simp_all

/-- A round leaves what could not be sent at the front of the queue. -/
theorem sendMessages_of_rejected {connection : Connection} {buffered : BufferedRaftMessage} {now : Instant}
    {attempts : Nat → Attempt} (hattempt : attempts 0 = attempt prost requestId connection buffered.message now)
    (hrecent : buffered.timestamp.elapsed now ≤ 30 * nanosPerSecond)
    (h : (sendSingleMessage prost requestId connection buffered.message).Rejected) (messages : List BufferedRaftMessage)
    (sentCount : Nat) : sendMessages (buffered :: messages) attempts sentCount = (buffered :: messages, []) := by
  obtain ⟨error, herror⟩ := h
  have hrecent' : ¬ buffered.timestamp.elapsed now > 30 * nanosPerSecond := Nat.not_lt.mpr hrecent
  simp [sendMessages, hattempt, attempt, herror, hrecent']

/-- A call of `try_send_immediate` by `send_message`. -/
def ImmediateReports (prost : ProstCodec Message) (requestId : RequestId) (sending : Sending) (toId : UInt64) (message : Message) :
    Prop :=
  Reports (trySendImmediate prost requestId sending toId message (.fromRaftMessage message))
    (∃ connection, sending.getOrCreateConnection toId = .ok connection ∧ Acknowledged connection)
    (sending.isShuttingDown = false → RaftMessagePriority.fromRaftMessage message ≠ .snapshot → ∀ buffer,
      sendMessage prost requestId sending toId message buffer =
        (.ok (), bufferMessage toId message (.fromRaftMessage message) sending.now buffer))

/-- A call of `send_single_message` in a round over the queue of a peer. -/
def SingleReports (prost : ProstCodec Message) (requestId : RequestId) (connection : Connection) (message : Message) : Prop :=
  Reports (sendSingleMessage prost requestId connection message) (Acknowledged connection)
    (∀ (buffered : BufferedRaftMessage) (now : Instant) (attempts : Nat → Attempt), buffered.message = message →
      attempts 0 = attempt prost requestId connection buffered.message now →
      buffered.timestamp.elapsed now ≤ 30 * nanosPerSecond → ∀ messages sentCount,
        sendMessages (buffered :: messages) attempts sentCount = (buffered :: messages, []))

theorem immediateReports_iff {sending : Sending} {toId : UInt64} :
    ImmediateReports prost requestId sending toId message ↔
      (∃ connection, sending.getOrCreateConnection toId = .ok connection ∧ Acknowledged connection) ∨
      (sending.getOrCreateConnection toId).Rejected ∨
      ∃ connection, sending.getOrCreateConnection toId = .ok connection ∧
        Stopped connection (requestMessage prost requestId message) := by
  rw [ImmediateReports, reports_iff, rejected_trySendImmediate]
  intro hrejected hrunning hpriority buffer
  exact sendMessage_of_rejected hrunning hpriority hrejected buffer

theorem singleReports_iff {connection : Connection} :
    SingleReports prost requestId connection message ↔
      Acknowledged connection ∨ Stopped connection (requestMessage prost requestId message) := by
  rw [SingleReports, reports_iff, rejected_sendSingleMessage]
  intro hrejected buffered now attempts hmessage hattempt hrecent messages sentCount
  obtain rfl := hmessage
  exact sendMessages_of_rejected hattempt hrecent hrejected messages sentCount

/-! ### The peer -/

/-- What a peer responds to a request of the service `raft`. -/
def raftResponse (receiving : Bool) : RpcResponse :=
  if receiving then { success := true, payload := none, error := none }
  else { success := false, payload := none, error := some RaftProtocolHandler.channelClosed }

def responseMessage (requestId : RequestId) (receiving : Bool) : ZeroCopyMessage :=
  { msgType := .response, requestId := some requestId, payload := (raftResponse receiving).encode }

/-- The channel once the peer has handed it a message. -/
def handedOver (message : Message) (rx : Management.UnboundedSender (UInt64 × Message)) :
    Management.UnboundedSender (UInt64 × Message) :=
  if rx.receiving then { rx with sent := rx.sent ++ [(message.fromId, message)] } else rx

/-- The peer takes the message exactly if the raft manager still receives, and says so. -/
theorem respond_raftRequest (peer : RaftStream) :
    respond prost (raftRequest prost message) peer =
      (.ok (raftResponse peer.raftRx.receiving), { peer with raftRx := handedOver message peer.raftRx }) := by
  have hmessage : Action.lift (deserializeRaftMessageFast prost (raftRequest prost message).payload) peer = (.ok message, peer) := by
    rw [deserializeRaftMessageFast, raftRequest, serializeMessage, prost.decode_encodeToVec]
    simp [Action.lift]
  have hraft : (raftRequest prost message).service.val = "raft" ∧ (raftRequest prost message).method.val = "raft.message" :=
    ⟨rfl, rfl⟩
  have htaken : ((RaftStream.onRx (Management.UnboundedSender.send (message.fromId, message))).succeeds :
      Action RaftStream RaftError Bool) peer =
        (.ok peer.raftRx.receiving, { peer with raftRx := handedOver message peer.raftRx }) := by
    cases hreceiving : peer.raftRx.receiving <;>
      simp [Action.succeeds, RaftStream.onRx, Action.onPart, Management.UnboundedSender.send, handedOver, hreceiving]
  rw [respond, if_pos hraft, Action.bind_of_ok hmessage, Action.bind_of_ok htaken]
  cases peer.raftRx.receiving <;> simp [raftResponse, Action.pure_apply]

theorem decode_raftResponse (receiving : Bool) :
    RpcResponse.decode (raftResponse receiving).encode = .ok (raftResponse receiving, []) := by
  apply RpcResponse.decode_encode
  cases receiving <;> simp [raftResponse]

theorem length_raftResponse (receiving : Bool) : (raftResponse receiving).encode.length ≤ 64 := by
  cases receiving <;> decide

theorem sized_responseMessage (receiving : Bool) : Sized (responseMessage requestId receiving) := by
  have hlength : (responseMessage requestId receiving).payload.length ≤ 64 := length_raftResponse receiving
  rw [Sized]
  omega

theorem length_raftRequest_payload (prost : ProstCodec Message) (requestId : RequestId) (message : Message) :
    (raftRequest prost message).payload.length ≤ (requestMessage prost requestId message).payload.length := by
  simp [requestMessage, RpcRequest.encode, encodeBytes]
  omega

/-- A request is answered with one frame. -/
theorem handleRpcRequestZeroCopy_of_request {peer : RaftStream}
    (hsize : (requestMessage prost requestId message).payload.length ≤ maxPayloadSize)
    (hroom : (frame (responseMessage requestId peer.raftRx.receiving)).length ≤ peer.send.room)
    (hflushed : peer.send.flushed = .ok ()) :
    handleRpcRequestZeroCopy prost (requestMessage prost requestId message) peer = (.ok (),
      { peer with
        send := Sink.took peer.send (frame (responseMessage requestId peer.raftRx.receiving))
        raftRx := handedOver message peer.raftRx }) := by
  have hpayload : (raftRequest prost message).payload.length < 2 ^ 64 := by
    have hle := length_raftRequest_payload prost requestId message
    have hmax : maxPayloadSize < 2 ^ 64 := by decide
    omega
  have hrequest : deserializePayload RpcRequest.decode (requestMessage prost requestId message).payload =
      .ok (raftRequest prost message) := deserializePayload_of_ok (RpcRequest.decode_encode hpayload)
  have hresponse : ZeroCopyMessage.newBorrowed .response (some requestId) (raftResponse peer.raftRx.receiving).encode =
      .ok (responseMessage requestId peer.raftRx.receiving) := newBorrowed_eq_ok_iff.mpr ⟨sized_responseMessage _, rfl⟩
  rw [handleRpcRequestZeroCopy, hrequest, Action.bind_of_ok (show Action.lift _ peer = (.ok _, peer) from rfl),
    Action.bind_of_ok (respond_raftRequest peer), show (requestMessage prost requestId message).requestId = some requestId from rfl,
    hresponse, Action.bind_of_ok (show Action.lift _ _ = (.ok _, _) from rfl)]
  exact Action.onPart_eq_ok.mpr ⟨_, writeMessageZeroCopy_eq_ok_iff.mpr ⟨hroom, hflushed, rfl⟩, rfl⟩

/-- A peer that is sent a request writes its response and nothing else. -/
theorem handleStream_of_request {peer : RaftStream}
    (hrecv : peer.recv.unread = frame (requestMessage prost requestId message))
    (hsize : (requestMessage prost requestId message).payload.length ≤ maxPayloadSize)
    (hroom : (frame (responseMessage requestId peer.raftRx.receiving)).length ≤ peer.send.room)
    (hflushed : peer.send.flushed = .ok ()) :
    handleStream prost peer = (.ok (),
      { send := Sink.took peer.send (frame (responseMessage requestId peer.raftRx.receiving))
        recv := { peer.recv with unread := [] }
        raftRx := handedOver message peer.raftRx }) := by
  have hread : RaftStream.onRecv readZeroCopyMessage peer =
      (.ok (requestMessage prost requestId message), { peer with recv := { peer.recv with unread := [] } }) := by
    refine Action.onPart_eq_ok.mpr ⟨_, ?_, rfl⟩
    have hframe := readMessageZeroCopy_frame hsize [] peer.recv.failure
    rw [List.append_nil, ← hrecv] at hframe
    rw [readZeroCopyMessage, Action.bind_of_ok hframe]
    rfl
  have hhandled := @handleRpcRequestZeroCopy_of_request prost requestId message
    { peer with recv := { peer.recv with unread := [] } } hsize hroom hflushed
  rw [handleStream, Action.bind_of_ok hread,
    show processMessageZeroCopy prost (requestMessage prost requestId message) =
      handleRpcRequestZeroCopy prost (requestMessage prost requestId message) from rfl, Action.bind_of_ok hhandled]
  simp only [Action.succeeds, RaftStream.onSend, Action.onPart, flush, Sink.took, hflushed, bind_pure_comp, Action.map_apply]
  rfl

theorem acknowledges_frame_iff (receiving : Bool) (failure : String) :
    Acknowledges ⟨frame (responseMessage requestId receiving), failure⟩ ↔ receiving = true := by
  have hlength : (responseMessage requestId receiving).payload.length ≤ maxPayloadSize :=
    Nat.le_trans (length_raftResponse receiving) (by decide)
  have hread := readMessageZeroCopy_frame hlength [] failure
  rw [List.append_nil] at hread
  have hdecode := deserializePayload_of_ok (decode_raftResponse receiving)
  have hsuccess : (raftResponse receiving).success = receiving := by cases receiving <;> simp [raftResponse]
  apply Iff.intro
  · intro h
    obtain ⟨header, payload, rest, response, hread', _, hresponse, htrue⟩ := h
    rw [readMessage, hread, Prod.mk.injEq, Outcome.ok.injEq, Prod.mk.injEq] at hread'
    obtain ⟨⟨_, rfl⟩, _⟩ := hread'
    obtain rfl := Outcome.ok.inj (hdecode.symm.trans hresponse)
    rw [← hsuccess, htrue]
  · intro h
    exact ⟨_, _, _, _, hread, rfl, hdecode, hsuccess.trans h⟩

/-- What the peer writes is read as an acknowledgement exactly if it handed the message to the raft manager. -/
theorem acknowledges_handleStream_iff {peer : RaftStream} (failure : String)
    (hrecv : peer.recv.unread = frame (requestMessage prost requestId message))
    (hsize : (requestMessage prost requestId message).payload.length ≤ maxPayloadSize) (hwritten : peer.send.written = [])
    (hroom : (frame (responseMessage requestId peer.raftRx.receiving)).length ≤ peer.send.room)
    (hflushed : peer.send.flushed = .ok ()) :
    Acknowledges ⟨(handleStream prost peer).2.send.written, failure⟩ ↔
      (handleStream prost peer).2.raftRx.sent = peer.raftRx.sent ++ [(message.fromId, message)] := by
  rw [handleStream_of_request hrecv hsize hroom hflushed]
  dsimp only
  rw [Sink.took, hwritten, List.nil_append, acknowledges_frame_iff, handedOver]
  cases peer.raftRx.receiving <;> simp

/-! ### Every outcome -/

/-- **A delivery is reported** exactly where the peer acknowledges the message, or where there is no connection, no stream,
or the sender's half of the stream breaks: then the error reaches the caller, which keeps the message. -/
theorem deliveries_reported_iff (prost : ProstCodec Message) (requestId : RequestId) (message : Message) :
    (∀ (sending : Sending) (toId : UInt64), ImmediateReports prost requestId sending toId message ↔
      (∃ connection, sending.getOrCreateConnection toId = .ok connection ∧ Acknowledged connection) ∨
      (sending.getOrCreateConnection toId).Rejected ∨
      ∃ connection, sending.getOrCreateConnection toId = .ok connection ∧
        Stopped connection (requestMessage prost requestId message)) ∧
    ∀ connection, SingleReports prost requestId connection message ↔
      Acknowledged connection ∨ Stopped connection (requestMessage prost requestId message) :=
  ⟨fun _ _ => immediateReports_iff, fun _ => singleReports_iff⟩

def lostHeartbeat : Message := { msgType := 8, toId := 2, fromId := 1, term := 3, commit := 5 }

def lostHeartbeatId : RequestId := ⟨List.replicate 16 8, rfl⟩

/-- A peer whose raft manager is gone, at the heartbeat. -/
def closedPeer : RaftStream :=
  { send := { written := [], room := 256, failure := "", flushed := .ok () }
    recv := ⟨frame (requestMessage prostMessage lostHeartbeatId lostHeartbeat), ""⟩
    raftRx := { receiving := false, sent := [] } }

/-- The stream to it, which takes the heartbeat and brings what the peer responds. -/
def closedStream : BiStream :=
  { send := { written := [], room := 256, failure := "", flushed := .ok () }
    finished := .ok ()
    recv := ⟨(handleStream prostMessage closedPeer).2.send.written, ""⟩ }

theorem not_acknowledged_closedStream : ¬ Acknowledged (.ok closedStream) := by
  intro h
  obtain ⟨stream, hstream, hacknowledges⟩ := h
  obtain rfl := Outcome.ok.inj hstream
  have hhandled := @handleStream_of_request prostMessage lostHeartbeatId lostHeartbeat closedPeer rfl (by decide) (by decide) rfl
  have hreply : closedStream.recv = ⟨frame (responseMessage lostHeartbeatId false), ""⟩ := by
    rw [closedStream, hhandled]
    rfl
  rw [hreply, acknowledges_frame_iff] at hacknowledges
  exact Bool.false_ne_true hacknowledges

theorem not_stopped_closedStream : ¬ Stopped (.ok closedStream) (requestMessage prostMessage lostHeartbeatId lostHeartbeat) := by
  intro h
  rcases h with hrejected | ⟨stream, hstream, _, hbreaks⟩
  · exact Outcome.not_rejected_ok _ hrejected
  obtain rfl := Outcome.ok.inj hstream
  rcases hbreaks with hroom | hflushed | ⟨_, hfinished⟩
  · exact absurd hroom (by decide)
  · exact Outcome.not_rejected_ok () hflushed
  · exact Outcome.not_rejected_ok () hfinished

/-- Both senders report that the heartbeat was delivered, and no manager has it. -/
theorem not_deliveries_reported :
    ¬ ImmediateReports prostMessage lostHeartbeatId
      { isShuttingDown := false, getOrCreateConnection := fun _ => .ok (.ok closedStream), now := 0 } 2 lostHeartbeat ∧
    ¬ SingleReports prostMessage lostHeartbeatId (.ok closedStream) lostHeartbeat := by
  have hnot : ¬ (Acknowledged (.ok closedStream) ∨ Stopped (.ok closedStream) (requestMessage prostMessage lostHeartbeatId lostHeartbeat)) :=
    fun h => h.elim not_acknowledged_closedStream not_stopped_closedStream
  refine ⟨fun h => hnot ?_, fun h => hnot (singleReports_iff.mp h)⟩
  rcases immediateReports_iff.mp h with ⟨connection, hconnection, hacknowledged⟩ | hrejected | ⟨connection, hconnection, hstopped⟩
  · obtain rfl := Outcome.ok.inj hconnection
    exact Or.inl hacknowledged
  · exact absurd hrejected (Outcome.not_rejected_ok _)
  · obtain rfl := Outcome.ok.inj hconnection
    exact Or.inr hstopped

end IrohRaft
