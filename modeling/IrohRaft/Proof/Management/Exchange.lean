import IrohRaft.Management.Client
import IrohRaft.Proof.Management.RequestCodec
import IrohRaft.Proof.Transport.Framing

/-!
# Requests and their replies

What the client writes is read by a live server, whose cluster manager answers, and what the server writes is
read by the client. A request is answered exactly if it decodes to something, within the sizes a reader takes;
a ping goes out as a request without a payload, which never decodes.
-/

namespace IrohRaft.Management

open Rust ManagementProtocolHandler

variable {Answer : Type} {answers : Bincode.Serde Answer} {permissions : HashMap UInt64 ManagementPermissions} {nodeId : UInt64}
  {response : ManagementResponse Answer} {stream : ManagementStream} {message : ZeroCopyMessage} {id : RequestId}

/-! ### The server -/

/-- The cluster manager answers, and the deadline does not pass. -/
def answering (response : ManagementResponse Answer) : Surroundings Answer := { response := some response, expires := none }

/-- The frame the server sends back. -/
def replyMessage (answers : Bincode.Serde Answer) (requestId : Option RequestId) (response : ManagementResponse Answer) :
    ZeroCopyMessage :=
  { msgType := .response, requestId, payload := response.encode answers.serialize }

/-- A sink that has room for the reply takes its frame. -/
theorem sendManagementResponse_of_room {requestId : Option RequestId} (hflushed : stream.send.flushed = .ok ())
    (hroom : (frame (replyMessage answers requestId response)).length ≤ stream.send.room) :
    sendManagementResponse answers.serialize (answering response) response requestId stream =
      (.ok (), { stream with send := Sink.took stream.send (frame (replyMessage answers requestId response)) }) := by
  have hwrite : (writeMessageZeroCopy (replyMessage answers requestId response)).mapErr Interrupt.failed stream.send =
      (.ok (), Sink.took stream.send (frame (replyMessage answers requestId response))) :=
    Action.mapErr_of_ok ((writeMessageZeroCopy_emits _).1 stream.send hflushed hroom)
  rw [replyMessage] at hwrite
  simp only [sendManagementResponse, answering, ManagementStream.onSend, Action.onPart, hwrite, replyMessage]

theorem within_reading_of_ok {header : MessageHeader} {payload : Bytes} {recv : ByteStream}
    (hread : readMessageZeroCopy stream.recv = (.ok (header, payload), recv)) :
    within ((answering response).expires = some .reading) (ManagementStream.onRecv readMessageZeroCopy) stream =
      (.ok (header, payload), { stream with recv }) := by
  have hnot : ¬ (answering response).expires = some .reading := nofun
  rw [within, if_neg hnot]
  refine Action.mapErr_of_ok ?_
  simp only [ManagementStream.onRecv, Action.onPart, hread]

theorem handleManagementRequest_of_request (mgmtMsg : ZeroCopyManagementMessage) {request : ManagementRequest}
    (hrequest : deserializeRequest mgmtMsg.payload = .ok request) (hreceiving : stream.managementTx.receiving = true)
    (hflushed : stream.send.flushed = .ok ())
    (hroom : (frame (replyMessage answers mgmtMsg.requestId response)).length ≤ stream.send.room) :
    ∃ stream', handleManagementRequest answers.serialize (answering response) mgmtMsg permissions stream = (.ok (), stream') ∧
      stream'.send = Sink.took stream.send (frame (replyMessage answers mgmtMsg.requestId response)) := by
  have hdecoded : (Action.lift (deserializeRequest mgmtMsg.payload)).mapErr Interrupt.failed stream = (.ok request, stream) := by
    rw [hrequest]
    rfl
  have hsent : ((ManagementStream.onTx (UnboundedSender.send request)).succeeds stream : Outcome Interrupt Bool × ManagementStream) =
      (.ok true, { stream with managementTx := { stream.managementTx with sent := stream.managementTx.sent ++ [request] } }) := by
    simp [Action.succeeds, ManagementStream.onTx, Action.onPart, UnboundedSender.send, hreceiving]
  refine ⟨{ stream with
    send := Sink.took stream.send (frame (replyMessage answers mgmtMsg.requestId response))
    managementTx := { stream.managementTx with sent := stream.managementTx.sent ++ [request] } }, ?_, rfl⟩
  rw [handleManagementRequest, Action.bind_of_ok hdecoded, Action.bind_of_ok hsent, if_pos rfl,
    Action.bind_of_ok (show within _ _ _ = (.ok (some response), _) from rfl)]
  exact sendManagementResponse_of_room hflushed hroom

theorem handleManagementRequest_of_undecodable {mgmtMsg : ZeroCopyManagementMessage} {error : RaftError}
    (hrequest : deserializeRequest mgmtMsg.payload = .err error) :
    handleManagementRequest answers.serialize (answering response) mgmtMsg permissions stream = (.err (.failed error), stream) := by
  have hdecoded : (Action.lift (deserializeRequest mgmtMsg.payload)).mapErr Interrupt.failed stream =
      (.err (.failed error), stream) := by
    rw [hrequest]
    rfl
  rw [handleManagementRequest, Action.bind_of_err hdecoded]

/-- Whatever is read as a request goes to the handler of requests. -/
theorem serve_of_read {header : MessageHeader} {payload : Bytes} {recv : ByteStream}
    (hread : readMessageZeroCopy stream.recv = (.ok (header, payload), recv)) (htype : header.msgType = .request) :
    serve answers.serialize (answering response) permissions stream =
      handleManagementRequest answers.serialize (answering response) (managementMessage header payload) permissions
        { stream with recv } := by
  obtain ⟨msgType, requestId, payloadLen⟩ := header
  obtain rfl : msgType = .request := htype
  rw [serve, Action.bind_of_ok (within_reading_of_ok hread)]
  rfl

theorem serve_of_unreadable
    {error : RaftError} {recv : ByteStream} (hread : readMessageZeroCopy stream.recv = (.err error, recv)) :
    serve answers.serialize (answering response) permissions stream = (.err (.failed error), { stream with recv }) := by
  have hnot : ¬ (answering response).expires = some .reading := nofun
  have hfailed : within ((answering response).expires = some .reading) (ManagementStream.onRecv readMessageZeroCopy) stream =
      (.err (.failed error), { stream with recv }) := by
    rw [within, if_neg hnot]
    refine Action.mapErr_of_err ?_
    simp only [ManagementStream.onRecv, Action.onPart, hread]
  rw [serve, Action.bind_of_err hfailed]

theorem onSend_flush (hflushed : stream.send.flushed = .ok ()) :
    (ManagementStream.onSend flush.succeeds >>= fun _ => pure () : Action ManagementStream RaftError Unit) stream =
      (.ok (), stream) := by
  have hflush : (ManagementStream.onSend flush.succeeds : Action ManagementStream RaftError Bool) stream = (.ok true, stream) := by
    simp [ManagementStream.onSend, Action.onPart, Action.succeeds, flush, hflushed]
  exact Action.bind_of_ok hflush

/-- A request that is read and decodes is answered with one frame. -/
theorem send_handleManagementStream_of_request {header : MessageHeader} {payload : Bytes} {recv : ByteStream}
    {request : ManagementRequest} (hread : readMessageZeroCopy stream.recv = (.ok (header, payload), recv))
    (htype : header.msgType = .request) (hrequest : deserializeRequest payload = .ok request)
    (hreceiving : stream.managementTx.receiving = true) (hflushed : stream.send.flushed = .ok ())
    (hroom : (frame (replyMessage answers header.requestId response)).length ≤ stream.send.room) :
    (handleManagementStream answers.serialize (answering response) nodeId permissions stream).2.send =
      Sink.took stream.send (frame (replyMessage answers header.requestId response)) := by
  have hhandled : ∃ stream', serve answers.serialize (answering response) permissions stream = (.ok (), stream') ∧
      stream'.send = Sink.took stream.send (frame (replyMessage answers header.requestId response)) := by
    rw [serve_of_read hread htype]
    exact handleManagementRequest_of_request (managementMessage header payload) hrequest hreceiving hflushed hroom
  obtain ⟨stream', hserve, hsend⟩ := hhandled
  have hflush : stream'.send.flushed = .ok () := by
    rw [hsend]
    exact hflushed
  rw [handleManagementStream, hserve, ← hsend]
  exact congrArg (fun ended => ended.2.send) (onSend_flush hflush)

/-- One that cannot be read, or does not decode, is not answered at all. -/
theorem send_handleManagementStream_of_failed {error : RaftError} {stream' : ManagementStream}
    (hserve : serve answers.serialize (answering response) permissions stream = (.err (.failed error), stream')) :
    (handleManagementStream answers.serialize (answering response) nodeId permissions stream).2.send = stream'.send := by
  rw [handleManagementStream, hserve]

/-! ### The client -/

/-- What `send_request_to_node` asks for. -/
def sentRequest (operation : ManagementOperation) : ManagementRequest :=
  { operation, timeout := some requestTimeout, authorization := none }

theorem message_sendRequestToNode {operation : ManagementOperation}
    (h : (ClientRequest.sendRequestToNode operation).message id = .ok message) :
    message.msgType = .request ∧ message.requestId = some id ∧ (sentRequest operation).encode = .ok message.payload := by
  obtain ⟨requestMsg, hrequest, h⟩ := Outcome.bind_eq_ok.mp h
  obtain ⟨payload, hpayload, hrequest⟩ := Outcome.bind_eq_ok.mp hrequest
  obtain ⟨totalSize, _, hrequest⟩ := Outcome.bind_eq_ok.mp hrequest
  obtain rfl := Outcome.ok.inj hrequest
  obtain rfl := Outcome.ok.inj h
  refine ⟨rfl, rfl, ?_⟩
  rw [serializeRequest] at hpayload
  split at hpayload
  · next encoded hencoded =>
      obtain rfl := Outcome.ok.inj hpayload
      exact hencoded
  · exact nomatch hpayload

theorem message_pingNode (h : ClientRequest.pingNode.message id = .ok message) :
    message = { msgType := .request, requestId := some id, payload := [] } := by
  obtain ⟨pingMsg, hping, h⟩ := Outcome.bind_eq_ok.mp h
  obtain ⟨totalSize, _, hping⟩ := Outcome.bind_eq_ok.mp hping
  obtain rfl := Outcome.ok.inj hping
  obtain rfl := Outcome.ok.inj h
  rfl

theorem message_header {request : ClientRequest} (h : request.message id = .ok message) :
    message.msgType = .request ∧ message.requestId = some id := by
  cases request with
  | sendRequestToNode operation => exact ⟨(message_sendRequestToNode h).1, (message_sendRequestToNode h).2.1⟩
  | pingNode => rw [message_pingNode h]; exact ⟨rfl, rfl⟩

/-- What bincode promises of the answers: each is decoded from what it is encoded to, which starts with the index of
one of their variants. -/
def AnswersRoundTrip (answers : Bincode.Serde Answer) : Prop :=
  ∀ data, answers.RoundTrips data ∧
    ∃ (variant : UInt32) (rest : Bytes), variant.toNat < 11 ∧ answers.serialize data = u32ToLeBytes variant ++ rest

theorem deserializeResponse_encode (hanswers : AnswersRoundTrip answers) (response : ManagementResponse Answer) :
    deserializeResponse answers (response.encode answers.serialize) = .ok response := by
  have hdecode : ManagementResponse.decode answers (response.encode answers.serialize) = .ok response := by
    cases response with
    | answer data =>
        obtain ⟨hroundTrips, variant, rest, hvariant, hserialized⟩ := hanswers data
        have hread : Bincode.decodeU32 (answers.serialize data) = .ok (variant, rest) := by
          rw [hserialized, Bincode.decodeU32_append]
        rw [ManagementResponse.decode, ManagementResponse.encode, hread, Bincode.ok_bind]
        dsimp only
        split
        · omega
        · omega
        · exact Bincode.bind_eq_ok.mpr ⟨data, hroundTrips, rfl⟩
    | success => rfl
    | error message =>
        have hmessage := Bincode.decodeString_append message []
        rw [List.append_nil] at hmessage
        rw [ManagementResponse.decode, ManagementResponse.encode, Bincode.decodeU32_append, Bincode.ok_bind]
        exact Bincode.bind_eq_ok.mpr ⟨_, hmessage, rfl⟩
  rw [deserializeResponse, hdecode]

/-- What a call makes of the reply: the response, or only that there was one. -/
def ClientRequest.reply (response : ManagementResponse Answer) : ClientRequest → Option (ManagementResponse Answer)
  | .sendRequestToNode _ => some response
  | .pingNode => none

theorem readReply_of_read {request : ClientRequest} {header : MessageHeader} {payload : Bytes} {bytes rest : ByteStream}
    (hread : readMessageZeroCopy bytes = (.ok (header, payload), rest))
    (hresponse : deserializeResponse answers payload = .ok response) :
    request.readReply answers bytes = (.ok (request.reply response), rest) := by
  cases request with
  | sendRequestToNode operation =>
      rw [ClientRequest.readReply, Action.bind_of_ok hread]
      dsimp only
      rw [hresponse]
      rfl
  | pingNode =>
      rw [ClientRequest.readReply, Action.bind_of_ok hread]
      rfl

/-- An empty stream holds no message. -/
theorem readMessageZeroCopy_nil (failure : String) :
    readMessageZeroCopy ⟨[], failure⟩ = (.err (.internal s!"Failed to read header length: {failure}"), ⟨[], failure⟩) := by
  have hread : (readExact 4).mapErr (fun e => RaftError.internal s!"Failed to read header length: {e}") ⟨[], failure⟩ =
      (.err (.internal s!"Failed to read header length: {failure}"), ⟨[], failure⟩) := rfl
  rw [readMessageZeroCopy, Action.bind_of_err hread]

/-! ### Exchanges -/

/-- The message was written by the client and arrives; the server's side of the stream is open, has room for the
reply, and the cluster manager is there. -/
structure Delivered (message reply : ZeroCopyMessage) (stream : ManagementStream) : Prop where
  sent : ∃ sink sink' : Sink, sink.written = [] ∧ writeMessageZeroCopy message sink = (.ok (), sink') ∧
    stream.recv.unread = sink'.written
  written : stream.send.written = []
  flushed : stream.send.flushed = .ok ()
  room : (frame reply).length ≤ stream.send.room
  receiving : stream.managementTx.receiving = true

/-- The server sends back one frame, a response with the id of the request, and the client takes it for the reply. -/
def Exchanged (answers : Bincode.Serde Answer) (handler : ManagementProtocolHandler) (id : RequestId) (request : ClientRequest)
    (message : ZeroCopyMessage) (response : ManagementResponse Answer) : Prop :=
  ∀ stream, Delivered message (replyMessage answers (some id) response) stream → ∀ failure,
    let written := (handleManagementStream answers.serialize (answering response) handler.nodeId handler.permissions
      stream).2.send.written
    (∃ payload, readMessageZeroCopy ⟨written, failure⟩ =
      (.ok (⟨.response, some id, UInt32.ofNat payload.length⟩, payload), ⟨[], failure⟩)) ∧
    ∃ rest, request.readReply answers ⟨written, failure⟩ = (.ok (request.reply response), rest)

theorem Delivered.unread {reply : ZeroCopyMessage} (h : Delivered message reply stream) : stream.recv.unread = frame message := by
  obtain ⟨sink, sink', hempty, hwrite, hunread⟩ := h.sent
  rw [hunread, (writeMessageZeroCopy_emits message).2 sink sink' hwrite, Sink.took, hempty, List.nil_append]

/-- Some stream is as it should be. -/
theorem exists_delivered (message reply : ZeroCopyMessage) : ∃ stream, Delivered message reply stream := by
  let sink (room : Nat) : Sink := { written := [], room, failure := "", flushed := .ok () }
  refine ⟨{ send := sink (frame reply).length, recv := ⟨frame message, ""⟩, managementTx := { receiving := true, sent := [] } },
    ⟨sink (frame message).length, Sink.took (sink (frame message).length) (frame message), rfl, ?_, rfl⟩, rfl, rfl, Nat.le_refl _,
    rfl⟩
  exact (writeMessageZeroCopy_emits message).1 _ rfl (Nat.le_refl _)

theorem Delivered.recv_eq {reply : ZeroCopyMessage} (h : Delivered message reply stream) :
    stream.recv = ⟨frame message ++ [], stream.recv.failure⟩ := by
  rw [List.append_nil, ← h.unread]

/-- The payload that is read: as much as the header, whose length has 32 bits, says there is. -/
def readPayload (message : ZeroCopyMessage) : Bytes := message.payload.take message.header.payloadLen.toNat

/-- A delivered request is answered if its length is one a reader takes and what is read of it decodes. -/
theorem written_of_request
    {request : ManagementRequest} (hdelivered : Delivered message (replyMessage answers (some id) response) stream)
    (htype : message.msgType = .request) (hid : message.requestId = some id)
    (hsize : message.header.payloadLen.toNat ≤ maxPayloadSize)
    (hrequest : deserializeRequest (readPayload message) = .ok request) :
    (handleManagementStream answers.serialize (answering response) nodeId permissions stream).2.send.written =
      frame (replyMessage answers (some id) response) := by
  have hread := readMessageZeroCopy_of_le hsize [] stream.recv.failure
  rw [← hdelivered.recv_eq] at hread
  have hheader : message.header.requestId = some id := hid
  have hroom := hdelivered.room
  rw [← hheader] at hroom ⊢
  rw [send_handleManagementStream_of_request hread htype hrequest hdelivered.receiving hdelivered.flushed hroom, Sink.took,
    hdelivered.written, List.nil_append]

theorem written_of_too_large {reply : ZeroCopyMessage} (hdelivered : Delivered message reply stream)
    (hsize : maxPayloadSize < message.header.payloadLen.toNat) :
    (handleManagementStream answers.serialize (answering response) nodeId permissions stream).2.send.written = [] := by
  obtain ⟨error, recv, hread⟩ := readMessageZeroCopy_too_large hsize [] stream.recv.failure
  rw [← hdelivered.recv_eq] at hread
  rw [send_handleManagementStream_of_failed (serve_of_unreadable hread), hdelivered.written]

theorem written_of_undecodable {reply : ZeroCopyMessage} {error : RaftError} (hdelivered : Delivered message reply stream)
    (htype : message.msgType = .request) (hsize : message.header.payloadLen.toNat ≤ maxPayloadSize)
    (hrequest : deserializeRequest (readPayload message) = .err error) :
    (handleManagementStream answers.serialize (answering response) nodeId permissions stream).2.send.written = [] := by
  have hread := readMessageZeroCopy_of_le hsize [] stream.recv.failure
  rw [← hdelivered.recv_eq] at hread
  rw [send_handleManagementStream_of_failed
    ((serve_of_read hread htype).trans (handleManagementRequest_of_undecodable hrequest)), hdelivered.written]

/-! ### Every request -/

def ClientRequest.FitsVec : ClientRequest → Prop
  | .sendRequestToNode operation => operation.FitsVec
  | .pingNode => True

theorem deserializeRequest_of_decode_ne_ok {payload : Bytes} (h : ∀ result, ManagementRequest.decode payload ≠ .ok result) :
    ∃ error, deserializeRequest payload = .err error := by
  rw [deserializeRequest]
  cases hdecode : ManagementRequest.decode payload with
  | ok result => exact absurd hdecode (h result)
  | error e => exact ⟨_, rfl⟩

/-- What the server reads of an operation's message decodes if the message is not too long, and then to the request. -/
theorem deserializeRequest_readPayload {operation : ManagementOperation} (hfits : operation.FitsVec)
    (hpayload : (sentRequest operation).encode = .ok message.payload) (hsize : message.payload.length ≤ maxPayloadSize) :
    message.header.payloadLen.toNat ≤ maxPayloadSize ∧
    deserializeRequest (readPayload message) = .ok (sentRequest operation) := by
  have hlength : message.header.payloadLen.toNat = message.payload.length :=
    UInt32.toNat_ofNat_of_lt' (Nat.lt_of_le_of_lt hsize (by decide))
  have hdecode : ManagementRequest.decode message.payload = .ok (sentRequest operation, []) :=
    ManagementRequest.decode_encode hfits hpayload
  refine ⟨hlength ▸ hsize, ?_⟩
  rw [readPayload, hlength, List.take_length, deserializeRequest, hdecode]

/-- A message that is too long is not taken, or is cut short by its length, and then does not decode. -/
theorem written_of_too_long {operation : ManagementOperation} {reply : ZeroCopyMessage} (hfits : operation.FitsVec)
    (hpayload : (sentRequest operation).encode = .ok message.payload) (hsize : maxPayloadSize < message.payload.length)
    (htype : message.msgType = .request) (hdelivered : Delivered message reply stream) :
    (handleManagementStream answers.serialize (answering response) nodeId permissions stream).2.send.written = [] := by
  by_cases hlength : message.header.payloadLen.toNat ≤ maxPayloadSize
  · have hdecode : ManagementRequest.decode (readPayload message ++ message.payload.drop message.header.payloadLen.toNat) =
        .ok (sentRequest operation, []) := by
      rw [readPayload, List.take_append_drop]
      exact ManagementRequest.decode_encode hfits hpayload
    have hmore : message.payload.drop message.header.payloadLen.toNat ≠ [] := by
      intro hnone
      have hle := List.drop_eq_nil_iff.mp hnone
      omega
    obtain ⟨error, herror⟩ := deserializeRequest_of_decode_ne_ok (extends_request.part_ne_ok hdecode hmore)
    exact written_of_undecodable hdelivered htype hlength herror
  · exact written_of_too_large hdelivered (Nat.not_le.mp hlength)

/-- A ping is never answered. -/
theorem written_of_pingNode {reply : ZeroCopyMessage} (hmessage : ClientRequest.pingNode.message id = .ok message)
    (hdelivered : Delivered message reply stream) :
    (handleManagementStream answers.serialize (answering response) nodeId permissions stream).2.send.written = [] := by
  obtain rfl := message_pingNode hmessage
  exact written_of_undecodable hdelivered rfl (Nat.zero_le _)
    (show deserializeRequest [] = .err (.internal s!"Failed to deserialize payload: {Bincode.unexpectedEof}") from rfl)

/-- A live server whose cluster manager answers sends the client its reply exactly if the client did not ping, and request
and response have the sizes a reader takes. -/
theorem exchanged_iff (hanswers : AnswersRoundTrip answers) (handler : ManagementProtocolHandler) {request : ClientRequest}
    (hfits : request.FitsVec) (hmessage : request.message id = .ok message) (response : ManagementResponse Answer) :
    Exchanged answers handler id request message response ↔
      request ≠ .pingNode ∧ message.payload.length ≤ maxPayloadSize ∧
        (response.encode answers.serialize).length ≤ maxPayloadSize := by
  obtain ⟨htype, hid⟩ := message_header hmessage
  apply Iff.intro
  · intro h
    obtain ⟨stream, hdelivered⟩ := exists_delivered message (replyMessage answers (some id) response)
    obtain ⟨⟨payload, hread⟩, _⟩ := h stream hdelivered ""
    have hwritten : (handleManagementStream answers.serialize (answering response) handler.nodeId handler.permissions
        stream).2.send.written ≠ [] := by
      intro hnone
      rw [hnone, readMessageZeroCopy_nil] at hread
      exact nomatch hread
    cases request with
    | pingNode => exact absurd (written_of_pingNode hmessage hdelivered) hwritten
    | sendRequestToNode operation =>
        have hpayload := (message_sendRequestToNode hmessage).2.2
        have hsize : message.payload.length ≤ maxPayloadSize := Nat.not_lt.mp fun hlong =>
          hwritten (written_of_too_long hfits hpayload hlong htype hdelivered)
        obtain ⟨hlength, hrequest⟩ := deserializeRequest_readPayload hfits hpayload hsize
        rw [written_of_request hdelivered htype hid hlength hrequest] at hread
        exact ⟨nofun, hsize, length_le_of_read_all hread⟩
  · intro h
    obtain ⟨hnot, hsize, hresponse⟩ := h
    intro stream hdelivered failure
    cases request with
    | pingNode => exact absurd rfl hnot
    | sendRequestToNode operation =>
        obtain ⟨hlength, hrequest⟩ := deserializeRequest_readPayload hfits (message_sendRequestToNode hmessage).2.2 hsize
        have hread := readMessageZeroCopy_frame (show (replyMessage answers (some id) response).payload.length ≤ maxPayloadSize
          from hresponse) [] failure
        rw [List.append_nil] at hread
        dsimp only
        rw [written_of_request hdelivered htype hid hlength hrequest]
        exact ⟨⟨_, hread⟩, _, readReply_of_read hread (deserializeResponse_encode hanswers response)⟩

/-- The answer to an operation on a member. -/
structure MemberOperationResponse where
  success : Bool
  memberId : Option UInt64
  error : Option Str

/-- A manager that only answers operations on members, which are the second variant. -/
def memberAnswers : Bincode.Serde MemberOperationResponse where
  serialize data :=
    u32ToLeBytes 1 ++ ((if data.success then 1 else 0) ::
      (Bincode.encodeOption u64ToLeBytes data.memberId ++ Bincode.encodeOption Bincode.encodeString data.error))
  deserialize bytes := do
    let (variant, rest) ← Bincode.decodeU32 bytes
    match variant.toNat, rest with
    | 1, success :: rest => do
        let (memberId, rest) ← Bincode.decodeOption Bincode.decodeU64 rest
        let (error, _) ← Bincode.decodeOption Bincode.decodeString rest
        if success = 1 then return { success := true, memberId, error }
        else if success = 0 then return { success := false, memberId, error }
        else .error s!"invalid u8 while decoding bool, expected 0 or 1, found {success}"
    | _, _ => .error Bincode.unexpectedEof

theorem memberAnswers_roundTrip : AnswersRoundTrip memberAnswers := by
  intro data
  refine ⟨?_, 1, _, by decide, rfl⟩
  obtain ⟨success, memberId, error⟩ := data
  have hmember := decodeOptionU64_append memberId (Bincode.encodeOption Bincode.encodeString error)
  have herror := Bincode.decodeOption_append [] error fun inner _ => Bincode.decodeString_append inner []
  rw [List.append_nil] at herror
  cases success <;>
    simp [Bincode.Serde.RoundTrips, memberAnswers, Bincode.decodeU32_append, hmember, herror]

def sampleId : RequestId := ⟨List.replicate 16 7, rfl⟩

/-- The request to remove member 4. -/
def removeMember : ZeroCopyMessage :=
  { msgType := .request
    requestId := some sampleId
    payload := [2, 0, 0, 0, 4, 0, 0, 0, 0, 0, 0, 0, 1, 30, 0, 0, 0, 0, 0, 0, 0, 0, 0, 0, 0, 0] }

theorem exchanged_iff_removeMember :
    Exchanged memberAnswers (.new 1) sampleId (.sendRequestToNode (.removeMember 4)) removeMember
      (.answer { success := true, memberId := some 4, error := none }) := by
  have hfits : ClientRequest.FitsVec (.sendRequestToNode (.removeMember 4)) := trivial
  exact (exchanged_iff memberAnswers_roundTrip (.new 1) hfits rfl _).mpr ⟨nofun, by decide, by decide⟩

/-- A ping is not answered. -/
theorem not_exchanged :
    ¬ ∀ (request : ClientRequest) (message : ZeroCopyMessage), request.FitsVec → request.message sampleId = .ok message →
      Exchanged memberAnswers (.new 1) sampleId request message .success := by
  intro h
  have hping := h .pingNode { msgType := .request, requestId := some sampleId, payload := [] } trivial rfl
  obtain ⟨stream, hdelivered⟩ := exists_delivered _ (replyMessage memberAnswers (some sampleId) .success)
  obtain ⟨⟨payload, hread⟩, _⟩ := hping stream hdelivered ""
  rw [written_of_pingNode rfl hdelivered, readMessageZeroCopy_nil] at hread
  exact nomatch hread

end IrohRaft.Management
