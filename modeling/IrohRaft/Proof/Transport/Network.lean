import IrohRaft.Proof.Transport.Delivery
import IrohRaft.Proof.Transport.Limits

/-!
# Messages over broken streams

A stream takes as much of a request as it has room for, and any part of that from the front arrives at the peer. The peer
hands a message to its raft manager if all of the request arrives, and then exactly the message that was sent; of a part of
it, nothing. So over any number of streams, each broken anywhere or nowhere, the manager gets the messages whose requests
arrived, once for each stream, until it stops receiving.
-/

namespace IrohRaft

open Rust RaftProtocolHandler Management

/-! ### Part of a frame -/

/-- Nothing is read of a frame whose end is missing. -/
theorem not_read_of_prefix {message : ZeroCopyMessage} (hsize : message.payload.length ≤ maxPayloadSize) {bytes : Bytes}
    (hfront : bytes <+: frame message) (hshort : bytes.length < (frame message).length) (failure : String) :
    ∃ error rest, readMessageZeroCopy ⟨bytes, failure⟩ = (.err error, rest) := by
  rcases hread : readMessageZeroCopy ⟨bytes, failure⟩ with ⟨⟨header, payload⟩ | error | _, rest⟩
  · obtain ⟨headerLenBytes, headerBuf, hconsumed⟩ := exists_consumed hread
    have hbytes : bytes = headerLenBytes ++ (headerBuf ++ (payload ++ rest.unread)) :=
      congrArg ByteStream.unread hconsumed.consumed
    obtain ⟨missing, hframe⟩ := hfront
    rw [hbytes, frame, List.append_assoc] at hframe
    obtain ⟨hheaderLen, hframe⟩ := List.append_inj hframe (by rw [hconsumed.headerLen_length, u32ToBeBytes_length])
    have hlength : headerBuf.length = message.header.encode.length := by
      rw [hconsumed.headerBuf_length, hheaderLen, u32FromBeBytes_u32ToBeBytes, toNat_header_encode_length]
    rw [List.append_assoc] at hframe
    obtain ⟨rfl, hframe⟩ := List.append_inj hframe hlength
    obtain rfl := Outcome.ok.inj (hconsumed.header_eq.symm.trans (deserializeHeader_encode _))
    have hpayload : payload.length = message.payload.length := by
      rw [hconsumed.payload_length]
      exact UInt32.toNat_ofNat_of_lt' (Nat.lt_of_le_of_lt hsize (by decide))
    have hwhole : (frame message).length ≤ bytes.length := by
      rw [hbytes, frame, hheaderLen]
      simp only [List.length_append, hpayload]
      omega
    omega
  · exact ⟨error, rest, rfl⟩
  · exact absurd (congrArg Prod.fst hread) (readMessageZeroCopy_safe _)

/-! ### One stream -/

section Stream

variable {prost : ProstCodec Message} {requestId : RequestId} {message : Message} {stream : BiStream} {peer : RaftStream}

/-- Whether the computation succeeds does not change what it leaves. -/
theorem state_succeeds {σ ε ε' α : Type} (x : Action σ ε α) (state : σ) :
    ((x.succeeds : Action σ ε' Bool) state).2 = (x state).2 := by
  rcases hx : x state with ⟨value | error | _, left⟩ <;> simp [Action.succeeds, hx]

/-- What the sender's half takes of a message. -/
theorem written_writeMessageZeroCopy (request : ZeroCopyMessage) (sink : Sink) :
    (writeMessageZeroCopy request sink).2.written = sink.written ++ (frame request).take sink.room := by
  have hsame : (writeMessageZeroCopy request sink).2 = ((writeAll (frame request) >>= fun _ => flush) sink).2 :=
    congrArg (fun x => (x sink).2) (quiet_writeMessageZeroCopy request)
  rw [hsame]
  by_cases hroom : (frame request).length ≤ sink.room
  · have hwrite : writeAll (frame request) sink = (.ok (), Sink.took sink (frame request)) := if_pos hroom
    rw [Action.bind_of_ok hwrite, flush, List.take_of_length_le hroom]
    rfl
  · have hwrite : writeAll (frame request) sink =
        (.err sink.failure, { sink with written := sink.written ++ (frame request).take sink.room, room := 0 }) := if_neg hroom
    rw [Action.bind_of_err hwrite]

theorem sized_of_le {request : ZeroCopyMessage} (h : request.payload.length ≤ maxPayloadSize) : Sized request := by
  have hmax : 4 + 32 + maxPayloadSize < 2 ^ 32 := by decide
  rw [Sized]
  omega

/-- Neither the end of the stream nor the response has a part in what is written. -/
theorem send_after_write (write : Action Sink RaftError Unit) (failed : String → RaftError) :
    ((do
      BiStream.onSend write
      finish.mapErr failed
      let _ ← (BiStream.onRecv readMessage).succeeds
      return () : Action BiStream RaftError Unit) stream).2.send = (write stream.send).2 := by
  have hkeeps (sink : Sink) {ε α : Type} (x : Action BiStream ε α) (h : ∀ start, (x start).2.send = start.send) :
      Action.Triple (fun after : BiStream => after.send = sink) x (fun _ after => after.send = sink)
        (fun after => after.send = sink) := Action.Triple.of_final fun start hstart => (h start).trans hstart
  have hwrite : Action.Triple (· = stream) (BiStream.onSend write : Action BiStream RaftError Unit)
      (fun _ after => after.send = (write stream.send).2) (fun after => after.send = (write stream.send).2) :=
    Action.Triple.of_final fun start hstart => by rw [hstart]; rfl
  have hfinish := hkeeps (write stream.send).2 (finish.mapErr failed) fun _ => rfl
  have hread := hkeeps (write stream.send).2 ((BiStream.onRecv readMessage).succeeds : Action BiStream RaftError Bool)
    fun start => by rw [state_succeeds]; rfl
  exact (hwrite.bind fun _ => hfinish.bind fun _ => hread.bind fun _ => Action.Triple.pure fun _ => id).final rfl

theorem written_callPeer (hsize : (requestMessage prost requestId message).payload.length ≤ maxPayloadSize) :
    (callPeer prost requestId message stream).2.send.written =
      stream.send.written ++ (frame (requestMessage prost requestId message)).take stream.send.room := by
  rw [callPeer, send_after_write, writeMessage_of_sized (sized_of_le hsize)]
  exact written_writeMessageZeroCopy _ _

/-- A peer that a part of a request arrives at hands over nothing. -/
theorem raftRx_of_part (hsize : (requestMessage prost requestId message).payload.length ≤ maxPayloadSize)
    (hfront : peer.recv.unread <+: frame (requestMessage prost requestId message))
    (hshort : peer.recv.unread.length < (frame (requestMessage prost requestId message)).length) :
    (handleStream prost peer).2.raftRx = peer.raftRx := by
  obtain ⟨error, rest, hread⟩ := not_read_of_prefix hsize hfront hshort peer.recv.failure
  have hfails : RaftStream.onRecv readZeroCopyMessage peer = (.err error, { peer with recv := rest }) := by
    rw [RaftStream.onRecv, Action.onPart, readZeroCopyMessage, Action.bind_of_err hread]
  rw [handleStream, Action.bind_of_err hfails]

/-- The response is flushed on the other half of the stream. -/
theorem raftRx_of_handled {handle : Action RaftStream RaftError Unit} {rx : UnboundedSender (UInt64 × Message)}
    (h : (handle peer).2.raftRx = rx) :
    ((do
      handle
      let _ ← (RaftStream.onSend flush).succeeds
      return () : Action RaftStream RaftError Unit) peer).2.raftRx = rx := by
  have hhandle : Action.Triple (· = peer) handle (fun _ after => after.raftRx = rx) (fun after => after.raftRx = rx) :=
    Action.Triple.of_final fun start hstart => by rw [hstart, h]
  have hflush : Action.Triple (fun after : RaftStream => after.raftRx = rx)
      ((RaftStream.onSend flush).succeeds : Action RaftStream RaftError Bool) (fun _ after => after.raftRx = rx)
      (fun after => after.raftRx = rx) :=
    Action.Triple.of_final fun start hstart => by rw [state_succeeds]; exact hstart
  exact (hhandle.bind fun _ => hflush.bind fun _ => Action.Triple.pure fun _ => id).final rfl

/-- Whatever comes of the response, a peer that a request arrives at hands the message over. -/
theorem raftRx_of_whole (hsize : (requestMessage prost requestId message).payload.length ≤ maxPayloadSize)
    (hrecv : peer.recv.unread = frame (requestMessage prost requestId message)) :
    (handleStream prost peer).2.raftRx = handedOver message peer.raftRx := by
  have hread : RaftStream.onRecv readZeroCopyMessage peer =
      (.ok (requestMessage prost requestId message), { peer with recv := { peer.recv with unread := [] } }) := by
    refine Action.onPart_eq_ok.mpr ⟨_, ?_, rfl⟩
    have hframe := readMessageZeroCopy_frame hsize [] peer.recv.failure
    rw [List.append_nil, ← hrecv] at hframe
    rw [readZeroCopyMessage, Action.bind_of_ok hframe]
    rfl
  have hpayload : (raftRequest prost message).payload.length < 2 ^ 64 := by
    have hle := length_raftRequest_payload prost requestId message
    have hmax : maxPayloadSize < 2 ^ 64 := by decide
    omega
  have hrequest : deserializePayload RpcRequest.decode (requestMessage prost requestId message).payload =
      .ok (raftRequest prost message) := deserializePayload_of_ok (RpcRequest.decode_encode hpayload)
  have hresponse : ZeroCopyMessage.newBorrowed .response (some requestId) (raftResponse peer.raftRx.receiving).encode =
      .ok (responseMessage requestId peer.raftRx.receiving) := newBorrowed_eq_ok_iff.mpr ⟨sized_responseMessage _, rfl⟩
  rw [handleStream, Action.bind_of_ok hread,
    show processMessageZeroCopy prost (requestMessage prost requestId message) =
      handleRpcRequestZeroCopy prost (requestMessage prost requestId message) from rfl]
  apply raftRx_of_handled
  rw [handleRpcRequestZeroCopy, hrequest, Action.bind_of_ok (show Action.lift _ _ = (.ok _, _) from rfl),
    Action.bind_of_ok (respond_raftRequest _), show (requestMessage prost requestId message).requestId = some requestId from rfl,
    hresponse, Action.bind_of_ok (show Action.lift _ _ = (.ok _, _) from rfl), RaftStream.onSend, Action.onPart]

end Stream

/-! ### Many streams -/

/-- One sending of a message: the stream that it is sent on, how many of the bytes written there arrive, and the half that the
peer responds on. -/
structure Transmission where
  requestId : RequestId
  message : Message
  stream : BiStream
  arriving : Nat
  failure : String
  response : Sink

inductive NetworkEvent where
  | transmit (transmission : Transmission)
  /-- The raft manager stops receiving. -/
  | close

namespace Transmission

variable (prost : ProstCodec Message) (transmission : Transmission)

def request : ZeroCopyMessage := requestMessage prost transmission.requestId transmission.message

/-- What the sender is told. -/
def report : Outcome RaftError Unit := (callPeer prost transmission.requestId transmission.message transmission.stream).1

/-- The peer handles what arrives. -/
def arrive (raftRx : UnboundedSender (UInt64 × Message)) : UnboundedSender (UInt64 × Message) :=
  let sent := (callPeer prost transmission.requestId transmission.message transmission.stream).2.send.written
  (handleStream prost
    { send := transmission.response, recv := ⟨sent.take transmission.arriving, transmission.failure⟩, raftRx }).2.raftRx

/-- A stream of its own, and a request that the peer takes. -/
structure Fresh : Prop where
  written : transmission.stream.send.written = []
  size : (transmission.request prost).payload.length ≤ maxPayloadSize

/-- The sender's half has taken the whole request, and all of it arrives. -/
def Whole : Prop :=
  (frame (transmission.request prost)).length ≤ transmission.stream.send.room ∧
    (frame (transmission.request prost)).length ≤ transmission.arriving

instance : Decidable (transmission.Whole prost) := inferInstanceAs (Decidable (_ ∧ _))

end Transmission

def NetworkEvent.step (prost : ProstCodec Message) (raftRx : UnboundedSender (UInt64 × Message)) :
    NetworkEvent → UnboundedSender (UInt64 × Message)
  | .transmit transmission => transmission.arrive prost raftRx
  | .close => { raftRx with receiving := false }

/-- The messages whose requests arrive while the manager receives. -/
def arrived (prost : ProstCodec Message) : Bool → List NetworkEvent → List (UInt64 × Message)
  | true, .transmit transmission :: rest =>
      if transmission.Whole prost then (transmission.message.fromId, transmission.message) :: arrived prost true rest
      else arrived prost true rest
  | true, .close :: _ | false, _ :: _ | _, [] => []

section Network

variable {prost : ProstCodec Message} {transmission : Transmission} {raftRx : UnboundedSender (UInt64 × Message)}

theorem arrive_eq (h : transmission.Fresh prost) :
    transmission.arrive prost raftRx =
      if transmission.Whole prost then handedOver transmission.message raftRx else raftRx := by
  have hwritten : (callPeer prost transmission.requestId transmission.message transmission.stream).2.send.written =
      (frame (transmission.request prost)).take transmission.stream.send.room := by
    rw [written_callPeer h.size, h.written, List.nil_append, Transmission.request]
  rw [Transmission.arrive]
  by_cases hwhole : transmission.Whole prost
  · rw [if_pos hwhole]
    refine raftRx_of_whole h.size ?_
    show List.take _ _ = _
    rw [hwritten, List.take_of_length_le hwhole.1, List.take_of_length_le hwhole.2, Transmission.request]
  · rw [if_neg hwhole]
    refine raftRx_of_part h.size ?_ ?_
    · show List.take _ _ <+: _
      rw [hwritten]
      exact (List.take_prefix _ _).trans (List.take_prefix _ _)
    · show (List.take _ _).length < _
      rw [hwritten, List.length_take, List.length_take]
      simp only [Transmission.Whole, not_and_or, Nat.not_le] at hwhole
      simp only [Transmission.request] at hwhole ⊢
      omega

theorem arrived_false (events : List NetworkEvent) : arrived prost false events = [] := by
  cases events <;> simp [arrived]

/-- What is reported as sent has been written to its end. -/
theorem room_of_report (h : transmission.Fresh prost) (hreport : transmission.report prost = .ok ()) :
    (frame (transmission.request prost)).length ≤ transmission.stream.send.room := by
  by_contra hroom
  have hrejected : (transmission.report prost).Rejected :=
    rejected_callPeer.mpr ⟨sized_of_le h.size, .inl (Nat.not_le.mp hroom)⟩
  rw [hreport] at hrejected
  exact Outcome.not_rejected_ok _ hrejected

/-- **Delivery over broken streams.** The manager gets exactly the messages whose requests arrive, in order and once for each
stream; a sending that is reported to have succeeded is one of these if what it wrote arrives, and one that is reported to
have failed only if its end could not be flushed or closed. -/
theorem network_delivers (prost : ProstCodec Message) (raftRx : UnboundedSender (UInt64 × Message)) {events : List NetworkEvent}
    (hfresh : ∀ transmission, .transmit transmission ∈ events → transmission.Fresh prost) :
    (Run.final (NetworkEvent.step prost) raftRx events).sent = raftRx.sent ++ arrived prost raftRx.receiving events ∧
      ∀ transmission, .transmit transmission ∈ events →
        (transmission.report prost = .ok () → (frame (transmission.request prost)).length ≤ transmission.arriving →
          transmission.Whole prost) ∧
        (transmission.Whole prost → ((transmission.report prost).Rejected ↔
          transmission.stream.send.flushed.Rejected ∨
            transmission.stream.send.flushed = .ok () ∧ transmission.stream.finished.Rejected)) := by
  refine ⟨?_, fun transmission htransmission => ⟨fun hreport harriving => ?_, fun hwhole => ?_⟩⟩
  · induction events generalizing raftRx with
    | nil => cases hreceiving : raftRx.receiving <;> simp [arrived]
    | cons event rest ih =>
        have hrest := fun raftRx => ih raftRx fun transmission hmem => hfresh transmission (List.mem_cons_of_mem _ hmem)
        rw [Run.final_cons, hrest]
        cases event with
        | close =>
            simp only [NetworkEvent.step, arrived_false]
            cases hreceiving : raftRx.receiving <;> simp [arrived]
        | transmit transmission =>
            rw [NetworkEvent.step, arrive_eq (hfresh transmission List.mem_cons_self)]
            by_cases hwhole : transmission.Whole prost
            · rw [if_pos hwhole, handedOver]
              cases hreceiving : raftRx.receiving <;> simp [arrived, arrived_false, hwhole, hreceiving]
            · rw [if_neg hwhole]
              cases hreceiving : raftRx.receiving <;> simp [arrived, arrived_false, hwhole]
  · exact ⟨room_of_report (hfresh transmission htransmission) hreport, harriving⟩
  · have hsized : Sized (requestMessage prost transmission.requestId transmission.message) :=
      sized_of_le (hfresh transmission htransmission).size
    rw [Transmission.report, rejected_callPeer, Breaks, and_iff_right hsized]
    exact or_iff_right (Nat.not_lt.mpr hwhole.1)

end Network

/-- A heartbeat of which so many bytes arrive. -/
def heartbeatCut (arriving : Nat) : Transmission where
  requestId := lostHeartbeatId
  message := lostHeartbeat
  stream :=
    { send := { written := [], room := 256, failure := "", flushed := .ok () }, finished := .ok (), recv := ⟨[], ""⟩ }
  arriving
  failure := ""
  response := { written := [], room := 0, failure := "", flushed := .ok () }

/-- The peer hears of the second sending. -/
theorem network_delivers_heartbeats :
    (Run.final (NetworkEvent.step prostMessage) ⟨true, []⟩
      [.transmit (heartbeatCut 40), .transmit (heartbeatCut 256), .close, .transmit (heartbeatCut 256)]).sent =
        [(1, lostHeartbeat)] := by
  have hfresh (arriving : Nat) : (heartbeatCut arriving).Fresh prostMessage := by
    have hsize : (requestMessage prostMessage lostHeartbeatId lostHeartbeat).payload.length ≤ maxPayloadSize := by decide
    exact ⟨rfl, hsize⟩
  obtain ⟨hsent, -⟩ := network_delivers prostMessage ⟨true, []⟩ (fun transmission hmem => by
    obtain rfl | rfl | hmem := by simpa using hmem
    · exact hfresh 40
    · exact hfresh 256 : ∀ transmission, .transmit transmission ∈
      [NetworkEvent.transmit (heartbeatCut 40), .transmit (heartbeatCut 256), .close, .transmit (heartbeatCut 256)] →
        transmission.Fresh prostMessage)
  rw [hsent]
  decide

end IrohRaft
