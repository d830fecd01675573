import IrohRaft.Proof.Transport.Streaming

/-!
# Messages round trip

What the writer puts on a stream is a frame, whichever path it takes, and the reader takes a frame
off the front of the stream and leaves the rest. So messages written one after the other are read
back in order.
-/

namespace IrohRaft

open Rust

variable {message : ZeroCopyMessage} {messages : List ZeroCopyMessage}

/-! ### Headers -/

theorem decodeRequestId_append (id : RequestId) (rest : Bytes) :
    MessageHeader.decodeRequestId (id.val ++ rest) = .ok (id, rest) := by
  rw [MessageHeader.decodeRequestId, Bincode.takeBytes_append id.property]
  show (if h : id.val.length = 16 then Except.ok ((⟨id.val, h⟩ : RequestId), rest) else _) = _
  rw [dif_pos id.property]

theorem variants_variantIndex (msgType : MessageType) :
    MessageType.variants[msgType.variantIndex.toNat]? = some msgType := by
  cases msgType <;> rfl

theorem MessageHeader.decode_encode (header : MessageHeader) (rest : Bytes) :
    MessageHeader.decode (header.encode ++ rest) = .ok (header, rest) := by
  have htype := Bincode.decodeVariant_append
    (Bincode.encodeOption Subtype.val header.requestId ++ (u32ToLeBytes header.payloadLen ++ rest))
    (variants_variantIndex header.msgType)
  have hid := Bincode.decodeOption_append (u32ToLeBytes header.payloadLen ++ rest) header.requestId
    (fun id _ => decodeRequestId_append id _)
  rw [encode, List.append_assoc, List.append_assoc, decode]
  simp only [htype, hid, Bincode.decodeU32_append, bind, Except.bind, pure, Except.pure]

theorem deserializeHeader_encode (header : MessageHeader) : deserializeHeader header.encode = .ok header := by
  have hdecode := header.decode_encode []
  rw [List.append_nil] at hdecode
  rw [deserializeHeader, hdecode]

/-- Nine bytes, or twenty-five with a request id. -/
theorem MessageHeader.encode_length (header : MessageHeader) : header.encode.length ≤ maxHeaderSize := by
  obtain ⟨msgType, requestId, payloadLen⟩ := header
  cases requestId with
  | none => simp [encode, Bincode.encodeOption, maxHeaderSize]
  | some id => simp [encode, Bincode.encodeOption, maxHeaderSize, id.property]

theorem toNat_header_encode_length (header : MessageHeader) :
    (UInt32.ofNat header.encode.length).toNat = header.encode.length := by
  have hlength := header.encode_length
  exact UInt32.toNat_ofNat_of_lt' (Nat.lt_of_le_of_lt hlength (by decide))

/-! ### Writing -/

/-- What the sink holds after it took these bytes. -/
def Sink.took (sink : Sink) (bytes : Bytes) : Sink :=
  { sink with written := sink.written ++ bytes, room := sink.room - bytes.length }

/-- A sink with room for them takes these bytes, and a write that succeeds wrote nothing else. -/
def Emits (write : Action Sink RaftError Unit) (bytes : Bytes) : Prop :=
  (∀ sink : Sink, sink.flushed = .ok () → bytes.length ≤ sink.room → write sink = (.ok (), Sink.took sink bytes)) ∧
    ∀ sink sink', write sink = (.ok (), sink') → sink' = Sink.took sink bytes

theorem quiet_writeMessageZeroCopy (message : ZeroCopyMessage) :
    (writeMessageZeroCopy message).quiet = (writeAll (frame message) >>= fun _ => flush).quiet := by
  rw [writeMessageZeroCopy]
  split
  · rw [Action.quiet_bind, Action.quiet_bind, quiet_writeLargeMessageStreaming]
    simp only [Action.quiet_mapErr]
  · rw [Action.quiet_bind, Action.quiet_bind, quiet_writeSingleBuffer]
    simp only [Action.quiet_mapErr]

/-- A message is written where there is room for its frame and the flush succeeds. -/
theorem writeMessageZeroCopy_eq_ok_iff {sink sink' : Sink} :
    writeMessageZeroCopy message sink = (.ok (), sink') ↔
      (frame message).length ≤ sink.room ∧ sink.flushed = .ok () ∧ sink' = Sink.took sink (frame message) := by
  rw [Action.eq_ok_of_quiet_eq (quiet_writeMessageZeroCopy message)]
  by_cases hroom : (frame message).length ≤ sink.room
  · have hwrite : writeAll (frame message) sink = (.ok (), Sink.took sink (frame message)) := if_pos hroom
    rw [Action.bind_of_ok hwrite, flush, Prod.mk.injEq, eq_comm (a := Sink.took sink _)]
    simp only [hroom, true_and, Sink.took]
  · have hwrite : writeAll (frame message) sink = (.err sink.failure, _) := if_neg hroom
    rw [Action.bind_of_err hwrite]
    simp [hroom]

/-- An error means that the frame did not fit, or that the flush failed. -/
theorem rejected_writeMessageZeroCopy {sink : Sink} :
    (writeMessageZeroCopy message sink).1.Rejected ↔ sink.room < (frame message).length ∨ sink.flushed.Rejected := by
  rw [Action.rejected_of_quiet_eq (quiet_writeMessageZeroCopy message)]
  by_cases hroom : (frame message).length ≤ sink.room
  · have hwrite : writeAll (frame message) sink = (.ok (), Sink.took sink (frame message)) := if_pos hroom
    rw [Action.bind_of_ok hwrite, flush, Sink.took]
    simp [hroom]
  · have hwrite : writeAll (frame message) sink = (.err sink.failure, _) := if_neg hroom
    rw [Action.bind_of_err hwrite]
    simp [Nat.not_le.mp hroom]

theorem writeMessageZeroCopy_emits (message : ZeroCopyMessage) : Emits (writeMessageZeroCopy message) (frame message) :=
  ⟨fun _ hflushed hroom => writeMessageZeroCopy_eq_ok_iff.mpr ⟨hroom, hflushed, rfl⟩,
    fun _ _ hok => (writeMessageZeroCopy_eq_ok_iff.mp hok).2.2⟩

theorem writeMessages_emits (messages : List ZeroCopyMessage) : Emits (writeMessages messages) (messages.flatMap frame) := by
  have htook : ∀ (sink : Sink) (first second : Bytes),
      Sink.took (Sink.took sink first) second = Sink.took sink (first ++ second) := by
    intro sink first second
    simp only [Sink.took, List.append_assoc, List.length_append, Nat.sub_add_eq]
  induction messages with
  | nil =>
      have hempty : ∀ sink : Sink, Sink.took sink [] = sink := by
        intro sink
        rw [Sink.took, List.append_nil]
        rfl
      refine ⟨fun sink _ _ => ?_, fun sink sink' hok => ?_⟩
      · rw [List.flatMap_nil, hempty]
        rfl
      · rw [List.flatMap_nil, hempty]
        exact (Prod.mk.inj hok).2.symm
  | cons message rest ih =>
      obtain ⟨hwrites, hwrote⟩ := writeMessageZeroCopy_emits message
      refine ⟨?_, ?_⟩
      · intro sink hflushed hroom
        rw [List.flatMap_cons, List.length_append] at hroom
        have hfirst := hwrites sink hflushed (by omega)
        have hrest := ih.1 (Sink.took sink (frame message)) hflushed (by show _ ≤ _ - _; omega)
        rw [writeMessages, List.forM_cons, Action.bind_of_ok hfirst, List.flatMap_cons, ← htook]
        exact hrest
      · intro sink sink' hok
        rw [writeMessages, List.forM_cons] at hok
        rcases hfirst : writeMessageZeroCopy message sink with ⟨_ | error | _, middle⟩
        · rw [Action.bind_of_ok hfirst] at hok
          rw [List.flatMap_cons, ← htook, ← hwrote sink middle hfirst]
          exact ih.2 middle sink' hok
        · rw [Action.bind_of_err hfirst] at hok
          cases (Prod.mk.inj hok).1
        · rw [Action.bind_of_panic hfirst] at hok
          cases (Prod.mk.inj hok).1

/-! ### Reading -/

/-- The reader comes to the length of the payload, and looks at the payload only if it takes that many bytes. -/
theorem readMessageZeroCopy_header (message : ZeroCopyMessage) (t : Bytes) (failure : String) :
    readMessageZeroCopy ⟨frame message ++ t, failure⟩ =
      (Action.lift (Outcome.rejectIf (message.header.payloadLen.toNat > maxPayloadSize)
          (.internal s!"Payload too large: {message.header.payloadLen} bytes")) >>= fun _ => do
        let payload ←
          if message.header.payloadLen.toNat > largeMessageThreshold then
            readLargePayloadStreaming message.header.payloadLen.toNat
          else readSmallPayloadDirect message.header.payloadLen.toNat
        return (message.header, payload)) ⟨message.payload ++ t, failure⟩ := by
  have hheader := message.header.encode_length
  have hlen := toNat_header_encode_length message.header
  have hprefix : readExact 4 ⟨frame message ++ t, failure⟩ =
      (.ok (u32ToBeBytes (UInt32.ofNat message.header.encode.length)),
        ⟨message.header.encode ++ (message.payload ++ t), failure⟩) := by
    rw [frame, List.append_assoc, List.append_assoc]
    exact readExact_append (u32ToBeBytes_length _)
  have hencoded : readExact message.header.encode.length ⟨message.header.encode ++ (message.payload ++ t), failure⟩ =
      (.ok message.header.encode, ⟨message.payload ++ t, failure⟩) := readExact_append rfl
  rw [readMessageZeroCopy, Action.bind_of_ok (Action.mapErr_of_ok hprefix), u32FromBeBytes_u32ToBeBytes, hlen,
    Outcome.rejectIf_of_not _ (Nat.not_lt.mpr hheader), Action.bind_of_ok (show Action.lift _ _ = (.ok (), _) from rfl),
    Action.bind_of_ok (Action.mapErr_of_ok hencoded), deserializeHeader_encode,
    Action.bind_of_ok (show Action.lift _ _ = (.ok message.header, _) from rfl)]

/-- The reader takes as much of the payload as the header says, and leaves the rest. -/
theorem readMessageZeroCopy_of_le (hsize : message.header.payloadLen.toNat ≤ maxPayloadSize) (t : Bytes) (failure : String) :
    readMessageZeroCopy ⟨frame message ++ t, failure⟩ =
      (.ok (message.header, message.payload.take message.header.payloadLen.toNat),
        ⟨message.payload.drop message.header.payloadLen.toNat ++ t, failure⟩) := by
  have hle : message.header.payloadLen.toNat ≤ message.payload.length := by
    show (UInt32.ofNat message.payload.length).toNat ≤ _
    rw [UInt32.toNat_ofNat']
    exact Nat.mod_le _ _
  have hbody : readExact message.header.payloadLen.toNat ⟨message.payload ++ t, failure⟩ =
      (.ok (message.payload.take message.header.payloadLen.toNat),
        ⟨message.payload.drop message.header.payloadLen.toNat ++ t, failure⟩) := by
    have hsplit : message.payload ++ t = message.payload.take message.header.payloadLen.toNat ++
        (message.payload.drop message.header.payloadLen.toNat ++ t) := by
      rw [← List.append_assoc, List.take_append_drop]
    rw [hsplit]
    exact readExact_append (List.length_take_of_le hle)
  rw [readMessageZeroCopy_header, Outcome.rejectIf_of_not _ (Nat.not_lt.mpr hsize),
    Action.bind_of_ok (show Action.lift _ _ = (.ok (), _) from rfl)]
  split
  · have hread := (Action.eq_ok_of_quiet_eq (quiet_readLargePayloadStreaming message.header.payloadLen.toNat)).mpr hbody
    rw [Action.bind_of_ok hread]
    rfl
  · have hread := (Action.eq_ok_of_quiet_eq (quiet_readSmallPayloadDirect message.header.payloadLen.toNat)).mpr hbody
    rw [Action.bind_of_ok hread]
    rfl

theorem readMessageZeroCopy_too_large (hsize : maxPayloadSize < message.header.payloadLen.toNat) (t : Bytes) (failure : String) :
    ∃ error stream, readMessageZeroCopy ⟨frame message ++ t, failure⟩ = (.err error, stream) := by
  refine ⟨.internal s!"Payload too large: {message.header.payloadLen} bytes", ⟨message.payload ++ t, failure⟩, ?_⟩
  rw [readMessageZeroCopy_header, Outcome.rejectIf_of _ hsize]
  exact Action.bind_of_err rfl

/-- A frame that is read to its end has a payload the reader takes. -/
theorem length_le_of_read_all {result : MessageHeader × Bytes} {failure : String}
    (h : readMessageZeroCopy ⟨frame message, failure⟩ = (.ok result, ⟨[], failure⟩)) :
    message.payload.length ≤ maxPayloadSize := by
  rw [← List.append_nil (frame message)] at h
  by_cases hsize : message.header.payloadLen.toNat ≤ maxPayloadSize
  · rw [readMessageZeroCopy_of_le hsize] at h
    have hrest : message.payload.drop message.header.payloadLen.toNat = [] := by
      have hunread := congrArg (fun ended => ended.2.unread) h
      simpa using hunread
    exact Nat.le_trans (List.drop_eq_nil_iff.mp hrest) hsize
  · obtain ⟨error, stream, herror⟩ := readMessageZeroCopy_too_large (Nat.not_le.mp hsize) [] failure
    rw [herror] at h
    exact nomatch h

/-- The reader takes the frame of a message off the front of the stream. -/
theorem readMessageZeroCopy_frame (hsize : message.payload.length ≤ maxPayloadSize) (t : Bytes) (failure : String) :
    readMessageZeroCopy ⟨frame message ++ t, failure⟩ = (.ok (message.header, message.payload), ⟨t, failure⟩) := by
  have hpayload : message.header.payloadLen.toNat = message.payload.length :=
    UInt32.toNat_ofNat_of_lt' (Nat.lt_of_le_of_lt hsize (by decide))
  rw [readMessageZeroCopy_of_le (hpayload ▸ hsize), hpayload, List.take_length, List.drop_length, List.nil_append]

theorem readMessages_flatMap (hsize : ∀ message ∈ messages, message.payload.length ≤ maxPayloadSize) (t : Bytes)
    (failure : String) :
    readMessages messages.length ⟨messages.flatMap frame ++ t, failure⟩ =
      (.ok (messages.map fun message => (message.header, message.payload)), ⟨t, failure⟩) := by
  induction messages with
  | nil => rfl
  | cons message rest ih =>
      have hfirst := readMessageZeroCopy_frame (hsize message List.mem_cons_self) (rest.flatMap frame ++ t) failure
      have hrest := ih (fun other hmem => hsize other (List.mem_cons_of_mem _ hmem))
      rw [List.flatMap_cons, List.append_assoc, List.length_cons, readMessages, Action.bind_of_ok hfirst,
        Action.bind_of_ok hrest]
      rfl

/-! ### Round trips -/

/-- Each message is written as its frame and read back off it, and so are all of them one after the
other; what follows on the stream is left. -/
def RoundTrip (messages : List ZeroCopyMessage) : Prop :=
  (∀ message ∈ messages, Emits (writeMessageZeroCopy message) (frame message) ∧
    ∀ t failure, readMessageZeroCopy ⟨frame message ++ t, failure⟩ =
      (.ok (⟨message.msgType, message.requestId, UInt32.ofNat message.payload.length⟩, message.payload), ⟨t, failure⟩)) ∧
  Emits (writeMessages messages) (messages.flatMap frame) ∧
  ∀ t failure, readMessages messages.length ⟨messages.flatMap frame ++ t, failure⟩ =
    (.ok (messages.map fun message =>
      (⟨message.msgType, message.requestId, UInt32.ofNat message.payload.length⟩, message.payload)), ⟨t, failure⟩)

/-- **Messages round trip**, of every type, with or without a request id, up to the largest payload
a reader takes. -/
theorem messages_roundTrip (messages : List ZeroCopyMessage)
    (hsize : ∀ message ∈ messages, message.payload.length ≤ maxPayloadSize) : RoundTrip messages :=
  ⟨fun message hmem => ⟨writeMessageZeroCopy_emits message, readMessageZeroCopy_frame (hsize message hmem)⟩,
    writeMessages_emits messages, readMessages_flatMap hsize⟩

theorem messages_roundTrip_heartbeat_request :
    RoundTrip [⟨.heartbeat, none, []⟩, ⟨.request, some ⟨List.replicate 16 7, rfl⟩, [1, 2, 3]⟩] :=
  messages_roundTrip _ (by decide)

end IrohRaft
