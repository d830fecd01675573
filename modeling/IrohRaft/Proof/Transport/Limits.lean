import IrohRaft.Library.Triple
import IrohRaft.Proof.Transport.Framing
import IrohRaft.Transport.Buffers

/-!
# Hostile streams

The peer chooses both lengths. Each is checked before a buffer is made from it, so however the stream
goes on, the reader makes small buffers, reads a bounded number of times, and consumes what it returns.
The writer checks no length: it also sends what no reader takes.
-/

namespace IrohRaft

open Rust

namespace Reader

/-- The reader that notes its buffers reads as the one that does not. -/
abbrev Reads {ε α : Type} (x : Action Reader ε α) (y : Action ByteStream ε α) : Prop := Action.Through stream x y

theorem reads_readExact (count : Nat) : Reads (readExact count) (Rust.readExact count) := fun _ => ⟨rfl, rfl⟩

theorem reads_size {α : Type} {next : Action Reader RaftError α} {y : Action ByteStream RaftError α} (buffer : Buffer)
    (bytes : Nat) (h : Reads next y) : Reads (size buffer bytes >>= fun _ => next) y :=
  Action.Through.skip (fun _ => ⟨rfl, rfl⟩) h

theorem reads_readSmallPayloadDirect (payloadLen : Nat) :
    Reads (readSmallPayloadDirect payloadLen) (IrohRaft.readSmallPayloadDirect payloadLen) := by
  apply reads_size
  apply reads_size
  exact (reads_readExact payloadLen).mapErr _

theorem reads_readChunks (remaining : Nat) (payloadBuf : Bytes) :
    Reads (readChunks remaining payloadBuf) (IrohRaft.readChunks remaining payloadBuf) := by
  induction remaining using Nat.strongRecOn generalizing payloadBuf with
  | ind remaining ih =>
      rw [readChunks, IrohRaft.readChunks]
      split
      · exact .pure payloadBuf
      · rename_i hmore
        have hchunk : 0 < readChunkSize := by decide
        apply reads_size
        refine ((reads_readExact _).mapErr _).bind fun chunk => ?_
        exact ih _ (by omega) _

theorem reads_readLargePayloadStreaming (payloadLen : Nat) :
    Reads (readLargePayloadStreaming payloadLen) (IrohRaft.readLargePayloadStreaming payloadLen) := by
  apply reads_size
  exact reads_readChunks payloadLen []

theorem reads_readMessageZeroCopy : Reads readMessageZeroCopy IrohRaft.readMessageZeroCopy := by
  refine ((reads_readExact 4).mapErr _).bind fun headerLenBytes => ?_
  refine (Action.Through.lift _).bind fun _ => ?_
  apply reads_size
  apply reads_size
  refine ((reads_readExact _).mapErr _).bind fun headerBuf => ?_
  refine (Action.Through.lift _).bind fun header => ?_
  refine (Action.Through.lift _).bind fun _ => ?_
  split
  · exact (reads_readLargePayloadStreaming _).bind fun payload => .pure _
  · exact (reads_readSmallPayloadDirect _).bind fun payload => .pure _

/-! ### Bounds -/

/-- At most this many reads so far, and every buffer within its limit. -/
structure Within (reads : Nat) (reader : Reader) : Prop where
  counted : reader.reads ≤ reads
  header : ∀ size, (Buffer.header, size) ∈ reader.sizes → size ≤ maxHeaderSize
  payload : ∀ size, (Buffer.payload, size) ∈ reader.sizes → size ≤ maxPayloadSize

theorem Within.mono {reads reads' : Nat} {reader : Reader} (h : Within reads reader) (hle : reads ≤ reads') :
    Within reads' reader := ⟨Nat.le_trans h.counted hle, h.header, h.payload⟩

/-- A computation that reads at most this often and keeps its buffers within their limits. -/
def Frugal {ε α : Type} (reads : Nat) (x : Action Reader ε α) : Prop :=
  ∀ before, Action.Triple (Within before) x (fun _ => Within (before + reads)) (Within (before + reads))

section Frugal

variable {ε ε' α β : Type} {reads reads' : Nat} {x : Action Reader ε α} {next : α → Action Reader ε β}

theorem Frugal.mono (h : Frugal reads x) (hle : reads ≤ reads') : Frugal reads' x := by
  intro before
  have hmore : ∀ reader, Within (before + reads) reader → Within (before + reads') reader :=
    fun reader hreader => hreader.mono (by omega)
  exact (h before).consequence (fun _ hstart => hstart) (fun _ => hmore) hmore

theorem frugal_pure (value : α) : Frugal 0 (pure value : Action Reader ε α) :=
  fun _ => .pure fun _ hstart => hstart

/-- What comes after may rely on what is returned. -/
theorem Frugal.bind (h : Frugal reads x)
    (hnext : ∀ value, (∃ before after, x before = (.ok value, after)) → Frugal reads' (next value)) :
    Frugal (reads + reads') (x >>= next) := by
  intro before start hstart
  have hx := h before start hstart
  rcases hresult : x start with ⟨value | error | _, state⟩ <;> simp only [hresult] at hx
  · rw [Action.bind_of_ok hresult, ← Nat.add_assoc]
    exact hnext value ⟨start, state, hresult⟩ (before + reads) state hx
  · rw [Action.bind_of_err hresult]
    exact hx.mono (by omega)
  · rw [Action.bind_of_panic hresult]
    exact hx.mono (by omega)

theorem Frugal.mapErr (h : Frugal reads x) (translate : ε → ε') : Frugal reads (x.mapErr translate) := by
  intro before start hstart
  have hx := h before start hstart
  rcases hresult : x start with ⟨value | error | _, state⟩ <;>
    simpa only [Action.mapErr, hresult, Outcome.mapErr] using hx

theorem frugal_lift_bind {outcome : Outcome ε α} (h : ∀ value, outcome = .ok value → Frugal reads (next value)) :
    Frugal reads (Action.lift outcome >>= next) :=
  fun before => .lift_bind (fun _ _ hstart => hstart.mono (by omega)) fun value hok => h value hok before

end Frugal

theorem frugal_size {buffer : Buffer} {bytes : Nat} {α : Type} {reads : Nat} {next : Action Reader RaftError α}
    (hheader : buffer = .header → bytes ≤ maxHeaderSize) (hpayload : buffer = .payload → bytes ≤ maxPayloadSize)
    (h : Frugal reads next) : Frugal reads (size buffer bytes >>= fun _ => next) := by
  intro before start hstart
  have hsized : Within before { start with sizes := start.sizes ++ [(buffer, bytes)] } := by
    refine ⟨hstart.counted, fun size hmem => ?_, fun size hmem => ?_⟩
    · cases List.mem_append.mp hmem with
      | inl hold => exact hstart.header size hold
      | inr hnew =>
          obtain ⟨rfl, rfl⟩ := Prod.mk.inj (List.mem_singleton.mp hnew)
          exact hheader rfl
    · cases List.mem_append.mp hmem with
      | inl hold => exact hstart.payload size hold
      | inr hnew =>
          obtain ⟨rfl, rfl⟩ := Prod.mk.inj (List.mem_singleton.mp hnew)
          exact hpayload rfl
  rw [Action.bind_of_ok (show size buffer bytes start = (.ok (), _) from rfl)]
  exact h before _ hsized

theorem frugal_readExact (count : Nat) : Frugal 1 (readExact count) := by
  intro before start hstart
  have hread : Within (before + 1) (readExact count start).2 :=
    ⟨Nat.succ_le_succ hstart.counted, hstart.header, hstart.payload⟩
  rcases hresult : readExact count start with ⟨value | error | _, state⟩ <;> simpa only [hresult] using hread

/-- A read returns as many bytes as it asks for. -/
theorem length_of_readExact {ε : Type} {count : Nat} {translate : String → ε} {before after : Reader} {bytes : Bytes}
    (h : (readExact count).mapErr translate before = (.ok bytes, after)) : bytes.length = count := by
  have hread := congrArg Prod.fst (Action.mapErr_eq_ok.mp h)
  exact (readExact_eq_ok (Prod.ext hread rfl)).1

theorem frugal_readChunks {remaining : Nat} {payloadBuf : Bytes} (h : payloadBuf.length + remaining ≤ maxPayloadSize) :
    Frugal ((remaining + (readChunkSize - 1)) / readChunkSize) (readChunks remaining payloadBuf) := by
  induction remaining using Nat.strongRecOn generalizing payloadBuf with
  | ind remaining ih =>
      rw [readChunks]
      split
      · exact (frugal_pure payloadBuf).mono (Nat.zero_le _)
      · rename_i hmore
        have hchunk : 0 < readChunkSize := by decide
        apply frugal_size (by simp) (fun _ => by omega)
        have hsteps : (remaining + (readChunkSize - 1)) / readChunkSize =
            1 + (remaining - min remaining readChunkSize + (readChunkSize - 1)) / readChunkSize := by
          simp only [readChunkSize]
          omega
        rw [hsteps]
        refine ((frugal_readExact _).mapErr _).bind fun chunk hread => ?_
        obtain ⟨before, after, hread⟩ := hread
        have hlength := length_of_readExact hread
        apply ih _ (by omega)
        rw [List.length_append, hlength]
        omega

theorem frugal_readSmallPayloadDirect {payloadLen : Nat} (h : payloadLen ≤ maxPayloadSize) :
    Frugal 1 (readSmallPayloadDirect payloadLen) := by
  apply frugal_size (by simp) (fun _ => h)
  apply frugal_size (by simp) (fun _ => h)
  exact (frugal_readExact payloadLen).mapErr _

theorem frugal_readLargePayloadStreaming {payloadLen : Nat} (h : payloadLen ≤ maxPayloadSize) :
    Frugal (maxPayloadSize / readChunkSize) (readLargePayloadStreaming payloadLen) := by
  have hsteps : (payloadLen + (readChunkSize - 1)) / readChunkSize ≤ maxPayloadSize / readChunkSize := by
    simp only [readChunkSize, maxPayloadSize] at h ⊢
    omega
  apply frugal_size (by simp) (fun _ => h)
  exact (frugal_readChunks (by simpa using h)).mono hsteps

/-- The length, the header, and the payload in chunks. -/
theorem frugal_readMessageZeroCopy : Frugal (2 + maxPayloadSize / readChunkSize) readMessageZeroCopy := by
  have hsplit : 2 + maxPayloadSize / readChunkSize = 1 + (1 + maxPayloadSize / readChunkSize) := by omega
  rw [readMessageZeroCopy, hsplit]
  refine ((frugal_readExact 4).mapErr _).bind fun headerLenBytes _ => ?_
  refine frugal_lift_bind fun _ hheader => ?_
  have hheaderLen := Outcome.rejectIf_eq_ok.mp hheader
  apply frugal_size (fun _ => Nat.not_lt.mp hheaderLen) (by simp)
  apply frugal_size (fun _ => Nat.not_lt.mp hheaderLen) (by simp)
  refine ((frugal_readExact _).mapErr _).bind fun headerBuf _ => ?_
  refine frugal_lift_bind fun header _ => ?_
  refine frugal_lift_bind fun _ hpayload => ?_
  have hpayloadLen := Nat.not_lt.mp (Outcome.rejectIf_eq_ok.mp hpayload)
  split
  · exact (frugal_readLargePayloadStreaming hpayloadLen).bind fun payload _ => frugal_pure _
  · refine ((frugal_readSmallPayloadDirect hpayloadLen).mono ?_).bind fun payload _ => frugal_pure _
    decide

end Reader

/-! ### What is consumed -/

/-- A message that was read, and the bytes of the stream it was read from. -/
structure Consumed (stream : ByteStream) (header : MessageHeader) (payload : Bytes) (rest : ByteStream)
    (headerLenBytes headerBuf : Bytes) : Prop where
  consumed : stream = { rest with unread := headerLenBytes ++ (headerBuf ++ (payload ++ rest.unread)) }
  headerLen_length : headerLenBytes.length = 4
  headerBuf_length : headerBuf.length = (u32FromBeBytes headerLenBytes).toNat
  headerBuf_le : headerBuf.length ≤ maxHeaderSize
  header_eq : deserializeHeader headerBuf = .ok header
  payload_length : payload.length = header.payloadLen.toNat
  payload_le : payload.length ≤ maxPayloadSize

/-- What the reader returns is what it consumed. -/
theorem exists_consumed {stream rest : ByteStream} {header : MessageHeader} {payload : Bytes}
    (h : readMessageZeroCopy stream = (.ok (header, payload), rest)) :
    ∃ headerLenBytes headerBuf, Consumed stream header payload rest headerLenBytes headerBuf := by
  rw [readMessageZeroCopy] at h
  obtain ⟨headerLenBytes, atHeader, hlength, h⟩ := Action.bind_eq_ok.mp h
  obtain ⟨_, _, hchecked, h⟩ := Action.bind_eq_ok.mp h
  obtain ⟨hheaderLen, rfl⟩ := Prod.mk.inj hchecked
  obtain ⟨headerBuf, atPayload, hheader, h⟩ := Action.bind_eq_ok.mp h
  obtain ⟨read, _, hparsed, h⟩ := Action.bind_eq_ok.mp h
  obtain ⟨hread, rfl⟩ := Prod.mk.inj hparsed
  obtain ⟨_, _, hlimited, h⟩ := Action.bind_eq_ok.mp h
  obtain ⟨hpayloadLen, rfl⟩ := Prod.mk.inj hlimited
  have hpayload : read = header ∧ readExact header.payloadLen.toNat atPayload = (.ok payload, rest) := by
    split at h
    · obtain ⟨bytes, left, hbytes, h⟩ := Action.bind_eq_ok.mp h
      change (Outcome.ok (read, bytes), left) = _ at h
      obtain ⟨hresult, rfl⟩ := Prod.mk.inj h
      obtain ⟨rfl, rfl⟩ := Prod.mk.inj (Outcome.ok.inj hresult)
      exact ⟨rfl, (Action.eq_ok_of_quiet_eq (quiet_readLargePayloadStreaming _)).mp hbytes⟩
    · obtain ⟨bytes, left, hbytes, h⟩ := Action.bind_eq_ok.mp h
      change (Outcome.ok (read, bytes), left) = _ at h
      obtain ⟨hresult, rfl⟩ := Prod.mk.inj h
      obtain ⟨rfl, rfl⟩ := Prod.mk.inj (Outcome.ok.inj hresult)
      exact ⟨rfl, (Action.eq_ok_of_quiet_eq (quiet_readSmallPayloadDirect _)).mp hbytes⟩
  obtain ⟨rfl, hpayload⟩ := hpayload
  obtain ⟨hfour, hstream⟩ := readExact_eq_ok (Action.mapErr_eq_ok.mp hlength)
  obtain ⟨hheaderBuf, hatHeader⟩ := readExact_eq_ok (Action.mapErr_eq_ok.mp hheader)
  obtain ⟨hpayloadBuf, hatPayload⟩ := readExact_eq_ok hpayload
  refine ⟨headerLenBytes, headerBuf, ?_, hfour, hheaderBuf, ?_, hread, hpayloadBuf, ?_⟩
  · rw [hstream, hatHeader, hatPayload]
  · rw [hheaderBuf]
    exact Nat.not_lt.mp (Outcome.rejectIf_eq_ok.mp hheaderLen)
  · rw [hpayloadBuf]
    exact Nat.not_lt.mp (Outcome.rejectIf_eq_ok.mp hpayloadLen)

theorem deserializeHeader_ne_panic (data : Bytes) : deserializeHeader data ≠ .panic := by
  rw [deserializeHeader]
  split <;> simp

/-- The reader never panics: it returns a message or an error. -/
theorem readMessageZeroCopy_safe : Action.Safe readMessageZeroCopy := by
  have hread (count : Nat) (translate : String → RaftError) : Action.Safe ((readExact count).mapErr translate) :=
    Action.Safe.mapErr (readExact_ne_panic count) translate
  rw [readMessageZeroCopy]
  refine (hread 4 _).bind fun headerLenBytes => ?_
  refine (Action.safe_lift (Outcome.rejectIf_ne_panic _ _)).bind fun _ => ?_
  refine (hread _ _).bind fun headerBuf => ?_
  refine (Action.safe_lift (deserializeHeader_ne_panic headerBuf)).bind fun header => ?_
  refine (Action.safe_lift (Outcome.rejectIf_ne_panic _ _)).bind fun _ => ?_
  split
  · refine Action.Safe.bind (fun stream => ?_) fun payload => Action.safe_pure _
    exact Action.ne_panic_of_quiet_eq (quiet_readLargePayloadStreaming _) (readExact_ne_panic _ stream)
  · exact (hread _ _).bind fun payload => Action.safe_pure _

/-- **Hostile streams.** Whatever a peer sends, the reader returns after a bounded number of reads, its
buffers are within the limits, and the message it returns is what it consumed. -/
theorem readMessageZeroCopy_limits (stream : ByteStream) :
    ((Reader.readMessageZeroCopy ⟨stream, [], 0⟩).1 = (readMessageZeroCopy stream).1 ∧
      (Reader.readMessageZeroCopy ⟨stream, [], 0⟩).2.stream = (readMessageZeroCopy stream).2) ∧
    (readMessageZeroCopy stream).1 ≠ .panic ∧
    Reader.Within (2 + maxPayloadSize / readChunkSize) (Reader.readMessageZeroCopy ⟨stream, [], 0⟩).2 ∧
    ∀ header payload rest, readMessageZeroCopy stream = (.ok (header, payload), rest) →
      ∃ headerLenBytes headerBuf, Consumed stream header payload rest headerLenBytes headerBuf ∧
        stream.unread.length = 4 + headerBuf.length + payload.length + rest.unread.length := by
  have hstart : Reader.Within 0 ⟨stream, [], 0⟩ := ⟨Nat.le_refl 0, by simp, by simp⟩
  have hwithin := (Reader.frugal_readMessageZeroCopy 0).final hstart
  rw [Nat.zero_add] at hwithin
  refine ⟨Reader.reads_readMessageZeroCopy ⟨stream, [], 0⟩, readMessageZeroCopy_safe stream, hwithin, ?_⟩
  intro header payload rest hread
  obtain ⟨headerLenBytes, headerBuf, hconsumed⟩ := exists_consumed hread
  refine ⟨headerLenBytes, headerBuf, hconsumed, ?_⟩
  have hlength := congrArg (fun stream => stream.unread.length) hconsumed.consumed
  simp only [List.length_append, hconsumed.headerLen_length] at hlength
  omega

/-! ### Writing within the reader's limits -/

/-- What the writer reports as sent is read back to its end; what the reader would not take, or what has a
length that does not fit its field, is refused before anything is written. -/
structure WithinReader (message : ZeroCopyMessage) : Prop where
  accepted : ∀ sink sink', writeMessageZeroCopy message sink = (.ok (), sink') →
    ∃ bytes, sink'.written = sink.written ++ bytes ∧
      ∀ failure, ∃ result, readMessageZeroCopy ⟨bytes, failure⟩ = (.ok result, ⟨[], failure⟩)
  refused : maxPayloadSize < message.payload.length ∨ 2 ^ 32 ≤ message.payload.length →
    ∀ sink, (writeMessageZeroCopy message sink).1.Rejected ∧ (writeMessageZeroCopy message sink).2.written = sink.written

/-- A sink with room takes any message. -/
theorem not_refused (message : ZeroCopyMessage) : ∃ sink, (writeMessageZeroCopy message sink).1 = .ok () := by
  have hwritten := (writeMessageZeroCopy_emits message).1
    { written := [], room := (frame message).length, failure := "", flushed := .ok () } rfl (Nat.le_refl _)
  exact ⟨_, congrArg Prod.fst hwritten⟩

theorem WithinReader.length_le {message : ZeroCopyMessage} (h : WithinReader message) :
    message.payload.length ≤ maxPayloadSize := by
  by_contra hlong
  obtain ⟨sink, hok⟩ := not_refused message
  obtain ⟨error, herror⟩ := (h.refused (.inl (Nat.not_le.mp hlong)) sink).1
  rw [hok] at herror
  cases herror

/-- **The writer's limits are the reader's** for a payload of at most 100 MiB, and for no other. -/
theorem withinReader_iff (message : ZeroCopyMessage) : WithinReader message ↔ message.payload.length ≤ maxPayloadSize := by
  apply Iff.intro
  · intro hwithin
    exact hwithin.length_le
  · intro hsize
    refine ⟨fun sink sink' hok => ⟨frame message, ?_, fun failure => ⟨(message.header, message.payload), ?_⟩⟩, fun hlong => ?_⟩
    · rw [(writeMessageZeroCopy_emits message).2 sink sink' hok]
      rfl
    · have hread := readMessageZeroCopy_frame hsize [] failure
      rwa [List.append_nil] at hread
    · have hmax : maxPayloadSize < 2 ^ 32 := by decide
      omega

/-- One byte more than the reader takes is written all the same. -/
theorem not_withinReader : ¬ ∀ message, WithinReader message := by
  intro hwithin
  have hlength := (hwithin ⟨.raftMessage, none, List.replicate (maxPayloadSize + 1) 0⟩).length_le
  rw [List.length_replicate] at hlength
  omega

end IrohRaft
