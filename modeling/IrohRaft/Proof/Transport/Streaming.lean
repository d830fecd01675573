import IrohRaft.Transport.Protocol

/-!
# The two payload paths agree

Up to the text of an error, streaming a message writes the frame the single buffer holds, and reading
a payload in chunks is one exact read. `Action.quiet` forgets the texts, and the equations below hold
between the computations themselves, so they cover streams that end early and sinks that fail at any
byte.
-/

namespace IrohRaft

open Rust

/-- The bytes of a message on the wire. -/
def frame (message : ZeroCopyMessage) : Bytes :=
  u32ToBeBytes (UInt32.ofNat message.header.encode.length) ++ (message.header.encode ++ message.payload)

theorem serializeHeaderZeroCopy_nil (header : MessageHeader) : serializeHeaderZeroCopy header [] = header.encode := rfl

/-! ### Writing -/

theorem quiet_writeSingleBuffer (message : ZeroCopyMessage) :
    (writeSingleBuffer message).quiet = (writeAll (frame message)).quiet :=
  Action.quiet_mapErr _ _

theorem quiet_writeLargeMessageStreaming (message : ZeroCopyMessage) :
    (writeLargeMessageStreaming message).quiet = (writeAll (frame message)).quiet := by
  have hchunks : (chunks chunkSize message.payload).flatten = message.payload := flatten_chunks (by decide) _
  rw [writeLargeMessageStreaming, Action.quiet_bind, Action.quiet_mapErr]
  simp only [Action.quiet_bind, Action.quiet_mapErr, quiet_forM_writeAll, hchunks, serializeHeaderZeroCopy_nil]
  rw [frame, writeAll_append, writeAll_append, Action.quiet_bind]
  simp only [Action.quiet_bind]

/-! ### Reading -/

theorem quiet_readSmallPayloadDirect (payloadLen : Nat) :
    (readSmallPayloadDirect payloadLen).quiet = (readExact payloadLen).quiet :=
  Action.quiet_mapErr _ _

theorem quiet_readChunks (remaining : Nat) (payloadBuf : Bytes) :
    (readChunks remaining payloadBuf).quiet = (readExact remaining).quiet >>= fun bytes => pure (payloadBuf ++ bytes) := by
  induction remaining using Nat.strongRecOn generalizing payloadBuf with
  | ind remaining ih =>
      rw [readChunks]
      by_cases hzero : remaining = 0
      · subst hzero
        rw [dif_pos rfl, readExact_zero, Action.quiet, Action.mapErr_pure, Action.quiet, Action.mapErr_pure, pure_bind,
          List.append_nil]
      · have hsize : 0 < min remaining readChunkSize := by
          have hchunk : 0 < readChunkSize := by decide
          omega
        have hsplit : remaining = min remaining readChunkSize + (remaining - min remaining readChunkSize) := by omega
        rw [dif_neg hzero, Action.quiet_bind, Action.quiet_mapErr]
        conv => rhs; rw [hsplit, readExact_add, Action.quiet_bind, bind_assoc]
        congr 1
        funext chunk
        rw [ih _ (by omega), Action.quiet_bind, bind_assoc]
        congr 1
        funext bytes
        show _ = Action.quiet (pure _) >>= _
        rw [Action.quiet, Action.mapErr_pure, pure_bind, List.append_assoc]

theorem quiet_readLargePayloadStreaming (payloadLen : Nat) :
    (readLargePayloadStreaming payloadLen).quiet = (readExact payloadLen).quiet := by
  rw [readLargePayloadStreaming, quiet_readChunks]
  simp only [List.nil_append, bind_pure]

/-! ### Both paths -/

theorem writeAll_ne_panic (bytes : Bytes) (sink : Sink) : (writeAll bytes sink).1 ≠ .panic := by
  unfold writeAll
  split <;> exact fun hpanic => nomatch hpanic

theorem readExact_ne_panic (count : Nat) (stream : ByteStream) : (readExact count stream).1 ≠ .panic := by
  unfold readExact
  split <;> exact fun hpanic => nomatch hpanic

/-- What a successful read returned and left. -/
theorem readExact_eq_ok {count : Nat} {stream stream' : ByteStream} {bytes : Bytes}
    (h : readExact count stream = (.ok bytes, stream')) :
    bytes.length = count ∧ stream = { stream' with unread := bytes ++ stream'.unread } := by
  rw [readExact] at h
  split at h
  · rename_i hle
    obtain ⟨hbytes, rfl⟩ := Prod.mk.inj h
    rw [← Outcome.ok.inj hbytes]
    exact ⟨List.length_take_of_le hle, by simp only [List.take_append_drop]⟩
  · cases (Prod.mk.inj h).1

/-- **The two paths agree**: streamed or from one buffer, a message puts the same bytes on the wire;
in chunks or at once, a payload of any length reads the same from any stream and leaves the same
rest. -/
theorem streaming_agrees :
    (∀ (message : ZeroCopyMessage) (sink : Sink),
      Action.SameEffect (writeLargeMessageStreaming message sink) (writeSingleBuffer message sink)) ∧
    ∀ (payloadLen : Nat) (stream : ByteStream),
      Action.SameEffect (readLargePayloadStreaming payloadLen stream) (readSmallPayloadDirect payloadLen stream) ∧
        ∀ payload rest, readSmallPayloadDirect payloadLen stream = (.ok payload, rest) →
          payload.length = payloadLen ∧ stream.unread = payload ++ rest.unread := by
  refine ⟨fun message sink => ?_, fun payloadLen stream => ⟨?_, fun payload rest hread => ?_⟩⟩
  · apply Action.sameEffect_of_quiet_eq
    · rw [quiet_writeLargeMessageStreaming, quiet_writeSingleBuffer]
    · exact Action.ne_panic_of_quiet_eq (quiet_writeLargeMessageStreaming message) (writeAll_ne_panic _ sink)
  · apply Action.sameEffect_of_quiet_eq
    · rw [quiet_readLargePayloadStreaming, quiet_readSmallPayloadDirect]
    · exact Action.ne_panic_of_quiet_eq (quiet_readLargePayloadStreaming payloadLen) (readExact_ne_panic _ stream)
  · obtain ⟨hlength, hstream⟩ := readExact_eq_ok (Action.mapErr_eq_ok.mp hread)
    exact ⟨hlength, by rw [hstream]⟩

end IrohRaft
