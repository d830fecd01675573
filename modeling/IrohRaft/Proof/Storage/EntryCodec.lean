import IrohRaft.Storage.Codec

/-!
# The entry codec round trip

The decoder is followed once, over the bytes of a well-formed frame with any two length fields
(`deserializeEntry_frame`). The round trip, the entries whose lengths overflow their field, and the
truncated inputs are read off that one walk.
-/

namespace IrohRaft

open Rust

/-- The bytes the decoder expects, with the length fields given apart from the data. -/
def entryFrame (index term : UInt64) (kind : UInt8) (dataLen : UInt32) (data : Bytes) (contextLen : UInt32)
    (context : Bytes) (flag : UInt8) (rest : Bytes) : Bytes :=
  u64ToLeBytes index ++ (u64ToLeBytes term ++ ([kind] ++ (u32ToLeBytes dataLen ++ (data ++
    (u32ToLeBytes contextLen ++ (context ++ ([flag] ++ rest)))))))

theorem serializeEntry_append (entry : Entry) (rest : Bytes) :
    serializeEntry entry ++ rest =
      entryFrame entry.index entry.term (i32AsU8 entry.entryType) (UInt32.ofNat entry.data.length) entry.data
        (UInt32.ofNat entry.context.length) entry.context (if entry.syncLog then 1 else 0) rest := by
  simp only [serializeEntry, entryFrame, List.append_assoc]

/-- What the decoder's reads return on a frame, each at the cursor it is made at. -/
structure FrameReads (input : Bytes) (index term : UInt64) (kind : UInt8) (dataLen : UInt32) (data : Bytes)
    (contextLen : UInt32) (context : Bytes) (flag : UInt8) : Prop where
  length_lt : 25 + dataLen.toNat + contextLen.toNat < input.length
  index_eq : ∀ failed : RaftError, readU64 input 0 failed = .ok index
  term_eq : ∀ failed : RaftError, readU64 input (0 + 8) failed = .ok term
  kind_eq : (Rust.index input (0 + 8 + 8) : Outcome RaftError UInt8) = .ok kind
  dataLen_eq : ∀ failed : RaftError, readU32 input (0 + 8 + 8 + 1) failed = .ok dataLen
  data_eq : (slice input (0 + 8 + 8 + 1 + 4) (0 + 8 + 8 + 1 + 4 + dataLen.toNat) : Outcome RaftError Bytes) = .ok data
  contextLen_eq : ∀ failed : RaftError, readU32 input (0 + 8 + 8 + 1 + 4 + dataLen.toNat) failed = .ok contextLen
  context_eq : (slice input (0 + 8 + 8 + 1 + 4 + dataLen.toNat + 4)
    (0 + 8 + 8 + 1 + 4 + dataLen.toNat + 4 + contextLen.toNat) : Outcome RaftError Bytes) = .ok context
  flag_eq : (Rust.index input (0 + 8 + 8 + 1 + 4 + dataLen.toNat + 4 + contextLen.toNat) : Outcome RaftError UInt8) = .ok flag

theorem entryFrame_reads (index term : UInt64) (kind : UInt8) {dataLen contextLen : UInt32} {data context : Bytes}
    (flag : UInt8) (rest : Bytes) (hdata : data.length = dataLen.toNat) (hcontext : context.length = contextLen.toNat) :
    FrameReads (entryFrame index term kind dataLen data contextLen context flag rest) index term kind dataLen data
      contextLen context flag := by
  have hdataLt := dataLen.toNat_lt
  have hcontextLt := contextLen.toNat_lt
  generalize hinput : entryFrame index term kind dataLen data contextLen context flag rest = input
  have hindexAt : Unread input 0 (entryFrame index term kind dataLen data contextLen context flag rest) :=
    ⟨Nat.zero_le _, hinput.symm⟩
  unfold entryFrame at hindexAt
  have htermAt := hindexAt.advance
  have hkindAt := htermAt.advance
  have hdataLenAt := hkindAt.advance
  have hdataAt := hdataLenAt.advance
  have hcontextLenAt := hdataAt.advance
  have hcontextAt := hcontextLenAt.advance
  have hflagAt := hcontextAt.advance
  have hlength := hflagAt.length_eq
  simp only [u64ToLeBytes_length, u32ToLeBytes_length, List.length_singleton, hdata, hcontext, List.length_append]
    at htermAt hkindAt hdataLenAt hdataAt hcontextLenAt hcontextAt hflagAt hlength
  have hdataSlice := hdataAt.slice_eq RaftError
  have hcontextSlice := hcontextAt.slice_eq RaftError
  rw [hdata] at hdataSlice
  rw [hcontext] at hcontextSlice
  exact {
    length_lt := by omega
    index_eq := fun _ => hindexAt.readU64_eq (by omega)
    term_eq := fun _ => htermAt.readU64_eq (by omega)
    kind_eq := hkindAt.index_eq
    dataLen_eq := fun _ => hdataLenAt.readU32_eq (by omega)
    data_eq := hdataSlice
    contextLen_eq := fun _ => hcontextLenAt.readU32_eq (by omega)
    context_eq := hcontextSlice
    flag_eq := hflagAt.index_eq }

theorem deserializeEntry_frame (index term : UInt64) (kind : UInt8) {dataLen contextLen : UInt32}
    {data context : Bytes} (flag : UInt8) (rest : Bytes) (hdata : data.length = dataLen.toNat)
    (hcontext : context.length = contextLen.toNat) :
    deserializeEntry (entryFrame index term kind dataLen data contextLen context flag rest) =
      .ok { entryType := u8AsI32 kind, term, index, data, context, syncLog := flag != 0 } := by
  have hdataLt := dataLen.toNat_lt
  have hcontextLt := contextLen.toNat_lt
  have hreads := entryFrame_reads index term kind flag rest hdata hcontext
  have hlength := hreads.length_lt
  simp (disch := omega) only [deserializeEntry, Outcome.rejectIf_of_not, Outcome.ok_bind, usizeAdd_of_lt,
    hreads.index_eq, hreads.term_eq, hreads.kind_eq, hreads.dataLen_eq, hreads.data_eq, hreads.contextLen_eq, hreads.context_eq,
    hreads.flag_eq, Outcome.pure_eq_ok]

/-- Cut anywhere before its last field, a frame fails the first length check the cut lies below. -/
theorem deserializeEntry_truncated {input whole : Bytes} {index term : UInt64} {kind flag : UInt8}
    {dataLen contextLen : UInt32} {data context : Bytes} (hcut : input <+: whole)
    (hreads : FrameReads whole index term kind dataLen data contextLen context flag)
    (hshort : input.length ≤ 25 + dataLen.toNat + contextLen.toNat) : (deserializeEntry input).Rejected := by
  have hdataLt := dataLen.toNat_lt
  have hcontextLt := contextLen.toNat_lt
  by_cases hfixed : input.length < 26
  · rw [deserializeEntry, Outcome.rejectIf_of _ hfixed]
    exact Outcome.rejected_err _
  -- the fixed part is read as it is from the whole frame
  simp (disch := omega) only [deserializeEntry, Outcome.rejectIf_of_not _ hfixed, Outcome.ok_bind, usizeAdd_of_lt,
    readU64_of_prefix hcut, index_of_prefix hcut, hreads.index_eq, hreads.term_eq, hreads.kind_eq]
  rw [Outcome.rejectIf_of_not _ (by omega), Outcome.ok_bind, readU32_of_prefix hcut (by omega), hreads.dataLen_eq,
    Outcome.ok_bind]
  -- past it exactly one check fails: of the data, the context length, the context or the flag
  have hcase : input.length < 21 + dataLen.toNat ∨
      (21 + dataLen.toNat ≤ input.length ∧ input.length < 25 + dataLen.toNat) ∨
      (25 + dataLen.toNat ≤ input.length ∧ input.length < 25 + dataLen.toNat + contextLen.toNat) ∨
      input.length = 25 + dataLen.toNat + contextLen.toNat := by omega
  rcases hcase with hdata | hcontextLen | hcontext | hflag <;>
    simp (disch := omega) only [Outcome.rejectIf_of_not, Outcome.rejectIf_of, Outcome.ok_bind, Outcome.err_bind,
      usizeAdd_of_lt, readU32_of_prefix hcut, slice_of_prefix hcut, hreads.data_eq,
      hreads.contextLen_eq, hreads.context_eq, Outcome.rejected_err]

/-! ### What an entry reads back as -/

/-- The entries whose every field fits the room the format gives it. -/
def Entry.Encodable (entry : Entry) : Prop :=
  (0 ≤ entry.entryType.toInt ∧ entry.entryType.toInt ≤ 255) ∧
    entry.data.length < 2 ^ 32 ∧ entry.context.length < 2 ^ 32

instance (entry : Entry) : Decidable entry.Encodable := by
  unfold Entry.Encodable
  infer_instance

theorem u32_ofNat_toNat {n : Nat} (h : n < 2 ^ 32) : (UInt32.ofNat n).toNat = n :=
  UInt32.toNat_ofNat_of_lt' h

theorem deserializeEntry_serializeEntry_append {entry : Entry} (h : entry.Encodable) (rest : Bytes) :
    deserializeEntry (serializeEntry entry ++ rest) = .ok entry := by
  obtain ⟨hkind, hdata, hcontext⟩ := h
  rw [serializeEntry_append, deserializeEntry_frame _ _ _ _ _ (u32_ofNat_toNat hdata).symm
    (u32_ofNat_toNat hcontext).symm, u8AsI32_i32AsU8.mpr hkind, flag_ne_zero]

/-- After a length field that overflowed, the decoder still finds a context inside the data. -/
theorem exists_context (data context : Bytes) (flag : UInt8) {dataLen : Nat} (hdataLen : dataLen = data.length % 2 ^ 32) :
    ∃ (contextLen : UInt32) (context' : Bytes) (flag' : UInt8) (rest : Bytes),
      data.drop dataLen ++ (u32ToLeBytes (UInt32.ofNat context.length) ++ (context ++ [flag])) =
        u32ToLeBytes contextLen ++ (context' ++ ([flag'] ++ rest)) ∧ context'.length = contextLen.toNat := by
  suffices hsplit : ∃ (contextLen : UInt32) (tail : Bytes),
      data.drop dataLen ++ (u32ToLeBytes (UInt32.ofNat context.length) ++ (context ++ [flag])) =
        u32ToLeBytes contextLen ++ tail ∧ contextLen.toNat < tail.length by
    obtain ⟨contextLen, tail, heq, hlt⟩ := hsplit
    have htail : tail.take contextLen.toNat ++ ([tail[contextLen.toNat]] ++ tail.drop (contextLen.toNat + 1)) = tail := by
      rw [List.singleton_append, ← List.drop_eq_getElem_cons hlt, List.take_append_drop]
    exact ⟨contextLen, tail.take contextLen.toNat, tail[contextLen.toNat], tail.drop (contextLen.toNat + 1),
      by rw [heq, htail], List.length_take_of_le (by omega)⟩
  by_cases hshort : data.length < 2 ^ 32
  · have hall : data.drop dataLen = [] := List.drop_eq_nil_of_le (by omega)
    refine ⟨UInt32.ofNat context.length, context ++ [flag], by rw [hall, List.nil_append], ?_⟩
    rw [UInt32.toNat_ofNat', List.length_append, List.length_singleton]
    omega
  · obtain ⟨contextLen, tail, heq⟩ := exists_u32ToLeBytes_append (data.drop dataLen ++
      (u32ToLeBytes (UInt32.ofNat context.length) ++ (context ++ [flag]))) (by simp; omega)
    refine ⟨contextLen, tail, heq, ?_⟩
    have hlength := congrArg List.length heq
    have hcontextLen := contextLen.toNat_lt
    simp only [List.length_append, List.length_drop, u32ToLeBytes_length, List.length_singleton] at hlength
    omega

/-- Whatever the lengths, a stored entry reads back, with its own index and term. -/
theorem deserializeEntry_serializeEntry_lossy (entry : Entry) :
    ∃ entry', deserializeEntry (serializeEntry entry) = .ok entry' ∧ entry'.index = entry.index ∧
      entry'.term = entry.term ∧ entry'.entryType = u8AsI32 (i32AsU8 entry.entryType) ∧
      entry'.data.length = entry.data.length % 2 ^ 32 ∧ entry'.context.length < 2 ^ 32 := by
  have hlen : (UInt32.ofNat entry.data.length).toNat = entry.data.length % 2 ^ 32 := UInt32.toNat_ofNat'
  obtain ⟨contextLen, context, flag, rest, htail, hcontext⟩ :=
    exists_context entry.data entry.context (if entry.syncLog then 1 else 0) hlen
  have htake : (entry.data.take (UInt32.ofNat entry.data.length).toNat).length = (UInt32.ofNat entry.data.length).toNat :=
    List.length_take_of_le (by omega)
  have hframe : serializeEntry entry = entryFrame entry.index entry.term (i32AsU8 entry.entryType)
      (UInt32.ofNat entry.data.length) (entry.data.take (UInt32.ofNat entry.data.length).toNat) contextLen context flag
      rest := by
    have happend := serializeEntry_append entry []
    rw [List.append_nil] at happend
    rw [happend, entryFrame, entryFrame, ← htail, ← List.append_assoc (List.take _ _), List.take_append_drop]
    simp only [List.append_nil]
  rw [hframe, deserializeEntry_frame _ _ _ _ _ htake hcontext]
  refine ⟨_, rfl, rfl, rfl, rfl, ?_, ?_⟩
  · rw [← hlen]
    exact htake
  · have hlt := contextLen.toNat_lt
    simp only
    omega

/-- An entry reads back as itself exactly when its fields fit. -/
theorem deserializeEntry_serializeEntry_iff {entry : Entry} :
    deserializeEntry (serializeEntry entry) = .ok entry ↔ entry.Encodable := by
  apply Iff.intro
  · intro hback
    obtain ⟨entry', hread, _, _, hkind, hdata, hcontext⟩ := deserializeEntry_serializeEntry_lossy entry
    obtain rfl : entry = entry' := Outcome.ok.inj (hback.symm.trans hread)
    exact ⟨u8AsI32_i32AsU8.mp hkind.symm, by omega, hcontext⟩
  · intro h
    simpa using deserializeEntry_serializeEntry_append h []

theorem serializeEntry_length (entry : Entry) :
    (serializeEntry entry).length = 26 + entry.data.length + entry.context.length := by
  simp only [serializeEntry, List.length_append, u64ToLeBytes_length, u32ToLeBytes_length, List.length_singleton]
  omega

/-- **The entry codec.** Trailing bytes are ignored, and no strict prefix is accepted. -/
theorem entry_codec {entry : Entry} (h : entry.Encodable) :
    (∀ rest, deserializeEntry (serializeEntry entry ++ rest) = .ok entry) ∧
      ∀ input, input <+: serializeEntry entry → input ≠ serializeEntry entry → (deserializeEntry input).Rejected := by
  refine ⟨deserializeEntry_serializeEntry_append h, fun input hcut hne => ?_⟩
  obtain ⟨_, hdata, hcontext⟩ := h
  have hframe := serializeEntry_append entry []
  rw [List.append_nil] at hframe
  have hreads := entryFrame_reads entry.index entry.term (i32AsU8 entry.entryType) (if entry.syncLog then 1 else 0) []
    (u32_ofNat_toNat hdata).symm (u32_ofNat_toNat hcontext).symm
  rw [← hframe] at hreads
  apply deserializeEntry_truncated hcut hreads
  have hlt : input.length < (serializeEntry entry).length :=
    Nat.lt_of_le_of_ne hcut.length_le (fun heq => hne (hcut.eq_of_length heq))
  rw [serializeEntry_length] at hlt
  rw [u32_ofNat_toNat hdata, u32_ofNat_toNat hcontext]
  omega

theorem entry_codec_noop :
    (∀ rest, deserializeEntry (serializeEntry ⟨0, 2, 7, [], [1, 2], false⟩ ++ rest) = .ok ⟨0, 2, 7, [], [1, 2], false⟩) ∧
      ∀ input, input <+: serializeEntry ⟨0, 2, 7, [], [1, 2], false⟩ →
        input ≠ serializeEntry ⟨0, 2, 7, [], [1, 2], false⟩ → (deserializeEntry input).Rejected :=
  entry_codec ⟨by decide, by decide, by decide⟩

end IrohRaft
