import IrohRaft.Proof.Storage.EntryCodec

/-!
# Stored bytes that nobody wrote

A corrupt record can hold any two lengths. Padded with enough bytes it is a frame whatever they are, so
the record is cut from a frame: before the last field it is rejected, and after it the record starts with
a frame, which the decoder reads as `deserializeEntry_frame` says. No read leaves the bytes either way.
-/

namespace IrohRaft

open Rust

theorem entryFrame_append (index term : UInt64) (kind : UInt8) (dataLen : UInt32) (data : Bytes) (contextLen : UInt32)
    (context : Bytes) (flag : UInt8) (rest : Bytes) :
    entryFrame index term kind dataLen data contextLen context flag rest =
      entryFrame index term kind dataLen data contextLen context flag [] ++ rest := by
  simp only [entryFrame, List.append_assoc, List.append_nil]

theorem entryFrame_length (index term : UInt64) (kind : UInt8) (dataLen : UInt32) (data : Bytes) (contextLen : UInt32)
    (context : Bytes) (flag : UInt8) :
    (entryFrame index term kind dataLen data contextLen context flag []).length = 26 + data.length + context.length := by
  simp only [entryFrame, List.length_append, u64ToLeBytes_length, u32ToLeBytes_length, List.length_singleton, List.length_nil]
  omega

/-- As many bytes as two lengths can ask for are a frame, whatever they hold. -/
theorem exists_entryFrame {whole : Bytes} (h : 2 ^ 33 + 26 ≤ whole.length) :
    ∃ (index term : UInt64) (kind : UInt8) (dataLen : UInt32) (data : Bytes) (contextLen : UInt32) (context : Bytes)
      (flag : UInt8) (rest : Bytes), whole = entryFrame index term kind dataLen data contextLen context flag rest ∧
        data.length = dataLen.toNat ∧ context.length = contextLen.toNat := by
  obtain ⟨index, atTerm, rfl⟩ := exists_u64ToLeBytes_append whole (by omega)
  rw [List.length_append, u64ToLeBytes_length] at h
  obtain ⟨term, atKind, rfl⟩ := exists_u64ToLeBytes_append atTerm (by omega)
  rw [List.length_append, u64ToLeBytes_length] at h
  obtain ⟨kind, atDataLen, rfl⟩ := List.exists_cons_of_length_pos (l := atKind) (by omega)
  rw [List.length_cons] at h
  obtain ⟨dataLen, atData, rfl⟩ := exists_u32ToLeBytes_append atDataLen (by omega)
  rw [List.length_append, u32ToLeBytes_length] at h
  have hdataLt := dataLen.toNat_lt
  have hatContext := List.length_drop (i := dataLen.toNat) (l := atData)
  obtain ⟨contextLen, atContext, hcontextLen⟩ := exists_u32ToLeBytes_append (atData.drop dataLen.toNat) (by omega)
  rw [hcontextLen, List.length_append, u32ToLeBytes_length] at hatContext
  have hcontextLt := contextLen.toNat_lt
  have hatFlag := List.length_drop (i := contextLen.toNat) (l := atContext)
  obtain ⟨flag, rest, hflag⟩ := List.exists_cons_of_length_pos (l := atContext.drop contextLen.toNat) (by omega)
  refine ⟨index, term, kind, dataLen, atData.take dataLen.toNat, contextLen, atContext.take contextLen.toNat, flag, rest,
    ?_, List.length_take_of_le (by omega), List.length_take_of_le (by omega)⟩
  rw [entryFrame, List.singleton_append, List.singleton_append, ← hflag, List.take_append_drop, ← hcontextLen,
    List.take_append_drop]

/-- What the bytes of a record are to the decoder. -/
theorem record_cases (record : Bytes) :
    (deserializeEntry record).Rejected ∨
    ∃ (index term : UInt64) (kind : UInt8) (dataLen : UInt32) (data : Bytes) (contextLen : UInt32) (context : Bytes)
      (flag : UInt8) (rest : Bytes), record = entryFrame index term kind dataLen data contextLen context flag rest ∧
        data.length = dataLen.toNat ∧ context.length = contextLen.toNat := by
  have hlong : 2 ^ 33 + 26 ≤ (record ++ List.replicate (2 ^ 33 + 26) 0).length := by
    rw [List.length_append, List.length_replicate]
    omega
  obtain ⟨index, term, kind, dataLen, data, contextLen, context, flag, beyond, hpadded, hdata, hcontext⟩ :=
    exists_entryFrame hlong
  have hcut : record <+: entryFrame index term kind dataLen data contextLen context flag beyond := ⟨_, hpadded⟩
  by_cases hshort : record.length ≤ 25 + dataLen.toNat + contextLen.toNat
  · exact .inl (deserializeEntry_truncated hcut (entryFrame_reads index term kind flag beyond hdata hcontext) hshort)
  · have hlength := entryFrame_length index term kind dataLen data contextLen context flag
    rw [entryFrame_append] at hcut
    obtain ⟨rest, hrest⟩ := List.prefix_of_prefix_length_le (List.prefix_append _ beyond) hcut (by omega)
    refine .inr ⟨index, term, kind, dataLen, data, contextLen, context, flag, rest, ?_, hdata, hcontext⟩
    rw [entryFrame_append, hrest]

/-- The bytes an accepted record starts with, up to the flag. -/
theorem serializeEntry_of_frame (index term : UInt64) (kind : UInt8) {dataLen contextLen : UInt32} {data context : Bytes}
    (syncLog : Bool) (hdata : data.length = dataLen.toNat) (hcontext : context.length = contextLen.toNat) :
    serializeEntry { entryType := u8AsI32 kind, term, index, data, context, syncLog } =
      entryFrame index term kind dataLen data contextLen context (if syncLog then 1 else 0) [] := by
  have hkind : i32AsU8 (u8AsI32 kind) = kind := by
    apply UInt8.toNat_inj.mp
    have hvalue := toNat_i32AsU8 (u8AsI32 kind)
    have hlt := kind.toNat_lt
    rw [toInt_u8AsI32] at hvalue
    omega
  have happend := serializeEntry_append { entryType := u8AsI32 kind, term, index, data, context, syncLog } []
  rw [List.append_nil] at happend
  rw [happend, hkind, hdata, hcontext, UInt32.ofNat_toNat, UInt32.ofNat_toNat]

/-- **Corrupt records.** The decoder never panics, and a record it accepts starts with the entry as the
encoder writes it, but for which byte stands for a set flag. -/
theorem deserializeEntry_safe (record : Bytes) :
    deserializeEntry record ≠ .panic ∧
    ∀ entry, deserializeEntry record = .ok entry →
      ∃ fields flag rest, record = fields ++ flag :: rest ∧
        serializeEntry entry = fields ++ [if entry.syncLog then 1 else 0] ∧ (entry.syncLog = true ↔ flag ≠ 0) ∧
        deserializeEntry (serializeEntry entry) = .ok entry := by
  cases record_cases record with
  | inl hrejected =>
      obtain ⟨error, herror⟩ := hrejected
      rw [herror]
      refine ⟨by simp, fun entry hok => ?_⟩
      cases hok
  | inr hframe =>
      obtain ⟨index, term, kind, dataLen, data, contextLen, context, flag, rest, hrecord, hdata, hcontext⟩ := hframe
      have hread := deserializeEntry_frame index term kind flag rest hdata hcontext
      rw [← hrecord] at hread
      rw [hread]
      refine ⟨by simp, fun entry hok => ?_⟩
      obtain rfl := Outcome.ok.inj hok
      have hwritten := serializeEntry_of_frame index term kind (flag != 0) hdata hcontext
      refine ⟨u64ToLeBytes index ++ (u64ToLeBytes term ++ ([kind] ++ (u32ToLeBytes dataLen ++ (data ++
        (u32ToLeBytes contextLen ++ context))))), flag, rest, ?_, ?_, by simp, ?_⟩
      · rw [hrecord, entryFrame]
        simp only [List.append_assoc, List.cons_append, List.nil_append]
      · rw [hwritten, entryFrame]
        simp only [List.append_assoc, List.append_nil]
      · rw [hwritten, deserializeEntry_frame index term kind _ [] hdata hcontext, flag_ne_zero]

end IrohRaft
