import IrohRaft.Storage.Codec

/-!
# The hard state and conf state codecs

The four id lists of a conf state are read by one loop behind one running cursor. `readNodeIds_eq`
reads a list off the front of the unread bytes and leaves the cursor right after it, so the four
reads compose. In the other direction a read that is not rejected has found a list there
(`readNodeIds_cases`), so the decoder accepts exactly the inputs that start with four lists: nothing
asks for the flag behind them.
-/

namespace IrohRaft

open Rust

theorem deserializeHardState_serializeHardState (hs : HardState) :
    deserializeHardState (serializeHardState hs) = .ok hs := by
  have hlength : (serializeHardState hs).length = 24 := by
    simp only [serializeHardState, List.length_append, u64ToLeBytes_length]
  have htermAt := unread_start (serializeHardState hs)
  nth_rewrite 2 [serializeHardState] at htermAt
  rw [List.append_assoc] at htermAt
  have hvoteAt := htermAt.advance
  have hcommitAt := hvoteAt.advance
  rw [← List.append_nil (u64ToLeBytes hs.commit)] at hcommitAt
  simp only [u64ToLeBytes_length] at hvoteAt hcommitAt
  rw [deserializeHardState, Outcome.rejectIf_of_not _ (not_not.mpr hlength)]
  simp (disch := omega) only [Outcome.ok_bind, htermAt.readU64_eq, hvoteAt.readU64_eq, hcommitAt.readU64_eq,
    Outcome.pure_eq_ok]

/-! ### Node id lists -/

@[simp] theorem flatMap_u64ToLeBytes_length (ids : List UInt64) : (ids.flatMap u64ToLeBytes).length = 8 * ids.length := by
  induction ids with
  | nil => rfl
  | cons id rest ih =>
      rw [List.flatMap_cons, List.length_append, u64ToLeBytes_length, ih, List.length_cons]
      omega

@[simp] theorem serializeNodeIds_length (ids : List UInt64) : (serializeNodeIds ids).length = 4 + 8 * ids.length := by
  rw [serializeNodeIds, List.length_append, u32ToLeBytes_length, flatMap_u64ToLeBytes_length]

theorem readNodeIdLoop_eq {data rest : Bytes} (element : String) (ids : List UInt64) (acc : List UInt64) {cursor : Nat}
    (h : Unread data cursor (ids.flatMap u64ToLeBytes ++ rest)) (hcursor : cursor + 8 * ids.length < 2 ^ 64) :
    readNodeIdLoop data element ids.length cursor acc = .ok (acc ++ ids, cursor + 8 * ids.length) := by
  induction ids generalizing acc cursor with
  | nil => simp [readNodeIdLoop]
  | cons id tail ih =>
      rw [List.flatMap_cons, List.append_assoc] at h
      have htail := h.advance
      have hlength := h.length_eq
      rw [u64ToLeBytes_length] at htail
      simp only [List.length_append, u64ToLeBytes_length, List.length_cons] at hlength hcursor ⊢
      have hrest := ih (acc ++ [id]) htail (by omega)
      simp (disch := omega) only [readNodeIdLoop, usizeAdd_of_lt, Outcome.ok_bind, Outcome.rejectIf_of_not, h.readU64_eq,
        hrest, List.append_assoc, List.singleton_append]
      congr 2
      omega

theorem readNodeIds_eq {data rest : Bytes} (list element : String) {ids : List UInt64} {cursor : Nat}
    (hids : ids.length < 2 ^ 32) (h : Unread data cursor (serializeNodeIds ids ++ rest)) (hcursor : cursor < 2 ^ 63) :
    readNodeIds data list element cursor = .ok (ids, cursor + (serializeNodeIds ids).length) := by
  have hlength := h.length_eq
  rw [List.length_append, serializeNodeIds_length] at hlength
  rw [serializeNodeIds, List.append_assoc] at h
  have hidsAt := h.advance
  rw [u32ToLeBytes_length] at hidsAt
  have hloop := readNodeIdLoop_eq element ids [] hidsAt (by omega)
  have hcount : (UInt32.ofNat ids.length).toNat = ids.length := UInt32.toNat_ofNat_of_lt' hids
  simp (disch := omega) only [readNodeIds, usizeAdd_of_lt, Outcome.ok_bind, Outcome.rejectIf_of_not, h.readU32_eq, hcount,
    hloop, List.nil_append, serializeNodeIds_length, Nat.add_assoc]

theorem readNodeIdLoop_cases {data rest : Bytes} (element : String) (count : Nat) (acc : List UInt64) {cursor : Nat}
    (h : Unread data cursor rest) (hcursor : cursor + 8 * count < 2 ^ 64) :
    (readNodeIdLoop data element count cursor acc).Rejected ∨
      ∃ (ids : List UInt64) (tail : Bytes), ids.length = count ∧ rest = ids.flatMap u64ToLeBytes ++ tail := by
  induction count generalizing acc cursor rest with
  | zero => exact .inr ⟨[], rest, rfl, rfl⟩
  | succ count ih =>
      have hlength := h.length_eq
      have hstop : (usizeAdd cursor 8 : Outcome RaftError Nat) = .ok (cursor + 8) := usizeAdd_of_lt (by omega)
      rw [readNodeIdLoop, hstop, Outcome.ok_bind]
      by_cases hshort : cursor + 8 > data.length
      · rw [Outcome.rejectIf_of _ hshort]
        exact .inl (Outcome.rejected_err _)
      · obtain ⟨id, more, hmore⟩ := exists_u64ToLeBytes_append rest (by omega)
        rw [hmore] at h
        have hnext := h.advance
        rw [u64ToLeBytes_length] at hnext
        rw [Outcome.rejectIf_of_not _ hshort, Outcome.ok_bind, h.readU64_eq (by omega), Outcome.ok_bind, Outcome.ok_bind]
        cases ih (acc ++ [id]) hnext (by omega) with
        | inl hrejected => exact .inl hrejected
        | inr hfound =>
            obtain ⟨ids, tail, hcount, htail⟩ := hfound
            refine .inr ⟨id :: ids, tail, by rw [List.length_cons, hcount], ?_⟩
            rw [hmore, htail, List.flatMap_cons, List.append_assoc]

/-- A list is read, or the input is rejected: the count is at most what four bytes hold, so the cursor
cannot overflow. -/
theorem readNodeIds_cases {data rest : Bytes} (list element : String) {cursor : Nat} (h : Unread data cursor rest)
    (hcursor : cursor < 2 ^ 63) :
    (readNodeIds data list element cursor).Rejected ∨
      ∃ ids tail, ids.length < 2 ^ 32 ∧ rest = serializeNodeIds ids ++ tail := by
  have hlength := h.length_eq
  have hstop : (usizeAdd cursor 4 : Outcome RaftError Nat) = .ok (cursor + 4) := usizeAdd_of_lt (by omega)
  rw [readNodeIds, hstop, Outcome.ok_bind]
  by_cases hshort : cursor + 4 > data.length
  · rw [Outcome.rejectIf_of _ hshort]
    exact .inl (Outcome.rejected_err _)
  · obtain ⟨count, more, hmore⟩ := exists_u32ToLeBytes_append rest (by omega)
    have hcount := count.toNat_lt
    rw [hmore] at h
    have hnext := h.advance
    rw [u32ToLeBytes_length] at hnext
    rw [Outcome.rejectIf_of_not _ hshort, Outcome.ok_bind, h.readU32_eq (by omega), Outcome.ok_bind]
    cases readNodeIdLoop_cases element count.toNat [] hnext (by omega) with
    | inl hrejected => exact .inl hrejected
    | inr hfound =>
        obtain ⟨ids, tail, hids, htail⟩ := hfound
        refine .inr ⟨ids, tail, by omega, ?_⟩
        rw [hmore, htail, serializeNodeIds, hids, UInt32.ofNat_toNat, List.append_assoc]

/-- Past a read that is not rejected stands a list, and the decoder goes on behind it. -/
theorem readNodeIds_found {β : Type} {data rest : Bytes} {list element : String} {cursor : Nat}
    {next : List UInt64 × Nat → Outcome RaftError β} (hat : Unread data cursor rest) (hcursor : cursor < 2 ^ 63)
    (h : ¬ (readNodeIds data list element cursor >>= next).Rejected) :
    ∃ ids tail, ids.length < 2 ^ 32 ∧ rest = serializeNodeIds ids ++ tail ∧
      Unread data (cursor + (serializeNodeIds ids).length) tail ∧
      ¬ (next (ids, cursor + (serializeNodeIds ids).length)).Rejected := by
  cases readNodeIds_cases list element hat hcursor with
  | inl hrejected =>
      obtain ⟨error, herror⟩ := hrejected
      rw [herror] at h
      exact absurd (Outcome.rejected_err _) h
  | inr hfound =>
      obtain ⟨ids, tail, hids, htail⟩ := hfound
      rw [htail] at hat
      rw [readNodeIds_eq list element hids hat hcursor, Outcome.ok_bind] at h
      exact ⟨ids, tail, hids, htail, hat.advance, h⟩

/-! ### Conf states -/

/-- The conf states whose list lengths fit the room the format gives them. -/
def ConfState.Encodable (cs : ConfState) : Prop :=
  cs.voters.length < 2 ^ 32 ∧ cs.learners.length < 2 ^ 32 ∧ cs.votersOutgoing.length < 2 ^ 32 ∧
    cs.learnersNext.length < 2 ^ 32

theorem deserializeConfState_serializeConfState {cs : ConfState} (h : cs.Encodable) :
    deserializeConfState (serializeConfState cs) = .ok cs := by
  obtain ⟨hvoters, hlearners, hvotersOutgoing, hlearnersNext⟩ := h
  have hvotersAt := unread_start (serializeConfState cs)
  nth_rewrite 2 [serializeConfState] at hvotersAt
  simp only [List.append_assoc] at hvotersAt
  have hlearnersAt := hvotersAt.advance
  have hvotersOutgoingAt := hlearnersAt.advance
  have hlearnersNextAt := hvotersOutgoingAt.advance
  have hflagAt := hlearnersNextAt.advance
  have hlength := hflagAt.length_eq
  have hsizes := And.intro (serializeNodeIds_length cs.voters) (And.intro (serializeNodeIds_length cs.learners)
    (And.intro (serializeNodeIds_length cs.votersOutgoing) (serializeNodeIds_length cs.learnersNext)))
  rw [List.length_singleton] at hlength
  simp (disch := omega) only [deserializeConfState, Outcome.rejectIf_of_not,
    readNodeIds_eq _ _ hvoters hvotersAt, readNodeIds_eq _ _ hlearners hlearnersAt,
    readNodeIds_eq _ _ hvotersOutgoing hvotersOutgoingAt, readNodeIds_eq _ _ hlearnersNext hlearnersNextAt, if_pos,
    hflagAt.index_eq, map_pure, ← Outcome.pure_eq_ok, pure_bind, flag_ne_zero]

/-- A conf state's encoding up to the flag. -/
def serializeMembers (cs : ConfState) : Bytes :=
  serializeNodeIds cs.voters ++
  (serializeNodeIds cs.learners ++
  (serializeNodeIds cs.votersOutgoing ++
  serializeNodeIds cs.learnersNext))

theorem serializeConfState_eq (cs : ConfState) :
    serializeConfState cs = serializeMembers cs ++ [if cs.autoLeave then 1 else 0] := by
  simp only [serializeConfState, serializeMembers, List.append_assoc]

theorem dropLast_serializeConfState (cs : ConfState) : (serializeConfState cs).dropLast = serializeMembers cs := by
  rw [serializeConfState_eq, List.dropLast_concat]

/-- What the decoder makes of the bytes after the four lists: without any, the flag is false. -/
def autoLeaveOf (rest : Bytes) : Bool := rest.head?.any (· != 0)

/-- Four lists at the front of the input are all the decoder needs. -/
theorem deserializeConfState_append {cs : ConfState} (h : cs.Encodable) (rest : Bytes) :
    deserializeConfState (serializeMembers cs ++ rest) = .ok { cs with autoLeave := autoLeaveOf rest } := by
  obtain ⟨hvoters, hlearners, hvotersOutgoing, hlearnersNext⟩ := h
  have hvotersAt := unread_start (serializeMembers cs ++ rest)
  nth_rewrite 2 [serializeMembers] at hvotersAt
  simp only [List.append_assoc] at hvotersAt
  have hlearnersAt := hvotersAt.advance
  have hvotersOutgoingAt := hlearnersAt.advance
  have hlearnersNextAt := hvotersOutgoingAt.advance
  have hflagAt := hlearnersNextAt.advance
  have hlength := hflagAt.length_eq
  have hsizes := And.intro (serializeNodeIds_length cs.voters) (And.intro (serializeNodeIds_length cs.learners)
    (And.intro (serializeNodeIds_length cs.votersOutgoing) (serializeNodeIds_length cs.learnersNext)))
  simp (disch := omega) only [deserializeConfState, Outcome.rejectIf_of_not, Outcome.ok_bind,
    readNodeIds_eq _ _ hvoters hvotersAt, readNodeIds_eq _ _ hlearners hlearnersAt,
    readNodeIds_eq _ _ hvotersOutgoing hvotersOutgoingAt, readNodeIds_eq _ _ hlearnersNext hlearnersNextAt]
  cases rest with
  | nil =>
      rw [List.length_nil] at hlength
      rw [if_neg (by omega)]
      rfl
  | cons flag more =>
      rw [List.length_cons] at hlength
      rw [if_pos (by omega), hflagAt.index_eq]
      rfl

/-- Unless the input is rejected it starts with four lists: no count or id is read past the end. -/
theorem exists_members_of_not_rejected {data : Bytes} (h : ¬ (deserializeConfState data).Rejected) :
    ∃ cs, cs.Encodable ∧ ∃ rest, data = serializeMembers cs ++ rest := by
  by_cases hshort : data.length < 16
  · rw [deserializeConfState, Outcome.rejectIf_of _ hshort] at h
    exact absurd (Outcome.rejected_err _) h
  rw [deserializeConfState, Outcome.rejectIf_of_not _ hshort, Outcome.ok_bind] at h
  obtain ⟨voters, rest, hvoters, hdata, hlearnersAt, h⟩ := readNodeIds_found (unread_start data) (by omega) h
  obtain ⟨learners, rest, hlearners, hrest, hvotersOutgoingAt, h⟩ := readNodeIds_found hlearnersAt (by simp; omega) h
  subst hrest
  obtain ⟨votersOutgoing, rest, hvotersOutgoing, hrest, hlearnersNextAt, h⟩ :=
    readNodeIds_found hvotersOutgoingAt (by simp; omega) h
  subst hrest
  obtain ⟨learnersNext, rest, hlearnersNext, hrest, _, _⟩ := readNodeIds_found hlearnersNextAt (by simp; omega) h
  subst hrest
  refine ⟨{ voters, learners, votersOutgoing, learnersNext, autoLeave := false },
    ⟨hvoters, hlearners, hvotersOutgoing, hlearnersNext⟩, rest, ?_⟩
  simp only [hdata, serializeMembers, List.append_assoc]

theorem deserializeConfState_rejected_iff (data : Bytes) :
    (deserializeConfState data).Rejected ↔ ∀ cs, cs.Encodable → ¬ serializeMembers cs <+: data := by
  apply Iff.intro
  · intro hrejected cs hcs hstarts
    obtain ⟨error, herror⟩ := hrejected
    obtain ⟨rest, rfl⟩ := hstarts
    rw [deserializeConfState_append hcs] at herror
    cases herror
  · intro hnone
    by_contra hread
    obtain ⟨cs, hcs, rest, hdata⟩ := exists_members_of_not_rejected hread
    exact hnone cs hcs ⟨rest, hdata.symm⟩

/-- **The conf state codec.** What was written is read back; no input makes the decoder panic; and what
it accepts is the encoding of what it returns, up to the flag. -/
theorem confState_codec :
    (∀ cs : ConfState, cs.Encodable → deserializeConfState (serializeConfState cs) = .ok cs) ∧
      ∀ data : Bytes, deserializeConfState data ≠ .panic ∧
        ∀ cs, deserializeConfState data = .ok cs → (serializeConfState cs).dropLast <+: data := by
  refine ⟨fun cs hcs => deserializeConfState_serializeConfState hcs, fun data => ?_⟩
  by_cases hrejected : (deserializeConfState data).Rejected
  · obtain ⟨error, herror⟩ := hrejected
    rw [herror]
    exact ⟨nofun, nofun⟩
  · obtain ⟨found, hfound, rest, hdata⟩ := exists_members_of_not_rejected hrejected
    rw [hdata, deserializeConfState_append hfound]
    refine ⟨nofun, fun cs hcs => ?_⟩
    cases hcs
    rw [dropLast_serializeConfState]
    exact List.prefix_append _ _

/-- **Truncated conf states.** An input is rejected exactly when no conf state's encoding without its
flag stands at its front. Among the strict prefixes of an encoding that leaves out one: the encoding
without its flag is accepted. -/
theorem deserializeConfState_truncated_iff (cs : ConfState) {input : Bytes} (hcut : input <+: serializeConfState cs)
    (hne : input ≠ serializeConfState cs) :
    ((deserializeConfState input).Rejected ↔ ∀ other : ConfState, other.Encodable →
        ¬ (serializeConfState other).dropLast <+: input) ∧
      (cs.Encodable → ((deserializeConfState input).Rejected ↔ input ≠ (serializeConfState cs).dropLast)) := by
  simp only [dropLast_serializeConfState]
  refine ⟨deserializeConfState_rejected_iff input, fun hcs => ?_⟩
  rw [deserializeConfState_rejected_iff input]
  apply Iff.intro
  · intro hnone heq
    exact hnone cs hcs (heq ▸ List.prefix_rfl)
  · intro hshort other hother hstarts
    -- the whole encoding starts with both, so both have the same lists
    obtain ⟨rest, hrest⟩ := hstarts.trans hcut
    have hread := deserializeConfState_append hother rest
    rw [hrest, deserializeConfState_serializeConfState hcs] at hread
    have hmembers : serializeMembers cs = serializeMembers other := by
      rw [Outcome.ok.inj hread]
      rfl
    rw [← hmembers] at hstarts
    apply hshort
    apply (hstarts.eq_of_length_le _).symm
    have hlt : input.length < (serializeConfState cs).length :=
      Nat.lt_of_le_of_ne hcut.length_le (fun heq => hne (hcut.eq_of_length heq))
    rw [serializeConfState_eq, List.length_append, List.length_singleton] at hlt
    omega

/-- A joint configuration that leaves by itself, cut in the middle of an id. -/
theorem deserializeConfState_truncated_joint :
    ((deserializeConfState [1, 0, 0, 0, 7]).Rejected ↔ ∀ other : ConfState, other.Encodable →
        ¬ (serializeConfState other).dropLast <+: [1, 0, 0, 0, 7]) ∧
      ((ConfState.mk [7] [] [8] [] true).Encodable → ((deserializeConfState [1, 0, 0, 0, 7]).Rejected ↔
        [1, 0, 0, 0, 7] ≠ (serializeConfState ⟨[7], [], [8], [], true⟩).dropLast)) :=
  deserializeConfState_truncated_iff ⟨[7], [], [8], [], true⟩ (by decide) (by decide)

/-- Without its flag a configuration that leaves by itself reads as one that does not. -/
theorem not_deserializeConfState_truncated :
    ¬ ∀ (cs : ConfState) (input : Bytes), input <+: serializeConfState cs → input ≠ serializeConfState cs →
      (deserializeConfState input).Rejected := by
  intro hall
  have hread : deserializeConfState (List.replicate 16 0) = .ok ⟨[], [], [], [], false⟩ := by decide
  obtain ⟨error, herror⟩ := hall ⟨[], [], [], [], true⟩ (List.replicate 16 0) (by decide) (by decide)
  rw [hread] at herror
  cases herror

end IrohRaft
