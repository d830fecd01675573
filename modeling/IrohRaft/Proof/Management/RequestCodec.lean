import IrohRaft.Management.Types

/-!
# Requests round trip

A request is decoded from what it is encoded to, whatever follows, and no strict part of its encoding is
decoded: a request that was cut short is never taken for another one.
-/

namespace IrohRaft.Management

open Rust Bincode

variable {bytes rest : Bytes}

/-! ### Times -/

/-- Seconds and nanoseconds that make up the duration. -/
theorem decodeDuration_of_eq {data : Bytes} {secs : UInt64} {nanos : UInt32} {duration : Duration}
    (hdata : data = u64ToLeBytes secs ++ (u32ToLeBytes nanos ++ rest))
    (htotal : secs.toNat * nanosPerSec + nanos.toNat = duration.val) : decodeDuration data = .ok (duration, rest) := by
  rw [decodeDuration, hdata, decodeU64_append, ok_bind]
  dsimp only
  rw [decodeU32_append, ok_bind]
  dsimp only
  split
  · next hfits => rw [show (⟨_, hfits⟩ : Duration) = duration from Subtype.ext htotal, pure_eq_ok]
  · next hfits => exact absurd (htotal ▸ duration.property) hfits

theorem decodeSystemTime_of_eq {data : Bytes} {secs : UInt64} {nanos : UInt32} {time : SystemTime}
    (hdata : data = u64ToLeBytes secs ++ (u32ToLeBytes nanos ++ rest))
    (htotal : ((secs.toNat * nanosPerSec + nanos.toNat : Nat) : Int) = time.val) : decodeSystemTime data = .ok (time, rest) := by
  have hbound : (secs.toNat * nanosPerSec + nanos.toNat) / nanosPerSec < 2 ^ 64 := by
    have hfits := time.property.2
    rw [← htotal, ← Int.natCast_ediv] at hfits
    omega
  rw [decodeSystemTime, hdata, decodeU64_append, ok_bind]
  dsimp only
  rw [decodeU32_append, ok_bind]
  dsimp only
  rw [if_neg (Nat.not_le.mpr hbound)]
  split
  · next hfits => rw [show (⟨_, hfits⟩ : SystemTime) = time from Subtype.ext htotal, pure_eq_ok]
  · next hfits => exact absurd (htotal ▸ time.property) hfits

/-- A number of nanoseconds is put together again from its seconds and what is left. -/
theorem secs_nanos_eq {total : Nat} (h : total / nanosPerSec < 2 ^ 64) :
    (UInt64.ofNat (total / nanosPerSec)).toNat * nanosPerSec + (UInt32.ofNat (total % nanosPerSec)).toNat = total := by
  have hmod : total % nanosPerSec < 2 ^ 32 := Nat.lt_trans (Nat.mod_lt _ (by decide)) (by decide)
  rw [UInt64.toNat_ofNat_of_lt' h, UInt32.toNat_ofNat_of_lt' hmod, Nat.div_add_mod']

theorem decodeDuration_append (duration : Duration) (rest : Bytes) :
    decodeDuration (encodeDuration duration ++ rest) = .ok (duration, rest) :=
  decodeDuration_of_eq (List.append_assoc _ _ _) (secs_nanos_eq duration.property)

theorem decodeSystemTime_append {time : SystemTime} (h : encodeSystemTime time = .ok bytes) (rest : Bytes) :
    decodeSystemTime (bytes ++ rest) = .ok (time, rest) := by
  rw [encodeSystemTime] at h
  split at h
  · next hepoch =>
      obtain rfl := Except.ok.inj h
      have hbound : time.val.toNat / nanosPerSec < 2 ^ 64 := by
        have hfits := time.property.2
        rw [← Int.toNat_of_nonneg hepoch, ← Int.natCast_ediv] at hfits
        omega
      refine decodeSystemTime_of_eq (List.append_assoc _ _ _) ?_
      rw [secs_nanos_eq hbound, Int.toNat_of_nonneg hepoch]
  · exact nomatch h

theorem extends_decodeDuration : Extends decodeDuration := by
  intro data more duration rest h
  obtain ⟨⟨secs, between⟩, hsecs, h⟩ := bind_eq_ok.mp h
  obtain ⟨⟨nanos, after⟩, hnanos, h⟩ := bind_eq_ok.mp h
  refine bind_eq_ok.mpr ⟨_, extends_decodeU64 _ _ _ _ hsecs, bind_eq_ok.mpr ⟨_, extends_decodeU32 _ _ _ _ hnanos, ?_⟩⟩
  dsimp only at h ⊢
  split at h
  · next hfits =>
      obtain ⟨rfl, rfl⟩ := Prod.mk.inj (Except.ok.inj h)
      rw [dif_pos hfits, pure_eq_ok]
  · exact nomatch h

theorem extends_decodeSystemTime : Extends decodeSystemTime := by
  intro data more time rest h
  obtain ⟨⟨secs, between⟩, hsecs, h⟩ := bind_eq_ok.mp h
  obtain ⟨⟨nanos, after⟩, hnanos, h⟩ := bind_eq_ok.mp h
  refine bind_eq_ok.mpr ⟨_, extends_decodeU64 _ _ _ _ hsecs, bind_eq_ok.mpr ⟨_, extends_decodeU32 _ _ _ _ hnanos, ?_⟩⟩
  dsimp only at h ⊢
  split at h
  · exact nomatch h
  next hbound =>
    split at h
    · next hfits =>
        obtain ⟨rfl, rfl⟩ := Prod.mk.inj (Except.ok.inj h)
        rw [if_neg hbound, dif_pos hfits, pure_eq_ok]
    · exact nomatch h

/-! ### Operations -/

theorem MemberRole.decode_append (role : MemberRole) (rest : Bytes) :
    MemberRole.decode (role.encode ++ rest) = .ok (role, rest) :=
  decodeVariant_append rest (by cases role <;> rfl)

theorem MetricCategory.decode_append (category : MetricCategory) (rest : Bytes) :
    MetricCategory.decode (category.encode ++ rest) = .ok (category, rest) :=
  decodeVariant_append rest (by cases category <;> rfl)

theorem decodeOptionU64_append (value : Option UInt64) (rest : Bytes) :
    decodeOption decodeU64 (encodeOption u64ToLeBytes value ++ rest) = .ok (value, rest) :=
  decodeOption_append rest value fun inner _ => decodeU64_append inner rest

theorem RaftState.decode_append (state : RaftState) (rest : Bytes) :
    RaftState.decode (state.encode ++ rest) = .ok (state, rest) := by
  simp only [RaftState.decode, RaftState.encode, List.append_assoc, decodeU64_append, decodeOptionU64_append, ok_bind, pure_eq_ok]

theorem ClusterConfig.decode_append (config : ClusterConfig) (rest : Bytes) :
    ClusterConfig.decode (config.encode ++ rest) = .ok (config, rest) := by
  simp only [ClusterConfig.encode, List.append_assoc]
  refine bind_eq_ok.mpr ⟨_, decodeString_append _ _, ?_⟩
  refine bind_eq_ok.mpr ⟨_, decodeDuration_append _ _, ?_⟩
  refine bind_eq_ok.mpr ⟨_, decodeDuration_append _ _, ?_⟩
  simp [decodeU64_append]

theorem BackupMetadata.decode_append {metadata : BackupMetadata} (h : metadata.encode = .ok bytes) (rest : Bytes) :
    BackupMetadata.decode (bytes ++ rest) = .ok (metadata, rest) := by
  obtain ⟨createdAt, hcreatedAt, h⟩ := bind_eq_ok.mp h
  obtain rfl := Except.ok.inj h
  simp only [BackupMetadata.decode, List.append_assoc, decodeString_append, decodeSystemTime_append hcreatedAt,
    RaftState.decode_append, ok_bind, pure_eq_ok]

/-- The values a `Vec` can hold. -/
def ManagementOperation.FitsVec : ManagementOperation → Prop
  | .getMetrics categories => categories.length < 2 ^ 64
  | _ => True

theorem ManagementOperation.decode_append {operation : ManagementOperation} (hfits : operation.FitsVec)
    (h : operation.encode = .ok bytes) (rest : Bytes) : ManagementOperation.decode (bytes ++ rest) = .ok (operation, rest) := by
  cases operation with
  | createBackup metadata =>
      obtain ⟨inner, hinner, h⟩ := bind_eq_ok.mp h
      obtain rfl := Except.ok.inj h
      rw [ManagementOperation.decode, List.append_assoc, decodeU32_append]
      simp [BackupMetadata.decode_append hinner]
  | getMetrics categories =>
      obtain rfl := Except.ok.inj h
      rw [ManagementOperation.decode, List.append_assoc, decodeU32_append]
      simp [decodeSeq_append (fun category _ => MetricCategory.decode_append category) hfits]
  | _ =>
      obtain rfl := Except.ok.inj h
      rw [ManagementOperation.decode]
      simp [decodeU32_append, decodeU64_append, decodeString_append, MemberRole.decode_append, decodeOptionU64_append,
        ClusterConfig.decode_append]

theorem extends_raftState : Extends RaftState.decode := by
  have hoption : Extends (decodeOption decodeU64) := extends_decodeOption extends_decodeU64
  exact extends_decodeU64.bind fun _ => hoption.bind fun _ => hoption.bind fun _ => extends_decodeU64.bind fun _ =>
    extends_decodeU64.bind fun _ => extends_decodeU64.bind fun _ => .ok _

theorem extends_clusterConfig : Extends ClusterConfig.decode :=
  extends_decodeString.bind fun _ => extends_decodeDuration.bind fun _ => extends_decodeDuration.bind fun _ =>
    extends_decodeU64.bind fun _ => extends_decodeU64.bind fun _ => extends_decodeU64.bind fun _ => .ok _

theorem extends_backupMetadata : Extends BackupMetadata.decode :=
  extends_decodeString.bind fun _ => extends_decodeString.bind fun _ => extends_decodeSystemTime.bind fun _ =>
    extends_raftState.bind fun _ => .ok _

theorem extends_operation : Extends ManagementOperation.decode := by
  have hrole : Extends MemberRole.decode := extends_decodeVariant _
  have hcategories : Extends (decodeSeq MetricCategory.decode) := extends_decodeSeq (extends_decodeVariant _)
  have hoption : Extends (decodeOption decodeU64) := extends_decodeOption extends_decodeU64
  refine extends_decodeU32.bind fun variant => ?_
  dsimp only
  split
  · exact .ok _
  · refine extends_decodeU64.bind fun _ => ?_
    dsimp only
    refine extends_decodeString.bind fun _ => ?_
    dsimp only
    refine hrole.bind fun _ => ?_
    dsimp only
    exact .pure _
  · refine extends_decodeU64.bind fun _ => ?_
    dsimp only
    exact .pure _
  · refine extends_decodeU64.bind fun _ => ?_
    dsimp only
    refine hrole.bind fun _ => ?_
    dsimp only
    exact .pure _
  · refine hoption.bind fun _ => ?_
    dsimp only
    exact .pure _
  · exact .ok _
  · exact .ok _
  · refine extends_clusterConfig.bind fun _ => ?_
    dsimp only
    exact .pure _
  · refine hcategories.bind fun _ => ?_
    dsimp only
    exact .pure _
  · exact .ok _
  · exact .ok _
  · refine extends_decodeU64.bind fun _ => ?_
    dsimp only
    exact .pure _
  · refine extends_decodeU64.bind fun _ => ?_
    dsimp only
    refine extends_decodeU64.bind fun _ => ?_
    dsimp only
    exact .pure _
  · exact .ok _
  · exact .ok _
  · refine extends_backupMetadata.bind fun _ => ?_
    dsimp only
    exact .pure _
  · refine extends_decodeString.bind fun _ => ?_
    dsimp only
    exact .pure _
  · exact .ok _
  · exact .error _

/-! ### Requests -/

theorem ManagementRequest.decode_encode {request : ManagementRequest} (hfits : request.operation.FitsVec)
    (h : request.encode = .ok bytes) : ManagementRequest.decode bytes = .ok (request, []) := by
  obtain ⟨operation, hoperation, h⟩ := bind_eq_ok.mp h
  obtain rfl := Except.ok.inj h
  have hauthorization := decodeOption_append [] request.authorization fun inner _ => decodeString_append inner []
  rw [List.append_nil] at hauthorization
  have htimeout := decodeOption_append (encodeOption encodeString request.authorization) request.timeout
    fun inner _ => decodeDuration_append inner _
  simp only [ManagementRequest.decode, ManagementOperation.decode_append hfits hoperation, htimeout, hauthorization, ok_bind, pure_eq_ok]

theorem extends_request : Extends ManagementRequest.decode :=
  extends_operation.bind fun _ => (extends_decodeOption extends_decodeDuration).bind fun _ =>
    (extends_decodeOption extends_decodeString).bind fun _ => .ok _

end IrohRaft.Management
