import IrohRaft.StateMachine.KeyValue

/-!
# The encodings of commands and states

A command's encoding starts with its variant, so it is never the empty entry a new leader commits. A
state reads back whenever its date does.
-/

namespace IrohRaft

open Rust Bincode Std

namespace KvCommand

theorem decode_encode (command : KvCommand) (rest : Bytes) : decode (encode command ++ rest) = .ok (command, rest) := by
  have hset : (0 : UInt32).toNat = 0 := rfl
  have hdelete : (1 : UInt32).toNat = 1 := rfl
  have hclear : (2 : UInt32).toNat = 2 := rfl
  cases command <;>
    simp only [encode, decode, List.append_assoc, decodeU32_append, decodeString_append, ok_bind, pure_eq_ok, hset, hdelete,
      hclear]

theorem serde_roundTrips (command : KvCommand) : serde.RoundTrips command := by
  apply Serde.ofDecoder_roundTrips
  simpa using decode_encode command []

theorem serialize_ne_nil (command : KvCommand) : serde.serialize command ≠ [] := by
  cases command <;> exact List.cons_ne_nil _ _

end KvCommand

namespace KvState

/-- A map is determined by the pairs that are iterated over. -/
theorem ofList_toList (data : Rust.HashMap Str Str) : (.ofList data.toList : Rust.HashMap Str Str) = data := by
  apply ExtTreeMap.ext_getElem?
  intro key
  cases hvalue : data[key]? with
  | some value =>
      have hmem : (key, value) ∈ data.toList := ExtTreeMap.mem_toList_iff_getElem?_eq_some.mpr hvalue
      exact ExtTreeMap.getElem?_ofList_of_mem Std.compare_self data.distinct_keys_toList hmem
  | none =>
      apply ExtTreeMap.getElem?_ofList_of_contains_eq_false
      rw [← Bool.not_eq_true, List.contains_iff_mem]
      intro hmem
      obtain ⟨pair, hpair, hkey⟩ := List.mem_map.mp hmem
      have hsome : data[pair.1]? = some pair.2 := ExtTreeMap.mem_toList_iff_getElem?_eq_some.mp hpair
      rw [hkey, hvalue] at hsome
      cases hsome

theorem serde_roundTrips {chrono : ChronoText} {state : KvState} (hsize : state.data.size < 2 ^ 64)
    (hdate : chrono.parse (chrono.toText state.metadata.lastUpdated) = .ok state.metadata.lastUpdated) :
    (serde chrono).RoundTrips state := by
  have hlength : state.data.toList.length < 2 ^ 64 := by rwa [ExtTreeMap.length_toList]
  have hpairs := decodeSeq_append
    (fun pair _ => decodePair_append (decodeString_append pair.1) (decodeString_append pair.2)) hlength
  have hversion := decodeU64_append state.metadata.version []
  rw [List.append_nil] at hversion
  apply Serde.ofDecoder_roundTrips
  simp only [encode, decode, hpairs, decodeU64_append, decodeString_append, hdate, hversion, ok_bind, pure_eq_ok, ofList_toList]

end KvState

/-- chrono at the epoch. -/
def ChronoText.epoch : ChronoText where
  toText _ := ⟨"1970-01-01T00:00:00Z", by decide⟩
  parse text := if text.val = "1970-01-01T00:00:00Z" then .ok 0 else .error "input contains invalid characters"

end IrohRaft
