import IrohRaft.Library.Bytes

/-!
# Strings and hash maps

A Rust string is UTF-8 text whose length in bytes fits a `usize`. A number printed in decimal is read
back off the front of a text, as long as what follows it is not a digit. A hash map is a finite map: two maps
with the same lookups are equal, and the order of iteration carries no information.
-/

namespace Rust

open Std

/-- `String`. -/
abbrev Str := { text : String // text.utf8ByteSize < 2 ^ 64 }

namespace Str

instance : Ord Str := ⟨compareOn Subtype.val⟩

instance : TransOrd Str := inferInstanceAs (TransCmp (compareOn Subtype.val))

instance : LawfulEqOrd Str where
  eq_of_compare h := Subtype.ext (LawfulEqOrd.eq_of_compare h)

/-- `text.as_bytes()`. -/
def asBytes (text : Str) : Bytes := text.val.toByteArray.data.toList

/-- `String::from_utf8(bytes)`. -/
def fromUtf8? (bytes : Bytes) : Option Str :=
  if h : (ByteArray.mk bytes.toArray).IsValidUTF8 ∧ bytes.length < 2 ^ 64 then
    some ⟨String.ofByteArray ⟨bytes.toArray⟩ h.1, h.2⟩
  else none

/-- `format!`, which panics when the text it makes is too long. -/
def format {ε : Type} (text : String) : Outcome ε Str := if h : text.utf8ByteSize < 2 ^ 64 then .ok ⟨text, h⟩ else .panic

theorem length_asBytes (text : Str) : text.asBytes.length < 2 ^ 64 := text.property

theorem fromUtf8?_asBytes (text : Str) : fromUtf8? text.asBytes = some text := by
  have harray : ByteArray.mk text.asBytes.toArray = text.val.toByteArray := by
    rw [asBytes, Array.toArray_toList]
  have hvalid : (ByteArray.mk text.asBytes.toArray).IsValidUTF8 := by
    rw [harray]
    exact text.val.isValidUTF8
  rw [fromUtf8?, dif_pos ⟨hvalid, text.length_asBytes⟩]
  exact congrArg some (Subtype.ext (String.toByteArray_inj.mp harray))

end Str

/-! ### Printed numbers -/

/-- The first separator of a text ends what comes before it. -/
theorem append_separator_inj {α : Type} {separator : α} {first first' rest rest' : List α} (h : separator ∉ first)
    (h' : separator ∉ first') : first ++ separator :: rest = first' ++ separator :: rest' ↔ first = first' ∧ rest = rest' := by
  refine ⟨fun heq => ?_, fun heq => by rw [heq.1, heq.2]⟩
  induction first generalizing first' with
  | nil =>
      cases first' with
      | nil => exact ⟨rfl, List.tail_eq_of_cons_eq heq⟩
      | cons head tail => exact absurd (List.mem_cons.mpr (Or.inl (List.head_eq_of_cons_eq heq))) h'
  | cons head tail ih =>
      cases first' with
      | nil => exact absurd (List.mem_cons.mpr (Or.inl (List.head_eq_of_cons_eq heq).symm)) h
      | cons head' tail' =>
          obtain ⟨htail, hrest⟩ := ih (fun hmem => h (List.mem_cons_of_mem _ hmem))
            (fun hmem => h' (List.mem_cons_of_mem _ hmem)) (List.tail_eq_of_cons_eq heq)
          exact ⟨by rw [List.head_eq_of_cons_eq heq, htail], hrest⟩

theorem toDigits_inj {n m : Nat} : Nat.toDigits 10 n = Nat.toDigits 10 m ↔ n = m := by
  refine ⟨fun h => ?_, fun h => by rw [h]⟩
  have hvalue := congrArg (fun digits => Nat.ofDigitChars 10 digits 0) h
  simpa using hvalue

theorem not_mem_toDigits {separator : Char} (h : separator.isDigit = false) (n : Nat) : separator ∉ Nat.toDigits 10 n := by
  intro hmem
  have hdigit := Nat.isDigit_of_mem_toDigits (by decide) (by decide) hmem
  exact Bool.false_ne_true (h.symm.trans hdigit)

/-- A printed number and what follows it are told apart by a separator that is not a digit. -/
theorem toDigits_append_inj {separator : Char} (h : separator.isDigit = false) {n m : Nat} {rest rest' : List Char} :
    Nat.toDigits 10 n ++ separator :: rest = Nat.toDigits 10 m ++ separator :: rest' ↔ n = m ∧ rest = rest' := by
  rw [append_separator_inj (not_mem_toDigits h n) (not_mem_toDigits h m), toDigits_inj]

/-! ### Hash maps -/

/-- `HashMap<κ, υ>`. -/
abbrev HashMap (κ υ : Type) [Ord κ] := ExtTreeMap κ υ compare

section HashMap

variable {κ υ : Type} [Ord κ] [TransOrd κ] [LawfulEqOrd κ] {map : HashMap κ υ} {key other : κ} {value : υ}

/-- `map.insert(key, value)` leaves what the other keys map to. -/
theorem HashMap.getElem?_insert_of_ne (hne : key ≠ other) : (map.insert key value)[other]? = map[other]? := by
  rw [ExtTreeMap.getElem?_insert, if_neg fun heq => hne (LawfulEqOrd.eq_of_compare heq)]

theorem HashMap.getElem?_insert_if [DecidableEq κ] :
    (map.insert key value)[other]? = if key = other then some value else map[other]? := by
  rw [ExtTreeMap.getElem?_insert]
  simp only [LawfulEqCmp.compare_eq_iff_eq]

/-- `map.remove(key)`. -/
theorem HashMap.getElem?_erase_if [DecidableEq κ] : (map.erase key)[other]? = if key = other then none else map[other]? := by
  rw [ExtTreeMap.getElem?_erase]
  simp only [LawfulEqCmp.compare_eq_iff_eq]

end HashMap

end Rust
