import IrohRaft.Library.Bytes

/-!
# The protobuf wire format

Varints and the optional fields of a proto3 message. An encoder leaves a field out when it has its
default value and writes the others in the order of their numbers, so a reader that looks for the
fields in that order reads back what was written: what follows a field never starts with its key.
-/

namespace Protobuf

open Rust

variable {α : Type}

/-! ### Varints -/

def varintLoop : (fuel n : Nat) → Bytes
  | 0, n => [UInt8.ofNat n]
  | fuel + 1, n => if n < 128 then [UInt8.ofNat n] else UInt8.ofNat (n % 128 + 128) :: varintLoop fuel (n / 128)

/-- Seven bits a byte, least significant first; the top bit says that more follow. -/
def varint (n : Nat) : Bytes := varintLoop n n

def readVarint : Bytes → Option (Nat × Bytes)
  | [] => none
  | byte :: rest =>
      if byte.toNat < 128 then some (byte.toNat, rest)
      else do
        let (high, rest) ← readVarint rest
        return (byte.toNat - 128 + 128 * high, rest)

theorem readVarint_varintLoop {fuel n : Nat} (h : n ≤ fuel) (rest : Bytes) :
    readVarint (varintLoop fuel n ++ rest) = some (n, rest) := by
  induction fuel generalizing n with
  | zero =>
      obtain rfl : n = 0 := by omega
      rfl
  | succ fuel ih =>
      rw [varintLoop]
      split
      · rename_i hsmall
        have hbyte : (UInt8.ofNat n).toNat = n := UInt8.toNat_ofNat_of_lt (show n < 256 by omega)
        simp only [List.singleton_append, readVarint, hbyte, hsmall, if_true]
      · have hbyte : (UInt8.ofNat (n % 128 + 128)).toNat = n % 128 + 128 := 
          UInt8.toNat_ofNat_of_lt (show n % 128 + 128 < 256 by omega)
        have hmore : ¬ n % 128 + 128 < 128 := by omega
        have hvalue : n % 128 + 128 - 128 + 128 * (n / 128) = n := by omega
        simp only [List.cons_append, readVarint, hbyte, if_neg hmore, ih (show n / 128 ≤ fuel by omega),
          Option.bind_eq_bind, Option.bind_some, Option.pure_def, hvalue]

theorem readVarint_varint (n : Nat) (rest : Bytes) : readVarint (varint n ++ rest) = some (n, rest) :=
  readVarint_varintLoop (Nat.le_refl n) rest

theorem varint_length_pos (n : Nat) : 0 < (varint n).length := by
  cases n with
  | zero => decide
  | succ n =>
      rw [varint, varintLoop]
      split
      · exact Nat.one_pos
      · exact Nat.succ_pos _

/-- The numbers of a packed field, to the end of its bytes. -/
def readVarints : (fuel : Nat) → Bytes → Option (List Nat)
  | _, [] => some []
  | 0, _ :: _ => none
  | fuel + 1, byte :: data => do
      let (n, rest) ← readVarint (byte :: data)
      let ns ← readVarints fuel rest
      return n :: ns

theorem readVarints_flatMap (ns : List Nat) {fuel : Nat} (h : (ns.flatMap varint).length ≤ fuel) :
    readVarints fuel (ns.flatMap varint) = some ns := by
  induction ns generalizing fuel with
  | nil => cases fuel <;> rfl
  | cons n tail ih =>
      have hpos := varint_length_pos n
      rw [List.flatMap_cons, List.length_append] at h
      obtain ⟨fuel, rfl⟩ : ∃ previous, fuel = previous + 1 := ⟨fuel - 1, by omega⟩
      obtain ⟨byte, bytes, hbytes⟩ := List.exists_cons_of_length_pos hpos
      have hread := readVarint_varint n (tail.flatMap varint)
      rw [hbytes, List.cons_append] at hread
      rw [List.flatMap_cons, hbytes, List.cons_append, readVarints, hread]
      simp only [Option.bind_eq_bind, Option.bind_some, ih (show (tail.flatMap varint).length ≤ fuel by omega),
        Option.pure_def]

/-- Bytes behind their length. -/
def delimited (content : Bytes) : Bytes := varint content.length ++ content

def readDelimited (data : Bytes) : Option (Bytes × Bytes) := do
  let (length, rest) ← readVarint data
  if length ≤ rest.length then some (rest.take length, rest.drop length) else none

theorem readDelimited_delimited (content rest : Bytes) :
    readDelimited (delimited content ++ rest) = some (content, rest) := by
  have hle : content.length ≤ (content ++ rest).length := by
    rw [List.length_append]
    omega
  rw [delimited, List.append_assoc, readDelimited, readVarint_varint]
  simp only [Option.bind_eq_bind, Option.bind_some, if_pos hle, List.take_left, List.drop_left]

/-! ### Fields -/

/-- A field: its key and its value, or nothing at all. -/
def field (key : UInt8) : Option Bytes → Bytes
  | none => []
  | some value => key :: value

/-- Read the value when the key is next, and take the default otherwise. -/
def readField (key : UInt8) (read : Bytes → Option (α × Bytes)) (default : α) : Bytes → Option (α × Bytes)
  | [] => some (default, [])
  | byte :: rest => if byte = key then read rest else some (default, byte :: rest)

/-- The key is not the next byte. -/
def NotNext (key : UInt8) (data : Bytes) : Prop := data.head? ≠ some key

@[simp] theorem notNext_nil (key : UInt8) : NotNext key [] := by
  intro hhead
  cases hhead

/-- Another field comes next, or what comes after it. -/
theorem notNext_field {key other : UInt8} (hne : other ≠ key) (value : Option Bytes) (rest : Bytes) :
    NotNext key (field other value ++ rest) ↔ (value = none → NotNext key rest) := by
  cases value with
  | none => exact ⟨fun h _ => h, fun h => h rfl⟩
  | some value =>
      refine ⟨fun _ hnone => absurd hnone (Option.some_ne_none value), fun _ hhead => ?_⟩
      exact hne (Option.some.inj hhead)

theorem readField_none {key : UInt8} {rest : Bytes} (h : NotNext key rest) (read : Bytes → Option (α × Bytes))
    (default : α) : readField key read default (field key none ++ rest) = some (default, rest) := by
  cases rest with
  | nil => rfl
  | cons byte rest =>
      have hne : byte ≠ key := fun heq => h (congrArg some heq)
      simp only [field, List.nil_append, readField, if_neg hne]

theorem readField_some {key : UInt8} {value rest : Bytes} {read : Bytes → Option (α × Bytes)} {result : α} (default : α)
    (hread : read (value ++ rest) = some (result, rest)) :
    readField key read default (field key (some value) ++ rest) = some (result, rest) := by
  simpa only [field, List.cons_append, readField, if_true] using hread

/-- An integer field, left out at zero. -/
def uintField (key : UInt8) (n : Nat) : Bytes := field key (if n = 0 then none else some (varint n))

/-- A bytes field, left out when empty. -/
def bytesField (key : UInt8) (content : Bytes) : Bytes :=
  field key (if content = [] then none else some (delimited content))

/-- A message field, left out when absent. -/
def messageField (key : UInt8) (content : Option Bytes) : Bytes := field key (content.map delimited)

@[simp] theorem notNext_uintField {key other : UInt8} (hne : other ≠ key) (n : Nat) (rest : Bytes) :
    NotNext key (uintField other n ++ rest) ↔ (n = 0 → NotNext key rest) := by
  rw [uintField, notNext_field hne]
  split <;> simp_all

@[simp] theorem notNext_bytesField {key other : UInt8} (hne : other ≠ key) (content rest : Bytes) :
    NotNext key (bytesField other content ++ rest) ↔ (content = [] → NotNext key rest) := by
  rw [bytesField, notNext_field hne]
  split <;> simp_all

@[simp] theorem notNext_messageField {key other : UInt8} (hne : other ≠ key) (content : Option Bytes) (rest : Bytes) :
    NotNext key (messageField other content ++ rest) ↔ (content = none → NotNext key rest) := by
  rw [messageField, notNext_field hne, Option.map_eq_none_iff]

@[simp] theorem readField_uintField {key : UInt8} {rest : Bytes} (h : NotNext key rest) (n : Nat) :
    readField key readVarint 0 (uintField key n ++ rest) = some (n, rest) := by
  rw [uintField]
  split
  · rename_i hzero
    rw [hzero]
    exact readField_none h _ _
  · exact readField_some _ (readVarint_varint n rest)

@[simp] theorem readField_bytesField {key : UInt8} {rest : Bytes} (h : NotNext key rest) (content : Bytes) :
    readField key readDelimited [] (bytesField key content ++ rest) = some (content, rest) := by
  rw [bytesField]
  split
  · rename_i hempty
    rw [hempty]
    exact readField_none h _ _
  · exact readField_some _ (readDelimited_delimited content rest)

/-- A message field is read together with whether it was there. -/
def readMessage (data : Bytes) : Option (Option Bytes × Bytes) := do
  let (content, rest) ← readDelimited data
  return (some content, rest)

@[simp] theorem readField_messageField {key : UInt8} {rest : Bytes} (h : NotNext key rest) (content : Option Bytes) :
    readField key readMessage none (messageField key content ++ rest) = some (content, rest) := by
  cases content with
  | none => exact readField_none h _ _
  | some content =>
      apply readField_some
      rw [readMessage, readDelimited_delimited]
      rfl

/-! ### Repeated fields -/

/-- A repeated message field: every one of its messages behind the key. -/
def repeatedField (key : UInt8) (contents : List Bytes) : Bytes :=
  contents.flatMap fun content => field key (some (delimited content))

def readRepeatedLoop (key : UInt8) : (fuel : Nat) → Bytes → Option (List Bytes × Bytes)
  | _, [] => some ([], [])
  | 0, _ :: _ => none
  | fuel + 1, byte :: data =>
      if byte = key then do
        let (content, rest) ← readDelimited data
        let (contents, rest) ← readRepeatedLoop key fuel rest
        return (content :: contents, rest)
      else some ([], byte :: data)

/-- Read a message as long as the key is next. -/
def readRepeated (key : UInt8) (data : Bytes) : Option (List Bytes × Bytes) := readRepeatedLoop key data.length data

@[simp] theorem notNext_repeatedField {key other : UInt8} (hne : other ≠ key) (contents : List Bytes) (rest : Bytes) :
    NotNext key (repeatedField other contents ++ rest) ↔ (contents = [] → NotNext key rest) := by
  cases contents with
  | nil => simp [repeatedField]
  | cons content contents =>
      rw [repeatedField, List.flatMap_cons, List.append_assoc, notNext_field hne]
      simp

theorem readRepeatedLoop_append {key : UInt8} {rest : Bytes} (h : NotNext key rest) (contents : List Bytes) {fuel : Nat}
    (hfuel : (repeatedField key contents ++ rest).length ≤ fuel) :
    readRepeatedLoop key fuel (repeatedField key contents ++ rest) = some (contents, rest) := by
  induction contents generalizing fuel with
  | nil =>
      cases rest with
      | nil => cases fuel <;> simp [repeatedField, readRepeatedLoop]
      | cons byte rest =>
          have hne : byte ≠ key := fun heq => h (congrArg some heq)
          obtain ⟨fuel, rfl⟩ : ∃ previous, fuel = previous + 1 := ⟨fuel - 1, by simp [repeatedField] at hfuel; omega⟩
          simp [repeatedField, readRepeatedLoop, hne]
  | cons content contents ih =>
      have hdata : repeatedField key (content :: contents) ++ rest =
          key :: (delimited content ++ (repeatedField key contents ++ rest)) := by
        simp [repeatedField, field]
      rw [hdata, List.length_cons, List.length_append] at hfuel
      obtain ⟨fuel, rfl⟩ : ∃ previous, fuel = previous + 1 := ⟨fuel - 1, by omega⟩
      have hrest := @ih fuel (by omega)
      rw [hdata, readRepeatedLoop, if_pos rfl, readDelimited_delimited]
      simp [hrest]

@[simp] theorem readRepeated_repeatedField {key : UInt8} {rest : Bytes} (h : NotNext key rest) (contents : List Bytes) :
    readRepeated key (repeatedField key contents ++ rest) = some (contents, rest) :=
  readRepeatedLoop_append h contents (Nat.le_refl _)

end Protobuf
