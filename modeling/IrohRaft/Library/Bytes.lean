import IrohRaft.Library.Outcome

/-!
# Byte strings, fixed-width integers and cursor reads

A decoder over a byte slice keeps a cursor and reads `data[cursor..cursor + n]`. What carries its
proof is the part of the input not yet read: `Unread data cursor rest`. Reading a field whose bytes
stand at the front of `rest` succeeds, and moves to the remainder.
-/

namespace Rust

abbrev Bytes := List UInt8

variable {α ε : Type}

/-! ### Little-endian integers -/

def leBytes : Nat → Nat → Bytes
  | 0, _ => []
  | width + 1, n => UInt8.ofNat n :: leBytes width (n / 256)

/-- The natural a little-endian byte string denotes. -/
def leValue : Bytes → Nat
  | [] => 0
  | byte :: rest => byte.toNat + 256 * leValue rest

@[simp] theorem leBytes_length (width n : Nat) : (leBytes width n).length = width := by
  induction width generalizing n with
  | zero => rfl
  | succ width ih => simp only [leBytes, List.length_cons, ih]

theorem leValue_leBytes (width n : Nat) : leValue (leBytes width n) = n % 256 ^ width := by
  induction width generalizing n with
  | zero => simp only [leBytes, leValue, Nat.pow_zero, Nat.mod_one]
  | succ width ih =>
      have hdigit : (UInt8.ofNat n).toNat = n % 256 := UInt8.toNat_ofNat'
      simp only [leBytes, leValue, ih, hdigit]
      rw [Nat.pow_succ', Nat.mod_mul]

theorem leValue_lt (bytes : Bytes) : leValue bytes < 256 ^ bytes.length := by
  induction bytes with
  | nil => simp [leValue]
  | cons byte rest ih =>
      have hbyte := byte.toNat_lt
      simp only [leValue, List.length_cons, Nat.pow_succ]
      omega

theorem leBytes_leValue (bytes : Bytes) : leBytes bytes.length (leValue bytes) = bytes := by
  induction bytes with
  | nil => rfl
  | cons byte rest ih =>
      have hbyte := byte.toNat_lt
      have hrest : (byte.toNat + 256 * leValue rest) / 256 = leValue rest := by omega
      have hhead : UInt8.ofNat (byte.toNat + 256 * leValue rest) = byte := by
        apply UInt8.toNat_inj.mp
        rw [UInt8.toNat_ofNat']
        omega
      simp only [List.length_cons, leBytes, leValue, hrest, hhead, ih]

def u64ToLeBytes (n : UInt64) : Bytes := leBytes 8 n.toNat

def u32ToLeBytes (n : UInt32) : Bytes := leBytes 4 n.toNat

def u32ToBeBytes (n : UInt32) : Bytes := (leBytes 4 n.toNat).reverse

/-- `u64::from_le_bytes` of a slice turned into an array, whose length the conversion checks. -/
def u64FromLeBytes (bytes : Bytes) (failed : ε) : Outcome ε UInt64 :=
  if bytes.length = 8 then .ok (UInt64.ofNat (leValue bytes)) else .err failed

/-- `u32::from_le_bytes` of a slice turned into an array, whose length the conversion checks. -/
def u32FromLeBytes (bytes : Bytes) (failed : ε) : Outcome ε UInt32 :=
  if bytes.length = 4 then .ok (UInt32.ofNat (leValue bytes)) else .err failed

/-- `u32::from_be_bytes` of a four-byte array. -/
def u32FromBeBytes (bytes : Bytes) : UInt32 := UInt32.ofNat (leValue bytes.reverse)

@[simp] theorem u64ToLeBytes_length (n : UInt64) : (u64ToLeBytes n).length = 8 := leBytes_length 8 _

@[simp] theorem u32ToLeBytes_length (n : UInt32) : (u32ToLeBytes n).length = 4 := leBytes_length 4 _

@[simp] theorem u32ToBeBytes_length (n : UInt32) : (u32ToBeBytes n).length = 4 := by
  rw [u32ToBeBytes, List.length_reverse, leBytes_length]

theorem u64_ofNat_leValue (n : UInt64) : UInt64.ofNat (leValue (u64ToLeBytes n)) = n := by
  have hlt : n.toNat < 256 ^ 8 := n.toNat_lt
  rw [u64ToLeBytes, leValue_leBytes, Nat.mod_eq_of_lt hlt, UInt64.ofNat_toNat]

theorem u32_ofNat_leValue (n : UInt32) : UInt32.ofNat (leValue (u32ToLeBytes n)) = n := by
  have hlt : n.toNat < 256 ^ 4 := n.toNat_lt
  rw [u32ToLeBytes, leValue_leBytes, Nat.mod_eq_of_lt hlt, UInt32.ofNat_toNat]

@[simp] theorem u64FromLeBytes_u64ToLeBytes (n : UInt64) (failed : ε) :
    u64FromLeBytes (u64ToLeBytes n) failed = .ok n := by
  rw [u64FromLeBytes, if_pos (u64ToLeBytes_length n), u64_ofNat_leValue]

@[simp] theorem u32FromLeBytes_u32ToLeBytes (n : UInt32) (failed : ε) :
    u32FromLeBytes (u32ToLeBytes n) failed = .ok n := by
  rw [u32FromLeBytes, if_pos (u32ToLeBytes_length n), u32_ofNat_leValue]

@[simp] theorem u32FromBeBytes_u32ToBeBytes (n : UInt32) : u32FromBeBytes (u32ToBeBytes n) = n := by
  rw [u32FromBeBytes, u32ToBeBytes, List.reverse_reverse]
  exact u32_ofNat_leValue n

/-- The first bytes of a long enough input are the digits of their own value. -/
theorem leBytes_leValue_take {bytes : Bytes} {width : Nat} (h : width ≤ bytes.length) :
    leValue (bytes.take width) < 256 ^ width ∧ leBytes width (leValue (bytes.take width)) = bytes.take width := by
  have hhead : (bytes.take width).length = width := List.length_take_of_le h
  have hvalue := leValue_lt (bytes.take width)
  have hback := leBytes_leValue (bytes.take width)
  rw [hhead] at hvalue hback
  exact ⟨hvalue, hback⟩

/-- Any four bytes are the encoding of some `u32`. -/
theorem exists_u32ToLeBytes_append (bytes : Bytes) (h : 4 ≤ bytes.length) :
    ∃ n rest, bytes = u32ToLeBytes n ++ rest := by
  obtain ⟨hvalue, hencode⟩ := leBytes_leValue_take h
  refine ⟨UInt32.ofNat (leValue (bytes.take 4)), bytes.drop 4, ?_⟩
  rw [u32ToLeBytes, UInt32.toNat_ofNat_of_lt' hvalue, hencode, List.take_append_drop]

/-- Any eight bytes are the encoding of some `u64`. -/
theorem exists_u64ToLeBytes_append (bytes : Bytes) (h : 8 ≤ bytes.length) :
    ∃ n rest, bytes = u64ToLeBytes n ++ rest := by
  obtain ⟨hvalue, hencode⟩ := leBytes_leValue_take h
  refine ⟨UInt64.ofNat (leValue (bytes.take 8)), bytes.drop 8, ?_⟩
  rw [u64ToLeBytes, UInt64.toNat_ofNat_of_lt' hvalue, hencode, List.take_append_drop]

/-! ### Casts between `i32` and `u8` -/

/-- `n as u8`: the low eight bits. -/
def i32AsU8 (n : Int32) : UInt8 := UInt8.ofNat (n.toInt % 256).toNat

/-- `byte as i32`. -/
def u8AsI32 (byte : UInt8) : Int32 := Int32.ofNat byte.toNat

theorem toInt_u8AsI32 (byte : UInt8) : (u8AsI32 byte).toInt = byte.toNat := by
  have hbyte := byte.toNat_lt
  exact Int32.toInt_ofNat_of_lt (by omega)

theorem toNat_i32AsU8 (n : Int32) : ((i32AsU8 n).toNat : Int) = n.toInt % 256 := by
  rw [i32AsU8, UInt8.toNat_ofNat']
  omega

/-- An `i32` survives the trip through a byte exactly when it is a byte's value. -/
theorem u8AsI32_i32AsU8 {n : Int32} : u8AsI32 (i32AsU8 n) = n ↔ 0 ≤ n.toInt ∧ n.toInt ≤ 255 := by
  rw [← Int32.toInt_inj, toInt_u8AsI32, toNat_i32AsU8]
  omega

/-- A `bool` written as a byte and read back by `byte != 0`. -/
theorem flag_ne_zero (flag : Bool) : ((if flag then (1 : UInt8) else 0) != 0) = flag := by
  cases flag <;> rfl

/-! ### Slices -/

/-- `data[start..stop]`, which panics when the range does not lie inside `data`. -/
def slice (data : List α) (start stop : Nat) : Outcome ε (List α) :=
  if start ≤ stop ∧ stop ≤ data.length then .ok ((data.drop start).take (stop - start)) else .panic

/-- `data[position]`, which panics past the end. -/
def index (data : List α) (position : Nat) : Outcome ε α :=
  match data[position]? with
  | some item => .ok item
  | none => .panic

/-- The part of `data` a reader at `cursor` has not read yet. -/
def Unread (data : List α) (cursor : Nat) (rest : List α) : Prop :=
  cursor ≤ data.length ∧ data.drop cursor = rest

theorem unread_start (data : List α) : Unread data 0 data := ⟨Nat.zero_le _, rfl⟩

namespace Unread

variable {data field rest : List α} {cursor : Nat}

theorem length_eq (h : Unread data cursor rest) : cursor + rest.length = data.length := by
  have hdrop := congrArg List.length h.2
  rw [List.length_drop] at hdrop
  have hle := h.1
  omega

theorem advance (h : Unread data cursor (field ++ rest)) : Unread data (cursor + field.length) rest := by
  have hlength := h.length_eq
  rw [List.length_append] at hlength
  refine ⟨by omega, ?_⟩
  rw [← List.drop_drop, h.2, List.drop_left]

theorem slice_eq (ε : Type) (h : Unread data cursor (field ++ rest)) :
    (slice data cursor (cursor + field.length) : Outcome ε (List α)) = .ok field := by
  have hlength := h.length_eq
  rw [List.length_append] at hlength
  rw [slice, if_pos ⟨by omega, by omega⟩, h.2, Nat.add_sub_cancel_left, List.take_left]

theorem index_eq {item : α} (h : Unread data cursor (item :: rest)) :
    (index data cursor : Outcome ε α) = .ok item := by
  have hget : data[cursor]? = some item := by
    have hhead := congrArg (fun tail => tail[0]?) h.2
    simpa using hhead
  rw [index, hget]

end Unread

/-- A prefix of a byte string slices as the whole does, as far as it reaches. -/
theorem slice_of_prefix {data whole : List α} (h : data <+: whole) {start stop : Nat}
    (hstop : stop ≤ data.length) : (slice data start stop : Outcome ε (List α)) = slice whole start stop := by
  obtain ⟨rest, rfl⟩ := h
  by_cases hle : start ≤ stop
  · have hwhole : stop ≤ (data ++ rest).length := by
      rw [List.length_append]
      omega
    rw [slice, slice, if_pos ⟨hle, hstop⟩, if_pos ⟨hle, hwhole⟩,
      List.drop_append_of_le_length (by omega), List.take_append_of_le_length (by simp; omega)]
  · rw [slice, slice, if_neg (fun h => hle h.1), if_neg (fun h => hle h.1)]

theorem index_of_prefix {data whole : List α} (h : data <+: whole) {position : Nat}
    (hposition : position < data.length) : (index data position : Outcome ε α) = index whole position := by
  obtain ⟨rest, rfl⟩ := h
  rw [index, index, List.getElem?_append_left hposition]

/-! ### Integers read at a cursor -/

/-- `u64::from_le_bytes(data[cursor..cursor + 8].try_into().map_err(..)?)`. -/
def readU64 (data : Bytes) (cursor : Nat) (failed : ε) : Outcome ε UInt64 := do
  let stop ← usizeAdd cursor 8
  let bytes ← slice data cursor stop
  u64FromLeBytes bytes failed

/-- `u32::from_le_bytes(data[cursor..cursor + 4].try_into().map_err(..)?)`. -/
def readU32 (data : Bytes) (cursor : Nat) (failed : ε) : Outcome ε UInt32 := do
  let stop ← usizeAdd cursor 4
  let bytes ← slice data cursor stop
  u32FromLeBytes bytes failed

theorem Unread.readU64_eq {data rest : Bytes} {cursor : Nat} {n : UInt64} {failed : ε}
    (h : Unread data cursor (u64ToLeBytes n ++ rest)) (hcursor : cursor + 8 < 2 ^ 64) :
    readU64 data cursor failed = .ok n := by
  have hslice := h.slice_eq ε
  rw [u64ToLeBytes_length] at hslice
  rw [readU64, usizeAdd_of_lt hcursor, Outcome.ok_bind, hslice, Outcome.ok_bind, u64FromLeBytes_u64ToLeBytes]

theorem Unread.readU32_eq {data rest : Bytes} {cursor : Nat} {n : UInt32} {failed : ε}
    (h : Unread data cursor (u32ToLeBytes n ++ rest)) (hcursor : cursor + 4 < 2 ^ 64) :
    readU32 data cursor failed = .ok n := by
  have hslice := h.slice_eq ε
  rw [u32ToLeBytes_length] at hslice
  rw [readU32, usizeAdd_of_lt hcursor, Outcome.ok_bind, hslice, Outcome.ok_bind, u32FromLeBytes_u32ToLeBytes]

theorem readU64_of_prefix {data whole : Bytes} (h : data <+: whole) {cursor : Nat} {failed : ε}
    (hcursor : cursor + 8 ≤ data.length) : readU64 data cursor failed = readU64 whole cursor failed := by
  unfold readU64 usizeAdd
  split
  · rw [Outcome.ok_bind, Outcome.ok_bind, slice_of_prefix h hcursor]
  · rfl

theorem readU32_of_prefix {data whole : Bytes} (h : data <+: whole) {cursor : Nat} {failed : ε}
    (hcursor : cursor + 4 ≤ data.length) : readU32 data cursor failed = readU32 whole cursor failed := by
  unfold readU32 usizeAdd
  split
  · rw [Outcome.ok_bind, Outcome.ok_bind, slice_of_prefix h hcursor]
  · rfl

end Rust
