import IrohRaft.Library.Text

/-!
# bincode

The default encoding of bincode 1.3: integers have a fixed width and are little-endian, an enum is
the index of its variant as a `u32`, an `Option` is a byte that says whether the value follows, an
array is its elements. Strings, sequences and maps are a length as a `u64` and what they hold, a map in
the order it is iterated in. A decoder returns what it did not consume, and decoding ignores it.
-/

namespace Bincode

open Rust

variable {α : Type}

/-- Read a value off the front of the input. -/
abbrev Decoder (α : Type) := Bytes → Except String (α × Bytes)

/-- The input ends before a number, or before an element of a sequence of them. -/
def unexpectedEof : String := "io error: unexpected end of file"

/-- The input ends within a text. The cause of this error carries none. -/
def endOfText : String := "io error: "

def takeBytes (error : String) (count : Nat) : Decoder Bytes := fun data =>
  if count ≤ data.length then .ok (data.take count, data.drop count) else .error error

def decodeU32 : Decoder UInt32 := fun data => do
  let (bytes, rest) ← takeBytes unexpectedEof 4 data
  return (UInt32.ofNat (leValue bytes), rest)

def decodeU64 : Decoder UInt64 := fun data => do
  let (bytes, rest) ← takeBytes unexpectedEof 8 data
  return (UInt64.ofNat (leValue bytes), rest)

/-- A `Vec<u8>`, which is a sequence of numbers. -/
def encodeBytes (bytes : Bytes) : Bytes := u64ToLeBytes (UInt64.ofNat bytes.length) ++ bytes

def decodeBytes : Decoder Bytes := fun data => do
  let (length, rest) ← decodeU64 data
  takeBytes unexpectedEof length.toNat rest

def encodeString (text : Str) : Bytes := u64ToLeBytes (UInt64.ofNat text.asBytes.length) ++ text.asBytes

/-- The error goes on to say where the text stops being valid, which is left out here. -/
def decodeString : Decoder Str := fun data => do
  let (length, rest) ← decodeU64 data
  let (bytes, rest) ← takeBytes endOfText length.toNat rest
  match Str.fromUtf8? bytes with
  | some text => return (text, rest)
  | none => .error "string is not valid utf8"

def encodePair {β : Type} (first : α → Bytes) (second : β → Bytes) (pair : α × β) : Bytes :=
  first pair.1 ++ second pair.2

def decodePair {β : Type} (first : Decoder α) (second : Decoder β) : Decoder (α × β) := fun data => do
  let (key, rest) ← first data
  let (value, rest) ← second rest
  return ((key, value), rest)

def encodeSeq (encode : α → Bytes) (items : List α) : Bytes :=
  u64ToLeBytes (UInt64.ofNat items.length) ++ items.flatMap encode

/-- As many items as are asked for. -/
def decodeItems (decode : Decoder α) : Nat → Decoder (List α)
  | 0, data => .ok ([], data)
  | count + 1, data => do
      let (item, rest) ← decode data
      let (items, rest) ← decodeItems decode count rest
      return (item :: items, rest)

def decodeSeq (decode : Decoder α) : Decoder (List α) := fun data => do
  let (length, rest) ← decodeU64 data
  decodeItems decode length.toNat rest

def encodeOption (encode : α → Bytes) : Option α → Bytes
  | none => [0]
  | some value => 1 :: encode value

def decodeOption (decode : Decoder α) : Decoder (Option α) := fun data =>
  match data with
  | [] => .error unexpectedEof
  | tag :: rest =>
      if tag = 0 then .ok (none, rest)
      else if tag = 1 then do
        let (value, rest) ← decode rest
        return (some value, rest)
      else .error s!"tag for enum is not valid, found {tag}"

def encodeBool (value : Bool) : Bytes := [if value then 1 else 0]

def decodeBool : Decoder Bool := fun data =>
  match data with
  | [] => .error unexpectedEof
  | byte :: rest =>
      if byte = 0 then .ok (false, rest)
      else if byte = 1 then .ok (true, rest)
      else .error s!"invalid u8 while decoding bool, expected 0 or 1, found {byte}"

/-- The variant with the index that was read. -/
def decodeVariant (variants : List α) : Decoder α := fun data => do
  let (variant, rest) ← decodeU32 data
  match variants[variant.toNat]? with
  | some value => return (value, rest)
  | none => .error s!"invalid value: integer `{variant}`, expected variant index 0 <= i < {variants.length}"

@[simp] theorem ok_bind {ε β : Type} (value : α) (next : α → Except ε β) : (Except.ok value >>= next) = next value := rfl

@[simp] theorem pure_eq_ok {ε : Type} (value : α) : (pure value : Except ε α) = .ok value := rfl

theorem takeBytes_append {bytes rest : Bytes} {error : String} {count : Nat} (hcount : bytes.length = count) :
    takeBytes error count (bytes ++ rest) = .ok (bytes, rest) := by
  subst hcount
  have hle : bytes.length ≤ (bytes ++ rest).length := by
    rw [List.length_append]
    omega
  rw [takeBytes, if_pos hle, List.take_left, List.drop_left]

theorem decodeU32_append (n : UInt32) (rest : Bytes) : decodeU32 (u32ToLeBytes n ++ rest) = .ok (n, rest) := by
  simp only [decodeU32, takeBytes_append (u32ToLeBytes_length n), ok_bind, u32_ofNat_leValue, pure_eq_ok]

theorem decodeU64_append (n : UInt64) (rest : Bytes) : decodeU64 (u64ToLeBytes n ++ rest) = .ok (n, rest) := by
  simp only [decodeU64, takeBytes_append (u64ToLeBytes_length n), ok_bind, u64_ofNat_leValue, pure_eq_ok]

theorem decodeString_append (text : Str) (rest : Bytes) : decodeString (encodeString text ++ rest) = .ok (text, rest) := by
  have hlength : (UInt64.ofNat text.asBytes.length).toNat = text.asBytes.length :=
    UInt64.toNat_ofNat_of_lt' text.length_asBytes
  simp only [decodeString, encodeString, List.append_assoc, decodeU64_append, ok_bind, takeBytes_append hlength.symm,
    Str.fromUtf8?_asBytes, pure_eq_ok]

theorem decodeBytes_append {bytes : Bytes} (hlength : bytes.length < 2 ^ 64) (rest : Bytes) :
    decodeBytes (encodeBytes bytes ++ rest) = .ok (bytes, rest) := by
  have hcount : (UInt64.ofNat bytes.length).toNat = bytes.length := UInt64.toNat_ofNat_of_lt' hlength
  simp only [decodeBytes, encodeBytes, List.append_assoc, decodeU64_append, ok_bind, takeBytes_append hcount.symm]

theorem decodePair_append {β : Type} {first : α → Bytes} {second : β → Bytes} {decodeFirst : Decoder α}
    {decodeSecond : Decoder β} {pair : α × β} (hfirst : ∀ rest, decodeFirst (first pair.1 ++ rest) = .ok (pair.1, rest))
    (hsecond : ∀ rest, decodeSecond (second pair.2 ++ rest) = .ok (pair.2, rest)) (rest : Bytes) :
    decodePair decodeFirst decodeSecond (encodePair first second pair ++ rest) = .ok (pair, rest) := by
  simp only [decodePair, encodePair, List.append_assoc, hfirst, hsecond, ok_bind, pure_eq_ok]

theorem decodeItems_append {encode : α → Bytes} {decode : Decoder α} {items : List α}
    (hdecode : ∀ item ∈ items, ∀ rest, decode (encode item ++ rest) = .ok (item, rest)) (rest : Bytes) :
    decodeItems decode items.length (items.flatMap encode ++ rest) = .ok (items, rest) := by
  induction items with
  | nil => rfl
  | cons item items ih =>
      have hitem := hdecode item List.mem_cons_self
      have hitems := ih fun later hmem => hdecode later (List.mem_cons_of_mem _ hmem)
      simp only [List.length_cons, List.flatMap_cons, List.append_assoc, decodeItems, hitem, hitems, ok_bind, pure_eq_ok]

theorem decodeSeq_append {encode : α → Bytes} {decode : Decoder α} {items : List α}
    (hdecode : ∀ item ∈ items, ∀ rest, decode (encode item ++ rest) = .ok (item, rest)) (hlength : items.length < 2 ^ 64)
    (rest : Bytes) : decodeSeq decode (encodeSeq encode items ++ rest) = .ok (items, rest) := by
  have hcount : (UInt64.ofNat items.length).toNat = items.length := UInt64.toNat_ofNat_of_lt' hlength
  simp only [decodeSeq, encodeSeq, List.append_assoc, decodeU64_append, ok_bind, hcount, decodeItems_append hdecode]

theorem decodeOption_append {encode : α → Bytes} {decode : Decoder α} (rest : Bytes) (value : Option α)
    (hdecode : ∀ inner ∈ value, decode (encode inner ++ rest) = .ok (inner, rest)) :
    decodeOption decode (encodeOption encode value ++ rest) = .ok (value, rest) := by
  cases value with
  | none => rfl
  | some inner =>
      have hinner := hdecode inner rfl
      rw [encodeOption, List.cons_append, decodeOption, if_neg (by decide), if_pos rfl, hinner]
      rfl

theorem decodeBool_append (value : Bool) (rest : Bytes) : decodeBool (encodeBool value ++ rest) = .ok (value, rest) := by
  cases value <;> simp [decodeBool, encodeBool]

theorem decodeVariant_append {variants : List α} {value : α} {variant : UInt32} (rest : Bytes)
    (hvariant : variants[variant.toNat]? = some value) :
    decodeVariant variants (u32ToLeBytes variant ++ rest) = .ok (value, rest) := by
  rw [decodeVariant, decodeU32_append]
  show (match variants[variant.toNat]? with
    | some value => Except.ok (value, rest)
    | none => _) = _
  rw [hvariant]

/-! ### Longer inputs -/

theorem bind_eq_ok {ε β : Type} {x : Except ε α} {next : α → Except ε β} {result : β} :
    x >>= next = .ok result ↔ ∃ value, x = .ok value ∧ next value = .ok result := by
  cases x with
  | error e => exact ⟨nofun, fun h => nomatch h.choose_spec.1⟩
  | ok value => exact ⟨fun h => ⟨value, rfl, h⟩, fun ⟨value', hvalue, h⟩ => Except.ok.inj hvalue ▸ h⟩

/-- What is decoded does not depend on what follows it. -/
def Extends (decode : Decoder α) : Prop :=
  ∀ data more value rest, decode data = .ok (value, rest) → decode (data ++ more) = .ok (value, rest ++ more)

/-- So no strict part of an input that is consumed to its end is decoded. -/
theorem Extends.part_ne_ok {decode : Decoder α} (h : Extends decode) {first second : Bytes} {value : α}
    (hwhole : decode (first ++ second) = .ok (value, [])) (hne : second ≠ []) (result : α × Bytes) :
    decode first ≠ .ok result := by
  intro hfirst
  have hextended := h first second result.1 result.2 hfirst
  rw [hwhole] at hextended
  exact hne (List.append_eq_nil_iff.mp (Prod.mk.inj (Except.ok.inj hextended)).2.symm).2

theorem Extends.ok (value : α) : Extends fun rest => .ok (value, rest) := by
  intro data more value' rest h
  obtain ⟨rfl, rfl⟩ := Prod.mk.inj (Except.ok.inj h)
  rfl

theorem Extends.pure (value : α) : Extends fun rest => (Pure.pure (value, rest) : Except String (α × Bytes)) := Extends.ok value

theorem Extends.error (message : String) : Extends (fun _ => .error message : Decoder α) := by
  intro data more value rest h
  exact nomatch h

theorem Extends.bind {β : Type} {decode : Decoder α} {next : α × Bytes → Except String (β × Bytes)} (h : Extends decode)
    (hnext : ∀ value, Extends fun rest => next (value, rest)) : Extends fun data => decode data >>= next := by
  intro data more result rest hresult
  obtain ⟨⟨value, between⟩, hvalue, hresult⟩ := bind_eq_ok.mp hresult
  exact bind_eq_ok.mpr ⟨(value, between ++ more), h data more value between hvalue, hnext value between more result rest hresult⟩

theorem extends_takeBytes (error : String) (count : Nat) : Extends (takeBytes error count) := by
  intro data more value rest h
  rw [takeBytes] at h
  split at h
  · next hle =>
      obtain ⟨rfl, rfl⟩ := Prod.mk.inj (Except.ok.inj h)
      have hle' : count ≤ (data ++ more).length := by
        rw [List.length_append]
        omega
      rw [takeBytes, if_pos hle', List.take_append_of_le_length hle, List.drop_append_of_le_length hle]
  · exact nomatch h

theorem extends_decodeU32 : Extends decodeU32 := (extends_takeBytes _ 4).bind fun _ => .ok _

theorem extends_decodeU64 : Extends decodeU64 := (extends_takeBytes _ 8).bind fun _ => .ok _

theorem extends_decodeString : Extends decodeString := by
  refine extends_decodeU64.bind fun length => (extends_takeBytes _ length.toNat).bind fun bytes => ?_
  dsimp only
  cases Str.fromUtf8? bytes with
  | some text => exact .ok text
  | none => exact .error _

theorem extends_decodeItems {decode : Decoder α} (h : Extends decode) (count : Nat) : Extends (decodeItems decode count) := by
  induction count with
  | zero => exact .ok []
  | succ count ih => exact h.bind fun item => ih.bind fun items => .ok (item :: items)

theorem extends_decodeSeq {decode : Decoder α} (h : Extends decode) : Extends (decodeSeq decode) :=
  extends_decodeU64.bind fun length => extends_decodeItems h length.toNat

theorem extends_decodeOption {decode : Decoder α} (h : Extends decode) : Extends (decodeOption decode) := by
  intro data more value rest hvalue
  cases data with
  | nil => exact nomatch hvalue
  | cons tag data =>
      rw [decodeOption] at hvalue
      rw [List.cons_append, decodeOption]
      by_cases hnone : tag = 0
      · rw [if_pos hnone] at hvalue ⊢
        exact Extends.ok none data more value rest hvalue
      rw [if_neg hnone] at hvalue ⊢
      by_cases hsome : tag = 1
      · rw [if_pos hsome] at hvalue ⊢
        exact (h.bind fun inner => Extends.ok (some inner)) data more value rest hvalue
      · rw [if_neg hsome] at hvalue
        exact nomatch hvalue

theorem extends_decodeVariant (variants : List α) : Extends (decodeVariant variants) := by
  refine extends_decodeU32.bind fun variant => ?_
  dsimp only
  cases variants[variant.toNat]? with
  | some value => exact .ok value
  | none => exact .error _

/-! ### Whole values -/

/-- `bincode::serialize` and `bincode::deserialize` at one type. -/
structure Serde (α : Type) where
  serialize : α → Bytes
  deserialize : Bytes → Except String α

namespace Serde

/-- The value is decoded from what it is encoded to. -/
def RoundTrips (serde : Serde α) (value : α) : Prop := serde.deserialize (serde.serialize value) = .ok value

/-- A decoder's value, whatever follows it. -/
def ofDecoder (encode : α → Bytes) (decode : Decoder α) : Serde α where
  serialize := encode
  deserialize data := Prod.fst <$> decode data

theorem ofDecoder_roundTrips {encode : α → Bytes} {decode : Decoder α} {value : α}
    (h : decode (encode value) = .ok (value, [])) : (ofDecoder encode decode).RoundTrips value := by
  show Prod.fst <$> decode (encode value) = .ok value
  rw [h]
  rfl

end Serde

end Bincode
