import Mathlib.Algebra.Order.Ring.Int

/-!
# Reading numbers and addresses

`str::parse` of the standard library for a `u64`, a `bool` and a `SocketAddr`, and how an address is printed.
A reader takes what it reads off the front of the characters, or nothing at all.
-/

namespace Rust

/-- `char::to_digit`. -/
def toDigit (radix : Nat) (c : Char) : Option Nat :=
  let value :=
    if '0' ≤ c ∧ c ≤ '9' then c.toNat - '0'.toNat
    else if 'a' ≤ c ∧ c ≤ 'z' then c.toNat - 'a'.toNat + 10
    else if 'A' ≤ c ∧ c ≤ 'Z' then c.toNat - 'A'.toNat + 10
    else radix
  if value < radix then some value else none

/-- `char::is_whitespace`. -/
def isWhitespace (c : Char) : Bool :=
  let n := c.toNat
  9 ≤ n && n ≤ 13 || n = 0x20 || n = 0x85 || n = 0xA0 || n = 0x1680 || 0x2000 ≤ n && n ≤ 0x200A ||
    n = 0x2028 || n = 0x2029 || n = 0x202F || n = 0x205F || n = 0x3000

/-- `str::trim`. -/
def trim (text : List Char) : List Char := ((text.dropWhile isWhitespace).reverse.dropWhile isWhitespace).reverse

/-- `text.split(separator)`. -/
def split (separator : Char) : List Char → List (List Char)
  | [] => [[]]
  | c :: rest =>
      match split separator rest with
      | first :: others => if c = separator then [] :: first :: others else (c :: first) :: others
      | [] => []

/-! ### Numbers -/

/-- The digits of a `u64`, one by one. -/
def parseDigits : Nat → List Char → Except String UInt64
  | value, [] => .ok (UInt64.ofNat value)
  | value, c :: rest =>
      match toDigit 10 c with
      | none => .error "invalid digit found in string"
      | some digit =>
          if value * 10 + digit < 2 ^ 64 then parseDigits (value * 10 + digit) rest
          else .error "number too large to fit in target type"

/-- `u64::from_str`. -/
def parseU64 (text : List Char) : Except String UInt64 :=
  match text with
  | [] => .error "cannot parse integer from empty string"
  | ['+'] => .error "invalid digit found in string"
  | '+' :: digits => parseDigits 0 digits
  | digits => parseDigits 0 digits

/-- `bool::from_str`. -/
def parseBool (text : List Char) : Option Bool :=
  if text = ['t', 'r', 'u', 'e'] then some true
  else if text = ['f', 'a', 'l', 's', 'e'] then some false
  else none

/-! ### Addresses -/

structure Ipv4Addr where
  a : UInt8
  b : UInt8
  c : UInt8
  d : UInt8
  deriving DecidableEq, Repr

structure Ipv6Addr where
  segments : Vector UInt16 8
  deriving DecidableEq, Repr

inductive SocketAddr where
  | v4 (ip : Ipv4Addr) (port : UInt16)
  | v6 (ip : Ipv6Addr) (port : UInt16) (flowinfo scopeId : UInt32)
  deriving DecidableEq, Repr

abbrev Reader (α : Type) := List Char → Option (α × List Char)

namespace Reader

def readGivenChar (target : Char) : Reader Unit
  | c :: rest => if c = target then some ((), rest) else none
  | [] => none

/-- A number below the bound. -/
def readNumber (radix : Nat) (maxDigits : Option Nat) (allowZeroPrefix : Bool) (bound : Nat) : Reader Nat := fun text =>
  let digits := text.takeWhile fun c => (toDigit radix c).isSome
  let value := digits.foldl (fun value c => value * radix + (toDigit radix c).getD 0) 0
  if digits = [] ∨ (∃ most ∈ maxDigits, most < digits.length) then none
  else if !allowZeroPrefix ∧ digits.head? = some '0' ∧ digits.length > 1 then none
  else if value < bound then some (value, text.drop digits.length)
  else none

/-- A group of an address, after the separator where it is not the first. -/
def readSeparator {α : Type} (separator : Char) (first : Bool) (inner : Reader α) : Reader α := fun text =>
  if first then inner text
  else do
    let (_, text) ← readGivenChar separator text
    inner text

def readOctet (first : Bool) : Reader UInt8 := fun text => do
  let (octet, text) ← readSeparator '.' first (readNumber 10 (some 3) false (2 ^ 8)) text
  return (UInt8.ofNat octet, text)

def readIpv4Addr : Reader Ipv4Addr := fun text => do
  let (a, text) ← readOctet true text
  let (b, text) ← readOctet false text
  let (c, text) ← readOctet false text
  let (d, text) ← readOctet false text
  return ({ a, b, c, d }, text)

/-- At most so many groups of an address, and whether the last two are those of an IPv4 address. -/
def readGroups : (limit : Nat) → (first : Bool) → List Char → (List UInt16 × Bool) × List Char
  | 0, _, text => (([], false), text)
  | limit + 1, first, text =>
      match if limit > 0 then readSeparator ':' first readIpv4Addr text else none with
      | some (ip, text) =>
          (([UInt16.ofNat (ip.a.toNat * 256 + ip.b.toNat), UInt16.ofNat (ip.c.toNat * 256 + ip.d.toNat)], true), text)
      | none =>
          match readSeparator ':' first (readNumber 16 (some 4) true (2 ^ 16)) text with
          | some (group, text) =>
              let ((groups, ipv4), text) := readGroups limit false text
              ((UInt16.ofNat group :: groups, ipv4), text)
          | none => (([], false), text)

def readIpv6Addr : Reader Ipv6Addr := fun text =>
  let ((head, headIpv4), text) := readGroups 8 true text
  if head.length = 8 then some ({ segments := Vector.ofFn fun i => head.getD i 0 }, text)
  -- an IPv4 part is not allowed before the ::
  else if headIpv4 then none
  else do
    let (_, text) ← readGivenChar ':' text
    let (_, text) ← readGivenChar ':' text
    let ((tail, _), text) := readGroups (8 - (head.length + 1)) true text
    let segments := head ++ List.replicate (8 - head.length - tail.length) 0 ++ tail
    return ({ segments := Vector.ofFn fun i => segments.getD i 0 }, text)

def readPort : Reader UInt16 := fun text => do
  let (_, text) ← readGivenChar ':' text
  let (port, text) ← readNumber 10 none true (2 ^ 16) text
  return (UInt16.ofNat port, text)

def readScopeId : Reader UInt32 := fun text => do
  let (_, text) ← readGivenChar '%' text
  let (scopeId, text) ← readNumber 10 none true (2 ^ 32) text
  return (UInt32.ofNat scopeId, text)

def readSocketAddrV4 : Reader SocketAddr := fun text => do
  let (ip, text) ← readIpv4Addr text
  let (port, text) ← readPort text
  return (.v4 ip port, text)

def readSocketAddrV6 : Reader SocketAddr := fun text => do
  let (_, text) ← readGivenChar '[' text
  let (ip, text) ← readIpv6Addr text
  let (scopeId, text) := (readScopeId text).getD (0, text)
  let (_, text) ← readGivenChar ']' text
  let (port, text) ← readPort text
  return (.v6 ip port 0 scopeId, text)

end Reader

namespace SocketAddr

/-- `SocketAddr::from_str`, which must read the text to its end. -/
def parse (text : List Char) : Option SocketAddr :=
  match (Reader.readSocketAddrV4 text).or (Reader.readSocketAddrV6 text) with
  | some (addr, []) => some addr
  | _ => none

/-- The text of an `AddrParseError`. -/
def parseError : String := "invalid socket address syntax"

example : parse "127.0.0.1:8080".toList = some (.v4 ⟨127, 0, 0, 1⟩ 8080) := by decide

example : parse "[::ffff:10.0.0.1%2]:80".toList = some (.v6 ⟨#v[0, 0, 0, 0, 0, 65535, 2560, 1]⟩ 80 0 2) := by decide

example : parse "127.0.0.01:8080".toList = none := by decide

end SocketAddr

/-! ### How an address is printed -/

def Ipv4Addr.toString (ip : Ipv4Addr) : String := s!"{ip.a}.{ip.b}.{ip.c}.{ip.d}"

/-- A number in lower case hexadecimal digits. -/
def toHex (n : UInt16) : String := String.ofList (Nat.toDigits 16 n.toNat)

/-- The first of the longest runs of zeros: where it begins, and its length. -/
def longestZeros (segments : List UInt16) : Nat × Nat :=
  let runs := (List.range segments.length).map fun start => (start, ((segments.drop start).takeWhile (· = 0)).length)
  runs.foldl (fun longest run => if run.2 > longest.2 then run else longest) (0, 0)

def Ipv6Addr.toString (ip : Ipv6Addr) : String :=
  let segments := ip.segments.toList
  match segments with
  | [0, 0, 0, 0, 0, 0xFFFF, ab, cd] =>
      let mapped : Ipv4Addr := ⟨(ab >>> 8).toUInt8, ab.toUInt8, (cd >>> 8).toUInt8, cd.toUInt8⟩
      s!"::ffff:{mapped.toString}"
  | _ =>
      let (start, length) := longestZeros segments
      let join (part : List UInt16) : String := String.intercalate ":" (part.map toHex)
      if length > 1 then s!"{join (segments.take start)}::{join (segments.drop (start + length))}" else join segments

def SocketAddr.toString : SocketAddr → String
  | .v4 ip port => s!"{ip.toString}:{port}"
  | .v6 ip port _ scopeId =>
      if scopeId = 0 then s!"[{ip.toString}]:{port}" else s!"[{ip.toString}%{scopeId}]:{port}"

end Rust
