import IrohRaft.Library.Bincode

/-!
# What is proposed to the cluster

`ProposalData` and `KeyValueOp` of `types.rs`, with the encodings bincode gives them.
-/

namespace IrohRaft

open Rust Bincode

inductive KeyValueOp where
  | set (key value : Str)
  | get (key : Str)
  | delete (key : Str)
  | list (prefixed : Option Str)
  deriving DecidableEq

inductive ProposalData where
  | keyValue (op : KeyValueOp)
  | raw (bytes : Bytes)
  | text (content : Str)
  | noop
  deriving DecidableEq

namespace KeyValueOp

def encode : KeyValueOp → Bytes
  | .set key value => u32ToLeBytes 0 ++ (encodeString key ++ encodeString value)
  | .get key => u32ToLeBytes 1 ++ encodeString key
  | .delete key => u32ToLeBytes 2 ++ encodeString key
  | .list prefixed => u32ToLeBytes 3 ++ encodeOption encodeString prefixed

def decode : Decoder KeyValueOp := fun data => do
  let (variant, rest) ← decodeU32 data
  match variant.toNat with
  | 0 => do
      let (key, rest) ← decodeString rest
      let (value, rest) ← decodeString rest
      return (.set key value, rest)
  | 1 => do
      let (key, rest) ← decodeString rest
      return (.get key, rest)
  | 2 => do
      let (key, rest) ← decodeString rest
      return (.delete key, rest)
  | 3 => do
      let (prefixed, rest) ← decodeOption decodeString rest
      return (.list prefixed, rest)
  | _ => .error s!"invalid value: integer `{variant}`, expected variant index 0 <= i < 4"

end KeyValueOp

namespace ProposalData

def encode : ProposalData → Bytes
  | .keyValue op => u32ToLeBytes 0 ++ op.encode
  | .raw bytes => u32ToLeBytes 1 ++ encodeBytes bytes
  | .text content => u32ToLeBytes 2 ++ encodeString content
  | .noop => u32ToLeBytes 3

def decode : Decoder ProposalData := fun data => do
  let (variant, rest) ← decodeU32 data
  match variant.toNat with
  | 0 => do
      let (op, rest) ← KeyValueOp.decode rest
      return (.keyValue op, rest)
  | 1 => do
      let (bytes, rest) ← decodeBytes rest
      return (.raw bytes, rest)
  | 2 => do
      let (content, rest) ← decodeString rest
      return (.text content, rest)
  | 3 => .ok (.noop, rest)
  | _ => .error s!"invalid value: integer `{variant}`, expected variant index 0 <= i < 4"

end ProposalData

end IrohRaft
