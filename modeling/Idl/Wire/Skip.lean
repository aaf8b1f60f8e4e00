import Idl.Wire.Input

/-!
# Skipping

A value of any kind can be passed over without knowing its type. Values nested more than
sixty-four deep are refused.
-/

set_option autoImplicit false

namespace Idl.Wire

def skipWithin : Nat → Kind → Decoder Unit
  | 0, _ => throw .tooDeep
  | depth + 1, kind =>
    match kind with
    | .stop | .void => throw (.unskippable kind)
    | .bool => discard Decoder.bool
    | .byte => discard Decoder.byte
    | .double => discard Decoder.double
    | .i16 => discard Decoder.i16
    | .i32 => discard Decoder.i32
    | .i64 => discard Decoder.i64
    | .string => discard Decoder.string
    | .struct => fun bytes =>
      (foldFields (fun header _ => skipWithin depth header.kind) () bytes).result
    | .list => do
      let (item, n) ← Decoder.items .list
      Decoder.times n (skipWithin depth item)
    | .set => do
      let (item, n) ← Decoder.items .set
      Decoder.times n (skipWithin depth item)
    | .map => do
      let (key, value, n) ← Decoder.entries
      Decoder.times n do
        skipWithin depth key
        skipWithin depth value

def maxDepth : Nat := 64

def skip (kind : Kind) : Decoder Unit :=
  skipWithin maxDepth kind

end Idl.Wire
