/-!
# UTF-8

Encoding of a text as bytes and the checked decoding of bytes. A fault names the index at which
the text stops being well formed, and how many bytes can no longer begin a character; there is
no such number when the bytes merely end too early.
-/

set_option autoImplicit false

namespace Idl.Text

def utf8 (s : String) : List UInt8 :=
  s.toList.flatMap String.utf8EncodeChar

structure Utf8Fault where
  index : Nat
  length : Option Nat
  deriving DecidableEq, Repr

def Utf8Fault.message (f : Utf8Fault) : String :=
  match f.length with
  | some n => s!"invalid utf-8 sequence of {n} bytes from index {f.index}"
  | none => s!"incomplete utf-8 byte sequence from index {f.index}"

def isContinuation (b : UInt8) : Bool :=
  0x80 ≤ b && b ≤ 0xBF

def secondOfThree (b₀ b₁ : UInt8) : Bool :=
  if b₀ = 0xE0 then 0xA0 ≤ b₁ && b₁ ≤ 0xBF
  else if b₀ = 0xED then 0x80 ≤ b₁ && b₁ ≤ 0x9F
  else isContinuation b₁

def secondOfFour (b₀ b₁ : UInt8) : Bool :=
  if b₀ = 0xF0 then 0x90 ≤ b₁ && b₁ ≤ 0xBF
  else if b₀ = 0xF4 then 0x80 ≤ b₁ && b₁ ≤ 0x8F
  else isContinuation b₁

def bitsOf (b : UInt8) (base : Nat) : Nat :=
  b.toNat - base

def twoByteChar (b₀ b₁ : UInt8) : Char :=
  Char.ofNat (bitsOf b₀ 0xC0 * 64 + bitsOf b₁ 0x80)

def threeByteChar (b₀ b₁ b₂ : UInt8) : Char :=
  Char.ofNat (bitsOf b₀ 0xE0 * 4096 + bitsOf b₁ 0x80 * 64 + bitsOf b₂ 0x80)

def fourByteChar (b₀ b₁ b₂ b₃ : UInt8) : Char :=
  Char.ofNat (bitsOf b₀ 0xF0 * 262144 + bitsOf b₁ 0x80 * 4096 + bitsOf b₂ 0x80 * 64 +
    bitsOf b₃ 0x80)

def decodeFrom (index : Nat) : List UInt8 → Except Utf8Fault (List Char)
  | [] => .ok []
  | b₀ :: r₀ =>
    if b₀ < 0x80 then
      (decodeFrom (index + 1) r₀).map (Char.ofNat b₀.toNat :: ·)
    else if 0xC2 ≤ b₀ && b₀ ≤ 0xDF then
      match r₀ with
      | [] => .error ⟨index, none⟩
      | b₁ :: r₁ =>
        if isContinuation b₁ then
          (decodeFrom (index + 2) r₁).map (twoByteChar b₀ b₁ :: ·)
        else .error ⟨index, some 1⟩
    else if 0xE0 ≤ b₀ && b₀ ≤ 0xEF then
      match r₀ with
      | [] => .error ⟨index, none⟩
      | [b₁] => .error ⟨index, if secondOfThree b₀ b₁ then none else some 1⟩
      | b₁ :: b₂ :: r₂ =>
        if !secondOfThree b₀ b₁ then .error ⟨index, some 1⟩
        else if isContinuation b₂ then
          (decodeFrom (index + 3) r₂).map (threeByteChar b₀ b₁ b₂ :: ·)
        else .error ⟨index, some 2⟩
    else if 0xF0 ≤ b₀ && b₀ ≤ 0xF4 then
      match r₀ with
      | [] => .error ⟨index, none⟩
      | [b₁] => .error ⟨index, if secondOfFour b₀ b₁ then none else some 1⟩
      | [b₁, b₂] =>
        if !secondOfFour b₀ b₁ then .error ⟨index, some 1⟩
        else .error ⟨index, if isContinuation b₂ then none else some 2⟩
      | b₁ :: b₂ :: b₃ :: r₃ =>
        if !secondOfFour b₀ b₁ then .error ⟨index, some 1⟩
        else if !isContinuation b₂ then .error ⟨index, some 2⟩
        else if isContinuation b₃ then
          (decodeFrom (index + 4) r₃).map (fourByteChar b₀ b₁ b₂ b₃ :: ·)
        else .error ⟨index, some 3⟩
    else .error ⟨index, some 1⟩

def ofUtf8 (bytes : List UInt8) : Except Utf8Fault String :=
  (decodeFrom 0 bytes).map String.ofList

end Idl.Text
