import Idl.Double
import Idl.Wire.Bytes
import Idl.Wire.Fault

/-!
# Reading

A decoder takes bytes and returns what it read with the bytes left, or a fault with the bytes
left at that point. What is too short to hold the next word is not consumed.
-/

set_option autoImplicit false

namespace Idl.Wire

abbrev Decoder := EStateM Fault Bytes

structure FieldHeader where
  kind : Kind
  id : Int16
  deriving DecidableEq, Repr

structure MessageHeader where
  name : String
  kind : MessageKind
  seqId : Int32
  deriving DecidableEq, Repr

namespace Decoder

/-- The next `n` bytes, which all have to be there. -/
def take (n : Nat) : Decoder Bytes := fun bytes =>
  let front := bytes.take n
  if front.length = n then .ok front (bytes.drop n)
  else .error (.truncated n bytes.length) bytes

def word (width : Nat) : Decoder Nat := do
  return ofBigEndian (← take width)

def bool : Decoder Bool := do
  return (← word 1) ≠ 0

def byte : Decoder Int8 := do
  return (UInt8.ofNat (← word 1)).toInt8

def i16 : Decoder Int16 := do
  return (UInt16.ofNat (← word 2)).toInt16

def i32 : Decoder Int32 := do
  return (UInt32.ofNat (← word 4)).toInt32

def i64 : Decoder Int64 := do
  return (UInt64.ofNat (← word 8)).toInt64

def double : Decoder Double := do
  return ⟨UInt64.ofNat (← word 8)⟩

def kind : Decoder Kind := do
  let tag := UInt8.ofNat (← word 1)
  match Kind.ofTag? tag with
  | some k => return k
  | none => throw (.unknownKind tag)

def size (what : Sized) : Decoder Nat := do
  let n ← i32
  if n.toInt < 0 then throw (.negativeSize what n) else return n.toInt.toNat

def string : Decoder String := do
  let n ← size .string
  match Text.ofUtf8 (← take n) with
  | .ok s => return s
  | .error fault => throw (.badText fault)

def field : Decoder (Option FieldHeader) := do
  let k ← kind
  if k = .stop then return none else return some ⟨k, ← i16⟩

def items (what : Sized) : Decoder (Kind × Nat) := do
  let k ← kind
  return (k, ← size what)

def entries : Decoder (Kind × Kind × Nat) := do
  let k ← kind
  let v ← kind
  return (k, v, ← size .map)

def message : Decoder MessageHeader := do
  let word ← word 4
  if word / 0x10000 ≠ 0x8001 then throw (.badVersion (UInt32.ofNat word))
  let tag := UInt8.ofNat word
  match MessageKind.ofTag? tag with
  | none => throw (.unknownMessage tag)
  | some kind =>
    let name ← string
    return ⟨name, kind, ← i32⟩

def times (n : Nat) (item : Decoder Unit) : Decoder Unit :=
  match n with
  | 0 => return
  | n + 1 => do
    item
    times n item

end Decoder

/-- A value built up while reading, with the bytes left and the fault that ended the reading. -/
structure Progress (α : Type) where
  value : α
  fault : Option Fault
  rest : Bytes

def Progress.result {α : Type} (p : Progress α) : EStateM.Result Fault Bytes α :=
  match p.fault with
  | none => .ok p.value p.rest
  | some fault => .error fault p.rest

/-- Reads fields up to the end of a struct, changing a value field by field. Each field takes
bytes, so that a budget of one per byte is enough; with no byte left the next header is missing. -/
def foldFieldsWithin {α : Type} (step : FieldHeader → α → Decoder α) :
    Nat → α → Bytes → Progress α
  | 0, value, bytes => ⟨value, some (.truncated 1 0), bytes⟩
  | budget + 1, value, bytes =>
    match Decoder.field bytes with
    | .error fault rest => ⟨value, some fault, rest⟩
    | .ok none rest => ⟨value, none, rest⟩
    | .ok (some header) rest =>
      match step header value rest with
      | .error fault rest => ⟨value, some fault, rest⟩
      | .ok value rest => foldFieldsWithin step budget value rest

def foldFields {α : Type} (step : FieldHeader → α → Decoder α) (value : α) (bytes : Bytes) :
    Progress α :=
  foldFieldsWithin step bytes.length value bytes

end Idl.Wire
