import Idl.Double
import Idl.Wire.Bytes
import Idl.Wire.Fault

/-!
# Writing

Each operation is an emission: the bytes that it appends and, if it fails, the fault after them.
An emission that follows a fault appends nothing.
-/

set_option autoImplicit false

namespace Idl.Wire

structure Emission where
  bytes : Bytes
  fault : Option Fault := none
  deriving DecidableEq

namespace Emission

def andThen (a b : Emission) : Emission :=
  match a.fault with
  | some _ => a
  | none => ⟨a.bytes ++ b.bytes, b.fault⟩

instance : Append Emission := ⟨andThen⟩

def nothing : Emission := ⟨[], none⟩

def all : List Emission → Emission
  | [] => nothing
  | e :: rest => e ++ all rest

def kind (k : Kind) : Emission := ⟨[k.tag], none⟩

def bool (b : Bool) : Emission := ⟨[if b then 1 else 0], none⟩

def byte (n : Int8) : Emission := ⟨bigEndian 1 n.toUInt8.toNat, none⟩

def i16 (n : Int16) : Emission := ⟨bigEndian 2 n.toUInt16.toNat, none⟩

def i32 (n : Int32) : Emission := ⟨bigEndian 4 n.toUInt32.toNat, none⟩

def i64 (n : Int64) : Emission := ⟨bigEndian 8 n.toUInt64.toNat, none⟩

def double (d : Double) : Emission := ⟨bigEndian 8 d.bits.toNat, none⟩

/-- A size has to fit a signed word. -/
def size (what : Sized) (n : Nat) : Emission :=
  if n < 0x80000000 then ⟨bigEndian 4 n, none⟩ else ⟨[], some (.oversize what n)⟩

def string (s : String) : Emission :=
  let bytes := Text.utf8 s
  if bytes.length < 0x100000000 then size .string bytes.length ++ ⟨bytes, none⟩
  else ⟨[], some .overlong⟩

def items (what : Sized) (item : Kind) (n : Nat) : Emission :=
  kind item ++ size what n

def entries (key value : Kind) (n : Nat) : Emission :=
  kind key ++ kind value ++ size .map n

def field (k : Kind) (id : Int16) : Emission :=
  kind k ++ i16 id

def stop : Emission := kind .stop

def messageWord (k : MessageKind) : Nat :=
  0x80010000 + k.tag.toNat

def message (k : MessageKind) (name : String) (seqId : Int32) : Emission :=
  ⟨bigEndian 4 (messageWord k), none⟩ ++ string name ++ i32 seqId

end Emission

end Idl.Wire
