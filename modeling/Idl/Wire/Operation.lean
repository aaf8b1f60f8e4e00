import Idl.Wire.Input
import Idl.Wire.Output

/-!
# Operations of an output

What can be done to an output, and what each operation does to the bytes written before it. What
opens a struct or closes anything takes no bytes.
-/

set_option autoImplicit false

namespace Idl.Wire

inductive Operation where
  | message (header : MessageHeader)
  | field (header : FieldHeader)
  | stop
  | list (item : Kind) (size : UInt32)
  | set (item : Kind) (size : UInt32)
  | map (key value : Kind) (size : UInt32)
  | bool (b : Bool)
  | byte (n : Int8)
  | i16 (n : Int16)
  | i32 (n : Int32)
  | i64 (n : Int64)
  | double (d : Double)
  | string (s : String)
  | mark

namespace Operation

def emission : Operation → Emission
  | .message header => .message header.kind header.name header.seqId
  | .field header => .field header.kind header.id
  | .stop => .stop
  | .list item size => .items .list item size.toNat
  | .set item size => .items .set item size.toNat
  | .map key value size => .entries key value size.toNat
  | .bool b => .bool b
  | .byte n => .byte n
  | .i16 n => .i16 n
  | .i32 n => .i32 n
  | .i64 n => .i64 n
  | .double d => .double d
  | .string s => .string s
  | .mark => .nothing

def run (op : Operation) (written : Bytes) : Except Fault Unit × Bytes :=
  (match op.emission.fault with | none => .ok () | some fault => .error fault,
    written ++ op.emission.bytes)

end Operation

end Idl.Wire
