/-!
# Wire kinds

The kind of a value on the wire, and the kind of a message, each with the byte that stands for
it.
-/

set_option autoImplicit false

namespace Idl.Wire

inductive Kind where
  | stop
  | void
  | bool
  | byte
  | double
  | i16
  | i32
  | i64
  | string
  | struct
  | map
  | set
  | list
  deriving DecidableEq, Repr

namespace Kind

def tag : Kind → UInt8
  | .stop => 0
  | .void => 1
  | .bool => 2
  | .byte => 3
  | .double => 4
  | .i16 => 6
  | .i32 => 8
  | .i64 => 10
  | .string => 11
  | .struct => 12
  | .map => 13
  | .set => 14
  | .list => 15

def ofTag? (t : UInt8) : Option Kind :=
  match t.toNat with
  | 0 => some .stop
  | 1 => some .void
  | 2 => some .bool
  | 3 => some .byte
  | 4 => some .double
  | 6 => some .i16
  | 8 => some .i32
  | 10 => some .i64
  | 11 => some .string
  | 12 => some .struct
  | 13 => some .map
  | 14 => some .set
  | 15 => some .list
  | _ => none

def name : Kind → String
  | .stop => "Stop"
  | .void => "Void"
  | .bool => "Bool"
  | .byte => "Byte"
  | .double => "Double"
  | .i16 => "I16"
  | .i32 => "I32"
  | .i64 => "I64"
  | .string => "String"
  | .struct => "Struct"
  | .map => "Map"
  | .set => "Set"
  | .list => "List"

def display : Kind → String
  | .stop => "STOP"
  | .void => "VOID"
  | .bool => "BOOL"
  | .byte => "BYTE"
  | .double => "DOUBLE"
  | .i16 => "I16"
  | .i32 => "I32"
  | .i64 => "I64"
  | .string => "STRING"
  | .struct => "STRUCT"
  | .map => "MAP"
  | .set => "SET"
  | .list => "LIST"

def isContainer : Kind → Bool
  | .map | .set | .list => true
  | _ => false

theorem ofTag?_tag (k : Kind) : ofTag? k.tag = some k := by
  cases k <;> rfl

end Kind

inductive MessageKind where
  | call
  | reply
  | exception
  | oneway
  deriving DecidableEq, Repr

namespace MessageKind

def tag : MessageKind → UInt8
  | .call => 1
  | .reply => 2
  | .exception => 3
  | .oneway => 4

def ofTag? (t : UInt8) : Option MessageKind :=
  match t.toNat with
  | 1 => some .call
  | 2 => some .reply
  | 3 => some .exception
  | 4 => some .oneway
  | _ => none

def name : MessageKind → String
  | .call => "Call"
  | .reply => "Reply"
  | .exception => "Exception"
  | .oneway => "Oneway"

theorem ofTag?_tag (k : MessageKind) : ofTag? k.tag = some k := by
  cases k <;> rfl

end MessageKind

end Idl.Wire
