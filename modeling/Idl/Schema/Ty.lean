import Idl.Wire.Kind

/-!
# Declared types

The type of a field, an argument, a constant or a result. A typedef carries the type it stands
for; a reference to an enum, a struct or an exception carries only its name.
-/

set_option autoImplicit false

namespace Idl

inductive Ty where
  | void
  | bool
  | byte
  | i16
  | i32
  | i64
  | double
  | string
  | enum (name : String)
  | typedef (name : String) (target : Ty)
  | struct (name : String)
  | exception (name : String)
  | list (item : Ty)
  | set (item : Ty)
  | map (key value : Ty)
  deriving DecidableEq, Repr, Inhabited

namespace Ty

def resolve : Ty → Ty
  | .typedef _ target => target.resolve
  | t => t

/-- The type with the typedefs at every level replaced by what they stand for. -/
def erase : Ty → Ty
  | .typedef _ target => target.erase
  | .list item => .list item.erase
  | .set item => .set item.erase
  | .map key value => .map key.erase value.erase
  | t => t

def wireKind : Ty → Wire.Kind
  | .void => .void
  | .bool => .bool
  | .byte => .byte
  | .i16 => .i16
  | .i32 | .enum _ => .i32
  | .i64 => .i64
  | .double => .double
  | .string => .string
  | .struct _ | .exception _ => .struct
  | .list _ => .list
  | .set _ => .set
  | .map _ _ => .map
  | .typedef _ target => target.wireKind

def isVoid (t : Ty) : Bool :=
  match t.resolve with
  | .void => true
  | _ => false

def isBase (t : Ty) : Bool :=
  match t.resolve with
  | .void | .bool | .byte | .i16 | .i32 | .i64 | .double | .string => true
  | _ => false

def structName? (t : Ty) : Option String :=
  match t.resolve with
  | .struct name | .exception name => some name
  | _ => none

def isStruct (t : Ty) : Bool :=
  t.structName?.isSome

def isContainer (t : Ty) : Bool :=
  match t.resolve with
  | .list _ | .set _ | .map _ _ => true
  | _ => false

def isException (t : Ty) : Bool :=
  match t.resolve with
  | .exception _ => true
  | _ => false

/-- Whether void occurs as the type or as an element, a key or a value of it. -/
def containsVoid : Ty → Bool
  | .void => true
  | .typedef _ target => target.containsVoid
  | .list item | .set item => item.containsVoid
  | .map key value => key.containsVoid || value.containsVoid
  | _ => false

def display : Ty → String
  | .void => "void"
  | .bool => "bool"
  | .byte => "byte"
  | .i16 => "i16"
  | .i32 => "i32"
  | .i64 => "i64"
  | .double => "double"
  | .string => "string"
  | .enum name | .struct name | .exception name | .typedef name _ => name
  | .list item => "list<" ++ item.display ++ ">"
  | .set item => "set<" ++ item.display ++ ">"
  | .map key value => "map<" ++ key.display ++ "," ++ value.display ++ ">"

end Ty

end Idl
