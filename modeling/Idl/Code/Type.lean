import Idl.Schema.Ident
import Idl.Schema.Ty

/-!
# Types in program text

Typedefs keep their alias; every other type is written by its structure.
-/

set_option autoImplicit false

namespace Idl.Ty

def setPath : String := "::std::collections::BTreeSet"

def mapPath : String := "::std::collections::BTreeMap"

def code : Ty → String
  | .void => "()"
  | .bool => "bool"
  | .byte => "i8"
  | .i16 => "i16"
  | .i32 => "i32"
  | .i64 => "i64"
  | .double => "rt::Double"
  | .string => "String"
  | .enum name | .struct name | .exception name | .typedef name _ => Ident.type name
  | .list item => "Vec<" ++ item.code ++ ">"
  | .set item => setPath ++ "<" ++ item.code ++ ">"
  | .map key value => mapPath ++ "<" ++ key.code ++ ", " ++ value.code ++ ">"

def kindCode (t : Ty) : String :=
  "rt::WireKind::" ++ t.wireKind.name

end Idl.Ty
