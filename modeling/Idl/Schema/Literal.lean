import Idl.Double

/-!
# Literals

The values of constants and the defaults of fields as they are written. The form of a literal
is independent of the type it is given to.
-/

set_option autoImplicit false

namespace Idl

inductive Literal where
  | integer (value : Int64)
  | double (value : Double)
  | bool (value : Bool)
  | text (value : String)
  | list (items : List Literal)
  | set (items : List Literal)
  | map (pairs : List (Literal × Literal))
  | struct (entries : List (String × Literal))
  deriving Inhabited

namespace Literal

def form : Literal → String
  | .integer _ => "integer"
  | .double _ => "double"
  | .bool _ => "bool"
  | .text _ => "string"
  | .list _ => "list"
  | .set _ => "set"
  | .map _ => "map"
  | .struct _ => "struct"

def integer? : Literal → Option Int64
  | .integer v => some v
  | .bool b => some (if b then 1 else 0)
  | _ => none

def items? : Literal → Option (List Literal)
  | .list items | .set items => some items
  | _ => none

end Literal

end Idl
