import Idl.Schema.Ident
import Idl.Text.Quoted
import Idl.Value.Shape

/-!
# Values as text

Values in the notation of program text, by which an exception says what it holds.
-/

set_option autoImplicit false

namespace Idl

/-- Doubles are wrapped, so that their place in the order is not taken for that of numbers. -/
def Double.wrapped (d : Double) : String :=
  "Double(" ++ (if d.isNaN || d.isInfinite then d.display else d.literal) ++ ")"

def withParts (name : String) : List String → String
  | [] => name
  | parts => name ++ " \x7b " ++ ", ".intercalate parts ++ " \x7d"

def braced (parts : List String) : String :=
  "\x7b" ++ ", ".intercalate parts ++ "\x7d"

mutual

def Shape.display : (s : Shape) → s.Val → String
  | .bool, b => if b then "true" else "false"
  | .byte, n => toString n.toInt
  | .i16, n => toString n.toInt
  | .i32, n => toString n.toInt
  | .i64, n => toString n.toInt
  | .double, d => d.wrapped
  | .string, t => Text.quoted t
  | .enum name _, n => Ident.type name ++ "(" ++ toString n.toInt ++ ")"
  | .list item, as => "[" ++ ", ".intercalate (as.map item.display) ++ "]"
  | .set item, as => braced (as.map item.display)
  | .map key value, es => braced (es.map fun e => key.display e.1 ++ ": " ++ value.display e.2)
  | .record name fields, record => withParts (Ident.type name) (fields.display record)

def Fields.display : (fs : Fields) → fs.Val → List String
  | .nil, _ => []
  | .cons field shape rest, (a, others) =>
    (Ident.field field.name ++ ": " ++
      match a with
      | none => "None"
      | some b => "Some(" ++ shape.display b ++ ")") :: rest.display others

end

def Shape.describe (s : Shape) (x : s.Val) : String :=
  match s, x with
  | .record name fields, x => name ++ ": " ++ Shape.display (.record name fields) x
  | s, x => s.display x

def Fields.describe : (fs : Fields) → fs.One → String
  | .cons _ shape _, .inl x => shape.describe x
  | .cons _ _ rest, .inr x => rest.describe x

end Idl
