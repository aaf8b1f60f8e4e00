import Idl.Code.Type
import Idl.Emit.Error
import Idl.Text.Quoted

/-!
# Literals in program text

A literal is written as an expression of the type it is given to, or refused when its form does
not fit that type.
-/

set_option autoImplicit false

namespace Idl

def Double.code (d : Double) : String :=
  if d.isNaN then "f64::NAN"
  else if d.isInfinite then (if d.isNegative then "f64::NEG_INFINITY" else "f64::INFINITY")
  else d.literal

def misfit (ty : Ty) (v : Literal) : EmitError :=
  .unsupported (.literalForm v.form ty)

def renderInteger (ty : Ty) (v : Literal) (low high : Int) : Emitted String :=
  match v.integer? with
  | none => .error (misfit ty v)
  | some n =>
    if low ≤ n.toInt ∧ n.toInt ≤ high then .ok (toString n)
    else .error (.unsupported (.outOfRange n ty))

/-- A literal without parts, or a literal whose form the type refuses. -/
def Schema.renderSimple (s : Schema) (ty : Ty) (v : Literal) : Emitted String :=
  match ty.resolve with
  | .void => .error (.unsupported .voidConstant)
  | .string =>
    match v with
    | .text t => .ok (Text.quoted t ++ ".to_owned()")
    | _ => .error (misfit ty v)
  | .bool =>
    match v.integer? with
    | some n => .ok (if n = 0 then "false" else "true")
    | none => .error (misfit ty v)
  | .byte => renderInteger ty v (-128) 127
  | .i16 => renderInteger ty v (-32768) 32767
  | .i32 => renderInteger ty v (-2147483648) 2147483647
  | .i64 => renderInteger ty v (-9223372036854775808) 9223372036854775807
  | .double =>
    match v with
    | .integer n => .ok ("rt::Double(" ++ toString n ++ "_f64)")
    | .double d => .ok ("rt::Double(" ++ d.code ++ ")")
    | _ => .error (misfit ty v)
  | .enum name => do
    let n ← renderInteger ty v (-2147483648) 2147483647
    .ok (Ident.type name ++ "(" ++ n ++ ")")
  | .struct name | .exception name => do
    let d ← ofSchema (s.requireStruct name)
    .error (misfit d.ty v)
  | .list _ | .set _ | .map _ _ | .typedef _ _ => .error (misfit ty v)

def commaSeparated (parts : List String) : String :=
  ", ".intercalate parts

def listCode : List String → String
  | [] => "Vec::new()"
  | parts => "vec![" ++ commaSeparated parts ++ "]"

def collectionCode (path : String) : List String → String
  | [] => path ++ "::new()"
  | parts => path ++ "::from([" ++ commaSeparated parts ++ "])"

/-- A later entry for a field replaces the earlier one and keeps its place. -/
def placeEntry (ident expr : String) : List (String × String) → List (String × String)
  | [] => [(ident, expr)]
  | (i, e) :: rest =>
    if i = ident then (i, expr) :: rest else (i, e) :: placeEntry ident expr rest

def structCode (d : StructDecl) (fields : List (String × String)) : String :=
  Ident.type d.name ++ " \x7b " ++ String.join (fields.map fun (i, e) => i ++ ": " ++ e ++ ", ") ++
    "..Default::default() \x7d"

def checkKeys (d : StructDecl) : List (Literal × Literal) → Emitted Unit
  | [] => .ok ()
  | (.text _, _) :: rest => checkKeys d rest
  | (k, _) :: _ => .error (.unsupported (.structKey k.form d.name))

namespace Schema

mutual

def render (s : Schema) (ty : Ty) : Literal → Emitted String
  | .list items =>
    match ty.resolve with
    | .list item => do .ok (listCode (← s.renderItems item items))
    | .set item => do .ok (collectionCode Ty.setPath (← s.renderItems item items))
    | _ => s.renderSimple ty (.list items)
  | .set items =>
    match ty.resolve with
    | .list item => do .ok (listCode (← s.renderItems item items))
    | .set item => do .ok (collectionCode Ty.setPath (← s.renderItems item items))
    | _ => s.renderSimple ty (.set items)
  | .map pairs =>
    match ty.resolve with
    | .map key value => do .ok (collectionCode Ty.mapPath (← s.renderPairs key value pairs))
    | .struct name | .exception name => do
      let d ← ofSchema (s.requireStruct name)
      checkKeys d pairs
      .ok (structCode d (← s.renderKeyed d [] pairs))
    | _ => s.renderSimple ty (.map pairs)
  | .struct entries =>
    match ty.resolve with
    | .struct name | .exception name => do
      let d ← ofSchema (s.requireStruct name)
      .ok (structCode d (← s.renderEntries d [] entries))
    | _ => s.renderSimple ty (.struct entries)
  | .integer v => s.renderSimple ty (.integer v)
  | .double v => s.renderSimple ty (.double v)
  | .bool v => s.renderSimple ty (.bool v)
  | .text v => s.renderSimple ty (.text v)

def renderItems (s : Schema) (ty : Ty) : List Literal → Emitted (List String)
  | [] => .ok []
  | v :: rest => do
    let first ← s.render ty v
    .ok (first :: (← s.renderItems ty rest))

def renderPairs (s : Schema) (key value : Ty) : List (Literal × Literal) → Emitted (List String)
  | [] => .ok []
  | (k, v) :: rest => do
    let first ← s.render key k
    let second ← s.render value v
    .ok (("(" ++ first ++ ", " ++ second ++ ")") :: (← s.renderPairs key value rest))

def renderKeyed (s : Schema) (d : StructDecl) (done : List (String × String)) :
    List (Literal × Literal) → Emitted (List (String × String))
  | [] => .ok done
  | (k, v) :: rest =>
    match k with
    | .text key =>
      match d.field? key with
      | none => .error (.schema (.unknownField d.name key))
      | some f => do
        let expr ← s.render f.ty v
        s.renderKeyed d (placeEntry (Ident.field f.name) ("Some(" ++ expr ++ ")") done) rest
    | _ => .error (.unsupported (.structKey k.form d.name))

def renderEntries (s : Schema) (d : StructDecl) (done : List (String × String)) :
    List (String × Literal) → Emitted (List (String × String))
  | [] => .ok done
  | (key, v) :: rest =>
    match d.field? key with
    | none => .error (.schema (.unknownField d.name key))
    | some f => do
      let expr ← s.render f.ty v
      s.renderEntries d (placeEntry (Ident.field f.name) ("Some(" ++ expr ++ ")") done) rest

end

end Schema

end Idl
