import Idl.Schema.Error
import Idl.Schema.Literal

/-!
# Declarations and schemas

A schema holds its declarations in the order in which they were made. Looking up a struct, an
enum or a service by name finds the last one declared with that name.
-/

set_option autoImplicit false

namespace Idl

/-- A field of a struct or an exception, or an argument of a function. `optional`, `nillable` and
`attributes` concern structural documents only. -/
structure Field where
  id : Int16
  name : String
  ty : Ty
  default : Option Literal := none
  optional : Bool := false
  nillable : Bool := false
  attributes : Option (List Field) := none
  deriving Inhabited

structure StructDecl where
  name : String
  fields : List Field := []
  isException : Bool := false
  /-- Structural documents list the fields in any order. -/
  unordered : Bool := false

namespace StructDecl

def field? (d : StructDecl) (name : String) : Option Field :=
  d.fields.find? (·.name = name)

def fieldById? (d : StructDecl) (id : Int16) : Option Field :=
  d.fields.find? (·.id = id)

def ty (d : StructDecl) : Ty :=
  if d.isException then .exception d.name else .struct d.name

end StructDecl

structure TypedefDecl where
  name : String
  target : Ty
  /-- The texts that a string alias is restricted to. -/
  choices : Option (List String) := none

def TypedefDecl.ty (d : TypedefDecl) : Ty :=
  .typedef d.name d.target

/-- An enum; a constant without a number of its own follows the one before it. -/
structure EnumDecl where
  name : String
  values : List (String × Option Int32) := []

namespace EnumDecl

def numberFrom : Int32 → List (String × Option Int32) → List (String × Int32)
  | _, [] => []
  | next, (name, given) :: rest =>
    let value := given.getD next
    (name, value) :: numberFrom (value + 1) rest

def numbered (d : EnumDecl) : List (String × Int32) :=
  numberFrom 0 d.values

def value? (d : EnumDecl) (name : String) : Option Int32 :=
  (d.numbered.find? (·.1 = name)).map (·.2)

end EnumDecl

structure ConstDecl where
  name : String
  ty : Ty
  value : Literal

structure FunctionDecl where
  name : String
  returns : Ty
  args : List Field := []
  throws : List Field := []
  oneway : Bool := false

def topId? : List Field → Option Int
  | [] => none
  | f :: fs =>
    match topId? fs with
    | none => some f.id.toInt
    | some top => some (if top < f.id.toInt then f.id.toInt else top)

/-- The id after the largest one, unless the ids are used up. -/
def nextId? (fields : List Field) : Option Int16 :=
  let next := (topId? fields).getD 0 + 1
  if next < 32768 then some (Int16.ofInt next) else none

namespace FunctionDecl

def hasReturn (f : FunctionDecl) : Bool :=
  !f.returns.isVoid

def arg? (f : FunctionDecl) (name : String) (ty : Ty) : Option FunctionDecl :=
  (nextId? f.args).map fun id => { f with args := f.args ++ [{ id, name, ty }] }

def throw? (f : FunctionDecl) (name exception : String) : Option FunctionDecl :=
  (nextId? f.throws).map fun id =>
    { f with throws := f.throws ++ [{ id, name, ty := .exception exception }] }

def argsDecl (f : FunctionDecl) : StructDecl :=
  { name := f.name ++ "_args", fields := f.args }

def throwsDecl (f : FunctionDecl) : StructDecl :=
  { name := f.name ++ "_exceptions", fields := f.throws }

end FunctionDecl

structure ServiceDecl where
  name : String
  parent : Option String := none
  functions : List FunctionDecl := []

def ServiceDecl.function? (d : ServiceDecl) (name : String) : Option FunctionDecl :=
  d.functions.find? (·.name = name)

structure Schema where
  name : String
  /-- The namespace of structural documents. -/
  targetNamespace : Option String := none
  typedefs : List TypedefDecl := []
  enums : List EnumDecl := []
  constants : List ConstDecl := []
  structs : List StructDecl := []
  services : List ServiceDecl := []

namespace Schema

def struct? (s : Schema) (name : String) : Option StructDecl :=
  s.structs.reverse.find? (·.name = name)

def enum? (s : Schema) (name : String) : Option EnumDecl :=
  s.enums.reverse.find? (·.name = name)

def service? (s : Schema) (name : String) : Option ServiceDecl :=
  s.services.reverse.find? (·.name = name)

def typedef? (s : Schema) (name : String) : Option TypedefDecl :=
  s.typedefs.find? (·.name = name)

def requireStruct (s : Schema) (name : String) : Except SchemaError StructDecl :=
  match s.struct? name with
  | some d => .ok d
  | none => .error (.notFound .struct name)

def parentOf (s : Schema) (service : ServiceDecl) : Except SchemaError (Option ServiceDecl) :=
  match service.parent with
  | none => .ok none
  | some name =>
    match s.service? name with
    | some parent => .ok (some parent)
    | none => .error (.notFound .service name)

end Schema

end Idl
