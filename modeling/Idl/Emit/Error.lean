import Idl.Schema.Decl

/-!
# Reasons why nothing can be generated
-/

set_option autoImplicit false

namespace Idl

inductive Unsupported where
  | voidConstant
  | voidRead
  | voidWrite
  | literalForm (form : String) (ty : Ty)
  | outOfRange (value : Int64) (ty : Ty)
  | structKey (form owner : String)
  | refused (event : String)
  deriving DecidableEq

def Unsupported.message : Unsupported → String
  | .voidConstant => "constant value of type void"
  | .voidRead => "deserializing a void value"
  | .voidWrite => "serializing a void value"
  | .literalForm form ty => s!"{form} literal for type {ty.display}"
  | .outOfRange value ty => s!"integer literal {value} out of range for {ty.display}"
  | .structKey form owner => s!"{form} key in struct literal for {owner}"
  | .refused event => event

inductive Entity where
  | typedef
  | enum
  | constant
  | struct
  | exception
  | service
  deriving DecidableEq, Repr

def Entity.display : Entity → String
  | .typedef => "typedef"
  | .enum => "enum"
  | .constant => "const"
  | .struct => "struct"
  | .exception => "exception"
  | .service => "service"

inductive EmitError where
  | schema (error : SchemaError)
  | unsupported (what : Unsupported)
  | io
  | generation (text : String)
  | within (entity : Entity) (name : String) (error : EmitError)
  deriving DecidableEq

namespace EmitError

def root : EmitError → EmitError
  | .within _ _ error => error.root
  | error => error

def message : EmitError → String
  | .schema error => "schema error: " ++ error.message
  | .unsupported what => "unsupported construct: " ++ what.message
  | .io => "IO error"
  | .generation text => "generation error: " ++ text
  | .within entity name error => s!"while generating {entity.display} {name}: {error.message}"

end EmitError

abbrev Emitted := Except EmitError

def ofSchema {α : Type} : Except SchemaError α → Emitted α
  | .ok a => .ok a
  | .error e => .error (.schema e)

end Idl
