import Idl.Order
import Idl.Schema.Decl
import Idl.Schema.Ident

/-!
# Checking a schema

The first mistake of a schema, in a fixed order: names of declarations, constants of enums,
typedefs, constants, structs, services. Within a service the parents come first, then the
functions one by one, and last the methods that the generated code would have to name alike.
-/

set_option autoImplicit false

namespace Idl

def firstRepeat? : List String → List String → Option String
  | _, [] => none
  | seen, name :: rest => if seen.contains name then some name else firstRepeat? (name :: seen) rest

def checkDistinct (scope : Scope) (names : List String) : Except SchemaError Unit :=
  match firstRepeat? [] names with
  | some name => .error (.duplicate scope name)
  | none => .ok ()

namespace Schema

def checkNames (s : Schema) : Except SchemaError Unit := do
  checkDistinct .types (s.typedefs.map (·.name) ++ s.enums.map (·.name) ++ s.structs.map (·.name))
  checkDistinct .services (s.services.map (·.name))
  checkDistinct .constants (s.constants.map (·.name))

/-- References inside a type, and void where a value is needed; `owner` is named in the error. -/
def checkType (s : Schema) (owner : String) : Ty → Except SchemaError Unit
  | .enum name => if (s.enum? name).isSome then .ok () else .error (.notFound .enum name)
  | .struct name | .exception name =>
    if (s.struct? name).isSome then .ok () else .error (.notFound .struct name)
  | .typedef _ target => s.checkType owner target
  | .list item | .set item =>
    if item.isVoid then .error (.voidField owner "<element>") else s.checkType owner item
  | .map key value =>
    if key.isVoid || value.isVoid then .error (.voidField owner "<entry>")
    else do
      s.checkType owner key
      s.checkType owner value
  | _ => .ok ()

def checkField (s : Schema) (owner : String) (earlier : List Field) (f : Field) :
    Except SchemaError Unit :=
  if earlier.any (·.id = f.id) then .error (.duplicateId owner f.id)
  else if earlier.any (·.name = f.name) then .error (.duplicate (.fields owner) f.name)
  else
    match earlier.find? (Ident.field ·.name = Ident.field f.name) with
    | some first => .error (.collision owner first.name f.name (Ident.field f.name))
    | none =>
      if f.ty.isVoid then .error (.voidField owner f.name) else s.checkType f.name f.ty

def checkFieldsFrom (s : Schema) (owner : String) :
    List Field → List Field → Except SchemaError Unit
  | _, [] => .ok ()
  | earlier, f :: rest => do
    s.checkField owner earlier f
    s.checkFieldsFrom owner (earlier ++ [f]) rest

def checkStruct (s : Schema) (d : StructDecl) : Except SchemaError Unit :=
  s.checkFieldsFrom d.name [] d.fields

/-- The ancestors above `service`, given the names on the way to it. The way never repeats a
name, so it is at most one longer than the list of services. -/
def ancestorsFrom (s : Schema) :
    Nat → List String → ServiceDecl → Except SchemaError (List ServiceDecl)
  | fuel, path, service => do
    match ← s.parentOf service with
    | none => .ok []
    | some parent =>
      if path.contains parent.name then .error (.circular (path ++ [parent.name]))
      else
        match fuel with
        | 0 => .ok []
        | fuel + 1 => do
          let above ← s.ancestorsFrom fuel (path ++ [parent.name]) parent
          .ok (parent :: above)

def ancestors (s : Schema) (service : ServiceDecl) : Except SchemaError (List ServiceDecl) :=
  s.ancestorsFrom s.services.length [service.name] service

def checkThrown (service function : String) (f : Field) : Except SchemaError Unit :=
  if f.ty.isException then .ok () else .error (.notThrowable service function f.ty)

def checkOneway (service : String) (f : FunctionDecl) : Except SchemaError Unit :=
  if f.oneway && f.hasReturn then .error (.oneway service f.name .returnsValue)
  else if f.oneway && !f.throws.isEmpty then .error (.oneway service f.name .throws)
  else .ok ()

def checkFunction (s : Schema) (service : String) (earlier : List String) (f : FunctionDecl) :
    Except SchemaError Unit :=
  if earlier.contains f.name then .error (.duplicate (.functions service) f.name)
  else do
    checkOneway service f
    s.checkType f.name f.returns
    s.checkStruct f.argsDecl
    s.checkStruct f.throwsDecl
    f.throws.forM (checkThrown service f.name)

def checkFunctionsFrom (s : Schema) (service : String) :
    List String → List FunctionDecl → Except SchemaError Unit
  | _, [] => .ok ()
  | earlier, f :: rest => do
    s.checkFunction service earlier f
    s.checkFunctionsFrom service (f.name :: earlier) rest

end Schema

/-- Names of the methods that a function adds to handlers and clients, ascending. -/
def FunctionDecl.methods (f : FunctionDecl) : List String :=
  ascending orderTexts
    ([Ident.field f.name, Ident.clientMethod f.name, Ident.prefixed "send" f.name] ++
      if f.oneway then [] else [Ident.prefixed "recv" f.name])

def methodSources (lineage : List ServiceDecl) : List (String × String) :=
  lineage.flatMap fun owner => owner.functions.flatMap fun f =>
    f.methods.map fun method => (method, owner.name ++ "." ++ f.name)

namespace Schema

/-- The first method that two functions would add. -/
def checkMethodsFrom (service : String) :
    List (String × String) → List (String × String) → Except SchemaError Unit
  | _, [] => .ok ()
  | seen, (method, source) :: rest =>
    match seen.find? (·.1 = method) with
    | some (_, first) => .error (.collision service first source method)
    | none => checkMethodsFrom service ((method, source) :: seen) rest

def checkService (s : Schema) (service : ServiceDecl) : Except SchemaError Unit := do
  let above ← s.ancestors service
  s.checkFunctionsFrom service.name [] service.functions
  checkMethodsFrom service.name [] (methodSources (service :: above))

def check (s : Schema) : Except SchemaError Unit := do
  s.checkNames
  s.enums.forM fun d => checkDistinct (.enumConstants d.name) (d.values.map (·.1))
  s.typedefs.forM fun d => s.checkType d.name d.target
  s.constants.forM fun d => s.checkType d.name d.ty
  s.structs.forM s.checkStruct
  s.services.forM s.checkService

end Schema

end Idl
