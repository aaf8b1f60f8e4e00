import Idl.Schema.Ty

/-!
# Mistakes in a schema
-/

set_option autoImplicit false

namespace Idl

inductive Referent where
  | enum
  | struct
  | service
  deriving DecidableEq, Repr

def Referent.display : Referent → String
  | .enum => "enum"
  | .struct => "struct"
  | .service => "service"

inductive Scope where
  | types
  | services
  | constants
  | enumConstants (owner : String)
  | fields (owner : String)
  | functions (owner : String)
  deriving DecidableEq, Repr

def Scope.display : Scope → String
  | .types => "type"
  | .services => "service"
  | .constants => "constant"
  | .enumConstants owner => "enum constant in '" ++ owner ++ "'"
  | .fields owner => "field in '" ++ owner ++ "'"
  | .functions owner => "function in '" ++ owner ++ "'"

inductive OnewayFault where
  | returnsValue
  | throws
  deriving DecidableEq, Repr

def OnewayFault.display : OnewayFault → String
  | .returnsValue => "must return void"
  | .throws => "cannot declare exceptions"

inductive SchemaError where
  | unknownField (owner field : String)
  | voidField (owner field : String)
  | notFound (referent : Referent) (name : String)
  | duplicateId (owner : String) (id : Int16)
  | duplicate (scope : Scope) (name : String)
  | circular (path : List String)
  | oneway (service function : String) (fault : OnewayFault)
  | collision (owner first second ident : String)
  | notThrowable (service function : String) (thrown : Ty)
  deriving DecidableEq

def SchemaError.message : SchemaError → String
  | .unknownField owner field => s!"type error: {owner} has no field {field}"
  | .voidField owner field => s!"void type is not allowed for field '{field}' of '{owner}'"
  | .notFound referent name => s!"{referent.display} '{name}' not found"
  | .duplicateId owner id => s!"duplicate field id {id} in '{owner}'"
  | .duplicate scope name => s!"duplicate {scope.display} definition: '{name}'"
  | .circular path =>
    "circular service inheritance detected: " ++ " -> ".intercalate path
  | .oneway service function fault =>
    s!"oneway function '{service}.{function}' {fault.display}"
  | .collision owner first second ident =>
    s!"'{first}' and '{second}' in '{owner}' both generate '{ident}'"
  | .notThrowable service function thrown =>
    s!"validation error: '{service}.{function}' throws non-exception type '{thrown.display}'"

end Idl
