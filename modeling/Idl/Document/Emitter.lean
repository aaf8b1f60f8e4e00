import Idl.Document.Element
import Idl.Emit.Emitter
import Idl.Order

/-!
# Structural documents for a schema

A pass gives one document for each service: every typedef and struct declared, a response
element for each function, and an element for each name under which the service throws.
-/

set_option autoImplicit false

namespace Idl.Document

open Emit

structure State where
  typedefs : List TypedefDecl := []
  structs : List StructDecl := []
  units : List OutputUnit := []

def responseEvents (f : FunctionDecl) : List Event :=
  elementEvents (f.name ++ "_response") f.returns none {}

/-- The names under which a service throws, ascending, each with the type declared last. -/
def thrown (d : ServiceDecl) : List (String × Ty) :=
  entries orderTexts (d.functions.flatMap fun f => f.throws.map fun t => (t.name, t.ty))

def serviceEvents (s : State) (schema : Schema) (d : ServiceDecl) : List Event :=
  schemaStart schema.targetNamespace ++
    [.comment ("Generated by ironidl from schema " ++ schema.name ++ ". Do not edit.")] ++
    s.typedefs.flatMap typedefEvents ++
    s.structs.flatMap structEvents ++
    d.functions.flatMap responseEvents ++
    (thrown d).flatMap (fun (name, ty) => elementEvents name ty none {}) ++
    [.finish "xsd:schema"]

def emitter (width : Nat) : Emitter State where
  name := "xsd"
  start _ := set ({} : State)
  typedef _ d := modify fun s => { s with typedefs := s.typedefs ++ [d] }
  enum _ _ := pure ()
  constant _ _ := pure ()
  struct _ d := modify fun s => { s with structs := s.structs ++ [d] }
  service schema d := modify fun s =>
    { s with units := s.units ++ [⟨d.name ++ ".xsd", document width (serviceEvents s schema d)⟩] }
  close _ := modifyGet fun s => (s.units, { s with units := [] })

def generate (width : Nat) (schema : Schema) : Emitted (List OutputUnit) :=
  (emitter width).units {} schema

end Idl.Document
