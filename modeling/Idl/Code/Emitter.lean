import Idl.Code.Named
import Idl.Code.Service
import Idl.Emit.Emitter

/-!
# Program text for a schema

A pass gives a unit of types, a unit of constants, a unit for each service and a unit that
declares the others.
-/

set_option autoImplicit false

namespace Idl.Code

open Emit

structure State where
  types : Page := {}
  constants : Page := {}
  services : List (String × Page) := []

def headCode (o : Options) (schema : String) (imports : List String) : Draft Unit :=
  Draft.lines
    ((if o.banner then ["// Generated by ironidl from schema `" ++ schema ++ "`. Do not edit.", ""]
      else []) ++
      ["#[allow(unused_imports)]", "use " ++ o.runtime ++ " as rt;"] ++
      imports.flatMap (fun i => ["#[allow(unused_imports)]", "use " ++ i ++ ";"]) ++ [""])

def newPage (o : Options) (schema : Schema) (imports : List String) : Page :=
  (({} : Page).draft (headCode o schema.name imports)).2

def toTypes (d : Draft Unit) : Step State Unit := fun s =>
  match s.types.draft d with
  | (.ok _, page) => .ok () { s with types := page }
  | (.error e, page) => .error e { s with types := page }

def toConstants (d : Draft Unit) : Step State Unit := fun s =>
  match s.constants.draft d with
  | (.ok _, page) => .ok () { s with constants := page }
  | (.error e, page) => .error e { s with constants := page }

def typesImport : String := "super::types::*"

def serviceImports (parent : Option ServiceDecl) : List String :=
  typesImport :: (parent.map fun p => "super::" ++ Ident.field p.name ++ "::*").toList

/-- The page of a service, which is kept only when all of it could be written. -/
def servicePage (o : Options) (schema : Schema) (d : ServiceDecl) : Emitted Page := do
  let parent ← ofSchema (schema.parentOf d)
  match (newPage o schema (serviceImports parent)).draft (serviceCode schema o d) with
  | (.ok _, page) => .ok page
  | (.error e, _) => .error e

def addService (o : Options) (schema : Schema) (d : ServiceDecl) : Step State Unit := fun s =>
  match servicePage o schema d with
  | .ok page => .ok () { s with services := s.services ++ [(Ident.field d.name, page)] }
  | .error e => .error e s

def State.units (s : State) : List OutputUnit :=
  [⟨"types.rs", s.types.text⟩, ⟨"constants.rs", s.constants.text⟩] ++
    s.services.map (fun (name, page) => ⟨name ++ ".rs", page.text⟩) ++
    [⟨"mod.rs", String.join (("types" :: "constants" :: s.services.map (·.1)).map fun name =>
      "pub mod " ++ name ++ ";\n")⟩]

/-- The emitter of program text. Starting it discards what an earlier pass left. -/
def emitter (o : Options) : Emitter State where
  name := "rust"
  start schema := set
    { types := newPage o schema [], constants := newPage o schema [typesImport] : State }
  typedef _ d := toTypes (typedefCode o d)
  enum _ d := toTypes (enumCode o d)
  constant schema d := toConstants (constCode schema d)
  struct schema d := toTypes (structCode schema o d)
  service schema d := addService o schema d
  close _ := fun s => .ok s.units {}

def generate (o : Options) (schema : Schema) : Emitted (List OutputUnit) :=
  (emitter o).units {} schema

end Idl.Code
