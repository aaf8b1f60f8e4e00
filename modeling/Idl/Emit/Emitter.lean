import Idl.Emit.Error

/-!
# Emitters

An emitter renders one schema after another. A pass starts the emitter, hands it every
declaration in a fixed order, and closes it. An emitter keeps its state when a step fails, and
an error inside a declaration is told with the declaration's name.
-/

set_option autoImplicit false

namespace Idl.Emit

structure OutputUnit where
  path : String
  contents : String
  deriving DecidableEq, Repr

abbrev Step (σ α : Type) := EStateM EmitError σ α

structure Emitter (σ : Type) where
  name : String
  start : Schema → Step σ Unit
  typedef : Schema → TypedefDecl → Step σ Unit
  enum : Schema → EnumDecl → Step σ Unit
  constant : Schema → ConstDecl → Step σ Unit
  struct : Schema → StructDecl → Step σ Unit
  service : Schema → ServiceDecl → Step σ Unit
  close : Schema → Step σ (List OutputUnit)

def within {σ α : Type} (entity : Entity) (name : String) (step : Step σ α) : Step σ α := fun s =>
  match step s with
  | .ok a s => .ok a s
  | .error e s => .error (.within entity name e) s

namespace Emitter

def entityOf (d : StructDecl) : Entity :=
  if d.isException then .exception else .struct

def run {σ : Type} (e : Emitter σ) (schema : Schema) : Step σ (List OutputUnit) := do
  e.start schema
  schema.typedefs.forM fun d => within .typedef d.name (e.typedef schema d)
  schema.enums.forM fun d => within .enum d.name (e.enum schema d)
  schema.constants.forM fun d => within .constant d.name (e.constant schema d)
  schema.structs.forM fun d => within (entityOf d) d.name (e.struct schema d)
  schema.services.forM fun d => within .service d.name (e.service schema d)
  e.close schema

def units {σ : Type} (e : Emitter σ) (state : σ) (schema : Schema) : Emitted (List OutputUnit) :=
  match e.run schema state with
  | .ok units _ => .ok units
  | .error error _ => .error error

end Emitter

end Idl.Emit
