import Idl.Schema.Decl
import Idl.Schema.Ident

/-!
# Well-formed schemas

In a well-formed schema names are distinct where they have to be, every reference leads to a
declaration, and what has to hold a value is never void. The services that a service extends come
to an end, and no two functions on the way up add a method under the same name.
-/

set_option autoImplicit false

namespace Idl

/-- The type and all that it is made of: what typedefs stand for, and the items, keys and values
of containers. -/
def Ty.parts : Ty → List Ty
  | .typedef name target => .typedef name target :: target.parts
  | .list item => .list item :: item.parts
  | .set item => .set item :: item.parts
  | .map key value => .map key value :: (key.parts ++ value.parts)
  | t => [t]

def FunctionDecl.Adds (f : FunctionDecl) (method : String) : Prop :=
  method = Ident.field f.name ∨ method = Ident.clientMethod f.name ∨
    method = Ident.prefixed "send" f.name ∨
    f.oneway = false ∧ method = Ident.prefixed "recv" f.name

namespace Schema

/-- What the type refers to is declared, and it does not hold void. This looks at the outermost
part only. -/
def Supports (s : Schema) : Ty → Prop
  | .enum name => ∃ d ∈ s.enums, d.name = name
  | .struct name | .exception name => ∃ d ∈ s.structs, d.name = name
  | .list item | .set item => item.resolve ≠ .void
  | .map key value => key.resolve ≠ .void ∧ value.resolve ≠ .void
  | _ => True

def Admits (s : Schema) (t : Ty) : Prop :=
  ∀ part ∈ t.parts, s.Supports part

/-- The fields of a struct, the arguments of a function or the exceptions that it throws. -/
structure RecordWellFormed (s : Schema) (fields : List Field) : Prop where
  ids : (fields.map (·.id)).Nodup
  names : (fields.map (·.name)).Nodup
  idents : (fields.map fun f => Ident.field f.name).Nodup
  valued : ∀ f ∈ fields, f.ty.resolve ≠ .void
  types : ∀ f ∈ fields, s.Admits f.ty

structure FunctionWellFormed (s : Schema) (f : FunctionDecl) : Prop where
  oneway : f.oneway = true → f.returns.resolve = .void ∧ f.throws = []
  returns : s.Admits f.returns
  args : s.RecordWellFormed f.args
  throws : s.RecordWellFormed f.throws
  thrown : ∀ x ∈ f.throws, ∃ name, x.ty.resolve = .exception name

/-- The services above a service, the nearest first, up to one that extends none. -/
inductive Lineage (s : Schema) : ServiceDecl → List ServiceDecl → Prop
  | root {d : ServiceDecl} (top : d.parent = none) : Lineage s d []
  | child {d parent : ServiceDecl} {above : List ServiceDecl} (names : d.parent = some parent.name)
      (declared : parent ∈ s.services) (up : Lineage s parent above) :
      Lineage s d (parent :: above)

/-- The functions of some services have all their methods to themselves. -/
def MethodsApart (lineage : List ServiceDecl) : Prop :=
  (lineage.flatMap (·.functions)).Pairwise fun f g => ∀ method, f.Adds method → ¬ g.Adds method

structure ServiceWellFormed (s : Schema) (d : ServiceDecl) : Prop where
  lineage : ∃ above, s.Lineage d above ∧ ((d :: above).map (·.name)).Nodup ∧
    MethodsApart (d :: above)
  names : (d.functions.map (·.name)).Nodup
  functions : ∀ f ∈ d.functions, s.FunctionWellFormed f

structure WellFormed (s : Schema) : Prop where
  typeNames : (s.typedefs.map (·.name) ++ s.enums.map (·.name) ++ s.structs.map (·.name)).Nodup
  serviceNames : (s.services.map (·.name)).Nodup
  constantNames : (s.constants.map (·.name)).Nodup
  enums : ∀ d ∈ s.enums, (d.values.map (·.1)).Nodup
  typedefs : ∀ d ∈ s.typedefs, s.Admits d.target
  constants : ∀ d ∈ s.constants, s.Admits d.ty
  structs : ∀ d ∈ s.structs, s.RecordWellFormed d.fields
  services : ∀ d ∈ s.services, s.ServiceWellFormed d

end Schema

end Idl
