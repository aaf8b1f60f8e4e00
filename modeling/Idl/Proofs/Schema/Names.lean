import Idl.Proofs.Code.Rendering
import Idl.Proofs.Text.Phrase

/-!
# Names and texts of a schema

The names that a declaration gives or mentions, and the texts that stand in its literals. Names go
into program text as they are or as identifiers, while texts go into quotes and into comments.
-/

set_option autoImplicit false

namespace Idl

open Text

def Ty.names : Ty → List String
  | .enum name | .struct name | .exception name => [name]
  | .typedef name target => name :: target.names
  | .list item | .set item => item.names
  | .map key value => key.names ++ value.names
  | _ => []

mutual

def Literal.texts : Literal → List String
  | .text t => [t]
  | .list items | .set items => textsOfItems items
  | .map pairs => textsOfPairs pairs
  | .struct entries => textsOfEntries entries
  | _ => []

def textsOfItems : List Literal → List String
  | [] => []
  | v :: rest => v.texts ++ textsOfItems rest

def textsOfPairs : List (Literal × Literal) → List String
  | [] => []
  | (k, v) :: rest => k.texts ++ v.texts ++ textsOfPairs rest

def textsOfEntries : List (String × Literal) → List String
  | [] => []
  | (_, v) :: rest => v.texts ++ textsOfEntries rest

end

theorem Literal.texts_of_part {v part : Literal} (member : part ∈ v.parts) :
    part.texts ⊆ v.texts := by
  intro t inside
  cases v with
  | list items | set items =>
    rw [texts]
    induction items with
    | nil => cases member
    | cons i rest ih =>
      rw [textsOfItems, List.mem_append]
      rcases List.mem_cons.mp member with rfl | later
      · exact .inl inside
      · exact .inr (ih later)
  | map pairs =>
    rw [texts]
    induction pairs with
    | nil => cases member
    | cons p rest ih =>
      rw [textsOfPairs, List.mem_append, List.mem_append]
      rcases List.mem_append.mp member with here | later
      · simp only [List.mem_cons, List.not_mem_nil, or_false] at here
        rcases here with rfl | rfl
        · exact .inl (.inl inside)
        · exact .inl (.inr inside)
      · exact .inr (ih later)
  | struct entries =>
    rw [texts]
    induction entries with
    | nil => cases member
    | cons e rest ih =>
      rw [textsOfEntries, List.mem_append]
      rcases List.mem_cons.mp member with rfl | later
      · exact .inl inside
      · exact .inr (ih later)
  | _ => cases member

namespace Field

def names (f : Field) : List String :=
  f.name :: f.ty.names

def texts (f : Field) : List String :=
  f.default.elim [] Literal.texts

end Field

namespace StructDecl

def names (d : StructDecl) : List String :=
  d.name :: d.fields.flatMap Field.names

def texts (d : StructDecl) : List String :=
  d.fields.flatMap Field.texts

end StructDecl

def EnumDecl.names (d : EnumDecl) : List String :=
  d.name :: d.values.map (·.1)

namespace TypedefDecl

def names (d : TypedefDecl) : List String :=
  d.name :: d.target.names

def texts (d : TypedefDecl) : List String :=
  d.choices.getD []

end TypedefDecl

namespace ConstDecl

def names (d : ConstDecl) : List String :=
  d.name :: d.ty.names

def texts (d : ConstDecl) : List String :=
  d.value.texts

end ConstDecl

namespace FunctionDecl

def names (f : FunctionDecl) : List String :=
  f.name :: f.returns.names ++ (f.args ++ f.throws).flatMap Field.names

def texts (f : FunctionDecl) : List String :=
  (f.args ++ f.throws).flatMap Field.texts

end FunctionDecl

namespace ServiceDecl

def names (d : ServiceDecl) : List String :=
  d.name :: d.parent.toList ++ d.functions.flatMap FunctionDecl.names

def texts (d : ServiceDecl) : List String :=
  d.functions.flatMap FunctionDecl.texts

end ServiceDecl

namespace Schema

def names (s : Schema) : List String :=
  s.name :: s.typedefs.flatMap TypedefDecl.names ++ s.enums.flatMap EnumDecl.names ++
    s.constants.flatMap ConstDecl.names ++ s.structs.flatMap StructDecl.names ++
    s.services.flatMap ServiceDecl.names

def texts (s : Schema) : List String :=
  s.typedefs.flatMap TypedefDecl.texts ++ s.constants.flatMap ConstDecl.texts ++
    s.structs.flatMap StructDecl.texts ++ s.services.flatMap ServiceDecl.texts

end Schema

/-- The names are of characters of a set, and so are the texts up to line feeds. -/
structure Spelled (A : Char → Prop) (names texts : List String) : Prop where
  name : ∀ w ∈ names, Worded A w
  text : ∀ w ∈ texts, Worded (orFeed A) w

namespace Spelled

variable {A : Char → Prop} {names texts names' texts' : List String}

theorem mono (spelled : Spelled A names texts) (fewer : names' ⊆ names) (fewer' : texts' ⊆ texts) :
    Spelled A names' texts' :=
  ⟨fun w member => spelled.name w (fewer member), fun w member => spelled.text w (fewer' member)⟩

theorem one {α : Type} {ns ts : α → List String} {as : List α} {a : α}
    (spelled : Spelled A (as.flatMap ns) (as.flatMap ts)) (member : a ∈ as) :
    Spelled A (ns a) (ts a) :=
  spelled.mono (fun _ inside => List.mem_flatMap.mpr ⟨a, member, inside⟩)
    fun _ inside => List.mem_flatMap.mpr ⟨a, member, inside⟩

end Spelled

section Parts

variable {A : Char → Prop}

theorem StructDecl.spelled_field {d : StructDecl} (spelled : Spelled A d.names d.texts) {f : Field}
    (member : f ∈ d.fields) : Spelled A f.names f.texts :=
  (spelled.mono (List.subset_cons_self _ _) (List.Subset.refl _)).one member

namespace FunctionDecl

variable {f : FunctionDecl} (spelled : Spelled A f.names f.texts) {a : Field}

include spelled

theorem spelled_field (member : a ∈ f.args ++ f.throws) : Spelled A a.names a.texts :=
  (spelled.mono (List.subset_append_right _ _) (List.Subset.refl _)).one member

theorem spelled_returns : Spelled A f.returns.names [] :=
  spelled.mono (fun _ member => by simp [names, member]) (List.nil_subset _)

end FunctionDecl

theorem ServiceDecl.spelled_function {d : ServiceDecl} (spelled : Spelled A d.names d.texts)
    {f : FunctionDecl} (member : f ∈ d.functions) : Spelled A f.names f.texts :=
  (spelled.mono (List.subset_append_right _ _) (List.Subset.refl _)).one member

namespace Schema

variable {s : Schema} (spelled : Spelled A s.names s.texts)

include spelled

theorem spelled_typedef {d : TypedefDecl} (member : d ∈ s.typedefs) :
    Spelled A d.names d.texts := by
  refine (spelled.mono ?_ ?_).one member <;> intro w inside <;> simp [names, texts, inside]

theorem spelled_enum {d : EnumDecl} (member : d ∈ s.enums) : Spelled A d.names [] := by
  have all : Spelled A (s.enums.flatMap EnumDecl.names) [] :=
    spelled.mono (fun w inside => by simp [names, inside]) (List.nil_subset _)
  exact all.mono (fun _ inside => List.mem_flatMap.mpr ⟨d, member, inside⟩) (List.nil_subset _)

theorem spelled_constant {d : ConstDecl} (member : d ∈ s.constants) :
    Spelled A d.names d.texts := by
  refine (spelled.mono ?_ ?_).one member <;> intro w inside <;> simp [names, texts, inside]

theorem spelled_struct {d : StructDecl} (member : d ∈ s.structs) : Spelled A d.names d.texts := by
  refine (spelled.mono ?_ ?_).one member <;> intro w inside <;> simp [names, texts, inside]

theorem spelled_service {d : ServiceDecl} (member : d ∈ s.services) :
    Spelled A d.names d.texts := by
  refine (spelled.mono ?_ ?_).one member <;> intro w inside <;> simp [names, texts, inside]

end Schema

end Parts

end Idl
