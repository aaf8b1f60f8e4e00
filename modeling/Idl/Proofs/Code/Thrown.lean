import Idl.Proofs.Code.Items

/-!
# Exceptions that functions throw

The check asks of a type that a function throws that it refers to an exception and that a struct
with this name is declared. Whether the struct is an exception is said where it is declared, and
nothing compares the two. Only the structs that are declared as exceptions can be thrown in the
program text: the unit of types makes errors of them, and of nothing else.
-/

set_option autoImplicit false

namespace Idl

namespace Emit

def errorImpl (type : String) : Line :=
  ⟨0, "impl ::std::error::Error for " ++ type ++ " \x7b\x7d"⟩

/-- Whether the line makes an error of some type. A line that opens a block does not. -/
def Line.isErrorImpl (l : Line) : Bool :=
  l.depth = 0 && "impl ::std::error::Error for ".toList.isPrefixOf l.text.toList &&
    l.text.toList.getLast? = some '\x7d'

theorem filter_isErrorImpl (ls : List Line) : ls.filter Line.isErrorImpl =
    ((landmarks 0 ls).filter makesError).map fun t => ⟨0, t⟩ := by
  rw [← filter_depth (fun _ => isLandmark_of_makesError) 0 ls]
  refine List.filter_congr fun l _ => ?_
  rw [Line.isErrorImpl, makesError, Bool.and_assoc]

end Emit

namespace Code

open Emit

variable (s : Schema) (o : Options)

theorem structMarks_errors (d : StructDecl) : (structMarks d).filter makesError =
    if d.isException then ["impl ::std::error::Error for " ++ Ident.type d.name ++ " \x7b\x7d"]
    else [] := by
  have item : makesError ("pub struct " ++ Ident.type d.name ++ " \x7b") = false := by
    simp [makesError, List.isPrefixOf]
  rw [structMarks, List.filter_append, List.filter_cons_of_neg (by simp [item]), List.filter_nil]
  split <;> simp [makesError, List.getLast?_cons]

theorem typesMarks_errors : (typesMarks s).filter makesError =
    (s.structs.filter (·.isException)).map fun d =>
      "impl ::std::error::Error for " ++ Ident.type d.name ++ " \x7b\x7d" := by
  have typedefs : (s.typedefs.flatMap typedefMarks).filter makesError = [] := by
    simp [List.filter_flatMap, typedefMarks, makesError, List.isPrefixOf]
  have enums : (s.enums.flatMap enumMarks).filter makesError = [] := by
    simp [List.filter_flatMap, enumMarks, makesError, List.isPrefixOf]
  rw [typesMarks, List.filter_append, List.filter_append, typedefs, enums, List.nil_append,
    List.nil_append]
  induction s.structs with
  | nil => rfl
  | cons d rest ih =>
    rw [List.flatMap_cons, List.filter_append, structMarks_errors, ih]
    cases exception : d.isException <;> simp [exception]

/-- The lines of the unit of types make errors of the exceptions of the schema, and of nothing
else. -/
theorem typesDrafts_errors (writable : ∀ d ∈ s.structs, structVerdict s d = .ok ()) :
    (drafted (typesDrafts s o) 0).filter Line.isErrorImpl =
      (s.structs.filter (·.isException)).map fun d => errorImpl (Ident.type d.name) := by
  rw [filter_isErrorImpl, typesDrafts_mark o writable 0, typesMarks_errors, List.map_map]
  rfl

end Code

theorem Ty.resolve_mem_parts (t : Ty) : t.resolve ∈ t.parts := by
  induction t with
  | typedef name target ih => exact List.mem_cons_of_mem _ ih
  | _ => exact List.mem_cons_self

namespace Schema

variable {s : Schema}

theorem struct_unique (distinct : (s.structs.map (·.name)).Nodup) {d e : StructDecl}
    (hd : d ∈ s.structs) (he : e ∈ s.structs) (same : e.name = d.name) : e = d :=
  List.inj_on_of_nodup_map distinct he hd same

theorem struct?_of_mem (distinct : (s.structs.map (·.name)).Nodup) {d : StructDecl}
    (hd : d ∈ s.structs) : s.struct? d.name = some d := by
  obtain ⟨e, found⟩ := Option.isSome_iff_exists.mp ((s.struct?_isSome_iff d.name).mpr ⟨d, hd, rfl⟩)
  have he : e ∈ s.structs := List.mem_reverse.mp (List.mem_of_find?_eq_some found)
  have same : e.name = d.name := by simpa using List.find?_some found
  rw [found, struct_unique distinct hd he same]

theorem FunctionWellFormed.thrown_struct {f : FunctionDecl} (function : s.FunctionWellFormed f)
    {x : Field} (thrown : x ∈ f.throws) : ∃ e ∈ s.structs, x.ty.resolve = .exception e.name := by
  obtain ⟨name, refers⟩ := function.thrown x thrown
  have supported := function.throws.types x thrown x.ty.resolve x.ty.resolve_mem_parts
  rw [refers] at supported
  obtain ⟨e, he, rfl⟩ := supported
  exact ⟨e, he, refers⟩

end Schema

theorem StructDecl.isException_iff (e : StructDecl) : e.isException ↔ e.ty = .exception e.name := by
  unfold ty
  cases e.isException <;> simp

namespace Code

open Emit

/-- In a schema that passes the check, everything that a function throws refers to an exception and
leads to exactly one struct. That struct is an exception exactly if a reference to it would say so
too, and the unit of types makes errors of the exceptions of the schema and of nothing else. -/
theorem thrown_exception_iff (s : Schema) (accepted : s.check = .ok ()) :
    (∀ d ∈ s.services, ∀ f ∈ d.functions, ∀ x ∈ f.throws, ∃ e ∈ s.structs,
      x.ty.resolve = .exception e.name ∧ s.struct? e.name = some e ∧
        (∀ e' ∈ s.structs, e'.name = e.name → e' = e) ∧
        (e.isException = true ↔ x.ty.resolve = e.ty)) ∧
      ∀ o units, generate o s = .ok units → ∃ types others, units = types :: others ∧
        types.contents = String.join ((drafted (typesDrafts s o) 0).map (Page.lineText 4 0)) ∧
        (drafted (typesDrafts s o) 0).filter Line.isErrorImpl =
          (s.structs.filter (·.isException)).map fun e => errorImpl (Ident.type e.name) := by
  constructor
  · intro d declared f member x thrown
    have wellFormed := Schema.wellFormed_of_check accepted
    have distinct : (s.structs.map (·.name)).Nodup := wellFormed.typeNames.of_append_right
    have function := (wellFormed.services d declared).functions f member
    obtain ⟨e, he, refers⟩ := function.thrown_struct thrown
    refine ⟨e, he, refers, Schema.struct?_of_mem distinct he,
      fun e' he' => Schema.struct_unique distinct he he', ?_⟩
    rw [refers, e.isException_iff]
    exact eq_comm
  · intro o units generated
    obtain ⟨writable, page, modules, -, rfl⟩ := generate_ok generated
    exact ⟨_, _, rfl, (typesPage_presents s o writable).1, typesDrafts_errors s o writable⟩

theorem thrown_exception_iff_workshop : Schema.workshop.check = .ok () ∧
    (∀ d ∈ Schema.workshop.services, ∀ f ∈ d.functions, ∀ x ∈ f.throws,
      ∃ e ∈ Schema.workshop.structs, x.ty.resolve = .exception e.name ∧ e.isException = true) ∧
    ∃ units, generate {} Schema.workshop = .ok units ∧
      (drafted (typesDrafts Schema.workshop {}) 0).filter Line.isErrorImpl =
        [errorImpl "Failure"] := by
  have accepted : Schema.workshop.check = .ok () := by decide +kernel
  obtain ⟨thrown, made⟩ := thrown_exception_iff Schema.workshop accepted
  refine ⟨accepted, ?_, _, rfl, ?_⟩
  · intro d declared f member x hx
    obtain ⟨e, he, refers, -, -, exception⟩ := thrown d declared f member x hx
    have agree : ∀ d ∈ Schema.workshop.services, ∀ f ∈ d.functions, ∀ x ∈ f.throws,
        ∀ e ∈ Schema.workshop.structs, x.ty.resolve = .exception e.name →
          x.ty.resolve = e.ty := by decide +kernel
    exact ⟨e, he, refers, exception.mpr (agree d declared f member x hx e he refers)⟩
  · obtain ⟨_, _, -, -, impls⟩ := made {} _ rfl
    rw [impls]
    decide +kernel

def untagged : Schema where
  name := "untagged"
  structs := [{ name := "Plain" }]
  services := [{ name := "Shop"
                 functions := [
                   { name := "find", returns := .i32
                     throws := [{ id := 1, name := "e", ty := .exception "Plain" }] }] }]

theorem untagged_throws : untagged.check = .ok () ∧
    ∃ d ∈ untagged.services, ∃ f ∈ d.functions, ∃ x ∈ f.throws, ∀ e ∈ untagged.structs,
      x.ty.resolve = .exception e.name → e.isException = false := by
  decide +kernel

end Code

end Idl
