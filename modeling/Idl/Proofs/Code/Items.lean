import Idl.Proofs.Code.Pages
import Idl.Proofs.Code.Units

/-!
# Items of a unit

A line at the top of a unit that is public begins an item, and all that stands deeper belongs to the
item above it. The unit of types has an item for each typedef, enum and struct. The unit of a
service has the structs that carry the arguments and the results of its functions, a trait, a client
and a processor.

The check compares names as they are declared, and the items are named in Pascal case. So the items
of a unit have different names exactly if different names that go into it stay different in Pascal
case. The struct that carries a result is put together from fields that the check has seen on their
own, and from one that it has not seen.
-/

set_option autoImplicit false

namespace Idl

namespace Emit

def Line.isPublic (l : Line) : Bool :=
  l.depth = 0 && opensItem l.text

def Line.Declares (name : String) (l : Line) : Prop :=
  ∃ keyword ∈ ["struct", "trait", "type"], ∃ mark ∈ [" ", "(", "<", ":"], ∃ rest,
    l.text = "pub " ++ keyword ++ " " ++ name ++ mark ++ rest

theorem Line.Declares.opens {name : String} {l : Line} (declares : l.Declares name) :
    opensItem l.text = true := by
  obtain ⟨keyword, -, mark, -, rest, text⟩ := declares
  simp [text, opensItem, List.isPrefixOf]

/-- The public lines of a text are the items with these names, in this order. -/
def Declare (names : List String) (ls : List Line) : Prop :=
  List.Forall₂ Line.Declares names (ls.filter Line.isPublic)

def Declaring : List String → List String → Prop :=
  Tells opensItem fun name text => (⟨0, text⟩ : Line).Declares name

theorem declaring_one {name text : String} (declares : (⟨0, text⟩ : Line).Declares name) :
    Declaring [name] [text] :=
  .cons declares.opens declares .nil

theorem Declaring.declare {names texts : List String} (declaring : Declaring names texts)
    {ls : List Line} (marked : landmarks 0 ls = texts) : Declare names ls := by
  subst marked
  exact declaring.lines fun _ => isLandmark_of_opensItem

/-- The contents are what the drafts write, and the drafts have the items with these names. -/
def Presents (ds : List (Draft Unit)) (names : List String) (contents : String) : Prop :=
  contents = String.join ((drafted ds 0).map (Page.lineText 4 0)) ∧ Declare names (drafted ds 0)

end Emit

namespace Code

open Emit Draft

variable (s : Schema) (o : Options)

theorem typedef_declaring (d : TypedefDecl) : Declaring [Ident.type d.name] (typedefMarks d) := by
  refine declaring_one ⟨"type", by simp, " ", by simp, "= " ++ d.target.code ++ ";", ?_⟩
  apply String.toList_injective
  simp

theorem enum_declaring (d : EnumDecl) : Declaring [Ident.type d.name] (enumMarks d) :=
  declaring_one ⟨"struct", by simp, "(", by simp, "pub i32);", by simp [String.append_assoc]⟩

theorem struct_declaring (d : StructDecl) : Declaring [Ident.type d.name] (structMarks d) := by
  have item : Declaring [Ident.type d.name] ["pub struct " ++ Ident.type d.name ++ " \x7b"] :=
    declaring_one ⟨"struct", by simp, " ", by simp, "\x7b", by simp [String.append_assoc]⟩
  have errors : Declaring [] (if d.isException then
      ["impl ::std::error::Error for " ++ Ident.type d.name ++ " \x7b\x7d"] else []) := by
    split
    · exact .skip (by simp [opensItem, List.isPrefixOf]) .nil
    · exact .nil
  exact item.append errors

def typeNames : List String :=
  s.typedefs.map (·.name) ++ s.enums.map (·.name) ++ s.structs.map (·.name)

theorem types_declaring : Declaring ((typeNames s).map Ident.type) (typesMarks s) := by
  have names : (typeNames s).map Ident.type = s.typedefs.flatMap (fun d => [Ident.type d.name]) ++
      s.enums.flatMap (fun d => [Ident.type d.name]) ++
      s.structs.flatMap (fun d => [Ident.type d.name]) := by
    simp [typeNames, List.map_eq_flatMap, List.flatMap_assoc]
  rw [names]
  exact ((Tells.flatMap typedef_declaring _).append (.flatMap enum_declaring _)).append
    (.flatMap struct_declaring _)

theorem typesPage_presents (writable : ∀ d ∈ s.structs, structVerdict s d = .ok ()) :
    Presents (typesDrafts s o) ((typeNames s).map Ident.type) (typesPage o s).text := by
  rw [typesPage_eq]
  exact ⟨text_written (typesDrafts_steady s o),
    (types_declaring s).declare (typesDrafts_mark o writable 0)⟩

def helperItems (service : String) (f : FunctionDecl) : List String :=
  argsName service f :: if f.oneway then [] else [resultName service f]

def serviceItems (d : ServiceDecl) : List String :=
  d.functions.flatMap (helperItems d.name) ++
    [traitName d.name, clientName d.name, processorName d.name]

theorem helper_declaring (service : String) (f : FunctionDecl) :
    Declaring (helperItems service f) (helperMarks service f) := by
  have back : Declaring (if f.oneway then [] else [resultName service f])
      (if f.oneway then [] else structMarks (resultStruct service f)) := by
    by_cases oneway : f.oneway
    · rw [if_pos oneway, if_pos oneway]
      exact .nil
    · rw [if_neg oneway, if_neg oneway]
      exact struct_declaring (resultStruct service f)
  exact (struct_declaring (argsStruct service f)).append back

theorem interface_declaring (parent : Option ServiceDecl) (d : ServiceDecl) :
    Declaring [traitName d.name] [interfaceMark parent d] := by
  cases parent with
  | none =>
    refine declaring_one ⟨"trait", by simp, " ", by simp, "\x7b", ?_⟩
    simp [interfaceMark, String.append_assoc]
  | some p =>
    refine declaring_one ⟨"trait", by simp, ":", by simp, " " ++ traitName p.name ++ " \x7b", ?_⟩
    apply String.toList_injective
    simp [interfaceMark]

theorem service_declaring (parent : Option ServiceDecl) (d : ServiceDecl) :
    Declaring (serviceItems d) (serviceMarks d parent) := by
  have client : Declaring [clientName d.name]
      [opening ("pub struct " ++ clientName d.name ++ "<I, O>")] :=
    declaring_one ⟨"struct", by simp, "<", by simp, "I, O> \x7b",
      by simp [opening, String.append_assoc]⟩
  have processor : Declaring [processorName d.name]
      [opening ("pub struct " ++ processorName d.name ++ "<H>")] :=
    declaring_one ⟨"struct", by simp, "<", by simp, "H> \x7b",
      by simp [opening, String.append_assoc]⟩
  exact (Tells.flatMap (helper_declaring d.name) d.functions).append
    ((interface_declaring parent d).append (client.append processor))

variable {s o} in
theorem servicePage_presents {d : ServiceDecl} {page : Page}
    (written : servicePage o s d = .ok page) : ∃ parent, s.parentOf d = .ok parent ∧
      Presents (serviceDrafts s o parent d) (serviceItems d) page.text := by
  obtain ⟨parent, found, writable, rfl⟩ := of_servicePage written
  exact ⟨parent, found, text_written (serviceDrafts_steady s o parent d),
    (service_declaring parent d).declare (serviceDrafts_mark o writable found 0)⟩

theorem type_helper {service function tail word ending : String} (joined : tail = "_" ++ word)
    (cased : Ident.pascal word = ending)
    (apart : ¬ (ending.toList <:+ "Self".toList ∨ "Self".toList <:+ ending.toList)) :
    Ident.type (service ++ "_" ++ function ++ tail) =
      Ident.pascal service ++ Ident.pascal function ++ ending := by
  have whole : Ident.pascal (service ++ "_" ++ function ++ tail) =
      Ident.pascal service ++ Ident.pascal function ++ ending := by
    rw [joined, ← String.append_assoc, Ident.pascal_join, Ident.pascal_join, cased]
  have plain : Ident.pascal service ++ Ident.pascal function ++ ending ≠ "" ++ "Self" :=
    Ident.append_ne_append apart
  rw [Ident.type_eq, whole, if_neg (by simpa using plain)]

theorem argsName_eq (service : String) (f : FunctionDecl) :
    argsName service f = Ident.pascal service ++ Ident.pascal f.name ++ "Args" :=
  type_helper (show "_args" = "_" ++ "args" by decide) (by decide) (by decide)

theorem resultName_eq (service : String) (f : FunctionDecl) :
    resultName service f = Ident.pascal service ++ Ident.pascal f.name ++ "Result" :=
  type_helper (show "_result" = "_" ++ "result" by decide) (by decide) (by decide)

theorem mem_helperItems {service item : String} {f : FunctionDecl} :
    item ∈ helperItems service f ↔ item = Ident.pascal service ++ Ident.pascal f.name ++ "Args" ∨
      f.oneway = false ∧ item = Ident.pascal service ++ Ident.pascal f.name ++ "Result" := by
  rw [helperItems, argsName_eq, resultName_eq]
  cases f.oneway <;> simp

theorem helperItems_nodup (service : String) (f : FunctionDecl) :
    (helperItems service f).Nodup := by
  rw [helperItems, argsName_eq, resultName_eq]
  cases f.oneway with
  | true => simp
  | false => simp

theorem helperItems_disjoint_iff {service : String} {f g : FunctionDecl} :
    (helperItems service f).Disjoint (helperItems service g) ↔
      Ident.pascal f.name ≠ Ident.pascal g.name := by
  constructor
  · intro disjoint same
    apply disjoint (mem_helperItems.mpr (.inl rfl))
    rw [same]
    exact mem_helperItems.mpr (.inl rfl)
  · intro apart item here there
    rcases mem_helperItems.mp here with args | ⟨-, result⟩
    · rcases mem_helperItems.mp there with args' | ⟨-, result'⟩
      · rw [args, String.append_left_inj, String.append_right_inj] at args'
        exact apart args'
      · exact Ident.append_ne_append (by decide) (args.symm.trans result')
    · rcases mem_helperItems.mp there with args' | ⟨-, result'⟩
      · exact Ident.append_ne_append (by decide) (result.symm.trans args')
      · rw [result, String.append_left_inj, String.append_right_inj] at result'
        exact apart result'

theorem serviceItems_nodup_iff (d : ServiceDecl) :
    (serviceItems d).Nodup ↔ ((d.functions.map (·.name)).map Ident.pascal).Nodup := by
  have roles : [traitName d.name, clientName d.name, processorName d.name].Nodup := by
    have traitClient : traitName d.name ≠ clientName d.name := Ident.append_ne_append (by decide)
    have traitProcessor : traitName d.name ≠ processorName d.name :=
      Ident.append_ne_append (by decide)
    have clientProcessor : clientName d.name ≠ processorName d.name :=
      Ident.append_ne_append (by decide)
    simp [traitClient, traitProcessor, clientProcessor]
  have apart : (d.functions.flatMap (helperItems d.name)).Disjoint
      [traitName d.name, clientName d.name, processorName d.name] := by
    intro item helper role
    obtain ⟨f, -, ofFunction⟩ := List.mem_flatMap.mp helper
    simp only [List.mem_cons, List.not_mem_nil, or_false] at role
    rcases mem_helperItems.mp ofFunction with rfl | ⟨-, rfl⟩
    · rcases role with same | same | same
      all_goals exact Ident.append_ne_append (by decide) same
    · rcases role with same | same | same
      all_goals exact Ident.append_ne_append (by decide) same
  have functions : (d.functions.flatMap (helperItems d.name)).Nodup ↔
      ((d.functions.map (·.name)).map Ident.pascal).Nodup := by
    rw [List.nodup_flatMap, and_iff_right fun f _ => helperItems_nodup d.name f, List.map_map,
      List.Nodup, List.pairwise_map]
    exact List.Pairwise.iff fun _ _ => helperItems_disjoint_iff
  rw [serviceItems, List.nodup_append', functions]
  exact ⟨fun all => all.1, fun all => ⟨all, roles, apart⟩⟩

theorem typeItems_nodup_iff (names : List String) :
    (names.map Ident.type).Nodup ↔ (names.map Ident.pascal).Nodup := by
  simp only [List.Nodup, List.pairwise_map, Ne, Ident.type_eq_type_iff]

/-- In a schema that passes the check, the items of the types and those of a service have different
names exactly if different names of types and of functions stay different in Pascal case. These are
the items that the units have at their top. -/
theorem items_distinct_iff (s : Schema) (accepted : s.check = .ok ()) :
    (((typeNames s).map Ident.type).Nodup ↔ Ident.Separates Ident.pascal (typeNames s)) ∧
      (∀ d ∈ s.services, (serviceItems d).Nodup ↔
        Ident.Separates Ident.pascal (d.functions.map (·.name))) ∧
      ∀ o units, generate o s = .ok units → ∃ types constants services modules,
        units = types :: constants :: (services ++ [modules]) ∧
          Presents (typesDrafts s o) ((typeNames s).map Ident.type) types.contents ∧
          List.Forall₂ (fun d u => ∃ parent, s.parentOf d = .ok parent ∧
            Presents (serviceDrafts s o parent d) (serviceItems d) u.contents)
          s.services services := by
  have wellFormed := Schema.wellFormed_of_check accepted
  refine ⟨?_, ?_, ?_⟩
  · rw [typeItems_nodup_iff]
    exact Ident.separates_iff wellFormed.typeNames
  · intro d member
    rw [serviceItems_nodup_iff, Ident.separates_iff (wellFormed.services d member).names]
  · intro o units generated
    obtain ⟨writable, page, modules, pages, rfl⟩ := generate_ok generated
    refine ⟨_, _, _, _, rfl, typesPage_presents s o writable, ?_⟩
    rw [List.forall₂_map_right_iff, List.forall₂_same]
    intro d member
    exact servicePage_presents (pages d member)

def catalogue : Schema where
  name := "catalogue"
  typedefs := [{ name := "tag", target := .string }]
  enums := [{ name := "Level" }]
  structs := [{ name := "self" }, { name := "tag_list" }]
  services := [{ name := "Shop"
                 functions := [{ name := "find1", returns := .void },
                   { name := "find_2", returns := .i32 }] }]

theorem items_distinct_catalogue : catalogue.check = .ok () ∧
    ((typeNames catalogue).map Ident.type).Nodup ∧
      ∀ d ∈ catalogue.services, (serviceItems d).Nodup := by
  have accepted : catalogue.check = .ok () := by decide +kernel
  obtain ⟨types, services, -⟩ := items_distinct_iff catalogue accepted
  have typesApart : Ident.Separates Ident.pascal (typeNames catalogue) := by
    unfold Ident.Separates
    decide +kernel
  have functionsApart : ∀ d ∈ catalogue.services,
      Ident.Separates Ident.pascal (d.functions.map (·.name)) := by
    unfold Ident.Separates
    decide +kernel
  exact ⟨accepted, types.mpr typesApart, fun d member =>
    (services d member).mpr (functionsApart d member)⟩

def doubled : Schema where
  name := "doubled"
  structs := [{ name := "foo_bar" }, { name := "FooBar" }]
  services := [{ name := "Shop"
                 functions := [{ name := "find1", returns := .void },
                   { name := "find_1", returns := .void }] }]

/-- Both structs, and both structs for the arguments, come out under one name. -/
theorem doubled_items : doubled.check = .ok () ∧
    (typeNames doubled).map Ident.type = ["FooBar", "FooBar"] ∧
      ∀ d ∈ doubled.services, ¬ (serviceItems d).Nodup := by
  decide +kernel

variable {s : Schema} {f : FunctionDecl}

theorem resultStruct_nodup_iff {α : Type} (service : String) (key : Field → α)
    (distinct : (f.throws.map key).Nodup) :
    ((resultStruct service f).fields.map key).Nodup ↔ (f.hasReturn = true → ∀ x ∈ f.throws,
      key x ≠ key { id := 0, name := "success", ty := f.returns }) := by
  by_cases value : f.hasReturn
  · simp [resultStruct, value, distinct]
  · simp [resultStruct, value, distinct]

theorem result_ids_iff (service : String) (function : s.FunctionWellFormed f) :
    ((resultStruct service f).fields.map (·.id)).Nodup ↔
      (f.hasReturn = true → ∀ x ∈ f.throws, x.id ≠ 0) :=
  resultStruct_nodup_iff service (·.id) function.throws.ids

theorem result_idents_iff (service : String) (function : s.FunctionWellFormed f) :
    ((resultStruct service f).fields.map fun x => Ident.field x.name).Nodup ↔
      (f.hasReturn = true → ∀ x ∈ f.throws, Ident.snake x.name ≠ "success") := by
  have same (name : String) : Ident.field name = "success" ↔ Ident.snake name = "success" :=
    Ident.field_eq_plain_iff (by decide) (by decide) (by decide)
  have plain : Ident.field "success" = "success" := (same "success").mpr (by decide)
  rw [resultStruct_nodup_iff service _ function.throws.idents]
  simp only [plain, ne_eq, same]

theorem checkStruct_result_iff (service : String) (function : s.FunctionWellFormed f) :
    s.checkStruct (resultStruct service f) = .ok () ↔ (f.hasReturn = true → ∀ x ∈ f.throws,
      x.id ≠ 0 ∧ Ident.snake x.name ≠ "success") := by
  have ids := result_ids_iff service function
  have idents := result_idents_iff service function
  rw [Schema.checkStruct_ok_iff]
  constructor
  · intro record value x thrown
    exact ⟨ids.mp record.ids value x thrown, idents.mp record.idents value x thrown⟩
  · intro apart
    have distinct := idents.mpr fun value x thrown => (apart value x thrown).2
    refine ⟨ids.mpr fun value x thrown => (apart value x thrown).1, ?_, distinct, ?_, ?_⟩
    · -- Different identifiers come from different names.
      apply List.Nodup.of_map Ident.field
      simpa [Function.comp_def] using distinct
    · intro x inResult
      rcases mem_resultStruct inResult with thrown | ⟨valued, returned, -⟩
      · exact function.throws.valued x thrown
      · rwa [returned]
    · intro x inResult
      rcases mem_resultStruct inResult with thrown | ⟨-, returned, -⟩
      · exact function.throws.types x thrown
      · rw [returned]
        exact function.returns

/-- In the struct that carries a result, ids are distinct exactly if no exception has the id of the
value that comes back, and names exactly if no exception has its name in snake case. The check of
structs would accept it exactly if both are so. -/
theorem result_fields_distinct_iff (s : Schema) (accepted : s.check = .ok ()) (d : ServiceDecl)
    (declared : d ∈ s.services) (f : FunctionDecl) (member : f ∈ d.functions) :
    (((resultStruct d.name f).fields.map (·.id)).Nodup ↔
        (f.hasReturn = true → ∀ x ∈ f.throws, x.id ≠ 0)) ∧
      (((resultStruct d.name f).fields.map fun x => Ident.field x.name).Nodup ↔
        (f.hasReturn = true → ∀ x ∈ f.throws, Ident.snake x.name ≠ "success")) ∧
      (s.checkStruct (resultStruct d.name f) = .ok () ↔ (f.hasReturn = true → ∀ x ∈ f.throws,
        x.id ≠ 0 ∧ Ident.snake x.name ≠ "success")) := by
  have service := (Schema.wellFormed_of_check accepted).services d declared
  have function := service.functions f member
  exact ⟨result_ids_iff d.name function, result_idents_iff d.name function,
    checkStruct_result_iff d.name function⟩

theorem result_fields_distinct_workshop : Schema.workshop.check = .ok () ∧
    ∀ d ∈ Schema.workshop.services, ∀ f ∈ d.functions,
      ((resultStruct d.name f).fields.map (·.id)).Nodup ∧
        ((resultStruct d.name f).fields.map fun x => Ident.field x.name).Nodup := by
  have accepted : Schema.workshop.check = .ok () := by decide +kernel
  have apart : ∀ d ∈ Schema.workshop.services, ∀ f ∈ d.functions, f.hasReturn = true →
      ∀ x ∈ f.throws, x.id ≠ 0 ∧ Ident.snake x.name ≠ "success" := by decide +kernel
  refine ⟨accepted, fun d declared f member => ?_⟩
  obtain ⟨ids, idents, -⟩ :=
    result_fields_distinct_iff Schema.workshop accepted d declared f member
  exact ⟨ids.mpr fun value x thrown => (apart d declared f member value x thrown).1,
    idents.mpr fun value x thrown => (apart d declared f member value x thrown).2⟩

def intruding : Schema where
  name := "intruding"
  structs := [{ name := "Failure", isException := true }]
  services := [{ name := "Shop"
                 functions := [
                   { name := "find", returns := .i32
                     throws := [{ id := 0, name := "e", ty := .exception "Failure" }] },
                   { name := "take", returns := .i32
                     throws := [{ id := 1, name := "Success", ty := .exception "Failure" }] }] }]

theorem intruding_results : intruding.check = .ok () ∧
    ∃ d ∈ intruding.services, ∃ f ∈ d.functions, ∃ g ∈ d.functions,
      ¬ ((resultStruct d.name f).fields.map (·.id)).Nodup ∧
        ¬ ((resultStruct d.name g).fields.map fun x => Ident.field x.name).Nodup := by
  decide +kernel

end Code

end Idl
