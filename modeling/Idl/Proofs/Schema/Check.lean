import Idl.Proofs.Order
import Idl.Proofs.Schema.Lineage

/-!
# What the check of a schema finds

The check looks for mistakes in a fixed order and stops at the first one. Each of its parts comes
to a good end exactly when the part of the schema that it looks at is well formed.
-/

set_option autoImplicit false

namespace Idl

/-- A scan takes items one by one, and compares each of them with the keys of those before it. -/
structure IsScan {α β : Type} (scan : List β → List α → Prop) (key : α → β)
    (apart : β → α → Prop) (good : α → Prop) : Prop where
  nil : ∀ seen, scan seen []
  cons : ∀ seen a rest, ∃ seen', (∀ b, b ∈ seen' ↔ b = key a ∨ b ∈ seen) ∧
    (scan seen (a :: rest) ↔ ((∀ b ∈ seen, apart b a) ∧ good a) ∧ scan seen' rest)

namespace IsScan

variable {α β : Type} {scan : List β → List α → Prop} {key : α → β} {apart : β → α → Prop}
  {good : α → Prop}

theorem iff_seen (h : IsScan scan key apart good) (seen : List β) (as : List α) :
    scan seen as ↔ (∀ b ∈ seen, ∀ a ∈ as, apart b a) ∧
      as.Pairwise (fun a a' => apart (key a) a') ∧ ∀ a ∈ as, good a := by
  induction as generalizing seen with
  | nil => simp [h.nil]
  | cons a rest ih =>
    obtain ⟨seen', members, step⟩ := h.cons seen a rest
    rw [step, ih]
    simp only [members, List.forall_mem_cons, List.pairwise_cons, forall_eq_or_imp]
    constructor
    · rintro ⟨⟨here, ha⟩, ⟨first, later⟩, pairs, goods⟩
      exact ⟨fun b hb => ⟨here b hb, later b hb⟩, ⟨first, pairs⟩, ha, goods⟩
    · rintro ⟨before, ⟨first, pairs⟩, ha, goods⟩
      exact ⟨⟨fun b hb => (before b hb).1, ha⟩, ⟨first, fun b hb => (before b hb).2⟩, pairs, goods⟩

theorem iff (h : IsScan scan key apart good) (as : List α) :
    scan [] as ↔ as.Pairwise (fun a a' => apart (key a) a') ∧ ∀ a ∈ as, good a := by
  rw [h.iff_seen]
  simp

end IsScan

theorem firstRepeat?_scan : IsScan (fun seen names => firstRepeat? seen names = none) id
    (fun earlier name => earlier ≠ name) (fun _ => True) where
  nil seen := by rw [firstRepeat?]
  cons seen name rest := by
    refine ⟨name :: seen, by simp, ?_⟩
    rw [firstRepeat?]
    by_cases repeated : seen.contains name = true
    · rw [if_pos repeated]
      have member : name ∈ seen := List.contains_iff_mem.mp repeated
      exact ⟨nofun, fun ⟨⟨fresh, _⟩, _⟩ => absurd rfl (fresh name member)⟩
    · rw [if_neg repeated]
      have fresh : ∀ earlier ∈ seen, earlier ≠ name := by
        rintro earlier member rfl
        exact repeated (List.contains_iff_mem.mpr member)
      exact ⟨fun others => ⟨⟨fresh, trivial⟩, others⟩, And.right⟩

theorem checkDistinct_ok_iff (scope : Scope) (names : List String) :
    checkDistinct scope names = .ok () ↔ names.Nodup := by
  have scan : firstRepeat? [] names = none ↔ names.Nodup := by
    simpa [List.Nodup] using firstRepeat?_scan.iff names
  rw [← scan, checkDistinct]
  cases firstRepeat? [] names <;> simp

theorem Ty.isVoid_iff (t : Ty) : t.isVoid ↔ t.resolve = .void := by
  unfold isVoid
  split <;> simp_all

theorem Ty.isException_iff (t : Ty) : t.isException ↔ ∃ name, t.resolve = .exception name := by
  unfold isException
  split <;> simp_all

namespace Schema

variable (s : Schema)

theorem enum?_isSome_iff (name : String) :
    (s.enum? name).isSome ↔ ∃ d ∈ s.enums, d.name = name := by
  simp [enum?, List.find?_isSome]

theorem struct?_isSome_iff (name : String) :
    (s.struct? name).isSome ↔ ∃ d ∈ s.structs, d.name = name := by
  simp [struct?, List.find?_isSome]

theorem checkType_ok_iff (owner : String) (t : Ty) :
    s.checkType owner t = .ok () ↔ s.Admits t := by
  unfold Admits
  induction t with
  | enum name =>
    simp only [checkType, when_eq_ok_iff, enum?_isSome_iff]
    simp [Ty.parts, Supports]
  | struct name =>
    simp only [checkType, when_eq_ok_iff, struct?_isSome_iff]
    simp [Ty.parts, Supports]
  | exception name =>
    simp only [checkType, when_eq_ok_iff, struct?_isSome_iff]
    simp [Ty.parts, Supports]
  | typedef name target ih => simp [checkType, Ty.parts, Supports, ih]
  | list item ih => simp [checkType, Ty.parts, Supports, unless_eq_ok_iff, Ty.isVoid_iff, ih]
  | set item ih => simp [checkType, Ty.parts, Supports, unless_eq_ok_iff, Ty.isVoid_iff, ih]
  | map key value ihk ihv =>
    simp only [checkType, unless_eq_ok_iff, seq_eq_ok_iff, ihk, ihv, Bool.or_eq_true, not_or,
      Ty.isVoid_iff, Ty.parts, List.forall_mem_cons, List.forall_mem_append, Supports, ne_eq]
  | _ => simp [checkType, Ty.parts, Supports]

def FieldsApart (f g : Field) : Prop :=
  f.id ≠ g.id ∧ f.name ≠ g.name ∧ Ident.field f.name ≠ Ident.field g.name

theorem checkField_ok_iff (owner : String) (earlier : List Field) (f : Field) :
    s.checkField owner earlier f = .ok () ↔
      (∀ e ∈ earlier, FieldsApart e f) ∧ f.ty.resolve ≠ .void ∧ s.Admits f.ty := by
  have unused : earlier.find? (fun e => Ident.field e.name = Ident.field f.name) = none ↔
      ∀ e ∈ earlier, Ident.field e.name ≠ Ident.field f.name := by
    simp [List.find?_eq_none]
  have apart : (∀ e ∈ earlier, FieldsApart e f) ↔ (∀ e ∈ earlier, e.id ≠ f.id) ∧
      (∀ e ∈ earlier, e.name ≠ f.name) ∧
      ∀ e ∈ earlier, Ident.field e.name ≠ Ident.field f.name := by
    simp only [FieldsApart, forall_and]
  rw [checkField, unless_eq_ok_iff, unless_eq_ok_iff, apart, ← unused]
  split
  case h_1 first found => simp [found]
  case h_2 none => simp [none, unless_eq_ok_iff, Ty.isVoid_iff, checkType_ok_iff, and_assoc]

theorem checkFields_scan (owner : String) :
    IsScan (fun earlier fields => s.checkFieldsFrom owner earlier fields = .ok ()) id FieldsApart
      (fun f => f.ty.resolve ≠ .void ∧ s.Admits f.ty) where
  nil earlier := by rw [checkFieldsFrom]
  cons earlier f rest := by
    refine ⟨earlier ++ [f], by simp [or_comm], ?_⟩
    rw [checkFieldsFrom, seq_eq_ok_iff, checkField_ok_iff]

theorem checkStruct_ok_iff (d : StructDecl) :
    s.checkStruct d = .ok () ↔ s.RecordWellFormed d.fields := by
  rw [checkStruct, (s.checkFields_scan d.name).iff]
  simp only [FieldsApart, List.pairwise_and_iff, forall_and, id_eq]
  constructor
  · rintro ⟨⟨ids, names, idents⟩, valued, types⟩
    exact ⟨List.pairwise_map.mpr ids, List.pairwise_map.mpr names, List.pairwise_map.mpr idents,
      valued, types⟩
  · rintro ⟨ids, names, idents, valued, types⟩
    exact ⟨⟨List.pairwise_map.mp ids, List.pairwise_map.mp names, List.pairwise_map.mp idents⟩,
      valued, types⟩

theorem checkOneway_ok_iff (service : String) (f : FunctionDecl) :
    checkOneway service f = .ok () ↔
      (f.oneway = true → f.returns.resolve = .void ∧ f.throws = []) := by
  rw [checkOneway, unless_eq_ok_iff, unless_eq_ok_iff, ← Ty.isVoid_iff, FunctionDecl.hasReturn]
  cases f.oneway <;> simp

theorem checkFunction_ok_iff (service : String) (earlier : List String) (f : FunctionDecl) :
    s.checkFunction service earlier f = .ok () ↔
      (∀ name ∈ earlier, name ≠ f.name) ∧ s.FunctionWellFormed f := by
  have fresh : (∀ name ∈ earlier, name ≠ f.name) ↔ ¬ earlier.contains f.name := by
    simpa using ⟨fun h hf => h f.name hf rfl, fun h name hn => ne_of_mem_of_not_mem hn h⟩
  have thrown : f.throws.forM (checkThrown service f.name) = .ok () ↔
      ∀ x ∈ f.throws, ∃ name, x.ty.resolve = .exception name := by
    simp only [forM_eq_ok_iff, checkThrown, when_eq_ok_iff, Ty.isException_iff, and_true]
  rw [checkFunction, unless_eq_ok_iff, ← fresh]
  simp only [seq_eq_ok_iff, checkOneway_ok_iff, checkType_ok_iff, checkStruct_ok_iff, thrown]
  constructor
  · rintro ⟨unused, oneway, returns, args, throws, thrown⟩
    exact ⟨unused, oneway, returns, args, throws, thrown⟩
  · rintro ⟨unused, oneway, returns, args, throws, thrown⟩
    exact ⟨unused, oneway, returns, args, throws, thrown⟩

theorem checkFunctions_scan (service : String) :
    IsScan (fun earlier functions => s.checkFunctionsFrom service earlier functions = .ok ())
      (·.name) (fun earlier f => earlier ≠ f.name) s.FunctionWellFormed where
  nil earlier := by rw [checkFunctionsFrom]
  cons earlier f rest := by
    refine ⟨f.name :: earlier, by simp, ?_⟩
    rw [checkFunctionsFrom, seq_eq_ok_iff, checkFunction_ok_iff]

theorem checkFunctions_ok_iff (service : String) (functions : List FunctionDecl) :
    s.checkFunctionsFrom service [] functions = .ok () ↔
      (functions.map (·.name)).Nodup ∧ ∀ f ∈ functions, s.FunctionWellFormed f := by
  rw [(s.checkFunctions_scan service).iff, List.Nodup, List.pairwise_map]

end Schema

theorem FunctionDecl.mem_methods (f : FunctionDecl) (method : String) :
    method ∈ f.methods ↔ f.Adds method := by
  rw [methods, mem_ascending, Adds]
  cases f.oneway <;> simp

theorem methodSources_names (lineage : List ServiceDecl) :
    (methodSources lineage).map Prod.fst =
      (lineage.flatMap (·.functions)).flatMap FunctionDecl.methods := by
  simp [methodSources, List.map_flatMap, List.flatMap_assoc, Function.comp_def]

namespace Schema

theorem checkMethods_scan (service : String) :
    IsScan (fun seen sources => checkMethodsFrom service seen sources = .ok ()) id
      (fun earlier source => earlier.1 ≠ source.1) (fun _ => True) where
  nil seen := by rw [checkMethodsFrom]
  cons seen source rest := by
    refine ⟨source :: seen, by simp, ?_⟩
    have fresh : (∀ earlier ∈ seen, earlier.1 ≠ source.1) ↔
        seen.find? (fun earlier => earlier.1 = source.1) = none := by
      simp [List.find?_eq_none]
    rw [checkMethodsFrom, fresh]
    split
    case h_1 first found => simp [found]
    case h_2 none => simp [none]

theorem checkMethods_ok_iff (service : String) (lineage : List ServiceDecl) :
    checkMethodsFrom service [] (methodSources lineage) = .ok () ↔ MethodsApart lineage := by
  have nodup : checkMethodsFrom service [] (methodSources lineage) = .ok () ↔
      ((methodSources lineage).map Prod.fst).Nodup := by
    rw [(checkMethods_scan service).iff, List.Nodup, List.pairwise_map]
    simp
  have apart : ∀ f g : FunctionDecl, (Function.onFun List.Disjoint FunctionDecl.methods f g ↔
      ∀ method, f.Adds method → ¬ g.Adds method) := by
    intro f g
    simp only [Function.onFun, List.disjoint_left, FunctionDecl.mem_methods]
  rw [nodup, methodSources_names, List.nodup_flatMap, List.Pairwise.iff apart, MethodsApart]
  exact and_iff_right fun f _ => ascending_nodup orderTexts _

variable (s : Schema)

theorem checkService_ok_iff (distinct : (s.services.map (·.name)).Nodup) {d : ServiceDecl}
    (hd : d ∈ s.services) : s.checkService d = .ok () ↔ s.ServiceWellFormed d := by
  rw [checkService, bind_eq_ok_iff]
  simp only [ancestors_eq_ok_iff distinct hd, seq_eq_ok_iff, checkFunctions_ok_iff,
    checkMethods_ok_iff]
  constructor
  · rintro ⟨above, ⟨lineage, once⟩, ⟨names, functions⟩, apart⟩
    exact ⟨⟨above, lineage, once, apart⟩, names, functions⟩
  · rintro ⟨⟨above, lineage, once, apart⟩, names, functions⟩
    exact ⟨above, ⟨lineage, once⟩, ⟨names, functions⟩, apart⟩

theorem checkNames_ok_iff : s.checkNames = .ok () ↔
    (s.typedefs.map (·.name) ++ s.enums.map (·.name) ++ s.structs.map (·.name)).Nodup ∧
      (s.services.map (·.name)).Nodup ∧ (s.constants.map (·.name)).Nodup := by
  simp only [checkNames, seq_eq_ok_iff, checkDistinct_ok_iff]

variable {s}

theorem wellFormed_of_check (accepted : s.check = .ok ()) : s.WellFormed := by
  simp only [check, seq_eq_ok_iff, checkNames_ok_iff, forM_eq_ok_iff, checkDistinct_ok_iff,
    checkType_ok_iff, checkStruct_ok_iff] at accepted
  obtain ⟨⟨types, distinct, constantNames⟩, enums, typedefs, constants, structs, services⟩ :=
    accepted
  exact ⟨types, distinct, constantNames, enums, typedefs, constants, structs, fun d hd =>
    (s.checkService_ok_iff distinct hd).mp (services d hd)⟩

theorem check_of_wellFormed (h : s.WellFormed) : s.check = .ok () := by
  simp only [check, seq_eq_ok_iff, checkNames_ok_iff, forM_eq_ok_iff, checkDistinct_ok_iff,
    checkType_ok_iff, checkStruct_ok_iff]
  exact ⟨⟨h.typeNames, h.serviceNames, h.constantNames⟩, h.enums, h.typedefs, h.constants,
    h.structs, fun d hd => (s.checkService_ok_iff h.serviceNames hd).mpr (h.services d hd)⟩

variable (s) in
/-- The check finds no mistake exactly in the schemas that are well formed. -/
theorem check_ok_iff : s.check = .ok () ↔ s.WellFormed :=
  ⟨wellFormed_of_check, check_of_wellFormed⟩

end Schema

end Idl
