import Idl.Document.Emitter
import Idl.Proofs.Code.Named
import Idl.Proofs.Code.Service
import Idl.Proofs.Schema.Check

/-!
# Schemas that pass the check can be written

The check of a schema and the writing of its text look at the declarations on their own. Where the
check finds no mistake and every literal fits its type, the writing finds nothing that could stop
it. It then gives a unit of types, a unit of constants, a unit for each service in the order of
their declaration, and the unit that declares the others.
-/

set_option autoImplicit false

namespace Idl

def Field.DefaultRenders (s : Schema) (f : Field) : Prop :=
  ∀ v, f.default = some v → ∃ text, s.render f.ty v = .ok text

/-- Every literal of the schema can be written as a value of the type that it is declared for. -/
structure Schema.LiteralsRender (s : Schema) : Prop where
  constants : ∀ d ∈ s.constants, ∃ text, s.render d.ty d.value = .ok text
  fields : ∀ d ∈ s.structs, ∀ f ∈ d.fields, f.DefaultRenders s
  args : ∀ d ∈ s.services, ∀ f ∈ d.functions, ∀ a ∈ f.args, a.DefaultRenders s
  throws : ∀ d ∈ s.services, ∀ f ∈ d.functions, ∀ x ∈ f.throws, x.DefaultRenders s

variable {s : Schema}

theorem Schema.Admits.containsVoid {t : Ty} (admits : s.Admits t) (valued : t.resolve ≠ .void) :
    t.containsVoid = false := by
  induction t with
  | void => exact absurd rfl valued
  | typedef name target ih =>
    apply ih _ valued
    intro part member
    exact admits part (List.mem_cons_of_mem _ member)
  | list item ih =>
    apply ih _ (admits _ List.mem_cons_self)
    intro part member
    exact admits part (List.mem_cons_of_mem _ member)
  | set item ih =>
    apply ih _ (admits _ List.mem_cons_self)
    intro part member
    exact admits part (List.mem_cons_of_mem _ member)
  | map key value ihk ihv =>
    obtain ⟨keyValued, valueValued⟩ := admits _ List.mem_cons_self
    have inner : ∀ part ∈ key.parts ++ value.parts, s.Supports part := fun part member =>
      admits part (List.mem_cons_of_mem _ member)
    have noKey := ihk (fun part member => inner part (List.mem_append_left _ member)) keyValued
    have noValue := ihv (fun part member => inner part (List.mem_append_right _ member)) valueValued
    exact Bool.or_eq_false_iff.mpr ⟨noKey, noValue⟩
  | _ => rfl

theorem Schema.RecordWellFormed.containsVoid {fields : List Field}
    (record : s.RecordWellFormed fields) : ∀ f ∈ fields, f.ty.containsVoid = false := by
  intro f member
  exact (record.types f member).containsVoid (record.valued f member)

namespace Code

open Emit

theorem defaultCode_ok {f : Field} (renders : f.DefaultRenders s) :
    ∃ text, defaultCode s f = .ok text := by
  unfold defaultCode
  cases given : f.default with
  | none => exact ⟨_, rfl⟩
  | some v =>
    obtain ⟨text, rendered⟩ := renders v given
    dsimp only
    rw [rendered]
    exact ⟨_, rfl⟩

theorem argCode_ok {a : Field} (renders : a.DefaultRenders s) : ∃ text, argCode s a = .ok text := by
  unfold argCode
  cases given : a.default with
  | none => exact ⟨_, rfl⟩
  | some v =>
    obtain ⟨text, rendered⟩ := renders v given
    dsimp only
    rw [rendered]
    exact ⟨_, rfl⟩

theorem render_string {ty : Ty} (string : ty.resolve = .string) {v : Literal} {text : String}
    (rendered : s.render ty v = .ok text) : ∃ t, v = .text t := by
  cases v with
  | text t => exact ⟨t, rfl⟩
  | _ => simp [Schema.render, Schema.renderSimple, string] at rendered

theorem constLine_ok {d : ConstDecl} (renders : ∃ text, s.render d.ty d.value = .ok text) :
    ∃ line, constLine s d = .ok line := by
  obtain ⟨text, rendered⟩ := renders
  unfold constLine
  split
  case h_1 string =>
    obtain ⟨t, given⟩ := render_string string rendered
    rw [given]
    exact ⟨_, rfl⟩
  all_goals
    rw [rendered]
    exact ⟨_, rfl⟩

theorem structVerdict_ok {d : StructDecl} (valued : ∀ f ∈ d.fields, f.ty.containsVoid = false)
    (renders : ∀ f ∈ d.fields, f.DefaultRenders s) : structVerdict s d = .ok () := by
  unfold structVerdict
  rw [find?_void_eq_none valued]
  apply (forM_eq_ok_iff _).mpr
  intro f member
  exact verdict_eq_ok_iff.mpr (defaultCode_ok (renders f member))

theorem mem_resultStruct {service : String} {f : FunctionDecl} {g : Field}
    (member : g ∈ (resultStruct service f).fields) :
    g ∈ f.throws ∨ f.returns.resolve ≠ .void ∧ g.ty = f.returns ∧ g.default = none := by
  rcases List.mem_append.mp member with success | thrown
  · by_cases value : f.hasReturn
    · rw [if_pos value, List.mem_singleton] at success
      rw [FunctionDecl.hasReturn, Bool.not_eq_true', ← Bool.not_eq_true, Ty.isVoid_iff] at value
      rw [success]
      exact .inr ⟨value, rfl, rfl⟩
    · rw [if_neg value] at success
      cases success
  · exact .inl thrown

theorem helpersVerdict_ok {d : ServiceDecl}
    (functions : ∀ f ∈ d.functions, s.FunctionWellFormed f)
    (args : ∀ f ∈ d.functions, ∀ a ∈ f.args, a.DefaultRenders s)
    (throws : ∀ f ∈ d.functions, ∀ x ∈ f.throws, x.DefaultRenders s) :
    helpersVerdict s d = .ok () := by
  apply (forM_eq_ok_iff _).mpr
  intro f member
  have wellFormed := functions f member
  rw [structVerdict_ok wellFormed.args.containsVoid (args f member), ok_bind]
  by_cases oneway : f.oneway
  · rw [if_pos oneway]
  · rw [if_neg oneway]
    apply structVerdict_ok
    · intro g inResult
      rcases mem_resultStruct inResult with thrown | ⟨valued, returned, -⟩
      · exact wellFormed.throws.containsVoid g thrown
      · rw [returned]
        exact wellFormed.returns.containsVoid valued
    · intro g inResult v given
      rcases mem_resultStruct inResult with thrown | ⟨-, -, without⟩
      · exact throws f member g thrown v given
      · rw [without] at given
        cases given

theorem parentOf_ok (distinct : (s.services.map (·.name)).Nodup) {d : ServiceDecl}
    (wellFormed : s.ServiceWellFormed d) : ∃ parent, s.parentOf d = .ok parent := by
  obtain ⟨above, lineage, -⟩ := wellFormed.lineage
  exact lineage.exists_parentOf distinct

theorem serviceVerdict_ok (distinct : (s.services.map (·.name)).Nodup) {d : ServiceDecl}
    (wellFormed : s.ServiceWellFormed d)
    (args : ∀ f ∈ d.functions, ∀ a ∈ f.args, a.DefaultRenders s)
    (throws : ∀ f ∈ d.functions, ∀ x ∈ f.throws, x.DefaultRenders s) :
    serviceVerdict s d = .ok () := by
  obtain ⟨parent, found⟩ := parentOf_ok distinct wellFormed
  unfold serviceVerdict
  rw [found, helpersVerdict_ok wellFormed.functions args throws]
  apply (forM_eq_ok_iff _).mpr
  intro f member
  have received := mapM_ok f.args fun a inArgs => argCode_ok (args f member a inArgs)
  exact verdict_eq_ok_iff.mpr received

theorem servicePage_ok (o : Options) {d : ServiceDecl} (writable : serviceVerdict s d = .ok ()) :
    ∃ page, servicePage o s d = .ok page := by
  obtain ⟨parent, found, -⟩ := bind_eq_ok_iff.mp writable
  rw [servicePage, found, ok_bind]
  unfold Page.draft
  dsimp only
  rw [serviceCode_answer, writable]
  exact ⟨_, rfl⟩

end Code

namespace Emit

theorem within_ok {σ α : Type} {entity : Entity} {name : String} {step : Step σ α} {s s' : σ}
    {a : α} (done : step s = .ok a s') : within entity name step s = .ok a s' := by
  unfold within
  rw [done]

theorem Emitter.units_ok {σ : Type} {e : Emitter σ} {schema : Schema}
    {s s₁ s₂ s₃ s₄ s₅ s₆ s₇ : σ} {units : List OutputUnit} (start : e.start schema s = .ok () s₁)
    (typedefs : schema.typedefs.forM (fun d => within .typedef d.name (e.typedef schema d)) s₁ =
      .ok () s₂)
    (enums : schema.enums.forM (fun d => within .enum d.name (e.enum schema d)) s₂ = .ok () s₃)
    (constants : schema.constants.forM (fun d => within .constant d.name (e.constant schema d)) s₃ =
      .ok () s₄)
    (structs : schema.structs.forM (fun d => within (entityOf d) d.name (e.struct schema d)) s₄ =
      .ok () s₅)
    (services : schema.services.forM (fun d => within .service d.name (e.service schema d)) s₅ =
      .ok () s₆)
    (close : e.close schema s₆ = .ok units s₇) : e.units s schema = .ok units := by
  have ran : e.run schema s = .ok units s₇ := by
    unfold run
    rw [bind_of_ok start, bind_of_ok typedefs, bind_of_ok enums, bind_of_ok constants,
      bind_of_ok structs, bind_of_ok services, close]
  unfold Emitter.units
  rw [ran]

def Page.written (p : Page) (drafts : List (Draft Unit)) : Page :=
  drafts.foldl (fun page d => (page.draft d).2) p

theorem Page.written_snoc (p : Page) (drafts : List (Draft Unit)) (d : Draft Unit) :
    p.written (drafts ++ [d]) = ((p.written drafts).draft d).2 := by
  simp [written]

end Emit

namespace Code

open Emit

variable {α : Type} {code : α → Draft Unit} {as : List α}

theorem toTypes_reaches (answers : ∀ a ∈ as, ∀ n, (code a n).answer = .ok ())
    (entity : α → Entity) (name : α → String) (types constants : Page) :
    as.forM (fun a => within (entity a) (name a) (toTypes (code a))) ⟨types, constants, []⟩ =
      .ok () ⟨types.written (as.map code), constants, []⟩ := by
  apply forM_reaches fun done => (⟨types.written (done.map code), constants, []⟩ : State)
  intro done a member
  apply within_ok
  unfold toTypes Page.draft
  dsimp only
  rw [answers a member, List.map_append, List.map_singleton, Page.written_snoc]
  rfl

theorem toConstants_reaches (answers : ∀ a ∈ as, ∀ n, (code a n).answer = .ok ())
    (entity : α → Entity) (name : α → String) (types constants : Page) :
    as.forM (fun a => within (entity a) (name a) (toConstants (code a))) ⟨types, constants, []⟩ =
      .ok () ⟨types, constants.written (as.map code), []⟩ := by
  apply forM_reaches fun done => (⟨types, constants.written (done.map code), []⟩ : State)
  intro done a member
  apply within_ok
  unfold toConstants Page.draft
  dsimp only
  rw [answers a member, List.map_append, List.map_singleton, Page.written_snoc]
  rfl

theorem addService_reaches (o : Options) {services : List ServiceDecl} {page : ServiceDecl → Page}
    (pages : ∀ d ∈ services, servicePage o s d = .ok (page d)) (types constants : Page) :
    services.forM (fun d => within .service d.name (addService o s d)) ⟨types, constants, []⟩ =
      .ok () ⟨types, constants, services.map fun d => (Ident.field d.name, page d)⟩ := by
  apply forM_reaches fun done =>
    (⟨types, constants, done.map fun d => (Ident.field d.name, page d)⟩ : State)
  intro done d member
  apply within_ok
  unfold addService
  rw [pages d member, List.map_append, List.map_singleton]

/-- The types in the order in which a pass hands them over: first the typedefs, then the enums,
then the structs and the exceptions. -/
def typesPage (o : Options) (s : Schema) : Page :=
  let typedefs := (newPage o s []).written (s.typedefs.map (typedefCode o))
  let enums := typedefs.written (s.enums.map (enumCode o))
  enums.written (s.structs.map (structCode s o))

def constantsPage (o : Options) (s : Schema) : Page :=
  (newPage o s [typesImport]).written (s.constants.map (constCode s))

theorem generate_eq (o : Options) (constants : ∀ d ∈ s.constants, ∃ line, constLine s d = .ok line)
    (structs : ∀ d ∈ s.structs, structVerdict s d = .ok ()) {page : ServiceDecl → Page}
    (pages : ∀ d ∈ s.services, servicePage o s d = .ok (page d)) :
    generate o s = .ok (State.units ⟨typesPage o s, constantsPage o s,
      s.services.map fun d => (Ident.field d.name, page d)⟩) := by
  have structAnswers : ∀ d ∈ s.structs, ∀ n, (structCode s o d n).answer = .ok () := by
    intro d member n
    rw [structCode_answer, structs d member]
  have constantAnswers : ∀ d ∈ s.constants, ∀ n, (constCode s d n).answer = .ok () := by
    intro d member n
    rw [constCode_answer, verdict_eq_ok_iff]
    exact constants d member
  apply Emitter.units_ok
  case start => rfl
  case typedefs => exact toTypes_reaches (fun _ _ => Draft.Sure.answer) _ _ _ _
  case enums => exact toTypes_reaches (fun _ _ => Draft.Sure.answer) _ _ _ _
  case constants => exact toConstants_reaches constantAnswers _ _ _ _
  case structs => exact toTypes_reaches structAnswers _ _ _ _
  case services => exact addService_reaches o pages _ _
  case close => rfl

end Code

namespace Document

open Emit

def serviceUnit (width : Nat) (s : Schema) (d : ServiceDecl) : OutputUnit :=
  ⟨d.name ++ ".xsd",
    document width (serviceEvents { typedefs := s.typedefs, structs := s.structs } s d)⟩

theorem generate_eq (width : Nat) (s : Schema) :
    generate width s = .ok (s.services.map (serviceUnit width s)) := by
  apply Emitter.units_ok
  case start => rfl
  case typedefs =>
    apply forM_reaches fun done => ({ typedefs := done } : State)
    intro done d _
    rfl
  case enums =>
    apply forM_reaches fun _ => ({ typedefs := s.typedefs } : State)
    intro done d _
    rfl
  case constants =>
    apply forM_reaches fun _ => ({ typedefs := s.typedefs } : State)
    intro done d _
    rfl
  case structs =>
    apply forM_reaches fun done => ({ typedefs := s.typedefs, structs := done } : State)
    intro done d _
    rfl
  case services =>
    apply forM_reaches fun done =>
      ({ typedefs := s.typedefs, structs := s.structs, units := done.map (serviceUnit width s) } :
        State)
    intro done d _
    rw [List.map_append]
    rfl
  case close => rfl

end Document

namespace Schema

/-- Whatever the options, a schema that passes the check and whose literals fit their types comes
out as program text: the types, the constants, every service under its own name and in order, and
the unit that declares the others. It also comes out as documents, one for each service. -/
theorem accepted_generates (s : Schema) (accepted : s.check = .ok ()) (renders : s.LiteralsRender) :
    (∀ o : Code.Options, ∃ page : ServiceDecl → Emit.Page,
      (∀ d ∈ s.services, Code.servicePage o s d = .ok (page d)) ∧
      Code.generate o s = .ok (
        [⟨"types.rs", (Code.typesPage o s).text⟩,
          ⟨"constants.rs", (Code.constantsPage o s).text⟩] ++
        s.services.map (fun d => ⟨Ident.field d.name ++ ".rs", (page d).text⟩) ++
        [⟨"mod.rs", String.join (("types" :: "constants" :: s.services.map fun d =>
          Ident.field d.name).map fun name => "pub mod " ++ name ++ ";\n")⟩])) ∧
    ∀ width, Document.generate width s = .ok (s.services.map (Document.serviceUnit width s)) := by
  have wellFormed := wellFormed_of_check accepted
  constructor
  · intro o
    have pageOf : ∀ d ∈ s.services, ∃ page, Code.servicePage o s d = .ok page := by
      intro d member
      have verdict := Code.serviceVerdict_ok wellFormed.serviceNames (wellFormed.services d member)
        (renders.args d member) (renders.throws d member)
      exact Code.servicePage_ok o verdict
    have : Nonempty Emit.Page := ⟨{}⟩
    choose! page pages using pageOf
    have constants : ∀ d ∈ s.constants, ∃ line, Code.constLine s d = .ok line := by
      intro d member
      exact Code.constLine_ok (renders.constants d member)
    have fields : ∀ d ∈ s.structs, Code.structVerdict s d = .ok () := by
      intro d member
      exact Code.structVerdict_ok (wellFormed.structs d member).containsVoid
        (renders.fields d member)
    use page, pages
    rw [Code.generate_eq o constants fields pages]
    simp [Code.State.units, Function.comp_def]
  · intro width
    exact Document.generate_eq width s

def tagAlias : TypedefDecl :=
  { name := "Tag", target := .string }

def workshop : Schema where
  name := "workshop"
  typedefs := [tagAlias]
  enums := [{ name := "Level", values := [("LOW", none), ("HIGH", some 5)] }]
  constants :=
    [{ name := "NEW_TAGS", ty := .list tagAlias.ty, value := .list [.text "new"] },
     { name := "FALLBACK", ty := .struct "Item", value := .struct [("level", .integer 5)] }]
  structs :=
    [{ name := "Item"
       fields := [{ id := 1, name := "level", ty := .enum "Level", default := some (.integer 5) },
         { id := 2, name := "tags", ty := .set .string, default := some (.list [.text "new"]) }] },
     { name := "Failure", isException := true,
       fields := [{ id := 1, name := "why", ty := .string }] }]
  services :=
    [{ name := "Base", functions := [{ name := "ping", returns := .void, oneway := true }] },
     { name := "Shop", parent := some "Base"
       functions := [
         { name := "find", returns := .map .string (.struct "Item")
           args := [{ id := 1, name := "limit", ty := .i16, default := some (.integer 10) }]
           throws := [{ id := 1, name := "failure", ty := .exception "Failure"
                        default := some (.map [(.text "why", .text "unknown")]) }] }] }]

theorem workshop_renders : workshop.LiteralsRender where
  constants := by
    intro d member
    simp only [workshop, List.mem_cons, List.not_mem_nil, or_false] at member
    rcases member with rfl | rfl
    · exact ⟨_, rfl⟩
    · exact ⟨_, rfl⟩
  fields := by
    intro d member f inFields v given
    simp only [workshop, List.mem_cons, List.not_mem_nil, or_false] at member
    rcases member with rfl | rfl
    · simp only [List.mem_cons, List.not_mem_nil, or_false] at inFields
      rcases inFields with rfl | rfl
      · cases given
        exact ⟨_, rfl⟩
      · cases given
        exact ⟨_, rfl⟩
    · cases List.mem_singleton.mp inFields
      cases given
  args := by
    intro d member f inService a inArgs v given
    simp only [workshop, List.mem_cons, List.not_mem_nil, or_false] at member
    rcases member with rfl | rfl
    · cases List.mem_singleton.mp inService
      cases inArgs
    · cases List.mem_singleton.mp inService
      cases List.mem_singleton.mp inArgs
      cases given
      exact ⟨_, rfl⟩
  throws := by
    intro d member f inService x inThrows v given
    simp only [workshop, List.mem_cons, List.not_mem_nil, or_false] at member
    rcases member with rfl | rfl
    · cases List.mem_singleton.mp inService
      cases inThrows
    · cases List.mem_singleton.mp inService
      cases List.mem_singleton.mp inThrows
      cases given
      exact ⟨_, rfl⟩

theorem workshop_generates : workshop.check = .ok () ∧ workshop.LiteralsRender ∧
    (∀ o, ∃ units, Code.generate o workshop = .ok units ∧
      units.map (·.path) = ["types.rs", "constants.rs", "base.rs", "shop.rs", "mod.rs"]) ∧
    ∀ width, ∃ units, Document.generate width workshop = .ok units ∧
      units.map (·.path) = ["Base.xsd", "Shop.xsd"] := by
  have accepted : workshop.check = .ok () := by decide +kernel
  obtain ⟨code, documents⟩ := accepted_generates workshop accepted workshop_renders
  refine ⟨accepted, workshop_renders, ?_, ?_⟩
  · intro o
    obtain ⟨page, -, generated⟩ := code o
    exact ⟨_, generated, rfl⟩
  · intro width
    exact ⟨_, documents width, rfl⟩

end Schema

end Idl
