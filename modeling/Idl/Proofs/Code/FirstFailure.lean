import Idl.Proofs.Code.Named
import Idl.Proofs.Code.Service

/-!
# The declaration at which a pass fails

A pass writes the declarations of a schema one after another, on pages that it shares between them.
What was written before a declaration changes the text and the numbers of temporary names, but not
whether the declaration can be written. So a pass fails at the first declaration that cannot be
written on its own either, for the same reason, and tells that reason with the name of the
declaration.
-/

set_option autoImplicit false

namespace Idl

inductive Declaration where
  | typedef (d : TypedefDecl)
  | enum (d : EnumDecl)
  | constant (d : ConstDecl)
  | struct (d : StructDecl)
  | service (d : ServiceDecl)

namespace Declaration

def entity : Declaration → Entity
  | .typedef _ => .typedef
  | .enum _ => .enum
  | .constant _ => .constant
  | .struct d => if d.isException then .exception else .struct
  | .service _ => .service

def name : Declaration → String
  | .typedef d => d.name
  | .enum d => d.name
  | .constant d => d.name
  | .struct d => d.name
  | .service d => d.name

end Declaration

def Schema.declarations (s : Schema) : List Declaration :=
  s.typedefs.map .typedef ++ s.enums.map .enum ++ s.constants.map .constant ++
    s.structs.map .struct ++ s.services.map .service

namespace Emit

theorem outcomeOf_within {σ α : Type} (entity : Entity) (name : String) (step : Step σ α) (s : σ) :
    outcomeOf (within entity name step s) =
      (outcomeOf (step s)).mapError (.within entity name) := by
  unfold within
  cases step s <;> rfl

namespace Emitter

variable {σ : Type} (e : Emitter σ)

def emit (schema : Schema) : Declaration → Step σ Unit
  | .typedef d => e.typedef schema d
  | .enum d => e.enum schema d
  | .constant d => e.constant schema d
  | .struct d => e.struct schema d
  | .service d => e.service schema d

/-- What comes of one declaration on an emitter that was just started and has met no other. -/
def alone (fresh : σ) (schema : Schema) (d : Declaration) : Emitted Unit :=
  outcomeOf ((e.start schema >>= fun _ => e.emit schema d) fresh)

theorem run_eq_declarations (schema : Schema) :
    e.run schema = (do
      e.start schema
      schema.declarations.forM fun d => within d.entity d.name (e.emit schema d)
      e.close schema) := by
  simp [run, Schema.declarations, Declaration.entity, Declaration.name, emit, entityOf,
    List.forM_map]

theorem units_eq_outcomeOf (s : σ) (schema : Schema) :
    e.units s schema = outcomeOf (e.run schema s) := by
  unfold units
  cases e.run schema s <;> rfl

end Emitter

section Bare

variable {α β : Type}

theorem verdict_eq_error_iff {x : Emitted α} {e : EmitError} :
    verdict x = .error e ↔ x = .error e := by
  cases x <;> simp [verdict, bind, Except.bind]

def Bare (x : Emitted α) : Prop :=
  ∀ e, x = .error e → e.root = e

namespace Bare

theorem ok (a : α) : Bare (.ok a) := by
  intro e failed
  cases failed

theorem unsupported (what : Unsupported) : Bare (.error (.unsupported what) : Emitted α) := by
  intro e failed
  cases failed
  rfl

theorem schema (error : SchemaError) : Bare (.error (.schema error) : Emitted α) := by
  intro e failed
  cases failed
  rfl

theorem ofSchema (x : Except SchemaError α) : Bare (Idl.ofSchema x) := by
  cases x with
  | error e => exact .schema e
  | ok a => exact .ok a

theorem bind {x : Emitted α} {f : α → Emitted β} (first : Bare x) (next : ∀ a, Bare (f a)) :
    Bare (x >>= f) := by
  cases x with
  | error e =>
    intro e' failed
    cases failed
    exact first e rfl
  | ok a => exact next a

theorem verdict {x : Emitted α} (bare : Bare x) : Bare (Emit.verdict x) :=
  bare.bind fun _ => .ok ()

theorem forM {f : α → Emitted Unit} (as : List α) (each : ∀ a, Bare (f a)) : Bare (as.forM f) := by
  induction as with
  | nil => exact .ok ()
  | cons a rest ih => exact (each a).bind fun _ => ih

theorem mapM {f : α → Emitted β} (as : List α) (each : ∀ a, Bare (f a)) : Bare (as.mapM f) := by
  induction as with
  | nil => exact .ok []
  | cons a rest ih =>
    rw [List.mapM_cons]
    exact (each a).bind fun b => ih.bind fun bs => .ok (b :: bs)

end Bare

end Bare

end Emit

open Emit

theorem renderInteger_bare (ty : Ty) (v : Literal) (low high : Int) :
    Bare (renderInteger ty v low high) := by
  unfold renderInteger
  cases v.integer? with
  | none => exact .unsupported _
  | some n =>
    dsimp only
    split
    · exact .ok _
    · exact .unsupported _

theorem checkKeys_bare (d : StructDecl) (pairs : List (Literal × Literal)) :
    Bare (checkKeys d pairs) := by
  fun_induction checkKeys d pairs with
  | case1 => exact .ok ()
  | case2 _ _ _ ih => exact ih
  | case3 => exact .unsupported _

namespace Schema

variable (s : Schema)

theorem renderSimple_bare (ty : Ty) (v : Literal) : Bare (s.renderSimple ty v) := by
  unfold renderSimple
  split
  case h_1 => exact .unsupported _
  case h_2 | h_3 =>
    split
    · exact .ok _
    · exact .unsupported _
  case h_4 | h_5 | h_6 | h_7 => exact renderInteger_bare ty v _ _
  case h_8 =>
    split
    · exact .ok _
    · exact .ok _
    · exact .unsupported _
  case h_9 => exact (renderInteger_bare ty v _ _).bind fun _ => .ok _
  case h_10 | h_11 => exact (Bare.ofSchema _).bind fun _ => .unsupported _
  all_goals exact .unsupported _

mutual

theorem render_bare (ty : Ty) : (v : Literal) → Bare (s.render ty v)
  | .list items | .set items => by
    unfold render
    split
    · exact (renderItems_bare _ items).bind fun _ => .ok _
    · exact (renderItems_bare _ items).bind fun _ => .ok _
    · exact s.renderSimple_bare ty _
  | .map pairs => by
    have keyed (d : StructDecl) : Bare (do
        checkKeys d pairs
        .ok (structCode d (← s.renderKeyed d [] pairs))) :=
      (checkKeys_bare d pairs).bind fun _ => (renderKeyed_bare d [] pairs).bind fun _ => .ok _
    unfold render
    split
    · exact (renderPairs_bare _ _ pairs).bind fun _ => .ok _
    · exact (Bare.ofSchema _).bind keyed
    · exact (Bare.ofSchema _).bind keyed
    · exact s.renderSimple_bare ty _
  | .struct entries => by
    have named (d : StructDecl) : Bare (do .ok (structCode d (← s.renderEntries d [] entries))) :=
      (renderEntries_bare d [] entries).bind fun _ => .ok _
    unfold render
    split
    · exact (Bare.ofSchema _).bind named
    · exact (Bare.ofSchema _).bind named
    · exact s.renderSimple_bare ty _
  | .integer _ | .double _ | .bool _ | .text _ => by
    unfold render
    exact s.renderSimple_bare ty _

theorem renderItems_bare (ty : Ty) : (items : List Literal) → Bare (s.renderItems ty items)
  | [] => .ok []
  | v :: rest => by
    unfold renderItems
    exact (render_bare ty v).bind fun _ => (renderItems_bare ty rest).bind fun _ => .ok _

theorem renderPairs_bare (key value : Ty) : (pairs : List (Literal × Literal)) →
    Bare (s.renderPairs key value pairs)
  | [] => .ok []
  | (k, v) :: rest => by
    unfold renderPairs
    exact (render_bare key k).bind fun _ => (render_bare value v).bind fun _ =>
      (renderPairs_bare key value rest).bind fun _ => .ok _

theorem renderKeyed_bare (d : StructDecl) (done : List (String × String)) :
    (pairs : List (Literal × Literal)) → Bare (s.renderKeyed d done pairs)
  | [] => .ok done
  | (k, v) :: rest => by
    unfold renderKeyed
    split
    · split
      · exact .schema _
      · exact (render_bare _ v).bind fun _ => renderKeyed_bare d _ rest
    · exact .unsupported _

theorem renderEntries_bare (d : StructDecl) (done : List (String × String)) :
    (entries : List (String × Literal)) → Bare (s.renderEntries d done entries)
  | [] => .ok done
  | (_, v) :: rest => by
    unfold renderEntries
    split
    · exact .schema _
    · exact (render_bare _ v).bind fun _ => renderEntries_bare d _ rest

end

end Schema

namespace Code

variable (s : Schema) (o : Options)

theorem constLine_bare (d : ConstDecl) : Bare (constLine s d) := by
  unfold constLine
  split
  case h_1 =>
    split
    · exact .ok _
    · exact .unsupported _
  all_goals exact (s.render_bare d.ty d.value).bind fun _ => .ok _

theorem defaultCode_bare (f : Field) : Bare (defaultCode s f) := by
  unfold defaultCode
  split
  · exact .ok _
  · exact (s.render_bare f.ty _).bind fun _ => .ok _

theorem argCode_bare (a : Field) : Bare (argCode s a) := by
  unfold argCode
  split
  · exact (s.render_bare a.ty _).bind fun _ => .ok _
  · exact .ok _

theorem structVerdict_bare (d : StructDecl) : Bare (structVerdict s d) := by
  unfold structVerdict
  split
  · exact .schema _
  · exact .forM d.fields fun f => (defaultCode_bare s f).verdict

theorem helpersVerdict_bare (d : ServiceDecl) : Bare (helpersVerdict s d) := by
  apply Bare.forM
  intro f
  apply (structVerdict_bare s _).bind
  intro _
  split
  · exact .ok ()
  · exact structVerdict_bare s _

theorem serviceVerdict_bare (d : ServiceDecl) : Bare (serviceVerdict s d) := by
  have received (f : FunctionDecl) : Bare (Emit.verdict (f.args.mapM (argCode s))) :=
    (Bare.mapM f.args (argCode_bare s)).verdict
  exact (Bare.ofSchema _).bind fun _ => (helpersVerdict_bare s d).bind fun _ =>
    .forM d.functions received

/-- Whether a declaration can be written, or the reason why it cannot. -/
def declarationVerdict : Declaration → Emitted Unit
  | .typedef _ | .enum _ => .ok ()
  | .constant d => Emit.verdict (constLine s d)
  | .struct d => structVerdict s d
  | .service d => serviceVerdict s d

theorem declarationVerdict_bare (d : Declaration) : Bare (declarationVerdict s d) := by
  cases d with
  | typedef d => exact .ok ()
  | enum d => exact .ok ()
  | constant d => exact (constLine_bare s d).verdict
  | struct d => exact structVerdict_bare s d
  | service d => exact serviceVerdict_bare s d

theorem outcomeOf_toTypes (d : Draft Unit) (state : State) :
    outcomeOf (toTypes d state) = (d state.types.counter).answer := by
  unfold toTypes Page.draft
  dsimp only
  cases (d state.types.counter).answer <;> rfl

theorem outcomeOf_toConstants (d : Draft Unit) (state : State) :
    outcomeOf (toConstants d state) = (d state.constants.counter).answer := by
  unfold toConstants Page.draft
  dsimp only
  cases (d state.constants.counter).answer <;> rfl

theorem servicePage_verdict (d : ServiceDecl) :
    Emit.verdict (servicePage o s d) = serviceVerdict s d := by
  unfold servicePage
  cases found : s.parentOf d with
  | error e =>
    rw [serviceVerdict, found]
    rfl
  | ok parent =>
    have answer := serviceCode_answer s o d (newPage o s (serviceImports parent)).counter
    rw [Idl.ofSchema, ok_bind, ← answer]
    unfold Page.draft
    dsimp only
    cases (serviceCode s o d (newPage o s (serviceImports parent)).counter).answer <;> rfl

theorem outcomeOf_addService (d : ServiceDecl) (state : State) :
    outcomeOf (addService o s d state) = serviceVerdict s d := by
  rw [← servicePage_verdict s o, addService]
  cases servicePage o s d <;> rfl

theorem outcomeOf_emit (d : Declaration) (state : State) :
    outcomeOf ((emitter o).emit s d state) = declarationVerdict s d := by
  cases d with
  | typedef d => exact (outcomeOf_toTypes _ state).trans (Draft.Sure.answer _)
  | enum d => exact (outcomeOf_toTypes _ state).trans (Draft.Sure.answer _)
  | constant d => exact (outcomeOf_toConstants _ state).trans (constCode_answer s d _)
  | struct d => exact (outcomeOf_toTypes _ state).trans (structCode_answer s o d _)
  | service d => exact outcomeOf_addService s o d state

theorem alone_eq (d : Declaration) : (emitter o).alone {} s d = declarationVerdict s d :=
  outcomeOf_emit s o d _

theorem generate_verdict :
    Emit.verdict (generate o s) = s.declarations.forM fun d =>
      (declarationVerdict s d).mapError (.within d.entity d.name) := by
  have each : ∀ d ∈ s.declarations, ∀ state,
      outcomeOf (within d.entity d.name ((emitter o).emit s d) state) =
        (declarationVerdict s d).mapError (.within d.entity d.name) := by
    intro d _ state
    rw [outcomeOf_within, outcomeOf_emit]
  have start : (emitter o).start s {} = .ok () _ := rfl
  rw [← outcomeOf_forM each, generate, Emitter.units_eq_outcomeOf, Emitter.run_eq_declarations,
    bind_of_ok start]
  cases done : s.declarations.forM (fun d => within d.entity d.name ((emitter o).emit s d)) _ with
  | error e state =>
    rw [bind_of_error done]
    rfl
  | ok _ state =>
    rw [bind_of_ok done]
    rfl

theorem generate_eq_error_iff (e : EmitError) :
    generate o s = .error e ↔ ∃ before d after own, s.declarations = before ++ d :: after ∧
      (∀ b ∈ before, declarationVerdict s b = .ok ()) ∧ declarationVerdict s d = .error own ∧
      e = .within d.entity d.name own := by
  rw [← verdict_eq_error_iff, generate_verdict, forM_eq_error_iff]
  simp only [mapError_eq_ok_iff, mapError_eq_error_iff, exists_and_left]

theorem generate_fails_iff :
    (∃ e, generate o s = .error e) ↔
      ∃ d ∈ s.declarations, ∃ own, declarationVerdict s d = .error own := by
  constructor
  · rintro ⟨e, failed⟩
    obtain ⟨before, d, after, own, split, -, stopped, -⟩ := (generate_eq_error_iff s o e).mp failed
    rw [split]
    exact ⟨d, List.mem_append_right before List.mem_cons_self, own, stopped⟩
  · rintro ⟨d, member, own, stopped⟩
    cases done : generate o s with
    | error e => exact ⟨e, rfl⟩
    | ok units =>
      have verdict := generate_verdict s o
      rw [done] at verdict
      have fine := (forM_eq_ok_iff s.declarations).mp verdict.symm d member
      rw [stopped] at fine
      cases fine

/-- A pass fails exactly if a declaration does when it is written alone. The error is the own error
of the first such declaration, which names no declaration, told once with the sort and the name of
this one. The options have no part in it. -/
theorem generate_fails_first :
    (∀ e, generate o s = .error e ↔ ∃ before d after own, s.declarations = before ++ d :: after ∧
      (∀ b ∈ before, (emitter o).alone {} s b = .ok ()) ∧ (emitter o).alone {} s d = .error own ∧
      e = .within d.entity d.name own ∧ e.root = own) ∧
    ((∃ e, generate o s = .error e) ↔
      ∃ d ∈ s.declarations, ∃ own, (emitter o).alone {} s d = .error own) ∧
    ∀ o' e, generate o' s = .error e ↔ generate o s = .error e := by
  simp only [alone_eq]
  refine ⟨?_, generate_fails_iff s o, ?_⟩
  · intro e
    rw [generate_eq_error_iff]
    constructor
    · rintro ⟨before, d, after, own, split, fine, stopped, rfl⟩
      exact ⟨before, d, after, own, split, fine, stopped, rfl,
        declarationVerdict_bare s d own stopped⟩
    · rintro ⟨before, d, after, own, split, fine, stopped, told, -⟩
      exact ⟨before, d, after, own, split, fine, stopped, told⟩
  · intro o' e
    rw [generate_eq_error_iff, generate_eq_error_iff]

end Code

end Idl
