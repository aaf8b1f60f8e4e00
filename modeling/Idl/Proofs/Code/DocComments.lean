import Idl.Proofs.Code.FirstFailure
import Idl.Proofs.Code.Pages

/-!
# Doc comments and nothing else

Text that is generated with doc comments is compared with text that is generated without them. A
unit is a list of drafts, and each draft has a counterpart without comments; so both passes fail
alike, or give units under the same paths that differ in lines of comments only. What a line of
comment is can be told from its first characters, unless an identifier that begins a line looks like
one.
-/

set_option autoImplicit false

namespace Idl.Emit

open Text

def rows : List Char → List (List Char)
  | [] => []
  | c :: cs =>
    if c = '\n' then ['\n'] :: rows cs
    else
      match rows cs with
      | [] => [[c]]
      | row :: rest => (c :: row) :: rest

/-- The text without the lines that are doc comments. -/
def withoutDocs (text : String) : String :=
  String.join (((rows text.toList).map String.ofList).filter (!isDoc ·))

theorem rows_append {cs : List Char} (single : '\n' ∉ cs) (rest : List Char) :
    rows (cs ++ '\n' :: rest) = (cs ++ ['\n']) :: rows rest := by
  induction cs with
  | nil => rfl
  | cons c cs ih =>
    rw [List.mem_cons, not_or] at single
    rw [List.cons_append, rows, if_neg (Ne.symm single.1), ih single.2]
    rfl

theorem isDoc_indented (n : Nat) (text : String) :
    isDoc (String.ofList (List.replicate n ' ') ++ text) = isDoc text := by
  unfold isDoc
  rw [String.toList_append, String.toList_ofList]
  simp

theorem isDoc_lineText (width level : Nat) (l : Line) :
    isDoc (Page.lineText width level l) = isDoc l.text := by
  unfold Page.lineText
  split
  · rename_i empty
    rw [empty]
    rfl
  · have ended : ∀ text, (text ++ "\n").toList = text.toList ++ '\n' :: [] :=
      fun _ => String.toList_append
    rw [isDoc_marked (by decide) (by decide) (ended _), isDoc_indented]

theorem toList_lineText (width level : Nat) {l : Line} (single : '\n' ∉ l.text.toList) :
    ∃ cs, (Page.lineText width level l).toList = cs ++ ['\n'] ∧ '\n' ∉ cs := by
  unfold Page.lineText
  split
  · exact ⟨[], rfl, List.not_mem_nil⟩
  · refine ⟨(String.ofList (List.replicate (width * (level + l.depth)) ' ') ++
      l.text).toList, by simp, ?_⟩
    simp [single]

section Lines

variable {ls : List Line} (single : ∀ l ∈ ls, '\n' ∉ l.text.toList) (width level : Nat)

include single

theorem rows_lines :
    (rows (String.join (ls.map (Page.lineText width level))).toList).map String.ofList =
    ls.map (Page.lineText width level) := by
  rw [String.toList_join]
  induction ls with
  | nil => rfl
  | cons l ls ih =>
    rw [List.forall_mem_cons] at single
    obtain ⟨cs, shape, feedless⟩ := toList_lineText width level single.1
    rw [List.map_cons, List.flatMap_cons, shape, List.append_assoc, List.singleton_append,
      rows_append feedless, List.map_cons, ih single.2, ← shape, String.ofList_toList]

theorem withoutDocs_lines : withoutDocs (String.join (ls.map (Page.lineText width level))) =
    String.join ((ls.filter (!isDoc ·.text)).map (Page.lineText width level)) := by
  rw [withoutDocs, rows_lines single, List.filter_map]
  simp only [Function.comp_def, isDoc_lineText]

theorem code_of_withoutDocs_eq
    (kept : withoutDocs (String.join (ls.map (Page.lineText width level))) =
      String.join (ls.map (Page.lineText width level))) : ∀ l ∈ ls, isDoc l.text = false := by
  have code : ∀ l ∈ ls.filter (!isDoc ·.text), '\n' ∉ l.text.toList := fun l member =>
    single l (List.mem_of_mem_filter member)
  rw [withoutDocs_lines single] at kept
  have lengths := congrArg (fun text => ((rows text.toList).map String.ofList).length) kept
  simp only [rows_lines code, rows_lines single, List.length_map, List.length_filter_eq_length_iff]
    at lengths
  simpa using lengths

end Lines

def feedless (c : Char) : Prop :=
  c ≠ '\n'

instance : Usual feedless :=
  ⟨fun _ _ _ feed => feed⟩

def DraftsCommented (legible : Prop) : List (Draft Unit) → List (Draft Unit) → Prop :=
  List.Forall₂ (Draft.Commented feedless legible)

namespace DraftsCommented

variable {legible : Prop} {ds es ds' es' : List (Draft Unit)}

theorem append (first : DraftsCommented legible ds es) (second : DraftsCommented legible ds' es') :
    DraftsCommented legible (ds ++ ds') (es ++ es') :=
  List.rel_append first second

theorem map {α : Type} {code bare : α → Draft Unit} {as : List α}
    (each : ∀ a ∈ as, Draft.Commented feedless legible (code a) (bare a)) :
    DraftsCommented legible (as.map code) (as.map bare) := by
  rw [DraftsCommented, List.forall₂_map_left_iff, List.forall₂_map_right_iff, List.forall₂_same]
  exact each

theorem code (commented : DraftsCommented legible ds es) (n : Nat) :
    (drafted ds n).filter (!isDoc ·.text) = (drafted es n).filter (!isDoc ·.text) ∧
      (legible → ∀ l ∈ drafted es n, isDoc l.text = false) := by
  induction commented generalizing n with
  | nil => exact ⟨rfl, fun _ l member => absurd member List.not_mem_nil⟩
  | @cons d e ds es first _ ih =>
    obtain ⟨same, code⟩ := first.code n
    obtain ⟨-, counter, -⟩ := first.same n
    obtain ⟨others, rest⟩ := ih (d n).counter
    rw [drafted, drafted, ← counter]
    refine ⟨by rw [List.filter_append, List.filter_append, same, others], fun told l member => ?_⟩
    exact (List.mem_append.mp member).elim (code told l) (rest told l)

theorem single (commented : DraftsCommented legible ds es) (n : Nat) :
    ∀ l ∈ drafted ds n, '\n' ∉ l.text.toList := by
  induction commented generalizing n with
  | nil => exact fun l member => absurd member List.not_mem_nil
  | @cons d e ds es first _ ih =>
    intro l member feed
    rcases List.mem_append.mp member with here | later
    · have text : l.text ∈ (d n).texts := by
        rw [← Drafted.map_text_lines]
        exact List.mem_map_of_mem here
      have within : '\n' ∈ (d n).texts.flatMap String.toList :=
        List.mem_flatMap.mpr ⟨l.text, text, feed⟩
      rcases (first.phrase n).mem within with other | opened | closed
      · exact other rfl
      · exact absurd opened (by decide)
      · exact absurd closed (by decide)
    · exact ih (d n).counter l later feed

end DraftsCommented

def unitOf (u : String × List (Draft Unit)) : OutputUnit :=
  ⟨u.1, String.join ((drafted u.2 0).map (Page.lineText 4 0))⟩

def OutputUnit.withoutDocs (u : OutputUnit) : OutputUnit :=
  { u with contents := Emit.withoutDocs u.contents }

def UnitCommented (legible : Prop) (u v : String × List (Draft Unit)) : Prop :=
  u.1 = v.1 ∧ DraftsCommented legible u.2 v.2

section Units

variable {legible : Prop} {us vs : List (String × List (Draft Unit))}

theorem withoutDocs_unitOf {u v : String × List (Draft Unit)}
    (commented : UnitCommented legible u v) (bare : UnitCommented legible v v) :
    (unitOf u).withoutDocs = (unitOf v).withoutDocs ∧
      (legible → (unitOf v).withoutDocs = unitOf v) := by
  obtain ⟨path, drafts⟩ := commented
  obtain ⟨same, code⟩ := drafts.code 0
  simp only [unitOf, OutputUnit.withoutDocs]
  rw [withoutDocs_lines (drafts.single 0), withoutDocs_lines (bare.2.single 0), same, path]
  refine ⟨rfl, fun told => ?_⟩
  have all : (drafted v.2 0).filter (!isDoc ·.text) = drafted v.2 0 :=
    List.filter_eq_self.mpr fun l member => by simp [code told l member]
  rw [all]

theorem code_of_unitOf_eq {u v : String × List (Draft Unit)} (commented : UnitCommented legible u v)
    (kept : (unitOf u).withoutDocs = unitOf u) : ∀ l ∈ drafted u.2 0, isDoc l.text = false :=
  code_of_withoutDocs_eq (commented.2.single 0) 4 0 (congrArg OutputUnit.contents kept)

theorem withoutDocs_units (commented : List.Forall₂ (UnitCommented legible) us vs)
    (bare : ∀ v ∈ vs, UnitCommented legible v v) :
    (us.map unitOf).map OutputUnit.withoutDocs = (vs.map unitOf).map OutputUnit.withoutDocs ∧
      (legible → (vs.map unitOf).map OutputUnit.withoutDocs = vs.map unitOf) := by
  induction commented with
  | nil => exact ⟨rfl, fun _ => rfl⟩
  | cons first _ ih =>
    rw [List.forall_mem_cons] at bare
    obtain ⟨same, code⟩ := withoutDocs_unitOf first bare.1
    obtain ⟨others, rest⟩ := ih bare.2
    simp only [List.map_cons]
    exact ⟨by rw [same, others], fun told => by rw [code told, rest told]⟩

end Units

end Idl.Emit

namespace Idl.Code

open Text Emit

variable {legible : Prop} (s : Schema) (o : Options)

def parentFor (d : ServiceDecl) : Option ServiceDecl :=
  match s.parentOf d with
  | .ok parent => parent
  | .error _ => none

variable {s} in
theorem mem_of_parentFor {d p : ServiceDecl} (known : parentFor s d = some p) : p ∈ s.services := by
  unfold parentFor at known
  split at known
  · rename_i found
    exact mem_of_parentOf (found.trans (congrArg Except.ok known))
  · cases known

def modulesDraft : Draft Unit :=
  Draft.lines (("types" :: "constants" :: s.services.map (Ident.field ·.name)).map fun name =>
    "pub mod " ++ name ++ ";")

def unitDrafts : List (String × List (Draft Unit)) :=
  [("types.rs", typesDrafts s o), ("constants.rs", constantsDrafts s o)] ++
    s.services.map (fun d => (Ident.field d.name ++ ".rs", serviceDrafts s o (parentFor s d) d)) ++
    [("mod.rs", [modulesDraft s])]

theorem servicePage_drafts {d : ServiceDecl} (writable : serviceVerdict s d = .ok ()) :
    servicePage o s d = .ok (({} : Page).written (serviceDrafts s o (parentFor s d) d)) := by
  cases found : s.parentOf d with
  | error e =>
    rw [serviceVerdict, found] at writable
    cases writable
  | ok parent =>
    have known : parentFor s d = parent := by rw [parentFor, found]
    rw [known, servicePage_eq writable found]

theorem generate_units (fine : ∀ d ∈ s.declarations, declarationVerdict s d = .ok ()) :
    generate o s = .ok ((unitDrafts s o).map unitOf) := by
  have constants : ∀ d ∈ s.constants, ∃ line, constLine s d = .ok line := fun d member =>
    verdict_eq_ok_iff.mp (fine (.constant d) (by simp [Schema.declarations, member]))
  have structs : ∀ d ∈ s.structs, structVerdict s d = .ok () := fun d member =>
    fine (.struct d) (by simp [Schema.declarations, member])
  have services : ∀ d ∈ s.services, serviceVerdict s d = .ok () := fun d member =>
    fine (.service d) (by simp [Schema.declarations, member])
  have pages (d : ServiceDecl) := text_written (serviceDrafts_steady s o (parentFor s d) d)
  have modules (names : List String) :
      String.join (names.map fun name => "pub mod " ++ name ++ ";\n") =
      String.join ((drafted [Draft.lines (names.map fun name => "pub mod " ++ name ++ ";")] 0).map
        (Page.lineText 4 0)) := by
    simp [drafted, Page.lineText, String.append_assoc, Function.comp_def]
  rw [generate_eq o constants structs fun d member => servicePage_drafts s o (services d member),
    State.units, modules]
  simp only [unitDrafts, unitOf, modulesDraft, typesPage_eq, constantsPage_eq,
    text_written (typesDrafts_steady s o), text_written (constantsDrafts_steady s o), pages,
    List.map_append, List.map_map, List.map_cons, List.map_nil, Function.comp_def]

variable {s o}

def schemaLeads (s : Schema) : List String :=
  s.structs.flatMap (fun d => d.fields.map (Ident.field ·.name)) ++ s.services.flatMap serviceLeads

section Drafts

variable (words : Spelled feedless s.names s.texts) (runtime : Worded feedless o.runtime)

include words runtime

theorem typesDrafts_commented (told : legible → ∀ i ∈ schemaLeads s, isDoc i = false) :
    DraftsCommented legible (typesDrafts s o) (typesDrafts s o.bare) := by
  refine .cons (headCode_commented words runtime fun _ member => absurd member List.not_mem_nil) ?_
  refine DraftsCommented.append (DraftsCommented.append ?_ ?_) ?_
  all_goals refine DraftsCommented.map fun d member => ?_
  · exact typedefCode_commented (Schema.spelled_typedef words member)
  · exact enumCode_commented (Schema.spelled_enum words member).name
  · have spelled := Schema.spelled_struct words member
    refine structCode_commented words (spelled.name d.name List.mem_cons_self)
      (fun _ inside => StructDecl.spelled_field spelled inside) fun l f inside => told l _ ?_
    exact List.mem_append_left _ (List.mem_flatMap.mpr ⟨d, member, List.mem_map_of_mem inside⟩)

theorem constantsDrafts_commented :
    DraftsCommented legible (constantsDrafts s o) (constantsDrafts s o.bare) := by
  have imported : ∀ i ∈ [typesImport], Phrased feedless i := by
    intro i member
    rw [List.mem_singleton.mp member]
    exact .fixed rfl
  refine .cons (headCode_commented words runtime imported) (DraftsCommented.map fun d member => ?_)
  exact constCode_commented words (Schema.spelled_constant words member)

theorem serviceDrafts_commented (told : legible → ∀ i ∈ schemaLeads s, isDoc i = false)
    {d : ServiceDecl} (member : d ∈ s.services) :
    DraftsCommented legible (serviceDrafts s o (parentFor s d) d)
      (serviceDrafts s o.bare (parentFor s d) d) := by
  have leads : legible → ∀ p ∈ s.services, ∀ i ∈ serviceLeads p, isDoc i = false :=
    fun l p inside i lead =>
    told l i (List.mem_append_right _ (List.mem_flatMap.mpr ⟨p, inside, lead⟩))
  refine .cons (headCode_commented words runtime fun i imported => ?_) (.cons ?_ .nil)
  · rcases List.mem_cons.mp imported with rfl | base
    · exact .fixed rfl
    · obtain ⟨p, known, rfl⟩ := Option.map_eq_some_iff.mp (Option.mem_toList.mp base)
      have declared := Schema.spelled_service words (mem_of_parentFor known)
      exact .and (.fixed rfl) (Ident.worded_field (Service.worded_name declared)).phrased rfl
  · exact serviceCode_commented words (Schema.spelled_service words member)
      (fun l => leads l d member)
      fun l p inside => leads l p inside _ List.mem_cons_self

theorem unitDrafts_commented (told : legible → ∀ i ∈ schemaLeads s, isDoc i = false) :
    List.Forall₂ (UnitCommented legible) (unitDrafts s o) (unitDrafts s o.bare) := by
  have modules : Statements feedless legible
      (("types" :: "constants" :: s.services.map (Ident.field ·.name)).map fun name =>
        "pub mod " ++ name ++ ";") := by
    refine .map fun name member => ?_
    have phrased : Phrased feedless name := by
      simp only [List.mem_cons, List.mem_map] at member
      rcases member with rfl | rfl | ⟨d, declared, rfl⟩
      · exact .fixed rfl
      · exact .fixed rfl
      · exact (Ident.worded_field
          (Service.worded_name (Schema.spelled_service words declared))).phrased
    exact .and (.fixed rfl) phrased rfl
  have services : List.Forall₂ (UnitCommented legible)
      (s.services.map fun d => (Ident.field d.name ++ ".rs", serviceDrafts s o (parentFor s d) d))
      (s.services.map fun d =>
        (Ident.field d.name ++ ".rs", serviceDrafts s o.bare (parentFor s d) d)) := by
    rw [List.forall₂_map_left_iff, List.forall₂_map_right_iff, List.forall₂_same]
    exact fun d member => ⟨rfl, serviceDrafts_commented words runtime told member⟩
  have first : List.Forall₂ (UnitCommented legible)
      [("types.rs", typesDrafts s o), ("constants.rs", constantsDrafts s o)]
      [("types.rs", typesDrafts s o.bare), ("constants.rs", constantsDrafts s o.bare)] :=
    .cons ⟨rfl, typesDrafts_commented words runtime told⟩
      (.cons ⟨rfl, constantsDrafts_commented words runtime⟩ .nil)
  have last : List.Forall₂ (UnitCommented legible) [("mod.rs", [modulesDraft s])]
      [("mod.rs", [modulesDraft s])] :=
    .cons ⟨rfl, .cons (.statements modules) .nil⟩ .nil
  exact List.rel_append (List.rel_append first services) last

end Drafts

theorem spelled_of_single (single : ∀ w ∈ o.runtime :: s.names, '\n' ∉ w.toList) :
    Spelled feedless s.names s.texts ∧ Worded feedless o.runtime := by
  have worded : ∀ w ∈ o.runtime :: s.names, Worded feedless w := fun w member c inside feed =>
    single w member (feed ▸ inside)
  rw [List.forall_mem_cons] at worded
  exact ⟨⟨worded.2, fun _ _ c _ => ne_or_eq c '\n'⟩, worded.1⟩

theorem generate_bare (s : Schema) (o : Options)
    (single : ∀ w ∈ o.runtime :: s.names, '\n' ∉ w.toList)
    (told : legible → ∀ i ∈ schemaLeads s, isDoc i = false) :
    (generate o s).map (List.map OutputUnit.withoutDocs) =
        (generate o.bare s).map (List.map OutputUnit.withoutDocs) ∧
      (legible → (generate o.bare s).map (List.map OutputUnit.withoutDocs) =
        generate o.bare s) := by
  obtain ⟨words, runtime⟩ := spelled_of_single single
  cases outcome : generate o s with
  | error e =>
    have failed : generate o.bare s = .error e :=
      (generate_eq_error_iff s o.bare e).mpr ((generate_eq_error_iff s o e).mp outcome)
    rw [failed]
    exact ⟨rfl, fun _ => rfl⟩
  | ok units =>
    have fine : ∀ d ∈ s.declarations, declarationVerdict s d = .ok () := by
      have verdict := generate_verdict s o
      rw [outcome] at verdict
      intro d member
      exact mapError_eq_ok_iff.mp ((forM_eq_ok_iff s.declarations).mp verdict.symm d member)
    have bare := unitDrafts_commented (o := o.bare) words runtime told
    have same := withoutDocs_units (unitDrafts_commented words runtime told)
      (List.forall₂_same.mp bare)
    rw [← outcome, generate_units s o fine, generate_units s o.bare fine]
    exact ⟨congrArg Except.ok same.1, fun told => congrArg Except.ok (same.2 told)⟩

/-- With doc comments or without, a pass fails with the same error or gives units with the same
paths, and with their lines of doc comments deleted the units are the same. If no identifier that
begins a line looks like a doc comment, these lines are all that the option adds. -/
theorem docs_only_add_comments (s : Schema) (o : Options)
    (single : ∀ w ∈ o.runtime :: s.names, '\n' ∉ w.toList) :
    (generate { o with docs := true } s).map (List.map OutputUnit.withoutDocs) =
        (generate { o with docs := false } s).map (List.map OutputUnit.withoutDocs) ∧
      ((∀ i ∈ schemaLeads s, isDoc i = false) →
        (generate { o with docs := true } s).map (List.map OutputUnit.withoutDocs) =
          generate { o with docs := false } s) := by
  have told : (∀ i ∈ schemaLeads s, isDoc i = false) → ∀ i ∈ schemaLeads s, isDoc i = false := id
  obtain ⟨same, code⟩ := generate_bare s { o with docs := true } single told
  exact ⟨same, fun legible => same.trans (code legible)⟩

theorem docs_only_add_comments_workshop :
    (∀ w ∈ ({} : Options).runtime :: Schema.workshop.names, '\n' ∉ w.toList) ∧
      (∀ i ∈ schemaLeads Schema.workshop, isDoc i = false) ∧
      (generate { docs := true } Schema.workshop).map (List.map OutputUnit.withoutDocs) =
        generate { docs := false } Schema.workshop := by
  have single : ∀ w ∈ ({} : Options).runtime :: Schema.workshop.names, '\n' ∉ w.toList := by
    decide +kernel
  have told : ∀ i ∈ schemaLeads Schema.workshop, isDoc i = false := by decide +kernel
  exact ⟨single, told, (docs_only_add_comments Schema.workshop {} single).2 told⟩

def slashed : Schema where
  name := "slashed"
  structs := [{ name := "Note", fields := [{ id := 1, name := "///x", ty := .i32 }] }]

/-- The lines on which the field is set are code, but they are deleted with the comments. -/
theorem slashed_loses_code :
    (∀ w ∈ ({} : Options).runtime :: slashed.names, '\n' ∉ w.toList) ∧
      (generate { docs := true } slashed).map (List.map OutputUnit.withoutDocs) ≠
        generate { docs := false } slashed := by
  have single : ∀ w ∈ ({} : Options).runtime :: slashed.names, '\n' ∉ w.toList := by decide +kernel
  refine ⟨single, fun kept => ?_⟩
  have fine : ∀ d ∈ slashed.declarations, declarationVerdict slashed d = .ok () := by decide +kernel
  have same := (generate_bare slashed { docs := true } single (False.elim : False → _)).1
  rw [same, Options.bare, generate_units slashed _ fine] at kept
  have units := List.map_inj_left.mp ((List.map_map).symm.trans (Except.ok.inj kept))
  have types := units ("types.rs", typesDrafts slashed { docs := false }) List.mem_cons_self
  obtain ⟨words, runtime⟩ := spelled_of_single single
  have drafts : DraftsCommented False (typesDrafts slashed { docs := false }) _ :=
    typesDrafts_commented words runtime False.elim
  have lines := code_of_unitOf_eq ⟨rfl, drafts⟩ types
  have set : ∃ l ∈ drafted (typesDrafts slashed { docs := false }) 0, isDoc l.text = true := by
    decide +kernel
  obtain ⟨l, member, doc⟩ := set
  rw [lines l member] at doc
  cases doc

end Idl.Code
