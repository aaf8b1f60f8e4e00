import Idl.Proofs.Code.Generation

/-!
# Pages of a pass

A page holds drafts that were put on it one after another. Each of them comes back to the level of
the page, so that its text is that of their lines.
-/

set_option autoImplicit false

namespace Idl

namespace Emit

open Draft

def drafted : List (Draft Unit) → Nat → List Line
  | [], _ => []
  | d :: rest, n => (d n).lines ++ drafted rest (d n).counter

variable {texts texts' : List String} {ds ds' : List (Draft Unit)}

theorem Page.written_text (p : Page) (steady : ∀ d ∈ ds, Steady d) : (p.written ds).text =
    p.text ++ String.join ((drafted ds p.counter).map (lineText p.width p.level)) := by
  induction ds generalizing p with
  | nil => simp [Page.written, drafted]
  | cons d rest ih =>
    rw [List.forall_mem_cons] at steady
    have others := ih (p.draft d).2 steady.2
    rw [p.draft_eq (steady.1.balanced p.counter)] at others
    rw [drafted, List.map_append, String.join_append, ← String.append_assoc, Page.written,
      List.foldl_cons, p.draft_eq (steady.1.balanced p.counter)]
    exact others

theorem text_written (steady : ∀ d ∈ ds, Steady d) : (({} : Page).written ds).text =
    String.join ((drafted ds 0).map (Page.lineText 4 0)) := by
  rw [Page.written_text _ steady]
  simp

theorem drafted_append (ds ds' : List (Draft Unit)) (n : Nat) :
    ∃ m, drafted (ds ++ ds') n = drafted ds n ++ drafted ds' m := by
  induction ds generalizing n with
  | nil => exact ⟨n, rfl⟩
  | cons d rest ih =>
    obtain ⟨m, others⟩ := ih (d n).counter
    exact ⟨m, by rw [List.cons_append, drafted, others, drafted, List.append_assoc]⟩

/-- However the names of temporaries are numbered, these are the landmarks at the top. -/
def DraftsMark (texts : List String) (ds : List (Draft Unit)) : Prop :=
  ∀ n, landmarks 0 (drafted ds n) = texts

theorem DraftsMark.append (first : DraftsMark texts ds) (second : DraftsMark texts' ds') :
    DraftsMark (texts ++ texts') (ds ++ ds') := by
  intro n
  obtain ⟨m, parts⟩ := drafted_append ds ds' n
  rw [parts, landmarks_append, first n, second m]

theorem draftsMark_one {d : Draft Unit} (answers : ∀ n, (d n).answer = .ok ())
    (marks : d.Marks 0 texts) : DraftsMark texts [d] := by
  intro n
  rw [drafted, drafted, List.append_nil]
  exact marks n () (answers n)

theorem draftsMark_map {α : Type} {code : α → Draft Unit} {marks : α → List String} (as : List α)
    (answers : ∀ a ∈ as, ∀ n, (code a n).answer = .ok ()) (all : ∀ a, (code a).Marks 0 (marks a)) :
    DraftsMark (as.flatMap marks) (as.map code) := by
  induction as with
  | nil => exact fun n => rfl
  | cons a rest ih =>
    rw [List.forall_mem_cons] at answers
    exact (draftsMark_one answers.1 (all a)).append (ih answers.2)

end Emit

namespace Code

open Text Emit Draft

variable {A : Char → Prop} [usual : Usual A] {legible : Prop} (s : Schema) (o : Options)

section Head

variable (imports : List String)

instance : Sure (headCode o s.name imports) := by
  unfold headCode
  infer_instance

instance : Steady (headCode o s.name imports) := by
  unfold headCode
  infer_instance

theorem headCode_plain : (headCode o s.name imports).Marks 0 [] := by
  apply lines_plain
  simp only [List.forall_mem_append]
  refine ⟨⟨⟨?_, ?_⟩, ?_⟩, by simp [isLandmark, opensItem, opensFunction, makesError]⟩
  · cases o.banner <;> simp [isLandmark, opensItem, opensFunction, makesError, List.isPrefixOf]
  · simp [isLandmark, opensItem, opensFunction, makesError, List.isPrefixOf]
  · intro t member
    obtain ⟨i, -, named⟩ := List.mem_flatMap.mp member
    simp only [List.mem_cons, List.not_mem_nil, or_false] at named
    rcases named with rfl | rfl
    · rfl
    · simp [isLandmark, opensItem, opensFunction, makesError, List.isPrefixOf]

variable {s o imports} in
theorem headCode_commented (words : Spelled A s.names s.texts) (runtime : Worded A o.runtime)
    (imported : ∀ i ∈ imports, Phrased A i) :
    Commented A legible (headCode o s.name imports) (headCode o.bare s.name imports) := by
  have name := (words.name s.name List.mem_cons_self).phrased
  have path := runtime.phrased
  have own : Statements A legible ["#[allow(unused_imports)]", "use " ++ o.runtime ++ " as rt;"] :=
    .fixed rfl (.cons (.and (.fixed rfl) path rfl) .nil)
  refine .statements (.append (.append (.append ?_ own) ?_) (.gap .nil))
  · split
    · intro t member
      simp only [List.mem_cons, List.not_mem_nil, or_false] at member
      rcases member with rfl | rfl
      · exact ⟨.and (.fixed rfl) name rfl, fun _ => by simp [isDoc, List.isPrefixOf]⟩
      · exact ⟨.nil, fun _ => rfl⟩
    · exact .nil
  · intro t member
    obtain ⟨i, inside, line⟩ := List.mem_flatMap.mp member
    have lines : Statements A legible ["#[allow(unused_imports)]", "use " ++ i ++ ";"] :=
      .fixed rfl (.cons (.and (.fixed rfl) (imported i inside) rfl) .nil)
    exact lines t line

end Head

def typesDrafts : List (Draft Unit) :=
  headCode o s.name [] :: (s.typedefs.map (typedefCode o) ++ s.enums.map (enumCode o) ++
    s.structs.map (structCode s o))

def constantsDrafts : List (Draft Unit) :=
  headCode o s.name [typesImport] :: s.constants.map (constCode s)

def serviceDrafts (parent : Option ServiceDecl) (d : ServiceDecl) : List (Draft Unit) :=
  [headCode o s.name (serviceImports parent), serviceCode s o d]

theorem typesDrafts_steady : ∀ d ∈ typesDrafts s o, Steady d := by
  simp only [typesDrafts, List.forall_mem_cons, List.forall_mem_append, List.forall_mem_map]
  exact ⟨inferInstance, ⟨fun _ _ => inferInstance, fun _ _ => inferInstance⟩,
    fun _ _ => inferInstance⟩

theorem constantsDrafts_steady : ∀ d ∈ constantsDrafts s o, Steady d := by
  simp only [constantsDrafts, List.forall_mem_cons, List.forall_mem_map]
  exact ⟨inferInstance, fun _ _ => inferInstance⟩

theorem serviceDrafts_steady (parent : Option ServiceDecl) (d : ServiceDecl) :
    ∀ e ∈ serviceDrafts s o parent d, Steady e := by
  simp only [serviceDrafts, List.forall_mem_cons]
  exact ⟨inferInstance, inferInstance, fun _ member => absurd member List.not_mem_nil⟩

theorem typesPage_eq : typesPage o s = ({} : Page).written (typesDrafts s o) := by
  simp [typesPage, typesDrafts, newPage, Page.written]

theorem constantsPage_eq : constantsPage o s = ({} : Page).written (constantsDrafts s o) := rfl

variable {s o} in
theorem servicePage_eq {d : ServiceDecl} (writable : serviceVerdict s d = .ok ())
    {parent : Option ServiceDecl} (found : s.parentOf d = .ok parent) :
    servicePage o s d = .ok (({} : Page).written (serviceDrafts s o parent d)) := by
  rw [servicePage, found, Idl.ofSchema, ok_bind]
  unfold Page.draft
  dsimp only
  rw [serviceCode_answer, writable]
  rfl

variable {s o} in
theorem of_servicePage {d : ServiceDecl} {page : Page} (written : servicePage o s d = .ok page) :
    ∃ parent, s.parentOf d = .ok parent ∧ serviceVerdict s d = .ok () ∧
      page = ({} : Page).written (serviceDrafts s o parent d) := by
  obtain ⟨parent, given, drafting⟩ := bind_eq_ok_iff.mp written
  have found := ofSchema_eq_ok_iff.mp given
  have writable : serviceVerdict s d = .ok () := by
    unfold Page.draft at drafting
    dsimp only at drafting
    rw [serviceCode_answer] at drafting
    cases answer : serviceVerdict s d with
    | error e =>
      rw [answer] at drafting
      cases drafting
    | ok _ => rfl
  rw [servicePage_eq writable found] at written
  cases written
  exact ⟨parent, found, writable, rfl⟩

def typesMarks : List String :=
  s.typedefs.flatMap typedefMarks ++ s.enums.flatMap enumMarks ++ s.structs.flatMap structMarks

variable {s} in
theorem typesDrafts_mark (writable : ∀ d ∈ s.structs, structVerdict s d = .ok ()) :
    DraftsMark (typesMarks s) (typesDrafts s o) := by
  have structs : ∀ d ∈ s.structs, ∀ n, (structCode s o d n).answer = .ok () := by
    intro d member n
    rw [structCode_answer, writable d member]
  have head := draftsMark_one Sure.answer (headCode_plain s o [])
  have typedefs := draftsMark_map s.typedefs (fun _ _ => Sure.answer) (typedefCode_marks o)
  have enums := draftsMark_map s.enums (fun _ _ => Sure.answer) (enumCode_marks o)
  exact head.append ((typedefs.append enums).append
    (draftsMark_map s.structs structs (structCode_marks s o)))

variable {s} in
theorem serviceDrafts_mark {d : ServiceDecl} (writable : serviceVerdict s d = .ok ())
    {parent : Option ServiceDecl} (found : s.parentOf d = .ok parent) :
    DraftsMark (serviceMarks d parent) (serviceDrafts s o parent d) := by
  have answers (n : Nat) : (serviceCode s o d n).answer = .ok () := by
    rw [serviceCode_answer, writable]
  have head := draftsMark_one Sure.answer (headCode_plain s o (serviceImports parent))
  exact head.append (draftsMark_one answers (serviceCode_marks s o d found))

end Code

end Idl
