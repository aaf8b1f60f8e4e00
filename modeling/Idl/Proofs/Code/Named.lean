import Idl.Proofs.Code.Struct

/-!
# The text of enums, typedefs and constants

An enum and a typedef can always be written, and each is one item. A constant stops only at a value
that does not fit its type.
-/

set_option autoImplicit false

namespace Idl.Code

open Text Emit Draft

variable {A : Char → Prop} [usual : Usual A] {legible : Prop} (s : Schema) (o : Options)

section Enums

variable (d : EnumDecl)

/-- The last two levels are given back one after another, so that the function is a block. -/
theorem nameFnCode_eq : nameFnCode = block "pub fn name(self) -> Option<&'static str>" "" (do
    line "Self::VALUES"
    inset (lines [".iter()", ".find(|(_, v)| *v == self)", ".map(|(n, _)| *n)"])) := rfl

instance : Sure nameFnCode := by
  unfold nameFnCode
  infer_instance

instance : Steady nameFnCode := by
  rw [nameFnCode_eq]
  infer_instance

instance : Sure (enumMembersCode o d) := by
  unfold enumMembersCode
  infer_instance

instance : Steady (enumMembersCode o d) := by
  unfold enumMembersCode
  infer_instance

instance : Sure (enumCode o d) := by
  unfold enumCode
  infer_instance

instance : Steady (enumCode o d) := by
  unfold enumCode
  infer_instance

def enumMarks : List String :=
  ["pub struct " ++ Ident.type d.name ++ "(pub i32);"]

theorem enumCode_marks : (enumCode o d).Marks 0 (enumMarks d) := by
  unfold enumCode
  refine (doc_plain o _).after fun _ => (line_plain rfl).after fun _ => ?_
  refine (line_marks (isLandmark_of_opensItem ?_)).before fun _ => blank_plain.after fun _ => ?_
  · simp [opensItem, List.isPrefixOf]
  refine (line_plain ?_).after fun _ => .indent ((line_plain rfl).after fun _ => ?_)
  · simp [isLandmark, opensItem, opensFunction, makesError, List.isPrefixOf, List.getLast?_cons]
  refine blank_plain.after fun _ => (line_plain ?_).after fun _ => .indent ?_
  · simp [isLandmark, opensItem, opensFunction, makesError, List.isPrefixOf]
  refine (line_plain rfl).after fun _ => blank_plain.after fun _ => ?_
  refine (line_plain ?_).after fun _ => .indent ((line_plain rfl).after fun _ => blank_plain)
  simp [isLandmark, opensItem, opensFunction, makesError, List.isPrefixOf]

omit usual in
theorem numberFrom_names (next : Int32) (values : List (String × Option Int32)) :
    (EnumDecl.numberFrom next values).map (·.1) = values.map (·.1) := by
  induction values generalizing next with
  | nil => rfl
  | cons p rest ih => rw [EnumDecl.numberFrom, List.map_cons, List.map_cons, ih]

theorem nameFnCode_commented : Commented A legible nameFnCode nameFnCode := by
  rw [nameFnCode_eq]
  refine .braced (.fixed rfl) (.seq (.fixed rfl) (.inset (.statements ?_)))
  exact .fixed rfl (.fixed rfl (.fixed rfl .nil))

variable {o d} (named : ∀ w ∈ d.names, Worded A w)

include named

theorem enumMembersCode_commented :
    Commented A legible (enumMembersCode o d) (enumMembersCode o.bare d) := by
  have constants : Statements A legible (d.numbered.map fun p =>
      "pub const " ++ Ident.constant p.1 ++ ": Self = Self(" ++ toString p.2 ++ ");") := by
    refine .map fun p member => ?_
    have among : p.1 ∈ d.values.map (·.1) := by
      rw [← numberFrom_names 0]
      exact List.mem_map.mpr ⟨p, member, rfl⟩
    have ident := (Ident.worded_constant (named p.1 (List.mem_cons_of_mem _ among))).phrased
    have number : Phrased A (toString p.2) := (Worded.integer p.2.toInt).phrased
    exact .and (.and (.fixed rfl) ident rfl) number rfl
  have values : Statements A legible (d.values.map fun p =>
      "(" ++ quoted p.1 ++ ", Self::" ++ Ident.constant p.1 ++ "),") := by
    refine .map fun p member => ?_
    have worded := named p.1 (List.mem_cons_of_mem _ (List.mem_map.mpr ⟨p, member, rfl⟩))
    have ident := (Ident.worded_constant worded).phrased
    have quote : Phrased A (quoted p.1) := .quoted worded.orFeed.phrased
    exact .and (.and (.fixed rfl) quote rfl) ident rfl
  refine .seq (.statements constants) (.seq ?_ (.seq (doc_commented (.fixed rfl)) ?_))
  · split
    · exact .nothing
    · exact .blank
  refine .seq (.fixed rfl) (.indented (.statements values) (.seq (.fixed rfl) (.seq .blank ?_)))
  exact .seq (doc_commented (.fixed rfl)) nameFnCode_commented

theorem enumCode_commented : Commented A legible (enumCode o d) (enumCode o.bare d) := by
  have worded := named d.name List.mem_cons_self
  have type := (Ident.worded_type worded).phrased
  have header : Opens A ("fn from(value: " ++ Ident.type d.name ++ ") -> Self \x7b") :=
    .append (.append (.fixed rfl) type) rfl
  have brace : "impl From<" ++ Ident.type d.name ++ "> for i32 \x7b" =
      "impl From<" ++ Ident.type d.name ++ "> for i32" ++ " \x7b" :=
    String.toList_injective (by simp)
  unfold enumCode
  dsimp only
  rw [brace]
  refine .seq (doc_commented (.and (.fixed rfl) worded.orFeed rfl)) (.seq (.fixed rfl) ?_)
  refine .seq (.line (.and (.fixed rfl) type rfl)) (.seq .blank ?_)
  refine .braces (.append (.fixed rfl) type) (enumMembersCode_commented named) (.seq .blank ?_)
  refine .braces (.append (.fixed rfl) type) (.scope .nil (.fixed rfl rfl) (.fixed rfl)) ?_
  exact .seq .blank (.braces (.and (.fixed rfl) type rfl) (.scope .nil header (.fixed rfl)) .blank)

end Enums

section Typedefs

variable (d : TypedefDecl)

instance : Sure (typedefCode o d) := by
  unfold typedefCode
  split <;> infer_instance

instance : Steady (typedefCode o d) := by
  unfold typedefCode
  split <;> infer_instance

def typedefMarks : List String :=
  ["pub type " ++ Ident.type d.name ++ " = " ++ d.target.code ++ ";"]

theorem typedefCode_marks : (typedefCode o d).Marks 0 (typedefMarks d) := by
  have item : (do
      line ("pub type " ++ Ident.type d.name ++ " = " ++ d.target.code ++ ";")
      blank).Marks 0 (typedefMarks d) := by
    refine (line_marks (isLandmark_of_opensItem ?_)).before fun _ => blank_plain
    simp [opensItem, List.isPrefixOf]
  unfold typedefCode
  split
  · exact (doc_plain o _).after fun _ => item
  · exact (doc_plain o _).after fun _ => item

variable {o d} in
theorem typedefCode_commented (spelled : Spelled A d.names d.texts) :
    Commented A legible (typedefCode o d) (typedefCode o.bare d) := by
  have worded := spelled.name d.name List.mem_cons_self
  have type := (Ident.worded_type worded).phrased
  have code := (Ty.worded_code fun w member =>
    spelled.name w (List.mem_cons_of_mem _ member)).phrased
  have synonym : Clause A ("pub type " ++ Ident.type d.name ++ " = " ++ d.target.code ++ ";") :=
    .and (.and (.fixed rfl) type rfl) code rfl
  unfold typedefCode
  split
  · rename_i choices given
    have listed : Worded (orFeed A) (", ".intercalate choices) :=
      .intercalate (.fixed rfl) fun w member =>
        spelled.text w (by simp [TypedefDecl.texts, given, member])
    have told : Worded (orFeed A) ("Typedef `" ++ d.name ++ "`, restricted to: " ++
        ", ".intercalate choices ++ ".") :=
      .and (.and (.fixed rfl) worded.orFeed rfl) listed rfl
    exact .seq (doc_commented told) (.seq (.line synonym) .blank)
  · refine .seq (doc_commented (.and (.fixed rfl) worded.orFeed rfl)) ?_
    exact .seq (.line synonym) .blank

end Typedefs

section Constants

variable (d : ConstDecl)

instance : Steady (constCode s d) := by
  unfold constCode
  infer_instance

theorem constCode_answer (n : Nat) : (constCode s d n).answer = verdict (constLine s d) := by
  simp [constCode, verdict]

variable {s d} in
theorem constCode_commented (words : Spelled A s.names s.texts)
    (spelled : Spelled A d.names d.texts) :
    Commented A legible (constCode s d) (constCode s d) := by
  have ident := (Ident.worded_constant (spelled.name d.name List.mem_cons_self)).phrased
  have mentioned : ∀ w ∈ d.ty.names, Worded A w := fun w member =>
    spelled.name w (List.mem_cons_of_mem _ member)
  have code := (Ty.worded_code mentioned).phrased
  refine .given fun text known => ?_
  unfold constLine at known
  split at known
  · split at known
    · rename_i t given
      have quote : Phrased A (quoted t) :=
        .quoted (spelled.text t (by simp [ConstDecl.texts, given, Literal.texts])).phrased
      cases known
      exact .line (.and (.and (.fixed rfl) ident rfl) quote rfl)
    · cases known
  all_goals
    obtain ⟨value, rendered, same⟩ := bind_eq_ok_iff.mp known
    have phrased := Schema.render_phrased words mentioned spelled.text rendered
    cases same
    exact .line (.and (.and (.and (.fixed rfl) ident rfl) code rfl) phrased rfl)

end Constants

end Idl.Code
