import Idl.Proofs.Emit.Draft
import Mathlib.Data.List.Forall2

/-!
# Landmarks of a text

Some lines tell what a text declares: those that begin an item or a function, and those that make an
error of a type. The landmarks of a draft at some depth are these lines, in their order. Whatever
stands deeper belongs to the landmark above it and is passed over.
-/

set_option autoImplicit false

namespace Idl.Emit

def opensItem (text : String) : Bool :=
  "pub ".toList.isPrefixOf text.toList

def opensFunction (text : String) : Bool :=
  "fn ".toList.isPrefixOf text.toList || "pub fn ".toList.isPrefixOf text.toList

def makesError (text : String) : Bool :=
  "impl ::std::error::Error for ".toList.isPrefixOf text.toList &&
    text.toList.getLast? = some '\x7d'

def isLandmark (text : String) : Bool :=
  opensItem text || opensFunction text || makesError text

theorem isLandmark_of_opensItem {text : String} (opens : opensItem text = true) :
    isLandmark text = true := by
  simp [isLandmark, opens]

theorem isLandmark_of_opensFunction {text : String} (opens : opensFunction text = true) :
    isLandmark text = true := by
  simp [isLandmark, opens]

theorem isLandmark_of_makesError {text : String} (makes : makesError text = true) :
    isLandmark text = true := by
  simp [isLandmark, makes]

def landmarks (depth : Nat) (ls : List Line) : List String :=
  (ls.filter fun l => l.depth = depth && isLandmark l.text).map Line.text

theorem landmarks_append (depth : Nat) (ls ms : List Line) :
    landmarks depth (ls ++ ms) = landmarks depth ls ++ landmarks depth ms := by
  rw [landmarks, List.filter_append, List.map_append]
  rfl

theorem landmarks_deeper_zero (ls : List Line) : landmarks 0 (ls.map Line.deeper) = [] := by
  simp [landmarks, Line.deeper]

theorem landmarks_deeper_succ (depth : Nat) (ls : List Line) :
    landmarks (depth + 1) (ls.map Line.deeper) = landmarks depth ls := by
  simp [landmarks, List.filter_map, Function.comp_def, Line.deeper]

theorem landmarks_line (text : String) :
    landmarks 0 [⟨0, text⟩] = if isLandmark text then [text] else [] := by
  cases marked : isLandmark text <;> simp [landmarks, marked]

theorem landmarks_line_succ (depth : Nat) (text : String) :
    landmarks (depth + 1) [⟨0, text⟩] = [] := by
  simp [landmarks]

theorem filter_depth {sort : String → Bool} (marked : ∀ t, sort t = true → isLandmark t = true)
    (depth : Nat) (ls : List Line) : ls.filter (fun l => l.depth = depth && sort l.text) =
      ((landmarks depth ls).filter sort).map fun t => ⟨depth, t⟩ := by
  induction ls with
  | nil => rfl
  | cons l ls ih =>
    obtain ⟨k, text⟩ := l
    by_cases here : k = depth
    · subst here
      cases sorted : sort text with
      | false => cases mark : isLandmark text <;> simp_all [landmarks]
      | true => simp_all [landmarks]
    · simp_all [landmarks]

/-- The texts of one sort tell these names, in this order. -/
def Tells (sort : String → Bool) (tells : String → String → Prop) (names texts : List String) :
    Prop :=
  List.Forall₂ tells names (texts.filter sort)

namespace Tells

variable {sort : String → Bool} {tells : String → String → Prop} {names names' texts texts' :
  List String} {name text : String}

theorem append (first : Tells sort tells names texts) (second : Tells sort tells names' texts') :
    Tells sort tells (names ++ names') (texts ++ texts') := by
  rw [Tells, List.filter_append]
  exact List.rel_append first second

theorem nil : Tells sort tells [] [] :=
  List.Forall₂.nil

theorem cons (sorted : sort text = true) (tell : tells name text)
    (others : Tells sort tells names texts) : Tells sort tells (name :: names) (text :: texts) := by
  rw [Tells, List.filter_cons_of_pos sorted]
  exact List.Forall₂.cons tell others

theorem skip (other : sort text = false) (others : Tells sort tells names texts) :
    Tells sort tells names (text :: texts) := by
  rw [Tells, List.filter_cons_of_neg (by simp [other])]
  exact others

theorem flatMap {α : Type} {name mark : α → List String}
    (each : ∀ a, Tells sort tells (name a) (mark a)) (as : List α) :
    Tells sort tells (as.flatMap name) (as.flatMap mark) := by
  induction as with
  | nil => exact .nil
  | cons a rest ih => exact (each a).append ih

theorem map {α : Type} {name mark : α → String} (sorted : ∀ a, sort (mark a) = true)
    (each : ∀ a, tells (name a) (mark a)) (as : List α) :
    Tells sort tells (as.map name) (as.map mark) := by
  rw [List.map_eq_flatMap, List.map_eq_flatMap]
  exact flatMap (fun a => .cons (sorted a) (each a) .nil) as

theorem lines (marked : ∀ t, sort t = true → isLandmark t = true) {depth : Nat} {ls : List Line}
    (told : Tells sort tells names (landmarks depth ls)) :
    List.Forall₂ (fun name l => tells name l.text) names
      (ls.filter fun l => l.depth = depth && sort l.text) := by
  rw [filter_depth marked, List.forall₂_map_right_iff]
  exact told

end Tells

namespace Draft

variable {α β : Type} {depth : Nat} {texts texts' : List String}

/-- If the draft comes to an end, these are its landmarks at a depth. -/
def Marks (depth : Nat) (texts : List String) (d : Draft α) : Prop :=
  ∀ n a, (d n).answer = .ok a → landmarks depth (d n).lines = texts

section Parts

variable {d : Draft α} [Steady d] {f : α → Draft β}

theorem Marks.bind (first : d.Marks depth texts) (second : ∀ a, (f a).Marks depth texts') :
    (d >>= f).Marks depth (texts ++ texts') := by
  intro n b answered
  rw [answer_bind] at answered
  obtain ⟨a, answer, rest⟩ := bind_eq_ok_iff.mp answered
  rw [lines_bind answer, landmarks_append, first n a answer, second a _ b rest]

theorem Marks.cons {text : String} (first : d.Marks depth [text])
    (second : ∀ a, (f a).Marks depth texts) : (d >>= f).Marks depth (text :: texts) :=
  first.bind second

theorem Marks.after (first : d.Marks depth []) (second : ∀ a, (f a).Marks depth texts) :
    (d >>= f).Marks depth texts :=
  first.bind second

theorem Marks.before (first : d.Marks depth texts) (second : ∀ a, (f a).Marks depth []) :
    (d >>= f).Marks depth texts := by
  have both := first.bind second
  rwa [List.append_nil] at both

end Parts

theorem marks_of_fail (e : EmitError) : (fail e : Draft α).Marks depth texts := by
  intro n a answered
  cases answered

theorem ofEmitted_plain (x : Emitted α) : (ofEmitted x).Marks depth [] := by
  intro n a _
  cases x <;> rfl

theorem lines_plain {ts : List String} (plain : ∀ t ∈ ts, isLandmark t = false) :
    (lines ts).Marks depth [] := by
  intro n _ _
  rw [lines_lines, landmarks, List.map_eq_nil_iff, List.filter_eq_nil_iff]
  intro l member
  obtain ⟨t, inside, rfl⟩ := List.mem_map.mp member
  simp [plain t inside]

theorem line_plain {text : String} (plain : isLandmark text = false) :
    (line text).Marks depth [] := by
  have alone : (lines [text]).Marks depth [] := lines_plain (by simpa using plain)
  exact alone

theorem blank_plain : blank.Marks depth [] :=
  line_plain rfl

theorem line_marks {text : String} (marked : isLandmark text = true) :
    (line text).Marks 0 [text] := by
  intro n _ _
  exact (landmarks_line text).trans (if_pos marked)

theorem line_above {text : String} : (line text).Marks (depth + 1) [] := by
  intro n _ _
  exact landmarks_line_succ depth text

theorem lines_marks (ts : List String) : (lines ts).Marks 0 (ts.filter isLandmark) := by
  intro n _ _
  simp [landmarks, List.filter_map, Function.comp_def]

theorem forM_marks {each : α → Draft Unit} [∀ a, Steady (each a)] {marks : α → List String}
    (as : List α) (all : ∀ a, (each a).Marks depth (marks a)) :
    (as.forM each).Marks depth (as.flatMap marks) := by
  induction as with
  | nil => exact fun _ _ _ => rfl
  | cons a rest ih =>
    rw [List.flatMap_cons]
    exact (all a).bind fun _ => ih

section Bodies

variable {header tail : String} {body : Draft Unit} [Steady body]

theorem closing_plain (tail : String) : isLandmark ("\x7d" ++ tail) = false := by
  simp [isLandmark, opensItem, opensFunction, makesError, List.isPrefixOf]

theorem landmarks_block (header tail : String) (n : Nat) :
    landmarks 0 (block header tail body n).lines =
      if isLandmark (opening header) then [opening header] else [] := by
  rw [lines_block, landmarks_append, landmarks_append, landmarks_deeper_zero, landmarks_line,
    landmarks_line, closing_plain]
  simp

theorem block_plain (plain : isLandmark (opening header) = false) :
    (block header tail body).Marks 0 [] := by
  intro n _ _
  rw [landmarks_block, plain]
  rfl

theorem block_marks (marked : isLandmark (opening header) = true) :
    (block header tail body).Marks 0 [opening header] := by
  intro n _ _
  rw [landmarks_block, if_pos marked]

theorem Marks.block (inside : body.Marks depth texts) :
    (block header tail body).Marks (depth + 1) texts := by
  intro n _ answered
  rw [lines_block, landmarks_append, landmarks_append, landmarks_deeper_succ, landmarks_line_succ,
    landmarks_line_succ, inside n () answered]
  simp

variable [Sure body] {rest : Draft β}

theorem Marks.indent (behind : rest.Marks 0 texts) :
    (do indent; body; dedent; rest).Marks 0 texts := by
  have none : (inset body).Marks 0 [] := by
    intro n _ _
    rw [lines_inset, landmarks_deeper_zero]
  rw [indent_bind]
  exact none.after fun _ => behind

theorem Marks.indent_succ (inside : body.Marks depth texts)
    (behind : rest.Marks (depth + 1) texts') :
    (do Draft.indent; body; dedent; rest).Marks (depth + 1) (texts ++ texts') := by
  have deeper : (inset body).Marks (depth + 1) texts := by
    intro n a answered
    rw [lines_inset, landmarks_deeper_succ, inside n a answered]
  rw [indent_bind]
  exact deeper.bind fun _ => behind

end Bodies

end Draft

end Idl.Emit
