import Idl.Proofs.Code.Named
import Idl.Proofs.Code.Service

/-!
# What generators leave on a page

A page is handed from one generator to the next, and it may be changed in between. Whatever a
generator comes to, all that it does to the page is to append text in which the braces match, and
the temporary names that it takes are names that no generator has taken on this page before.
-/

set_option autoImplicit false

namespace Idl.Code

open Text Emit Draft

/-- What is to be generated: the code for a declaration, or statements for a value of a type. -/
inductive Job where
  | typedef (d : TypedefDecl)
  | enum (d : EnumDecl)
  | constant (d : ConstDecl)
  | struct (d : StructDecl)
  | service (d : ServiceDecl)
  | read (ty : Ty) (target : String)
  | write (ty : Ty) (value : String)

namespace Job

def draft (s : Schema) (o : Options) : Job → Draft Unit
  | .typedef d => typedefCode o d
  | .enum d => enumCode o d
  | .constant d => constCode s d
  | .struct d => structCode s o d
  | .service d => serviceCode s o d
  | .read ty target => readCode ty target
  | .write ty value => writeCode ty value

def names : Job → List String
  | .typedef d => d.names
  | .enum d => d.names
  | .constant d => d.names
  | .struct d => d.names
  | .service d => d.names
  | .read ty target => target :: ty.names
  | .write ty value => value :: ty.names

def texts : Job → List String
  | .typedef d => d.texts
  | .enum _ => []
  | .constant d => d.texts
  | .struct d => d.texts
  | .service d => d.texts
  | .read _ _ => []
  | .write _ _ => []

instance (s : Schema) (o : Options) (job : Job) : Steady (job.draft s o) := by
  unfold draft
  cases job <;> infer_instance

theorem commented {A : Char → Prop} [Usual A] {s : Schema} {o : Options} {job : Job}
    (words : Spelled A s.names s.texts) (spelled : Spelled A job.names job.texts) :
    Commented A False (job.draft s o) (job.draft s o.bare) := by
  cases job with
  | typedef d => exact typedefCode_commented spelled
  | enum d => exact enumCode_commented spelled.name
  | constant d => exact constCode_commented words spelled
  | struct d =>
    exact structCode_commented words (spelled.name d.name List.mem_cons_self)
      (fun _ member => StructDecl.spelled_field spelled member) False.elim
  | service d => exact serviceCode_commented words spelled False.elim False.elim
  | read ty target =>
    exact readCode_commented (fun w member => spelled.name w (List.mem_cons_of_mem _ member))
      (spelled.name target List.mem_cons_self).phrased False.elim
  | write ty value =>
    exact writeCode_commented (spelled.name value List.mem_cons_self).phrased False.elim

end Job

def plain (c : Char) : Prop :=
  c ≠ '\x7b' ∧ c ≠ '\x7d'

instance : Usual plain :=
  ⟨fun _ opened closed _ => ⟨opened, closed⟩⟩

theorem filter_lineText (width level : Nat) (l : Line) :
    (Page.lineText width level l).toList.filter isBrace = l.text.toList.filter isBrace := by
  unfold Page.lineText
  split
  · rename_i empty
    rw [empty]
    rfl
  · have blanks : ∀ n, (List.replicate n ' ').filter isBrace = [] := fun n =>
      List.filter_eq_nil_iff.mpr fun c member => by
        rw [List.eq_of_mem_replicate member]
        decide
    have feed : ['\n'].filter isBrace = [] := rfl
    simp [List.filter_append, blanks, feed]

theorem matching_lines {ls : List Line}
    (phrase : Phrase plain ((ls.map Line.text).flatMap String.toList)) (width level : Nat) :
    matching 0 (String.join (ls.map (Page.lineText width level))).toList = true := by
  have braces : (String.join (ls.map (Page.lineText width level))).toList.filter isBrace =
      ((ls.map Line.text).flatMap String.toList).filter isBrace := by
    rw [String.toList_join, List.flatMap_map, List.flatMap_map, List.filter_flatMap,
      List.filter_flatMap]
    simp only [filter_lineText]
  have matched := phrase.matching_append (fun _ other => other) 0 []
  rw [List.append_nil] at matched
  rw [← matching_filter, braces, matching_filter, matched]
  rfl

/-- The names differ, and their numbers are below `n`. -/
def Below (n : Nat) (names : List String) : Prop :=
  names.Nodup ∧ ∀ name ∈ names, ∃ lead ∈ leads, ∃ i < n, name = lead ++ toString i

theorem Below.mono {m n : Nat} {names : List String} (below : Below m names) (le : m ≤ n) :
    Below n names := by
  refine ⟨below.1, fun name member => ?_⟩
  obtain ⟨lead, known, i, lt, shape⟩ := below.2 name member
  exact ⟨lead, known, i, Nat.lt_of_lt_of_le lt le, shape⟩

theorem Below.numbered {n : Nat} {names taken : List String} (below : Below n names)
    (known : ∀ lead ∈ taken, lead ∈ leads) :
    Below (n + taken.length) (names ++ numbered n taken) := by
  constructor
  · refine below.1.append (numbered_nodup known) fun name before again => ?_
    obtain ⟨lead, old, i, lt, shape⟩ := below.2 name before
    obtain ⟨lead', inside, j, ge, -, shape'⟩ := mem_numbered again
    have number := lead_append_inj old (known lead' inside) (shape.symm.trans shape')
    omega
  · intro name member
    rcases List.mem_append.mp member with before | new
    · exact (below.mono (Nat.le_add_right n _)).2 name before
    · obtain ⟨lead, inside, i, -, lt, shape⟩ := mem_numbered new
      exact ⟨lead, known lead inside, i, lt, shape⟩

/-- A page, and the temporary names that generators took on it, in the order of the generators. In
between anything may happen to the page that does not set its counter back. -/
inductive Used : Page → List String → Prop
  | fresh (p : Page) : Used p []
  | edited {p q : Page} {names : List String} : Used p names → p.counter ≤ q.counter → Used q names
  | generated {p : Page} {names : List String} (s : Schema) (o : Options) (job : Job) :
      Used p names →
      Used (p.draft (job.draft s o)).2 (names ++ (job.draft s o p.counter).names)

theorem Used.names_below {p : Page} {names : List String} (used : Used p names) :
    Below p.counter names := by
  induction used with
  | fresh p => exact ⟨List.nodup_nil, fun _ member => absurd member List.not_mem_nil⟩
  | edited _ le ih => exact ih.mono le
  | @generated p names s o job _ ih =>
    let any : Char → Prop := fun _ => True
    have : Usual any := ⟨fun _ _ _ _ => trivial⟩
    have commented : Commented any False (job.draft s o) (job.draft s o.bare) :=
      Job.commented ⟨fun _ _ _ _ => trivial, fun _ _ _ _ => .inl trivial⟩
        ⟨fun _ _ _ _ => trivial, fun _ _ _ _ => .inl trivial⟩
    obtain ⟨taken, known, names, counter⟩ := commented.numbers p.counter
    have after : (p.draft (job.draft s o)).2.counter = p.counter + taken.length := counter
    rw [after, names]
    exact ih.numbered known

/-- Whether it fails or not, a generator of declarations and texts without braces appends text in
which the braces match, keeps the level, and takes names that were not taken. -/
theorem draft_upkeep {p : Page} {names : List String} (used : Used p names) (s : Schema)
    (o : Options) (job : Job)
    (braceless : ∀ w ∈ s.names ++ s.texts ++ (job.names ++ job.texts),
      '\x7b' ∉ w.toList ∧ '\x7d' ∉ w.toList) :
    (∃ added, (p.draft (job.draft s o)).2.text = p.text ++ added ∧ matching 0 added.toList = true) ∧
      (p.draft (job.draft s o)).2.level = p.level ∧ (p.draft (job.draft s o)).2.width = p.width ∧
      (names ++ (job.draft s o p.counter).names).Nodup := by
  have worded : ∀ w ∈ s.names ++ s.texts ++ (job.names ++ job.texts), Worded plain w := by
    intro w member c inside
    obtain ⟨opened, closed⟩ := braceless w member
    exact ⟨ne_of_mem_of_not_mem inside opened, ne_of_mem_of_not_mem inside closed⟩
  have words : Spelled plain s.names s.texts :=
    ⟨fun w member => worded w (by simp [member]),
      fun w member => (worded w (by simp [member])).orFeed⟩
  have spelled : Spelled plain job.names job.texts :=
    ⟨fun w member => worded w (by simp [member]),
      fun w member => (worded w (by simp [member])).orFeed⟩
  have phrase := (Job.commented (o := o) words spelled).phrase p.counter
  rw [← Drafted.map_text_lines] at phrase
  -- Where a generator fails, the levels that it entered are given back all the same.
  have drafted := p.draft_eq (Steady.balanced (d := job.draft s o) p.counter)
  refine ⟨⟨_, congrArg (fun q => q.2.text) drafted, matching_lines phrase p.width p.level⟩,
    congrArg (fun q => q.2.level) drafted, congrArg (fun q => q.2.width) drafted, ?_⟩
  exact (used.generated s o job).names_below.1

theorem draft_upkeep_failed :
    let s : Schema := { name := "notes" }
    let p := (({ level := 1 } : Page).draft ((Job.read (.list .i32) "xs").draft s {})).2
    let job := Job.write (.map .string (.list .void)) "ys"
    Used p ["_list0", "_elem1"] ∧ (p.draft (job.draft s {})).1 = .error (.unsupported .voidWrite) ∧
      (∃ added, (p.draft (job.draft s {})).2.text = p.text ++ added ∧
        matching 0 added.toList = true) ∧
      (p.draft (job.draft s {})).2.level = 1 ∧ (p.draft (job.draft s {})).2.width = 4 ∧
      (["_list0", "_elem1"] ++ ["_kiter2", "_viter3", "_iter4"]).Nodup := by
  intro s p job
  have used : Used p ["_list0", "_elem1"] := .generated s {} (.read (.list .i32) "xs") (.fresh _)
  obtain ⟨appended, level, width, distinct⟩ := draft_upkeep used s {} job (by decide)
  have counter : p.counter = 2 := rfl
  have taken : (job.draft s {} 2).names = ["_kiter2", "_viter3", "_iter4"] := rfl
  rw [counter, taken] at distinct
  exact ⟨used, rfl, appended, level, width, distinct⟩

end Idl.Code
