import Idl.Proofs.Emit.Draft
import Idl.Proofs.Text.Phrase

/-!
# Drafts with comments and without

A draft is compared with the same draft without its doc comments. What the two are made of is said
by rules, one for each way of making a draft, and the rest follows from the rules: both drafts give
the same answer and take the same temporary names, their lines of code are the same, the text is a
phrase, and every temporary name has a number of its own.
-/

set_option autoImplicit false

namespace Idl.Emit

open Text

/-! ## Lines of comments -/

def isDoc (text : String) : Bool :=
  "///".toList.isPrefixOf (text.toList.dropWhile (· = ' '))

def settles (cs : List Char) : Bool :=
  (cs.dropWhile (· = ' ')).head?.any (· ≠ '/')

/-- What the text begins with tells that it is no comment. -/
def Settled (text : String) : Prop :=
  settles text.toList = true

theorem Settled.fixed {cs : List Char} (begins : settles cs = true) :
    Settled (String.ofList cs) := by
  rw [Settled, String.toList_ofList]
  exact begins

theorem Settled.append {a : String} (settled : Settled a) (b : String) : Settled (a ++ b) := by
  rw [Settled, settles, Option.any_eq_true] at settled
  obtain ⟨c, first, other⟩ := settled
  have slash : c ≠ '/' := by simpa using other
  have some : (a.toList.dropWhile (· = ' ')).isEmpty = false := by
    cases shape : a.toList.dropWhile (· = ' ') with
    | nil => simp [shape] at first
    | cons => rfl
  rw [Settled, settles, String.toList_append, List.dropWhile_append, some]
  simp [List.head?_append, first, slash]

theorem Settled.quoted (t : String) : Settled (quoted t) := by
  rw [Settled, Text.quoted, String.toList_ofList]
  rfl

theorem Settled.integer (z : Int) : Settled (toString z) := by
  rw [Settled, toList_toString_int]
  split
  · rfl
  · obtain ⟨c, rest, shape⟩ :=
      List.exists_cons_of_ne_nil (Nat.toDigits_ne_nil (b := 10) (n := z.natAbs))
    have digit : c.isDigit = true := isDigit_of_mem_toString (n := z.natAbs) c (by simp [shape])
    have blank : c ≠ ' ' := by rintro rfl; cases digit
    have slash : c ≠ '/' := by rintro rfl; cases digit
    rw [toList_toString_nat, shape]
    simp [settles, blank, slash]

theorem Settled.notDoc {text : String} (settled : Settled text) : isDoc text = false := by
  rw [Settled, settles, Option.any_eq_true] at settled
  obtain ⟨c, first, other⟩ := settled
  have slash : c ≠ '/' := by simpa using other
  unfold isDoc
  cases shape : text.toList.dropWhile (· = ' ') with
  | nil => simp [shape] at first
  | cons d rest =>
    rw [shape] at first
    cases first
    simp [List.isPrefixOf, Ne.symm slash]

theorem isDoc_marked {name text : String} {mark : Char} {rest : List Char} (blank : mark ≠ ' ')
    (slash : mark ≠ '/') (shape : text.toList = name.toList ++ mark :: rest) :
    isDoc text = isDoc name := by
  unfold isDoc
  rw [shape, List.dropWhile_append]
  generalize name.toList.dropWhile (· = ' ') = cs
  rcases cs with _ | ⟨a, _ | ⟨b, _ | ⟨c, cs⟩⟩⟩
  · simp [List.isPrefixOf, blank, Ne.symm slash]
  · simp [List.isPrefixOf, Ne.symm slash]
  · simp [List.isPrefixOf, Ne.symm slash]
  · simp [List.isPrefixOf]

theorem isDoc_named {name text : String} (named : isDoc name = false)
    (colon : ∃ rest, text.toList = name.toList ++ ':' :: rest) : isDoc text = false := by
  obtain ⟨rest, shape⟩ := colon
  rw [isDoc_marked (by decide) (by decide) shape, named]

theorem mem_linesFrom {start cs : List Char} {l : String} (member : l ∈ linesFrom start cs)
    {c : Char} (inside : c ∈ l.toList) : c ∈ start ∨ c ∈ cs ∧ c ≠ '\n' := by
  have dropped {start : List Char} (inside : c ∈ dropReturn start) : c ∈ start := by
    unfold dropReturn at inside
    split at inside
    · exact List.mem_cons_of_mem _ inside
    · exact inside
  induction cs generalizing start with
  | nil =>
    cases start with
    | nil => cases member
    | cons d start =>
      rw [linesFrom, List.mem_singleton] at member
      · left
        simpa [member, or_comm] using inside
      · simp
  | cons d cs ih =>
    rw [linesFrom] at member
    split at member
    case isTrue feed =>
      rcases List.mem_cons.mp member with rfl | later
      · left
        exact dropped (by simpa using inside)
      · rcases ih later with none | ⟨within, other⟩
        · cases none
        · exact .inr ⟨List.mem_cons_of_mem d within, other⟩
    case isFalse other =>
      rcases ih member with front | ⟨within, others⟩
      · rcases List.mem_cons.mp front with rfl | before
        · exact .inr ⟨List.mem_cons_self, other⟩
        · exact .inl before
      · exact .inr ⟨List.mem_cons_of_mem d within, others⟩

theorem mem_lines {text l : String} (member : l ∈ Text.lines text) {c : Char}
    (inside : c ∈ l.toList) :
    c ∈ text.toList ∧ c ≠ '\n' :=
  (mem_linesFrom member inside).resolve_left List.not_mem_nil

theorem isDoc_commentLines {text t : String} (member : t ∈ commentLines "///" text) :
    isDoc t = true := by
  obtain ⟨l, -, rfl⟩ := List.mem_map.mp member
  split
  · rfl
  · simp [isDoc, List.isPrefixOf]

/-! ## Lines of code -/

section Code

variable {A : Char → Prop} {legible : Prop}

/-- A phrase that does not begin like a comment. -/
structure Clause (A : Char → Prop) (text : String) : Prop where
  phrased : Phrased A text
  settled : Settled text

namespace Clause

def isTidy (cs : List Char) : Bool :=
  Phrased.isTidy cs && settles cs

variable {a b : String} {cs : List Char}

theorem fixed [Usual A] (tidy : isTidy cs = true) : Clause A (String.ofList cs) := by
  rw [isTidy, Bool.and_eq_true] at tidy
  exact ⟨.fixed tidy.1, .fixed tidy.2⟩

theorem append (first : Clause A a) (second : Phrased A b) : Clause A (a ++ b) :=
  ⟨first.phrased.append second, first.settled.append b⟩

theorem mark [Usual A] (first : Clause A a) (tidy : Phrased.isTidy cs = true) :
    Clause A (a ++ String.ofList cs) :=
  first.append (.fixed tidy)

theorem and [Usual A] (first : Clause A a) (second : Phrased A b)
    (tidy : Phrased.isTidy cs = true) :
    Clause A (a ++ b ++ String.ofList cs) :=
  (first.append second).mark tidy

theorem notDoc_opening (clause : Clause A a) : isDoc (Draft.opening a) = false := by
  unfold Draft.opening
  split
  · rfl
  · exact (clause.settled.append _).notDoc

end Clause

def Statements (A : Char → Prop) (legible : Prop) (texts : List String) : Prop :=
  ∀ t ∈ texts, Phrased A t ∧ (legible → isDoc t = false)

theorem Statements.nil : Statements A legible [] :=
  fun _ member => absurd member List.not_mem_nil

theorem Statements.cons {text : String} {texts : List String} (clause : Clause A text)
    (rest : Statements A legible texts) : Statements A legible (text :: texts) := by
  intro t member
  rcases List.mem_cons.mp member with rfl | later
  · exact ⟨clause.phrased, fun _ => clause.settled.notDoc⟩
  · exact rest t later

theorem Statements.fixed [Usual A] {cs : List Char} {texts : List String}
    (tidy : Clause.isTidy cs = true) (rest : Statements A legible texts) :
    Statements A legible (String.ofList cs :: texts) :=
  .cons (.fixed tidy) rest

theorem Statements.gap {texts : List String} (rest : Statements A legible texts) :
    Statements A legible ("" :: texts) := by
  intro t member
  rcases List.mem_cons.mp member with rfl | later
  · exact ⟨.nil, fun _ => rfl⟩
  · exact rest t later

theorem Statements.append {texts texts' : List String} (first : Statements A legible texts)
    (second : Statements A legible texts') : Statements A legible (texts ++ texts') :=
  fun t member => (List.mem_append.mp member).elim (first t) (second t)

theorem Statements.map {α : Type} {f : α → String} {as : List α} (each : ∀ a ∈ as, Clause A (f a)) :
    Statements A legible (as.map f) := by
  intro t member
  obtain ⟨a, inside, rfl⟩ := List.mem_map.mp member
  exact ⟨(each a inside).phrased, fun _ => (each a inside).settled.notDoc⟩

structure Opens (A : Char → Prop) (text : String) : Prop where
  brace : ∃ cs, Phrase A cs ∧ text.toList = cs ++ ['\x7b']
  settled : Settled text

namespace Opens

def isOpen (cs : List Char) : Bool :=
  Phrased.isTidy cs.dropLast && cs.getLast? = some '\x7b'

variable {cs : List Char}

theorem brace_of_isOpen [Usual A] (opened : isOpen cs = true) :
    ∃ ds, Phrase A ds ∧ cs = ds ++ ['\x7b'] := by
  rw [isOpen, Bool.and_eq_true, decide_eq_true_eq] at opened
  have front : Phrased A (String.ofList cs.dropLast) := .fixed opened.1
  rw [Phrased, String.toList_ofList] at front
  exact ⟨cs.dropLast, front, (List.dropLast_append_getLast? _ opened.2).symm⟩

theorem fixed [Usual A] (opened : isOpen cs = true) (begins : settles cs = true) :
    Opens A (String.ofList cs) := by
  refine ⟨?_, .fixed begins⟩
  rw [String.toList_ofList]
  exact brace_of_isOpen opened

theorem append [Usual A] {a : String} (first : Clause A a) (opened : isOpen cs = true) :
    Opens A (a ++ String.ofList cs) := by
  obtain ⟨ds, phrase, shape⟩ : ∃ ds, Phrase A ds ∧ cs = ds ++ ['\x7b'] := brace_of_isOpen opened
  refine ⟨⟨a.toList ++ ds, Phrase.append first.phrased phrase, ?_⟩, first.settled.append _⟩
  rw [String.toList_append, String.toList_ofList, shape, List.append_assoc]

end Opens

end Code

/-! ## Rules -/

def leads : List String :=
  ["_list", "_set", "_map", "_elem", "_key", "_val", "_iter", "_kiter", "_viter"]

def numbered : Nat → List String → List String
  | _, [] => []
  | n, lead :: rest => (lead ++ toString n) :: numbered (n + 1) rest

theorem numbered_append (n : Nat) (first second : List String) :
    numbered n (first ++ second) = numbered n first ++ numbered (n + first.length) second := by
  induction first generalizing n with
  | nil => rfl
  | cons lead rest ih =>
    rw [List.cons_append, numbered, numbered, ih, List.length_cons, List.cons_append, Nat.add_assoc,
      Nat.add_comm 1]

theorem lead_append_inj {lead lead' : String} (known : lead ∈ leads) (known' : lead' ∈ leads)
    {i j : Nat} (same : lead ++ toString i = lead' ++ toString j) : i = j := by
  have word : ∀ lead ∈ leads, lead.toList.all (fun c => !c.isDigit) = true := by decide
  exact (word_natural_inj (word lead known) (word lead' known') same).2

theorem mem_numbered {n : Nat} {taken : List String} {name : String}
    (member : name ∈ numbered n taken) :
    ∃ lead ∈ taken, ∃ i, n ≤ i ∧ i < n + taken.length ∧ name = lead ++ toString i := by
  induction taken generalizing n with
  | nil => cases member
  | cons lead rest ih =>
    rcases List.mem_cons.mp member with rfl | later
    · exact ⟨lead, List.mem_cons_self, n, Nat.le_refl n, by simp, rfl⟩
    · obtain ⟨lead', inside, i, low, high, shape⟩ := ih later
      refine ⟨lead', List.mem_cons_of_mem lead inside, i, by omega, ?_, shape⟩
      rw [List.length_cons]
      omega

theorem numbered_nodup {n : Nat} {taken : List String} (known : ∀ lead ∈ taken, lead ∈ leads) :
    (numbered n taken).Nodup := by
  induction taken generalizing n with
  | nil => exact List.nodup_nil
  | cons lead rest ih =>
    rw [List.forall_mem_cons] at known
    rw [numbered, List.nodup_cons]
    refine ⟨fun again => ?_, ih known.2⟩
    obtain ⟨lead', inside, i, low, -, shape⟩ := mem_numbered again
    have number := lead_append_inj known.1 (known.2 lead' inside) shape
    omega

def Stroke.isCode : Stroke → Bool
  | .line text => !isDoc text
  | _ => true

theorem laidOut_code (level : Nat) (ss : List Stroke) :
    (laidOut level ss).filter (!isDoc ·.text) = laidOut level (ss.filter Stroke.isCode) := by
  induction ss generalizing level with
  | nil => rfl
  | cons s ss ih =>
    cases s with
    | line text => cases doc : isDoc text <;> simp [laidOut, Stroke.isCode, doc, ih]
    | indent => exact ih (level + 1)
    | dedent => exact ih (level - 1)

namespace Draft

/-- The second draft is the first one without its doc comments. What stands in a line of code is
made of characters of a set, and if the identifiers that begin lines are no comments, no line of
code is one. -/
inductive Commented (A : Char → Prop) (legible : Prop) : {α : Type} → Draft α → Draft α → Prop
  | pure {α : Type} (a : α) : Commented A legible (Draft.pure a) (Draft.pure a)
  | fail {α : Type} (e : EmitError) : Commented A legible (Draft.fail e : Draft α) (Draft.fail e)
  | lines {texts : List String} : Phrase A (texts.flatMap String.toList) →
      (legible → ∀ t ∈ texts, isDoc t = false) →
      Commented A legible (Draft.lines texts) (Draft.lines texts)
  | comment {text : String} : Worded (orFeed A) text →
      Commented A legible (Draft.lines (commentLines "///" text)) (Draft.lines [])
  | tmp {lead : String} : lead ∈ leads → Commented A legible (Draft.tmp lead) (Draft.tmp lead)
  | bind {α β : Type} {d e : Draft α} {f g : α → Draft β} : Commented A legible d e →
      (∀ a, (∃ n, (d n).answer = .ok a) → Commented A legible (f a) (g a)) →
      Commented A legible (d >>= f) (e >>= g)
  | inset {d e : Draft Unit} : Commented A legible d e →
      Commented A legible (Draft.inset d) (Draft.inset e)
  | block {header tail : String} {d e : Draft Unit} : Phrased A header → Phrased A tail →
      (legible → isDoc (opening header) = false) → Commented A legible d e →
      Commented A legible (Draft.block header tail d) (Draft.block header tail e)

namespace Commented

variable {A : Char → Prop} {legible : Prop} {α : Type} {d e : Draft α}

section Parts

variable {β : Type}

theorem statements {texts : List String} (stated : Statements A legible texts) :
    Commented A legible (Draft.lines texts) (Draft.lines texts) :=
  .lines (.flatMap fun t member => (stated t member).1) fun legible t member =>
    (stated t member).2 legible

theorem nothing : Commented A legible (Draft.lines []) (Draft.lines []) :=
  statements .nil

theorem entry {text : String} (phrased : Phrased A text) (begins : legible → isDoc text = false) :
    Commented A legible (Draft.line text) (Draft.line text) := by
  have alone : Statements A legible [text] := by
    intro t member
    rw [List.mem_singleton.mp member]
    exact ⟨phrased, begins⟩
  exact statements alone

theorem line {text : String} (clause : Clause A text) :
    Commented A legible (Draft.line text) (Draft.line text) :=
  entry clause.phrased fun _ => clause.settled.notDoc

theorem fixed [Usual A] {cs : List Char} (tidy : Clause.isTidy cs = true) :
    Commented A legible (Draft.line (String.ofList cs)) (Draft.line (String.ofList cs)) :=
  line (.fixed tidy)

theorem scope {front : List String} {header body : String} (before : Statements A legible front)
    (opens : Opens A header) (clause : Clause A body) :
    Commented A legible (Draft.lines (front ++ [header, body, "\x7d"]))
      (Draft.lines (front ++ [header, body, "\x7d"])) := by
  obtain ⟨cs, phrase, shape⟩ := opens.brace
  refine .lines ?_ fun legible t member => ?_
  · have group := phrase.append (.braces clause.phrased .nil)
    have whole := (Phrase.flatMap fun t member => (before t member).1).append group
    simpa [shape] using whole
  · rcases List.mem_append.mp member with early | late
    · exact (before t early).2 legible
    · simp only [List.mem_cons, List.not_mem_nil, or_false] at late
      rcases late with rfl | rfl | rfl
      · exact opens.settled.notDoc
      · exact clause.settled.notDoc
      · rfl

theorem blank : Commented A legible Draft.blank Draft.blank :=
  entry .nil fun _ => rfl

theorem seq {d e : Draft Unit} {f g : Draft β} (first : Commented A legible d e)
    (second : Commented A legible f g) :
    Commented A legible (d >>= fun _ => f) (e >>= fun _ => g) :=
  .bind first fun _ _ => second

theorem given {x : Emitted α} {f g : α → Draft β}
    (rest : ∀ a, x = .ok a → Commented A legible (f a) (g a)) :
    Commented A legible (ofEmitted x >>= f) (ofEmitted x >>= g) := by
  have known : Commented A legible (ofEmitted x) (ofEmitted x) := by
    cases x with
    | error e => exact .fail e
    | ok a => exact .pure a
  refine .bind known fun a answer => rest a ?_
  obtain ⟨n, answer⟩ := answer
  rwa [answer_ofEmitted] at answer

theorem forM {each other : α → Draft Unit} {as : List α}
    (all : ∀ a ∈ as, Commented A legible (each a) (other a)) :
    Commented A legible (as.forM each) (as.forM other) := by
  induction as with
  | nil => exact .pure ()
  | cons a as ih =>
    rw [List.forall_mem_cons] at all
    exact seq all.1 (ih all.2)

theorem braced {header : String} {d e : Draft Unit} (clause : Clause A header)
    (inside : Commented A legible d e) :
    Commented A legible (Draft.block header "" d) (Draft.block header "" e) :=
  .block clause.phrased .nil (fun _ => clause.notDoc_opening) inside

theorem temporary [Usual A] {lead : String} {f g : String → Draft β} (known : lead ∈ leads)
    (rest : ∀ t, Clause A t → Commented A legible (f t) (g t)) :
    Commented A legible (Draft.tmp lead >>= f) (Draft.tmp lead >>= g) := by
  have word : ∀ lead ∈ leads, Clause.isTidy lead.toList = true := by decide
  refine .bind (.tmp known) fun t answer => ?_
  obtain ⟨n, answer⟩ := answer
  cases answer
  have clause : Clause A lead := by
    rw [← String.ofList_toList (s := lead)]
    exact .fixed (word lead known)
  exact rest _ (clause.append (Worded.natural n).phrased)

section Bodies

variable {d e : Draft Unit} [Sure d] [Sure e] {f g : Draft β}

theorem indented (inside : Commented A legible d e) (behind : Commented A legible f g) :
    Commented A legible (do indent; d; dedent; f) (do indent; e; dedent; g) := by
  rw [indent_bind, indent_bind]
  exact .seq (.inset inside) behind

theorem braces {header : String} (clause : Clause A header) (inside : Commented A legible d e)
    (behind : Commented A legible f g) :
    Commented A legible
      (do Draft.line (header ++ " \x7b"); indent; d; dedent; Draft.line "\x7d"; f)
      (do Draft.line (header ++ " \x7b"); indent; e; dedent; Draft.line "\x7d"; g) := by
  have headed : header ≠ "" := by
    rintro rfl
    cases clause.settled
  rw [braces_bind headed, braces_bind headed]
  exact .seq (.braced clause inside) behind

end Bodies

end Parts

theorem same (commented : Commented A legible d e) (n : Nat) :
    (d n).answer = (e n).answer ∧ (d n).counter = (e n).counter ∧ (d n).names = (e n).names := by
  induction commented generalizing n with
  | pure | fail | lines | comment | tmp => exact ⟨rfl, rfl, rfl⟩
  | inset _ ih => exact ih n
  | block _ _ _ _ ih => exact ih n
  | @bind α β d e f g _ _ ih ihf =>
    obtain ⟨answer, counter, names⟩ := ih n
    cases given : (d n).answer with
    | error x =>
      rw [bind_error given, bind_error (answer.symm.trans given)]
      exact ⟨rfl, counter, names⟩
    | ok a =>
      obtain ⟨answer', counter', names'⟩ := ihf a ⟨n, given⟩ (d n).counter
      rw [bind_ok given, bind_ok (answer.symm.trans given), ← counter]
      exact ⟨answer', counter', by rw [names, names']⟩

theorem strokes (commented : Commented A legible d e) (n : Nat) :
    (d n).strokes.filter Stroke.isCode = (e n).strokes.filter Stroke.isCode ∧
      (legible → ∀ s ∈ (e n).strokes, s.isCode = true) := by
  induction commented generalizing n with
  | pure | fail | tmp => exact ⟨rfl, fun _ s member => absurd member List.not_mem_nil⟩
  | lines _ code =>
    refine ⟨rfl, fun legible s member => ?_⟩
    obtain ⟨t, inside, rfl⟩ := List.mem_map.mp member
    simp [Stroke.isCode, code legible t inside]
  | @comment text _ =>
    refine ⟨?_, fun _ s member => absurd member List.not_mem_nil⟩
    change ((commentLines "///" text).map Stroke.line).filter Stroke.isCode = []
    rw [List.filter_eq_nil_iff]
    intro s member
    obtain ⟨t, inside, rfl⟩ := List.mem_map.mp member
    simp [Stroke.isCode, isDoc_commentLines inside]
  | @inset d e _ ih =>
    obtain ⟨same, code⟩ := ih n
    constructor
    · simp [Draft.inset, List.filter_cons, Stroke.isCode, same]
    · intro legible s member
      simp only [Draft.inset, List.mem_cons, List.mem_append, List.not_mem_nil, or_false] at member
      rcases member with rfl | inside | rfl
      · rfl
      · exact code legible s inside
      · rfl
  | @block header tail d e _ _ begins _ ih =>
    obtain ⟨same, code⟩ := ih n
    constructor
    · simp [Draft.block, List.filter_cons, same]
    · intro legible s member
      simp only [Draft.block, List.mem_cons, List.mem_append, List.not_mem_nil, or_false] at member
      rcases member with ((rfl | rfl) | inside) | rfl | rfl
      · simp [Stroke.isCode, begins legible]
      · rfl
      · exact code legible s inside
      · rfl
      · simp [Stroke.isCode, ((Settled.fixed rfl : Settled "\x7d").append tail).notDoc]
  | @bind α β d e f g first _ ih ihf =>
    obtain ⟨same, code⟩ := ih n
    obtain ⟨answer, counter, -⟩ := first.same n
    cases given : (d n).answer with
    | error x =>
      rw [bind_error given, bind_error (answer.symm.trans given)]
      exact ⟨same, code⟩
    | ok a =>
      obtain ⟨same', code'⟩ := ihf a ⟨n, given⟩ (d n).counter
      rw [bind_ok given, bind_ok (answer.symm.trans given), ← counter]
      refine ⟨by rw [List.filter_append, List.filter_append, same, same'],
        fun legible s member => ?_⟩
      exact (List.mem_append.mp member).elim (code legible s) (code' legible s)

theorem code (commented : Commented A legible d e) (n : Nat) :
    (d n).lines.filter (!isDoc ·.text) = (e n).lines.filter (!isDoc ·.text) ∧
      (legible → ∀ l ∈ (e n).lines, isDoc l.text = false) := by
  obtain ⟨same, code⟩ := commented.strokes n
  constructor
  · rw [Drafted.lines, Drafted.lines, laidOut_code, laidOut_code, same]
  · intro legible l member
    have all : (e n).lines.filter (!isDoc ·.text) = (e n).lines := by
      rw [Drafted.lines, laidOut_code, List.filter_eq_self.mpr (code legible)]
    have kept := List.filter_eq_self.mp all l member
    simpa using kept

theorem phrase [usual : Usual A] (commented : Commented A legible d e) (n : Nat) :
    Phrase A ((d n).texts.flatMap String.toList) := by
  induction commented generalizing n with
  | pure | fail | tmp => exact .nil
  | @lines texts phrase _ => simpa using phrase
  | @comment text worded =>
    rw [texts_lines, commentLines, List.flatMap_map]
    refine .flatMap fun l member => ?_
    have words : Phrased A l := .of_all fun c inside => by
      obtain ⟨within, other⟩ := mem_lines member inside
      exact (worded c within).resolve_right other
    have mark : Phrased A "///" := .fixed (by decide)
    split
    · exact mark
    · exact (mark.append (.fixed (by decide))).append words
  | inset _ ih =>
    rw [texts_inset]
    exact ih n
  | @block header tail d e headed tailed _ _ ih =>
    have front : ∃ cs, (opening header).toList = cs ++ ['\x7b'] ∧ Phrase A cs := by
      unfold opening
      split
      · exact ⟨[], rfl, .nil⟩
      · exact ⟨(header ++ " ").toList, by simp, headed.append (.fixed (by decide))⟩
    obtain ⟨cs, opened, phrase⟩ := front
    have group := phrase.append (.braces (ih n) tailed)
    simpa [texts_block, opened] using group
  | @bind α β d e f g _ _ ih ihf =>
    cases given : (d n).answer with
    | error x =>
      rw [texts_bind_error given]
      exact ih n
    | ok a =>
      rw [texts_bind given, List.flatMap_append]
      exact (ih n).append (ihf a ⟨n, given⟩ _)

theorem numbers (commented : Commented A legible d e) (n : Nat) :
    ∃ taken : List String, (∀ lead ∈ taken, lead ∈ leads) ∧ (d n).names = numbered n taken ∧
      (d n).counter = n + taken.length := by
  induction commented generalizing n with
  | pure | fail | lines | comment =>
    exact ⟨[], fun _ member => absurd member List.not_mem_nil, rfl, rfl⟩
  | @tmp lead known =>
    refine ⟨[lead], fun l member => ?_, rfl, rfl⟩
    rw [List.mem_singleton.mp member]
    exact known
  | inset _ ih => exact ih n
  | block _ _ _ _ ih => exact ih n
  | @bind α β d e f g _ _ ih ihf =>
    obtain ⟨taken, known, names, counter⟩ := ih n
    cases given : (d n).answer with
    | error x =>
      rw [bind_error given]
      exact ⟨taken, known, names, counter⟩
    | ok a =>
      obtain ⟨taken', known', names', counter'⟩ := ihf a ⟨n, given⟩ (d n).counter
      rw [bind_ok given]
      refine ⟨taken ++ taken', fun l member => ?_, ?_, ?_⟩
      · exact (List.mem_append.mp member).elim (known l) (known' l)
      · rw [names, names', counter, numbered_append]
      · rw [counter', counter, List.length_append, Nat.add_assoc]

end Commented

end Draft

end Idl.Emit
