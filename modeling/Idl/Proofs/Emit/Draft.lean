import Idl.Emit.Page
import Idl.Proofs.Outcome

/-!
# Answers and lines of drafts

The answer of a draft comes from the answers of its parts in order. Lines, levels and braces add
nothing to it, and neither do temporary names beyond the number that they take. The strokes are
those of the parts up to the first one that fails.

Strokes are balanced if whatever is indented is dedented again. Balanced strokes leave a page at the
level where they found it, and come to the same lines at every level, further to the right.
-/

set_option autoImplicit false

namespace Idl.Emit

variable {α β : Type}

def verdict (x : Emitted α) : Emitted Unit := do
  let _ ← x
  .ok ()

theorem verdict_eq_ok_iff {x : Emitted α} : verdict x = .ok () ↔ ∃ a, x = .ok a := by
  simp [verdict, bind_eq_ok_iff]

theorem ofSchema_eq_ok_iff {x : Except SchemaError α} {a : α} :
    ofSchema x = .ok a ↔ x = .ok a := by
  cases x <;> simp [ofSchema]

namespace Draft

@[simp] theorem answer_bind (d : Draft α) (f : α → Draft β) (n : Nat) :
    ((d >>= f) n).answer = ((d n).answer >>= fun a => (f a (d n).counter).answer) := by
  change (Draft.bind d f n).answer = _
  unfold Draft.bind
  dsimp only
  cases (d n).answer with
  | error e => rfl
  | ok a => rfl

@[simp] theorem answer_fail (e : EmitError) (n : Nat) : (fail e n : Drafted α).answer = .error e :=
  rfl

@[simp] theorem answer_ofEmitted (x : Emitted α) (n : Nat) : (ofEmitted x n).answer = x := by
  cases x with
  | error e => rfl
  | ok a => rfl

@[simp] theorem answer_tmp (lead : String) (n : Nat) :
    (tmp lead n).answer = .ok (lead ++ toString n) := rfl

@[simp] theorem answer_block (header tail : String) (body : Draft Unit) (n : Nat) :
    (block header tail body n).answer = (body n).answer := rfl

@[simp] theorem answer_ite (c : Prop) [Decidable c] (d d' : Draft α) (n : Nat) :
    ((if c then d else d') n).answer = if c then (d n).answer else (d' n).answer := by
  by_cases h : c <;> simp only [h, if_true, if_false]

theorem answer_forM {each : α → Draft Unit} {answers : α → Emitted Unit} {as : List α}
    (answer : ∀ a ∈ as, ∀ n, (each a n).answer = answers a) (n : Nat) :
    (forM as each n).answer = forM as answers := by
  induction as generalizing n with
  | nil => rfl
  | cons a rest ih =>
    have others := ih fun b member => answer b (List.mem_cons_of_mem a member)
    rw [List.forM_cons, List.forM_cons, answer_bind, answer a List.mem_cons_self]
    simp only [others]

theorem answer_forM_ok {each : α → Draft Unit} {as : List α}
    (answer : ∀ a ∈ as, ∀ n, (each a n).answer = .ok ()) (n : Nat) :
    (forM as each n).answer = .ok () := by
  rw [answer_forM answer]
  exact (forM_eq_ok_iff as).mpr fun _ _ => rfl

theorem bind_ok {d : Draft α} {f : α → Draft β} {n : Nat} {a : α} (answer : (d n).answer = .ok a) :
    (d >>= f) n = ⟨(d n).strokes ++ (f a (d n).counter).strokes, (f a (d n).counter).counter,
      (f a (d n).counter).answer, (d n).names ++ (f a (d n).counter).names⟩ := by
  change Draft.bind d f n = _
  unfold Draft.bind
  dsimp only
  rw [answer]

theorem bind_error {d : Draft α} {f : α → Draft β} {n : Nat} {e : EmitError}
    (answer : (d n).answer = .error e) :
    (d >>= f) n = ⟨(d n).strokes, (d n).counter, .error e, (d n).names⟩ := by
  change Draft.bind d f n = _
  unfold Draft.bind
  dsimp only
  rw [answer]

end Draft

def Stroke.move : Nat → Stroke → Nat
  | level, .line _ => level
  | level, .indent => level + 1
  | level, .dedent => level - 1

/-- The lines that strokes come to from a level on. -/
def laidOut : Nat → List Stroke → List Line
  | _, [] => []
  | level, .line text :: rest => ⟨level, text⟩ :: laidOut level rest
  | level, .indent :: rest => laidOut (level + 1) rest
  | level, .dedent :: rest => laidOut (level - 1) rest

theorem laidOut_append (level : Nat) (ss ts : List Stroke) :
    laidOut level (ss ++ ts) = laidOut level ss ++ laidOut (ss.foldl Stroke.move level) ts := by
  induction ss generalizing level with
  | nil => rfl
  | cons s ss ih =>
    cases s with
    | line text => exact congrArg (⟨level, text⟩ :: ·) (ih level)
    | indent => exact ih (level + 1)
    | dedent => exact ih (level - 1)

@[simp] theorem laidOut_lines (level : Nat) (texts : List String) :
    laidOut level (texts.map .line) = texts.map fun t => ⟨level, t⟩ := by
  induction texts with
  | nil => rfl
  | cons t rest ih => rw [List.map_cons, laidOut, ih, List.map_cons]

def Stroke.text? : Stroke → Option String
  | .line text => some text
  | _ => none

theorem laidOut_texts (level : Nat) (ss : List Stroke) :
    (laidOut level ss).map Line.text = ss.filterMap Stroke.text? := by
  induction ss generalizing level with
  | nil => rfl
  | cons s ss ih =>
    cases s with
    | line text => exact congrArg (text :: ·) (ih level)
    | indent => exact ih (level + 1)
    | dedent => exact ih (level - 1)

/-- Whatever is indented is dedented again. -/
inductive Balanced : List Stroke → Prop
  | nil : Balanced []
  | line (text : String) : Balanced [.line text]
  | append {ss ts : List Stroke} : Balanced ss → Balanced ts → Balanced (ss ++ ts)
  | inset {ss : List Stroke} : Balanced ss → Balanced (.indent :: (ss ++ [.dedent]))

def Line.deeper (l : Line) : Line :=
  { l with depth := l.depth + 1 }

namespace Balanced

variable {ss : List Stroke}

theorem lines (texts : List String) : Balanced (texts.map .line) := by
  induction texts with
  | nil => exact .nil
  | cons t rest ih => exact .append (.line t) ih

theorem level (balanced : Balanced ss) (level : Nat) : ss.foldl Stroke.move level = level := by
  induction balanced generalizing level with
  | nil => rfl
  | line text => rfl
  | append _ _ ih ih' => rw [List.foldl_append, ih, ih']
  | @inset ss _ ih =>
    have inside : ss.foldl Stroke.move (level + 1) = level + 1 := ih (level + 1)
    rw [List.foldl_cons, Stroke.move, List.foldl_append, inside]
    rfl

theorem laidOut_append (balanced : Balanced ss) (level : Nat) (ts : List Stroke) :
    laidOut level (ss ++ ts) = laidOut level ss ++ laidOut level ts := by
  rw [Emit.laidOut_append, balanced.level]

theorem laidOut_inset (balanced : Balanced ss) (level : Nat) :
    laidOut level (.indent :: (ss ++ [.dedent])) = laidOut (level + 1) ss := by
  rw [laidOut, balanced.laidOut_append]
  exact List.append_nil _

theorem laidOut_succ (balanced : Balanced ss) (level : Nat) :
    laidOut (level + 1) ss = (laidOut level ss).map Line.deeper := by
  induction balanced generalizing level with
  | nil => rfl
  | line text => rfl
  | append first _ ih ih' =>
    rw [first.laidOut_append, first.laidOut_append, ih, ih', List.map_append]
  | inset inside ih => rw [inside.laidOut_inset, inside.laidOut_inset, ih]

theorem laidOut_eq (balanced : Balanced ss) (level : Nat) :
    laidOut level ss = (laidOut 0 ss).map fun l => { l with depth := level + l.depth } := by
  induction level with
  | zero => simp
  | succ level ih =>
    rw [balanced.laidOut_succ, ih, List.map_map]
    simp only [Function.comp_def, Line.deeper, Nat.add_right_comm level 1]

end Balanced

def Drafted.lines (x : Drafted α) : List Line :=
  laidOut 0 x.strokes

def Drafted.texts (x : Drafted α) : List String :=
  x.strokes.filterMap Stroke.text?

theorem Drafted.map_text_lines (x : Drafted α) : x.lines.map Line.text = x.texts :=
  laidOut_texts 0 x.strokes

namespace Page

def put (p : Page) (ls : List Line) : Page :=
  { p with text := p.text ++ String.join (ls.map (lineText p.width p.level)) }

theorem foldl_stroke (p : Page) (ss : List Stroke) :
    ss.foldl stroke p =
      { p with
        text := p.text ++ String.join ((laidOut p.level ss).map (lineText p.width 0))
        level := ss.foldl Stroke.move p.level } := by
  induction ss generalizing p with
  | nil => simp [laidOut]
  | cons s ss ih =>
    rw [List.foldl_cons, ih]
    cases s with
    | line text =>
      simp [stroke, Page.line, laidOut, Stroke.move, lineText, String.append_assoc]
    | indent => rfl
    | dedent => rfl

/-- Balanced strokes put their lines on the page and do nothing else to it. -/
theorem foldl_stroke_of_balanced (p : Page) {ss : List Stroke} (balanced : Balanced ss) :
    ss.foldl stroke p = p.put (laidOut 0 ss) := by
  have texts : (laidOut p.level ss).map (lineText p.width 0) =
      (laidOut 0 ss).map (lineText p.width p.level) := by
    rw [balanced.laidOut_eq p.level, List.map_map]
    refine List.map_congr_left fun l _ => ?_
    simp only [Function.comp_apply, lineText, Nat.zero_add]
  rw [foldl_stroke, texts, balanced.level]
  rfl

theorem draft_eq (p : Page) {d : Draft α} (balanced : Balanced (d p.counter).strokes) :
    p.draft d = ((d p.counter).answer,
      { p.put (d p.counter).lines with counter := (d p.counter).counter }) := by
  rw [draft, foldl_stroke_of_balanced p balanced]
  rfl

end Page

namespace Draft

/-- The draft never fails. -/
class Sure (d : Draft Unit) : Prop where
  answer : ∀ n, (d n).answer = .ok ()

/-- However the draft ends, its strokes are balanced. -/
class Steady (d : Draft α) : Prop where
  balanced : ∀ n, Balanced (d n).strokes

attribute [simp] Sure.answer

section Sure

variable {d e : Draft Unit} [sure : Sure d] [other : Sure e]

instance : Sure (Draft.pure ()) := ⟨fun _ => rfl⟩

instance (text : String) : Sure (line text) := ⟨fun _ => rfl⟩

instance (texts : List String) : Sure (lines texts) := ⟨fun _ => rfl⟩

instance : Sure blank := ⟨fun _ => rfl⟩

instance : Sure indent := ⟨fun _ => rfl⟩

instance : Sure dedent := ⟨fun _ => rfl⟩

instance : Sure (do d; e) := by
  constructor
  intro n
  rw [answer_bind, sure.answer]
  exact other.answer _

instance {c : Prop} [Decidable c] : Sure (if c then d else e) := by
  split
  · exact sure
  · exact other

instance {each : α → Draft Unit} [∀ a, Sure (each a)] (as : List α) : Sure (as.forM each) := by
  induction as with
  | nil => exact inferInstanceAs (Sure (Draft.pure ()))
  | cons a rest ih => exact inferInstanceAs (Sure (do each a; rest.forM each))

instance (header tail : String) : Sure (block header tail d) := ⟨sure.answer⟩

end Sure

theorem lines_bind {d : Draft α} [steady : Steady d] {f : α → Draft β} {n : Nat} {a : α}
    (answer : (d n).answer = .ok a) :
    ((d >>= f) n).lines = (d n).lines ++ (f a (d n).counter).lines := by
  rw [bind_ok answer]
  exact (steady.balanced n).laidOut_append 0 _

theorem texts_bind {d : Draft α} {f : α → Draft β} {n : Nat} {a : α}
    (answer : (d n).answer = .ok a) :
    ((d >>= f) n).texts = (d n).texts ++ (f a (d n).counter).texts := by
  rw [bind_ok answer]
  exact List.filterMap_append

theorem texts_bind_error {d : Draft α} {f : α → Draft β} {n : Nat} {e : EmitError}
    (answer : (d n).answer = .error e) : ((d >>= f) n).texts = (d n).texts := by
  rw [bind_error answer]
  rfl

/-- A body one level deeper, which comes back from there even if it failed. -/
def inset (body : Draft Unit) : Draft Unit := fun n =>
  { body n with strokes := .indent :: ((body n).strokes ++ [.dedent]) }

theorem indent_seq (rest : Draft β) (n : Nat) : (do indent; rest : Draft β) n =
    { rest n with strokes := [.indent] ++ (rest n).strokes } := rfl

theorem dedent_seq (rest : Draft β) (n : Nat) : (do dedent; rest : Draft β) n =
    { rest n with strokes := [.dedent] ++ (rest n).strokes } := rfl

theorem line_seq (text : String) (rest : Draft β) (n : Nat) : (do line text; rest : Draft β) n =
    { rest n with strokes := [.line text] ++ (rest n).strokes } := rfl

section Bodies

variable {body : Draft Unit}

/-- A body that never fails always reaches the step back behind it. -/
theorem indent_bind [sure : Sure body] (rest : Draft β) :
    (do indent; body; dedent; rest) = (do inset body; rest) := by
  funext n
  have body_ok := bind_ok (f := fun _ => (do dedent; rest : Draft β)) (sure.answer n)
  have inset_ok := bind_ok (d := inset body) (f := fun _ => rest) (sure.answer n)
  rw [indent_seq, body_ok, dedent_seq, inset_ok]
  simp [inset]

theorem braces_bind [sure : Sure body] {header : String} (headed : header ≠ "") (rest : Draft β) :
    (do line (header ++ " \x7b"); indent; body; dedent; line "\x7d"; rest) =
      (do block header "" body; rest) := by
  rw [indent_bind]
  funext n
  have inset_ok := bind_ok (d := inset body) (f := fun _ => (do line "\x7d"; rest : Draft β))
    (sure.answer n)
  have block_ok := bind_ok (d := block header "" body) (f := fun _ => rest) (sure.answer n)
  rw [line_seq, inset_ok, line_seq, block_ok]
  simp [inset, block, opening, headed]

theorem lines_inset [steady : Steady body] (n : Nat) :
    (inset body n).lines = (body n).lines.map Line.deeper := by
  rw [Drafted.lines, inset, (steady.balanced n).laidOut_inset, (steady.balanced n).laidOut_succ]
  rfl

theorem lines_block [steady : Steady body] (header tail : String) (n : Nat) :
    (block header tail body n).lines =
      [⟨0, opening header⟩] ++ (body n).lines.map Line.deeper ++ [⟨0, "\x7d" ++ tail⟩] := by
  have inside : laidOut 1 ((body n).strokes ++ [.dedent, .line ("\x7d" ++ tail)]) =
      (body n).lines.map Line.deeper ++ [⟨0, "\x7d" ++ tail⟩] := by
    rw [(steady.balanced n).laidOut_append, (steady.balanced n).laidOut_succ]
    rfl
  simp only [Drafted.lines, block, List.cons_append, List.nil_append, laidOut, inside]

theorem texts_inset (n : Nat) : (inset body n).texts = (body n).texts := by
  rw [Drafted.texts, inset, List.filterMap_cons_none rfl, List.filterMap_append]
  exact List.append_nil _

theorem texts_block (header tail : String) (n : Nat) :
    (block header tail body n).texts = opening header :: (body n).texts ++ ["\x7d" ++ tail] := by
  simp only [Drafted.texts, block, List.filterMap_append]
  rfl

end Bodies

@[simp] theorem lines_lines (texts : List String) (n : Nat) :
    (lines texts n).lines = texts.map fun t => ⟨0, t⟩ :=
  laidOut_lines 0 texts

@[simp] theorem texts_lines (texts : List String) (n : Nat) : (lines texts n).texts = texts := by
  simp [Drafted.texts, lines, List.filterMap_map, Function.comp_def, Stroke.text?]

section Steady

variable {d : Draft α} [steady : Steady d] {body : Draft Unit} [inside : Steady body]

instance (a : α) : Steady (Draft.pure a) := ⟨fun _ => .nil⟩

instance (e : EmitError) : Steady (fail e : Draft α) := ⟨fun _ => .nil⟩

instance (x : Emitted α) : Steady (ofEmitted x) := by
  cases x with
  | error e => exact inferInstanceAs (Steady (fail e))
  | ok a => exact inferInstanceAs (Steady (Draft.pure a))

instance (text : String) : Steady (line text) := ⟨fun _ => .line text⟩

instance (texts : List String) : Steady (lines texts) := ⟨fun _ => .lines texts⟩

instance : Steady blank := ⟨fun _ => .line ""⟩

instance (lead : String) : Steady (tmp lead) := ⟨fun _ => .nil⟩

instance instSteadyBind {f : α → Draft β} [others : ∀ a, Steady (f a)] : Steady (d >>= f) := by
  constructor
  intro n
  cases answer : (d n).answer with
  | error e =>
    rw [bind_error answer]
    exact steady.balanced n
  | ok a =>
    rw [bind_ok answer]
    exact (steady.balanced n).append ((others a).balanced _)

instance {e : Draft β} [Steady e] : Steady (d >>= fun _ => e) :=
  instSteadyBind

instance {c : Prop} [Decidable c] {e : Draft α} [other : Steady e] :
    Steady (if c then d else e) := by
  split
  · exact steady
  · exact other

instance {each : α → Draft Unit} [∀ a, Steady (each a)] (as : List α) : Steady (as.forM each) := by
  induction as with
  | nil => exact inferInstanceAs (Steady (Draft.pure ()))
  | cons a rest ih => exact inferInstanceAs (Steady (do each a; rest.forM each))

instance (header tail : String) : Steady (block header tail body) := by
  constructor
  intro n
  have whole := (Balanced.line (opening header)).append
    ((inside.balanced n).inset.append (.line ("\x7d" ++ tail)))
  simpa [Draft.block] using whole

instance : Steady (inset body) :=
  ⟨fun n => (inside.balanced n).inset⟩

instance [Sure body] {rest : Draft β} [Steady rest] : Steady (do indent; body; dedent; rest) := by
  rw [indent_bind]
  infer_instance

end Steady

end Draft

end Idl.Emit
