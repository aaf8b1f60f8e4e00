import Idl.Proofs.Emit.Draft
import Mathlib.Data.List.Basic

/-!
# Outlines of program text

Program text is read back line by line, by a reader who knows nothing of the drafts that it came
from. A line is told by how it begins and how it ends, so that the names in its middle are never in
the way. What remains is what the text does with a protocol: its calls, and the loops and scopes
that they stand in.
-/

set_option autoImplicit false

namespace Idl.Emit

inductive Way where
  | reads
  | writes
  deriving DecidableEq

inductive Op where
  /-- A call that reads or writes what the name says. -/
  | call (way : Way) (name : String)
  /-- The header of a field that is written. -/
  | header (id kind : String)
  | loop (body : List Op)
  | scope (head : String) (body : List Op)

/-! ## Lines -/

def isComment (text : String) : Bool :=
  "//".toList.isPrefixOf text.toList

def opened? (text : String) : Option String :=
  match text.toList.reverse with
  | '\x7b' :: ' ' :: head => some (String.ofList head.reverse)
  | ['\x7b'] => some ""
  | _ => none

def isWordChar (c : Char) : Bool :=
  c.isAlphanum || c = '_'

/-- What stands before a call without arguments at the end of a statement, where the call may be the
argument of another one. The text is given from its end. -/
def beforeCall? : List Char → Option (List Char)
  | ';' :: '?' :: ')' :: '(' :: back => some back
  | ';' :: ')' :: '?' :: ')' :: '(' :: back => some back
  | _ => none

def readCall? (text : List Char) : Option String := do
  let back ← beforeCall? text.reverse
  let _ ← (back.dropWhile isWordChar).dropPrefix? "input.".toList.reverse
  let name ← (back.takeWhile isWordChar).reverse.dropPrefix? "read_".toList
  some (String.ofList name)

def readOps (text : List Char) : List Op :=
  match readCall? text with
  | some name => [.call .reads name]
  | none => if "::read_new(input)?;".toList.isSuffixOf text then [.call .reads "struct"] else []

/-- The id and the kind are the last two arguments of a header. -/
def header? (text : List Char) : Option Op := do
  let back ← text.reverse.dropPrefix? "))?;".toList.reverse
  let rest ← (back.dropWhile (· ≠ ' ')).dropPrefix? ", ".toList.reverse
  some (.header (String.ofList (back.takeWhile (· ≠ ' ')).reverse)
    (String.ofList (rest.takeWhile (· ≠ ' ')).reverse))

def writeOps (call : List Char) : List Op :=
  if call.takeWhile isWordChar = "field_begin".toList then (header? call).toList
  else [.call .writes (String.ofList (call.takeWhile isWordChar))]

/-- Only what ends in a semicolon is a statement. The expression that a function ends with is
not. -/
def statementOps (text : List Char) : List Op :=
  if text.getLast? ≠ some ';' then []
  else match text.dropPrefix? "output.write_".toList with
    | some call => writeOps call
    | none =>
      if "let ".toList.isPrefixOf text || "input.".toList.isPrefixOf text then readOps text
      else if ".write(output)?;".toList.isSuffixOf text then [.call .writes "struct"]
      else []

inductive LineKind where
  | does (ops : List Op)
  | opens (head : String)
  | closes

def lineKind (text : String) : LineKind :=
  if isComment text then .does []
  else if text = "\x7d" then .closes
  else match opened? text with
    | some head => .opens head
    | none => .does (statementOps text.toList)

theorem isPrefixOf_of_head? {c : Char} {front text : List Char} (other : text.head? ≠ some c) :
    (c :: front).isPrefixOf text = false := by
  cases text with
  | nil => rfl
  | cons d rest =>
    have differs : c ≠ d := fun same => other (congrArg some same.symm)
    rw [List.isPrefixOf, beq_eq_false_iff_ne.mpr differs, Bool.false_and]

theorem dropPrefix?_of_head? {c : Char} {front text : List Char} (other : text.head? ≠ some c) :
    text.dropPrefix? (c :: front) = none := by
  cases text with
  | nil => rfl
  | cons d rest =>
    have differs : d ≠ c := fun same => other (congrArg some same)
    rw [List.dropPrefix?, beq_eq_false_iff_ne.mpr differs]
    rfl

theorem dropPrefix?_append (front rest : List Char) :
    (front ++ rest).dropPrefix? front = some rest :=
  List.dropPrefix?_eq_some_iff.mpr ⟨front, rfl, beq_self_eq_true front⟩

theorem last_append {front back : String} {c : Char} (last : back.toList.getLast? = some c) :
    (front ++ back).toList.getLast? = some c := by
  rw [String.toList_append, List.getLast?_append, last]
  rfl

theorem isPrefixOf_append {front : List Char} {text : String} (rest : String)
    (starts : front.isPrefixOf text.toList = true) :
    front.isPrefixOf (text ++ rest).toList = true := by
  rw [List.isPrefixOf_iff_prefix] at starts ⊢
  rw [String.toList_append]
  exact starts.trans (List.prefix_append _ _)

theorem head?_append {c : Char} {text : String} (rest : String)
    (first : text.toList.head? = some c) : (text ++ rest).toList.head? = some c := by
  rw [String.toList_append, List.head?_append, first]
  rfl

theorem isComment_eq_false {text : String} (code : text.toList.head? ≠ some '/') :
    isComment text = false :=
  isPrefixOf_of_head? code

theorem opened?_opening (header : String) : opened? (Draft.opening header) = some header := by
  unfold Draft.opening
  split
  case isTrue none =>
    rw [none]
    rfl
  case isFalse => simp [opened?]

theorem opened?_eq_none {text : String} {c : Char} (last : text.toList.getLast? = some c)
    (closed : c ≠ '\x7b') : opened? text = none := by
  have shape : text.toList.reverse = c :: text.toList.reverse.tail := by
    rw [List.getLast?_eq_head?_reverse] at last
    exact List.eq_cons_of_mem_head? last
  unfold opened?
  rw [shape]
  split
  case h_1 same =>
    exact absurd (List.cons.inj same).1 closed
  case h_2 same =>
    exact absurd (List.cons.inj same).1 closed
  case h_3 => rfl

theorem isComment_opening {header : String} (code : header.toList.head? ≠ some '/') :
    isComment (Draft.opening header) = false := by
  apply isComment_eq_false
  unfold Draft.opening
  split
  · decide
  · cases shape : header.toList with
    | nil => simp [shape]
    | cons c rest => simpa [shape] using code

theorem lineKind_comment {text : String} (comment : isComment text = true) :
    lineKind text = .does [] :=
  if_pos comment

theorem lineKind_opening {header : String} (code : isComment (Draft.opening header) = false) :
    lineKind (Draft.opening header) = .opens header := by
  have other : Draft.opening header ≠ "\x7d" := by
    intro same
    have none : opened? "\x7d" = none := rfl
    rw [← same, opened?_opening] at none
    cases none
  simp [lineKind, code, other, opened?_opening]

theorem lineKind_statement {text : String} (code : isComment text = false)
    (last : text.toList.getLast? = some ';') :
    lineKind text = .does (statementOps text.toList) := by
  have other : text ≠ "\x7d" := by
    rintro rfl
    cases last
  simp [lineKind, code, other, opened?_eq_none last (by decide)]

theorem lineKind_plain {text : String} {c : Char} (last : text.toList.getLast? = some c)
    (plain : c ∉ [';', '\x7b']) (other : text ≠ "\x7d") : lineKind text = .does [] := by
  simp only [List.mem_cons, List.not_mem_nil, or_false, not_or] at plain
  have idle : statementOps text.toList = [] := if_pos (by simpa [last] using plain.1)
  simp [lineKind, other, opened?_eq_none last plain.2, idle]

theorem lineKind_output {text : String} {call : List Char}
    (shape : text.toList = "output.write_".toList ++ call)
    (last : text.toList.getLast? = some ';') : lineKind text = .does (writeOps call) := by
  have code : isComment text = false := isComment_eq_false (by simp [shape])
  rw [lineKind_statement code last, statementOps, if_neg (not_not.mpr last), shape,
    dropPrefix?_append]

theorem takeWhile_word {name : List Char} (word : ∀ c ∈ name, isWordChar c = true)
    (args : List Char) : (name ++ '(' :: args).takeWhile isWordChar = name := by
  rw [List.takeWhile_append_of_pos word, List.takeWhile_cons_of_neg (by decide), List.append_nil]

theorem lineKind_write {front rest name : String}
    (starts : ("output.write_" ++ name ++ "(").toList.isPrefixOf front.toList = true)
    (word : name.toList.all isWordChar = true) (other : name ≠ "field_begin")
    (last : rest.toList.getLast? = some ';') :
    lineKind (front ++ rest) = .does [.call .writes name] := by
  obtain ⟨args, shape⟩ := List.isPrefixOf_iff_prefix.mp starts
  have shape' : (front ++ rest).toList =
      "output.write_".toList ++ (name.toList ++ '(' :: (args ++ rest.toList)) := by
    rw [String.toList_append, ← shape]
    simp
  have different : name.toList ≠ "field_begin".toList := fun same =>
    other (String.toList_injective same)
  rw [lineKind_output shape' (last_append last), writeOps,
    takeWhile_word (List.all_eq_true.mp word), if_neg different, String.ofList_toList]

theorem ne_blank_of_mem {word : List Char} (plain : ' ' ∉ word) :
    ∀ c ∈ word, decide (c ≠ ' ') = true := by
  intro c member
  exact decide_eq_true (ne_of_mem_of_not_mem member plain)

theorem takeWhile_ne_blank {word : List Char} (plain : ' ' ∉ word) (rest : List Char) :
    (word ++ ' ' :: rest).takeWhile (· ≠ ' ') = word := by
  rw [List.takeWhile_append_of_pos (ne_blank_of_mem plain),
    List.takeWhile_cons_of_neg (by decide), List.append_nil]

theorem dropWhile_ne_blank {word : List Char} (plain : ' ' ∉ word) (rest : List Char) :
    (word ++ ' ' :: rest).dropWhile (· ≠ ' ') = ' ' :: rest := by
  rw [List.dropWhile_append_of_pos (ne_blank_of_mem plain),
    List.dropWhile_cons_of_neg (by decide)]

theorem header?_eq {id kind : List Char} (plainId : ' ' ∉ id) (plainKind : ' ' ∉ kind)
    (front : List Char) :
    header? (front ++ ", ".toList ++ kind ++ ", ".toList ++ id ++ "))?;".toList) =
      some (.header (String.ofList id) (String.ofList kind)) := by
  have shape : (front ++ ", ".toList ++ kind ++ ", ".toList ++ id ++ "))?;".toList).reverse =
      "))?;".toList.reverse ++
        (id.reverse ++ ' ' :: ([','] ++ (kind.reverse ++ ' ' :: ',' :: front.reverse))) := by
    simp
  have second : (' ' :: ([','] ++ (kind.reverse ++ ' ' :: ',' :: front.reverse))).dropPrefix?
      ", ".toList.reverse = some (kind.reverse ++ ' ' :: ',' :: front.reverse) :=
    dropPrefix?_append ", ".toList.reverse _
  have plainId' : ' ' ∉ id.reverse := by simpa using plainId
  have plainKind' : ' ' ∉ kind.reverse := by simpa using plainKind
  rw [header?, shape, dropPrefix?_append]
  simp only [Option.bind_eq_bind, Option.bind_some, dropWhile_ne_blank plainId', second,
    takeWhile_ne_blank plainId', takeWhile_ne_blank plainKind', List.reverse_reverse]

theorem lineKind_header (front : String) {id kind : String} (plainId : ' ' ∉ id.toList)
    (plainKind : ' ' ∉ kind.toList) :
    lineKind ("output.write_field_begin(&rt::FieldHeader::new(" ++ front ++ ", " ++ kind ++ ", " ++
      id ++ "))?;") = .does [.header id kind] := by
  have shape : ("output.write_field_begin(&rt::FieldHeader::new(" ++ front ++ ", " ++
      kind ++ ", " ++ id ++ "))?;").toList = "output.write_".toList ++
        ("field_begin(&rt::FieldHeader::new(".toList ++ front.toList ++ ", ".toList ++
          kind.toList ++ ", ".toList ++ id.toList ++ "))?;".toList) := by
    simp
  have named : ("field_begin(&rt::FieldHeader::new(".toList ++ front.toList ++ ", ".toList ++
      kind.toList ++ ", ".toList ++ id.toList ++ "))?;".toList).takeWhile isWordChar =
        "field_begin".toList := by
    have word : "field_begin".toList.all isWordChar = true := rfl
    simp only [List.append_assoc]
    exact takeWhile_word (List.all_eq_true.mp word) _
  rw [lineKind_output shape (last_append rfl), writeOps, if_pos named, header?_eq plainId plainKind,
    String.ofList_toList, String.ofList_toList]
  rfl

theorem beforeCall?_append {text back : List Char} (ends : beforeCall? text = some back)
    (front : List Char) : beforeCall? (text ++ front) = some (back ++ front) := by
  unfold beforeCall? at ends
  split at ends <;> cases ends <;> rfl

theorem dropPrefix?_append_right {text front rest : List Char}
    (starts : text.dropPrefix? front = some rest) (more : List Char) :
    (text ++ more).dropPrefix? front = some (rest ++ more) := by
  obtain ⟨front', rfl, same⟩ := List.dropPrefix?_eq_some_iff.mp starts
  exact List.dropPrefix?_eq_some_iff.mpr ⟨front', List.append_assoc .., same⟩

theorem readCall?_append (front : List Char) {back : List Char} {name : String}
    (ends : readCall? back = some name) : readCall? (front ++ back) = some name := by
  simp only [readCall?, Option.bind_eq_bind, Option.bind_eq_some_iff] at ends ⊢
  obtain ⟨text, before, owner, input, word, named, answer⟩ := ends
  have stopped : text.dropWhile isWordChar ≠ [] := by
    intro none
    rw [none] at input
    cases input
  have kept : (text ++ front.reverse).takeWhile isWordChar = text.takeWhile isWordChar := by
    rw [List.takeWhile_append, if_neg]
    intro whole
    have parts : (text.takeWhile isWordChar ++ text.dropWhile isWordChar).length = text.length := by
      rw [List.takeWhile_append_dropWhile]
    rw [List.length_append, whole] at parts
    exact stopped (List.length_eq_zero_iff.mp (by omega))
  have dropped : (text ++ front.reverse).dropWhile isWordChar =
      text.dropWhile isWordChar ++ front.reverse := by
    rw [List.dropWhile_append, if_neg (by simpa using stopped)]
  refine ⟨text ++ front.reverse, ?_, owner ++ front.reverse, ?_, word, ?_, answer⟩
  · rw [List.reverse_append]
    exact beforeCall?_append before _
  · rw [dropped]
    exact dropPrefix?_append_right input _
  · rw [kept]
    exact named

theorem last_of_readCall? {text : List Char} {name : String} (ends : readCall? text = some name) :
    text.getLast? = some ';' := by
  simp only [readCall?, Option.bind_eq_bind, Option.bind_eq_some_iff] at ends
  obtain ⟨back, before, -⟩ := ends
  rw [List.getLast?_eq_head?_reverse]
  unfold beforeCall? at before
  split at before <;> simp_all

theorem not_output {text : List Char} (other : text.head? ≠ some 'o') :
    text.dropPrefix? "output.write_".toList = none :=
  dropPrefix?_of_head? other

theorem lineKind_let {text : String} (starts : "let ".toList.isPrefixOf text.toList = true)
    (last : text.toList.getLast? = some ';') : lineKind text = .does (readOps text.toList) := by
  obtain ⟨rest, shape⟩ := List.isPrefixOf_iff_prefix.mp starts
  have first : text.toList.head? = some 'l' := by rw [← shape]; rfl
  rw [lineKind_statement (isComment_eq_false (by simp [first])) last, statementOps,
    if_neg (not_not.mpr last), not_output (by simp [first])]
  simp only [starts, Bool.true_or, if_true]

theorem lineKind_read {front back name : String}
    (starts : "let ".toList.isPrefixOf (front ++ back).toList = true)
    (ends : readCall? back.toList = some name) :
    lineKind (front ++ back) = .does [.call .reads name] := by
  rw [lineKind_let starts (last_append (last_of_readCall? ends)), readOps, String.toList_append,
    readCall?_append _ ends]

theorem lineKind_readNew {front : String}
    (starts : "let ".toList.isPrefixOf (front ++ "::read_new(input)?;").toList = true) :
    lineKind (front ++ "::read_new(input)?;") = .does [.call .reads "struct"] := by
  have none : readCall? (front ++ "::read_new(input)?;").toList = none := by
    rw [readCall?, String.toList_append, List.reverse_append]
    rfl
  have ends : "::read_new(input)?;".toList.isSuffixOf (front ++ "::read_new(input)?;").toList :=
    List.isSuffixOf_iff_suffix.mpr ⟨front.toList, String.toList_append.symm⟩
  rw [lineKind_let starts (last_append rfl), readOps, none]
  simp only [ends, if_true]

theorem lineKind_made {text : String} {back : List Char}
    (starts : "let ".toList.isPrefixOf text.toList = true)
    (ends : text.toList.reverse = ';' :: ')' :: '(' :: back) : lineKind text = .does [] := by
  have none : readCall? text.toList = none := by
    rw [readCall?, ends]
    rfl
  have front : "::read_new(input)?;".toList.reverse = ';' :: '?' :: ")tupni(wen_daer::".toList :=
    rfl
  have other : "::read_new(input)?;".toList.isSuffixOf text.toList = false := by
    rw [List.isSuffixOf, ends, front]
    rfl
  have last : text.toList.getLast? = some ';' := by
    rw [List.getLast?_eq_head?_reverse, ends]
    rfl
  rw [lineKind_let starts last, readOps, none]
  simp only [other, Bool.false_eq_true, if_false]

theorem lineKind_own {text : String} {c : Char} (first : text.toList.head? = some c)
    (own : c ∉ ['/', 'o', 'l', 'i']) (last : text.toList.getLast? = some ';') :
    lineKind text =
      .does (if ".write(output)?;".toList.isSuffixOf text.toList then [.call .writes "struct"]
        else []) := by
  simp only [List.mem_cons, List.not_mem_nil, or_false, not_or] at own
  obtain ⟨notComment, notOutput, notLet, notInput⟩ := own
  have starts (front : List Char) {d : Char} (other : c ≠ d) :
      (d :: front).isPrefixOf text.toList = false :=
    isPrefixOf_of_head? (by simpa [first] using other)
  have isLet : "let ".toList.isPrefixOf text.toList = false := starts _ notLet
  have isInput : "input.".toList.isPrefixOf text.toList = false := starts _ notInput
  rw [lineKind_statement (starts _ notComment) last, statementOps, if_neg (not_not.mpr last),
    not_output (by simpa [first] using notOutput)]
  simp only [isLet, isInput, Bool.or_self, Bool.false_eq_true, if_false]

theorem lineKind_writeStruct {value : String} {c : Char} (first : value.toList.head? = some c)
    (own : c ∉ ['/', 'o', 'l', 'i']) :
    lineKind (value ++ ".write(output)?;") = .does [.call .writes "struct"] := by
  have ends : ".write(output)?;".toList.isSuffixOf (value ++ ".write(output)?;").toList :=
    List.isSuffixOf_iff_suffix.mpr ⟨value.toList, String.toList_append.symm⟩
  rw [lineKind_own (head?_append _ first) own (last_append rfl), if_pos ends]

theorem lineKind_idle {text : String} {c d : Char} {rest : List Char}
    (first : text.toList.head? = some c) (own : c ∉ ['/', 'o', 'l', 'i'])
    (last : text.toList.reverse = ';' :: d :: rest) (other : d ≠ '?') :
    lineKind text = .does [] := by
  have differs : ('?' == d) = false := beq_eq_false_iff_ne.mpr other.symm
  have back : ".write(output)?;".toList.reverse = ';' :: '?' :: ")tuptuo(etirw.".toList := rfl
  have ends : ".write(output)?;".toList.isSuffixOf text.toList = false := by
    rw [List.isSuffixOf, last, back, List.isPrefixOf, List.isPrefixOf, differs, Bool.false_and,
      Bool.and_false]
  have last' : text.toList.getLast? = some ';' := by
    rw [List.getLast?_eq_head?_reverse, last]
    rfl
  rw [lineKind_own first own last', ends, if_neg Bool.false_ne_true]

/-! ## Texts -/

/-- What a scope comes to when it is closed. One without a head is no more than its body, and one
in which nothing is done is left out. -/
def closed (head : String) (body : List Op) : List Op :=
  if head = "" then body
  else if "for ".toList.isPrefixOf head.toList then [.loop body]
  else if body.isEmpty then []
  else [.scope head body]

theorem closed_loop {head : String} (starts : "for ".toList.isPrefixOf head.toList = true)
    (body : List Op) : closed head body = [.loop body] := by
  have headed : head ≠ "" := by
    rintro rfl
    cases starts
  rw [closed, if_neg headed, if_pos starts]

theorem not_loop {head : String} {c : Char} (first : head.toList.head? = some c) (other : c ≠ 'f') :
    "for ".toList.isPrefixOf head.toList = false := by
  have different : head.toList.head? ≠ some 'f' := by simpa [first] using other
  exact isPrefixOf_of_head? different

theorem closed_scope {head : String} {c : Char} (first : head.toList.head? = some c)
    (other : c ≠ 'f') {body : List Op} (busy : body ≠ []) :
    closed head body = [.scope head body] := by
  have headed : head ≠ "" := by
    rintro rfl
    cases first
  rw [closed, if_neg headed, not_loop first other, if_neg Bool.false_ne_true,
    if_neg (by simpa using busy)]

theorem closed_idle {head : String} {c : Char} (first : head.toList.head? = some c)
    (other : c ≠ 'f') : closed head [] = [] := by
  rw [closed, not_loop first other]
  simp

/-- Where a reader is in a text: the scopes that are open, each with what was done before it, and
what is done in the innermost one. -/
structure Cursor where
  around : List (String × List Op) := []
  done : List Op := []

def Cursor.next (p : Cursor) (text : String) : Cursor :=
  match lineKind text with
  | .does ops => { p with done := p.done ++ ops }
  | .opens head => ⟨(head, p.done) :: p.around, []⟩
  | .closes =>
    match p.around with
    | [] => p
    | (head, before) :: around => ⟨around, before ++ closed head p.done⟩

def outline (texts : List String) : List Op :=
  (texts.foldl Cursor.next {}).done

/-- Wherever the text stands, it adds this to what is done there and leaves no scope open. -/
def Outlines (ops : List Op) (texts : List String) : Prop :=
  ∀ p : Cursor, texts.foldl Cursor.next p = { p with done := p.done ++ ops }

variable {ops ops' : List Op} {texts texts' : List String}

theorem Outlines.outline_eq (all : Outlines ops texts) : outline texts = ops := by
  rw [outline, all]
  rfl

theorem outlines_nil : Outlines [] [] := by
  intro p
  rw [List.append_nil]
  rfl

theorem Outlines.append (first : Outlines ops texts) (second : Outlines ops' texts') :
    Outlines (ops ++ ops') (texts ++ texts') := by
  intro p
  rw [List.foldl_append, first, second, List.append_assoc]

theorem outlines_line {text : String} (kind : lineKind text = .does ops) : Outlines ops [text] := by
  intro p
  rw [List.foldl_cons, List.foldl_nil, Cursor.next, kind]

theorem outlines_idle (idle : ∀ t ∈ texts, lineKind t = .does []) : Outlines [] texts := by
  induction texts with
  | nil => exact outlines_nil
  | cons t rest ih =>
    rw [List.forall_mem_cons] at idle
    exact (outlines_line idle.1).append (ih idle.2)

theorem Outlines.block {header : String} (code : isComment (Draft.opening header) = false)
    (body : Outlines ops texts) :
    Outlines (closed header ops) (Draft.opening header :: texts ++ ["\x7d"]) := by
  intro p
  have opens : p.next (Draft.opening header) = ⟨(header, p.done) :: p.around, []⟩ := by
    rw [Cursor.next, lineKind_opening code]
  rw [List.cons_append, List.foldl_cons, List.foldl_append, opens, body]
  rfl

/-! ## Drafts -/

namespace Draft

variable {α β : Type}

/-- A draft that comes to an end has this outline, however its temporary names are numbered. -/
def Shows (ops : List Op) (d : Draft α) : Prop :=
  ∀ n a, (d n).answer = .ok a → Outlines ops (d n).texts

/-- A draft that does nothing with a protocol, even if it fails. -/
def Idle (d : Draft α) : Prop :=
  ∀ n, Outlines [] (d n).texts

theorem Idle.shows {d : Draft α} (idle : d.Idle) : d.Shows [] :=
  fun n _ _ => idle n

theorem Shows.bind {d : Draft α} {f : α → Draft β} (first : d.Shows ops)
    (second : ∀ a, (f a).Shows ops') : (d >>= f).Shows (ops ++ ops') := by
  intro n b answered
  rw [answer_bind] at answered
  obtain ⟨a, answer, rest⟩ := bind_eq_ok_iff.mp answered
  rw [texts_bind answer]
  exact (first n a answer).append (second a _ b rest)

theorem Idle.bind {d : Draft α} {f : α → Draft β} (first : d.Idle) (second : ∀ a, (f a).Idle) :
    (d >>= f).Idle := by
  intro n
  cases answer : (d n).answer with
  | error e =>
    rw [texts_bind_error answer]
    exact first n
  | ok a =>
    rw [texts_bind answer]
    exact (first n).append (second a _)

/-- An idle part can be left out. -/
theorem Idle.bind_shows {d : Draft α} {f : α → Draft β} (first : d.Idle)
    (second : ∀ a, (f a).Shows ops) : (d >>= f).Shows ops :=
  first.shows.bind second

theorem Shows.bind_idle {d : Draft α} {f : α → Draft β} (first : d.Shows ops)
    (second : ∀ a, (f a).Idle) : (d >>= f).Shows ops := by
  have both := first.bind fun a => (second a).shows
  rwa [List.append_nil] at both

theorem Shows.named {lead : String} {f : String → Draft β}
    (rest : ∀ n : Nat, (f (lead ++ toString n)).Shows ops) : (tmp lead >>= f).Shows ops := by
  intro n b answered
  rw [answer_bind, answer_tmp] at answered
  rw [texts_bind (answer_tmp lead n)]
  exact rest n _ b answered

theorem line_shows {text : String} (kind : lineKind text = .does ops) : (line text).Shows ops :=
  fun _ _ _ => outlines_line kind

theorem line_idle {text : String} (kind : lineKind text = .does []) : (line text).Idle :=
  fun _ => outlines_line kind

theorem blank_idle : blank.Idle :=
  line_idle rfl

theorem lines_idle {texts : List String} (all : Outlines [] texts) : (lines texts).Idle := by
  intro n
  rw [texts_lines]
  exact all

theorem ofEmitted_idle (x : Emitted α) : (ofEmitted x).Idle := by
  intro n
  cases x <;> exact outlines_nil

theorem Shows.block {header : String} {body : Draft Unit}
    (code : isComment (opening header) = false) (inside : body.Shows ops) :
    (block header "" body).Shows (closed header ops) := by
  intro n a answered
  rw [texts_block]
  exact (inside n a answered).block code

theorem Shows.loop {head : String} {body : Draft Unit}
    (starts : "for ".toList.isPrefixOf head.toList = true) (inside : body.Shows ops) :
    (Draft.block head "" body).Shows [.loop ops] := by
  have code : head.toList.head? ≠ some '/' := by
    obtain ⟨rest, shape⟩ := List.isPrefixOf_iff_prefix.mp starts
    rw [← shape]
    simp
  rw [← closed_loop starts]
  exact inside.block (isComment_opening code)

theorem Shows.scope {head : String} {body : Draft Unit} {c : Char}
    (first : head.toList.head? = some c) (other : c ∉ ['/', 'f']) (busy : ops ≠ [])
    (inside : body.Shows ops) : (Draft.block head "" body).Shows [.scope head ops] := by
  simp only [List.mem_cons, List.not_mem_nil, or_false, not_or] at other
  rw [← closed_scope first other.2 busy]
  exact inside.block (isComment_opening (by simpa [first] using other.1))

theorem Idle.block {header : String} {body : Draft Unit} (code : isComment (opening header) = false)
    (none : closed header [] = []) (inside : body.Idle) : (Draft.block header "" body).Idle := by
  intro n
  have all := (inside n).block code
  rw [none] at all
  rw [texts_block]
  exact all

theorem Idle.scope {head : String} {body : Draft Unit} {c : Char}
    (first : head.toList.head? = some c) (other : c ∉ ['/', 'f']) (inside : body.Idle) :
    (Draft.block head "" body).Idle := by
  simp only [List.mem_cons, List.not_mem_nil, or_false, not_or] at other
  exact inside.block (isComment_opening (by simpa [first] using other.1))
    (closed_idle first other.2)

theorem Idle.braces {head : String} {body : Draft Unit} [Sure body] {rest : Draft β} {c : Char}
    (first : head.toList.head? = some c) (other : c ∉ ['/', 'f']) (inside : body.Idle)
    (behind : rest.Idle) :
    (do line (head ++ " \x7b"); indent; body; dedent; line "\x7d"; rest).Idle := by
  have headed : head ≠ "" := by
    rintro rfl
    cases first
  rw [braces_bind headed]
  exact (inside.scope first other).bind fun _ => behind

theorem Shows.forM {each : α → Draft Unit} {shown : α → List Op} (as : List α)
    (shows : ∀ a ∈ as, (each a).Shows (shown a)) : (as.forM each).Shows (as.flatMap shown) := by
  induction as with
  | nil => exact fun _ _ _ => outlines_nil
  | cons a rest ih =>
    rw [List.flatMap_cons]
    exact (shows a List.mem_cons_self).bind fun _ =>
      ih fun b member => shows b (List.mem_cons_of_mem a member)

theorem Idle.forM {each : α → Draft Unit} (as : List α) (idle : ∀ a ∈ as, (each a).Idle) :
    (as.forM each).Idle := by
  induction as with
  | nil => exact fun _ => outlines_nil
  | cons a rest ih =>
    exact (idle a List.mem_cons_self).bind fun _ =>
      ih fun b member => idle b (List.mem_cons_of_mem a member)

end Draft

end Idl.Emit
