import Idl.Document.Xml
import Mathlib.Data.List.Infix

/-!
# Reading documents

A reader takes a document apart again, character by character, into the events that it stands for.
It knows nothing of levels and of how the text was made. Attribute values are left as they stand in
the text, where the characters that mean something to a reader are written in another way.

What is written from events is read as these events, if their tags and attributes have plain names
and no comment ends too early.
-/

set_option autoImplicit false

namespace Idl.Document

def special : List Char :=
  ['<', '>', '&', '\'', '"']

def entities : List (List Char) :=
  ["lt;".toList, "gt;".toList, "amp;".toList, "apos;".toList, "quot;".toList]

/-- A value in which no special character is meant as it is: there are only ampersands, and each of
them begins one of the words that stand for a special character. -/
def Clean (value : List Char) : Prop :=
  ∀ front c back, value = front ++ c :: back → c ∈ special → c = '&' ∧
    ∃ word ∈ entities, word <+: back

def unescape : List Char → Option (List Char)
  | [] => some []
  | '&' :: 'l' :: 't' :: ';' :: rest => (unescape rest).map ('<' :: ·)
  | '&' :: 'g' :: 't' :: ';' :: rest => (unescape rest).map ('>' :: ·)
  | '&' :: 'a' :: 'm' :: 'p' :: ';' :: rest => (unescape rest).map ('&' :: ·)
  | '&' :: 'a' :: 'p' :: 'o' :: 's' :: ';' :: rest => (unescape rest).map ('\'' :: ·)
  | '&' :: 'q' :: 'u' :: 'o' :: 't' :: ';' :: rest => (unescape rest).map ('"' :: ·)
  | c :: rest => if c ∈ special then none else (unescape rest).map (c :: ·)

theorem escapeChar_plain {c : Char} (plain : c ∉ special) : escapeChar c = [c] := by
  simp only [special, List.mem_cons, List.not_mem_nil, or_false, not_or] at plain
  simp [escapeChar, plain]

theorem escapeChar_special {c : Char} (here : c ∈ special) : ∃ word ∈ entities,
    escapeChar c = '&' :: word ∧ (word.all fun d => d ∉ special) = true := by
  simp only [special, List.mem_cons, List.not_mem_nil, or_false] at here
  rcases here with rfl | rfl | rfl | rfl | rfl
  · exact ⟨"lt;".toList, by simp [entities], rfl, by decide⟩
  · exact ⟨"gt;".toList, by simp [entities], rfl, by decide⟩
  · exact ⟨"amp;".toList, by simp [entities], rfl, by decide⟩
  · exact ⟨"apos;".toList, by simp [entities], rfl, by decide⟩
  · exact ⟨"quot;".toList, by simp [entities], rfl, by decide⟩

theorem unescape_escapeChar (c : Char) (rest : List Char) :
    unescape (escapeChar c ++ rest) = (unescape rest).map (c :: ·) := by
  by_cases here : c ∈ special
  · simp only [special, List.mem_cons, List.not_mem_nil, or_false] at here
    rcases here with rfl | rfl | rfl | rfl | rfl <;> rfl
  · rw [escapeChar_plain here, List.singleton_append, unescape, if_neg here]
    all_goals
      rintro _ rfl
      exact absurd (by decide) here

theorem unescape_escape (value : String) : unescape (escape value).toList = some value.toList := by
  rw [escape, String.toList_ofList]
  induction value.toList with
  | nil => rfl
  | cons c cs ih => rw [List.flatMap_cons, unescape_escapeChar, ih, Option.map_some]

theorem clean_nil : Clean [] := by
  intro front c back parts
  cases front <;> cases parts

theorem Clean.cons {c : Char} {rest : List Char}
    (fits : c ∈ special → c = '&' ∧ ∃ word ∈ entities, word <+: rest) (clean : Clean rest) :
    Clean (c :: rest) := by
  intro front d back parts
  cases front with
  | nil =>
    obtain ⟨rfl, rfl⟩ : c = d ∧ rest = back := by simpa using parts
    exact fits
  | cons e front =>
    obtain ⟨-, rest⟩ : c = e ∧ rest = front ++ d :: back := by simpa using parts
    exact clean front d back rest

theorem Clean.letters {letters rest : List Char} (plain : (letters.all fun c => c ∉ special) = true)
    (clean : Clean rest) : Clean (letters ++ rest) := by
  induction letters with
  | nil => exact clean
  | cons c letters ih =>
    rw [List.all_cons, Bool.and_eq_true, decide_eq_true_eq] at plain
    exact (ih plain.2).cons fun here => absurd here plain.1

theorem clean_escapeChar {c : Char} {rest : List Char} (clean : Clean rest) :
    Clean (escapeChar c ++ rest) := by
  by_cases here : c ∈ special
  · obtain ⟨word, known, text, plain⟩ := escapeChar_special here
    rw [text, List.cons_append]
    exact (clean.letters plain).cons fun _ => ⟨rfl, word, known, List.prefix_append word rest⟩
  · rw [escapeChar_plain here]
    exact clean.letters (by simpa using here)

theorem clean_escape (value : String) : Clean (escape value).toList := by
  rw [escape, String.toList_ofList]
  induction value.toList with
  | nil => exact clean_nil
  | cons c cs ih =>
    rw [List.flatMap_cons]
    exact clean_escapeChar ih

def isNameChar (c : Char) : Bool :=
  c.isAlpha || c = ':'

/-- Where the reader stands. What it has seen of a word is kept backwards. -/
inductive Mode where
  | between
  | opened
  | instruction (seen : List Char)
  | bang
  | dash
  | comment (seen : List Char)
  | closing (seen : List Char)
  | tag (seen : List Char)
  | inside (tag : String) (attributes : Attributes)
  | key (tag : String) (attributes : Attributes) (seen : List Char)
  | equals (tag : String) (attributes : Attributes) (key : String)
  | value (tag : String) (attributes : Attributes) (key : String) (seen : List Char)
  | slash (tag : String) (attributes : Attributes)
  deriving DecidableEq

def word (seen : List Char) : String :=
  String.ofList seen.reverse

def stepInside (tag : String) (attributes : Attributes) (c : Char) : Option (Mode × Option Event) :=
  if c = ' ' then some (.key tag attributes [], none)
  else if c = '>' then some (.between, some (.start tag attributes))
  else if c = '/' then some (.slash tag attributes, none)
  else none

/-- Where a character leads, and the event that ends with it. -/
def step : Mode → Char → Option (Mode × Option Event)
  | .between, c =>
    if c = ' ' ∨ c = '\n' then some (.between, none)
    else if c = '<' then some (.opened, none)
    else none
  | .opened, c =>
    if c = '?' then some (.instruction [], none)
    else if c = '!' then some (.bang, none)
    else if c = '/' then some (.closing [], none)
    else if isNameChar c then some (.tag [c], none)
    else none
  | .instruction seen, c =>
    if c = '>' ∧ seen.head? = some '?' then some (.between, some .declaration)
    else some (.instruction (c :: seen), none)
  | .bang, c => if c = '-' then some (.dash, none) else none
  | .dash, c => if c = '-' then some (.comment [], none) else none
  | .comment seen, c =>
    if c = '>' ∧ seen.take 2 = ['-', '-'] then some (.between, some (.comment (word (seen.drop 2))))
    else some (.comment (c :: seen), none)
  | .closing seen, c =>
    if isNameChar c then some (.closing (c :: seen), none)
    else if c = '>' then some (.between, some (.finish (word seen)))
    else none
  | .tag seen, c =>
    if isNameChar c then some (.tag (c :: seen), none) else stepInside (word seen) [] c
  | .inside tag attributes, c => stepInside tag attributes c
  | .key tag attributes seen, c =>
    if isNameChar c then some (.key tag attributes (c :: seen), none)
    else if c = '=' then some (.equals tag attributes (word seen), none)
    else none
  | .equals tag attributes key, c =>
    if c = '"' then some (.value tag attributes key [], none) else none
  | .value tag attributes key seen, c =>
    if c = '"' then some (.inside tag (attributes ++ [(key, word seen)]), none)
    else some (.value tag attributes key (c :: seen), none)
  | .slash tag attributes, c =>
    if c = '>' then some (.between, some (.empty tag attributes)) else none

/-- The events of a text. It must not end inside of one, and between them are blanks only. -/
def scanFrom : Mode → List Char → Option (List Event)
  | mode, [] => if mode = .between then some [] else none
  | mode, c :: rest =>
    match step mode c with
    | none => none
    | some (next, event) => (scanFrom next rest).map (event.toList ++ ·)

def scan (text : String) : Option (List Event) :=
  scanFrom .between text.toList

variable {mode next : Mode} {c : Char} {rest : List Char}

theorem scanFrom_move (moves : step mode c = some (next, none)) :
    scanFrom mode (c :: rest) = scanFrom next rest := by
  rw [scanFrom, moves]
  simp

theorem scanFrom_event {event : Event} (ends : step mode c = some (next, some event)) :
    scanFrom mode (c :: rest) = (scanFrom next rest).map (event :: ·) := by
  rw [scanFrom, ends]
  rfl

theorem scanFrom_collect (collect : List Char → Mode) {cs : List Char}
    (moves : ∀ c ∈ cs, ∀ seen, step (collect seen) c = some (collect (c :: seen), none))
    (seen : List Char) :
    scanFrom (collect seen) (cs ++ rest) = scanFrom (collect (cs.reverse ++ seen)) rest := by
  induction cs generalizing seen with
  | nil => rfl
  | cons c cs ih =>
    simp only [List.forall_mem_cons] at moves
    rw [List.cons_append, scanFrom_move (moves.1 seen), ih moves.2, List.reverse_cons,
      List.append_assoc, List.singleton_append]

theorem word_collected (name : String) : word (name.toList.reverse ++ []) = name := by
  simp [word]

theorem scanFrom_blanks (cs : List Char) (blank : ∀ c ∈ cs, c = ' ' ∨ c = '\n') :
    scanFrom .between (cs ++ rest) = scanFrom .between rest := by
  apply scanFrom_collect fun _ => .between
  · intro c member _
    rw [step, if_pos (blank c member)]
  · exact []

theorem scanFrom_comment (cs seen : List Char)
    (unclosed : ¬ "-->".toList <:+: seen.reverse ++ cs) :
    scanFrom (.comment seen) (cs ++ rest) = scanFrom (.comment (cs.reverse ++ seen)) rest := by
  induction cs generalizing seen with
  | nil => rfl
  | cons c cs ih =>
    have stays : ¬ (c = '>' ∧ seen.take 2 = ['-', '-']) := by
      rintro ⟨rfl, dashes⟩
      apply unclosed
      refine ⟨(seen.drop 2).reverse, cs, ?_⟩
      have parts : seen = ['-', '-'] ++ seen.drop 2 := by rw [← dashes, List.take_append_drop]
      rw [parts]
      simp
    have move : step (.comment seen) c = some (.comment (c :: seen), none) := by
      rw [step, if_neg stays]
    rw [List.cons_append, scanFrom_move move, ih]
    · simp
    · simpa using unclosed

def isPlain (name : String) : Bool :=
  name ≠ "" && name.toList.all isNameChar

def Attributes.arePlain (attributes : Attributes) : Bool :=
  attributes.all fun a => isPlain a.1

def Attributes.raw (attributes : Attributes) : Attributes :=
  attributes.map fun a => (a.1, escape a.2)

namespace Event

def attributes : Event → Attributes
  | .start _ attributes | .empty _ attributes => attributes
  | _ => []

def raw : Event → Event
  | .start name attributes => .start name attributes.raw
  | .empty name attributes => .empty name attributes.raw
  | .comment text => .comment (" " ++ text ++ " ")
  | e => e

def Writable : Event → Prop
  | .declaration => True
  | .comment text => ¬ "-->".toList <:+: (" " ++ text ++ " ").toList
  | .start name attributes | .empty name attributes =>
    isPlain name = true ∧ attributes.arePlain = true
  | .finish name => isPlain name = true

end Event

theorem clean_raw (e : Event) : ∀ a ∈ e.raw.attributes, Clean a.2.toList := by
  have escaped (attributes : Attributes) : ∀ a ∈ attributes.raw, Clean a.2.toList := by
    intro a member
    obtain ⟨given, -, rfl⟩ := List.mem_map.mp member
    exact clean_escape given.2
  cases e with
  | start name attributes => exact escaped attributes
  | empty name attributes => exact escaped attributes
  | declaration | comment text | finish name => simp [Event.raw, Event.attributes]

theorem isPlain_chars {name : String} (plain : isPlain name = true) :
    ∀ c ∈ name.toList, isNameChar c = true := by
  rw [isPlain, Bool.and_eq_true] at plain
  exact List.all_eq_true.mp plain.2

theorem isPlain_cons {name : String} (plain : isPlain name = true) :
    ∃ c cs, name.toList = c :: cs ∧ isNameChar c = true ∧ ∀ d ∈ cs, isNameChar d = true := by
  have chars := isPlain_chars plain
  cases text : name.toList with
  | nil =>
    have none : name = "" := by simpa using text
    simp [isPlain, none] at plain
  | cons c cs =>
    rw [text, List.forall_mem_cons] at chars
    exact ⟨c, cs, rfl, chars.1, chars.2⟩

theorem scanFrom_value (tag : String) (attributes : Attributes) (key value : String) :
    scanFrom (.value tag attributes key []) ((escape value).toList ++ '"' :: rest) =
      scanFrom (.inside tag (attributes ++ [(key, escape value)])) rest := by
  have collects : ∀ c ∈ (escape value).toList, ∀ seen,
      step (.value tag attributes key seen) c =
        some (.value tag attributes key (c :: seen), none) := by
    intro c member seen
    obtain ⟨front, back, parts⟩ := List.append_of_mem member
    have quote : c ≠ '"' := by
      rintro rfl
      exact absurd (clean_escape value front _ back parts (by decide)).1 (by decide)
    rw [step, if_neg quote]
  rw [scanFrom_collect (.value tag attributes key) collects, scanFrom_move rfl, word_collected]

theorem attributesText_cons (a : String × String) (more : Attributes) :
    (attributesText (a :: more)).toList ++ rest = ' ' :: (a.1.toList ++
      '=' :: '"' :: ((escape a.2).toList ++ '"' :: ((attributesText more).toList ++ rest))) := by
  simp [attributesText]

theorem scanFrom_attributes (tag : String) (done more : Attributes)
    (plain : more.arePlain = true) :
    scanFrom (.inside tag done) ((attributesText more).toList ++ rest) =
      scanFrom (.inside tag (done ++ more.raw)) rest := by
  induction more generalizing done with
  | nil => simp [attributesText, Attributes.raw]
  | cons a more ih =>
    rw [Attributes.arePlain, List.all_cons, Bool.and_eq_true] at plain
    have collects : ∀ c ∈ a.1.toList, ∀ seen,
        step (.key tag done seen) c = some (.key tag done (c :: seen), none) := by
      intro c member seen
      rw [step, if_pos (isPlain_chars plain.1 c member)]
    rw [attributesText_cons, scanFrom_move rfl, scanFrom_collect (.key tag done) collects,
      scanFrom_move rfl, scanFrom_move rfl, word_collected, scanFrom_value, ih _ plain.2,
      List.append_assoc]
    rfl

theorem scanFrom_tag_end {seen : List Char} (ends : isNameChar c = false) :
    scanFrom (.tag seen) (c :: rest) = scanFrom (.inside (word seen) []) (c :: rest) := by
  have same : step (.tag seen) c = step (.inside (word seen) []) c := by
    rw [step, if_neg (by simp [ends]), step]
  rw [scanFrom, scanFrom, same]

theorem scanFrom_tag {name : String} {attributes : Attributes} (plain : isPlain name = true)
    (keys : attributes.arePlain = true) (ends : isNameChar c = false) :
    scanFrom .between ('<' :: (name.toList ++ ((attributesText attributes).toList ++ c :: rest))) =
      scanFrom (.inside name attributes.raw) (c :: rest) := by
  obtain ⟨first, cs, text, letter, letters⟩ := isPlain_cons plain
  have opens : step .opened first = some (.tag [first], none) := by
    have other (d : Char) (mark : isNameChar d = false) : first ≠ d := by
      rintro rfl
      rw [mark] at letter
      cases letter
    rw [step, if_neg (other '?' (by decide)), if_neg (other '!' (by decide)),
      if_neg (other '/' (by decide)), if_pos letter]
  have collects : ∀ d ∈ cs, ∀ seen, step (.tag seen) d = some (.tag (d :: seen), none) := by
    intro d member seen
    rw [step, if_pos (letters d member)]
  have whole : word (cs.reverse ++ [first]) = name := by
    simp [word, ← text]
  obtain ⟨d, more, after, stops⟩ : ∃ d more,
      (attributesText attributes).toList ++ c :: rest = d :: more ∧ isNameChar d = false := by
    cases attributes with
    | nil => exact ⟨c, rest, rfl, ends⟩
    | cons a others => exact ⟨' ', _, attributesText_cons a others, by decide⟩
  rw [text, scanFrom_move rfl, List.cons_append, scanFrom_move opens,
    scanFrom_collect .tag collects, after, scanFrom_tag_end stops, whole, ← after,
    scanFrom_attributes name [] attributes keys,
    List.nil_append]

theorem scanFrom_text {e : Event} (writable : e.Writable) :
    scanFrom .between (e.text.toList ++ rest) = (scanFrom .between rest).map (e.raw :: ·) := by
  cases e with
  | declaration =>
    have parts : Event.declaration.text.toList ++ rest = '<' :: '?' ::
        ("xml version=\"1.0\" encoding=\"UTF-8\"?".toList ++ '>' :: rest) := by
      simp [Event.text]
    have collects : ∀ c ∈ "xml version=\"1.0\" encoding=\"UTF-8\"?".toList, ∀ seen,
        step (.instruction seen) c = some (.instruction (c :: seen), none) := by
      intro c member seen
      have other : c ≠ '>' := by
        rintro rfl
        exact absurd member (by decide)
      rw [step, if_neg fun here => other here.1]
    have ends : step (.instruction ("xml version=\"1.0\" encoding=\"UTF-8\"?".toList.reverse ++ []))
        '>' = some (.between, some .declaration) := by
      decide
    rw [parts, scanFrom_move rfl, scanFrom_move rfl, scanFrom_collect .instruction collects,
      scanFrom_event ends]
    rfl
  | comment text =>
    have unclosed : ¬ "-->".toList <:+: [].reverse ++ (" " ++ text ++ " ").toList := writable
    have parts : (Event.comment text).text.toList ++ rest = '<' :: '!' :: '-' :: '-' ::
        ((" " ++ text ++ " ").toList ++ '-' :: '-' :: '>' :: rest) := by
      simp [Event.text]
    have ends : step (.comment ('-' :: '-' :: ((" " ++ text ++ " ").toList.reverse ++ []))) '>' =
        some (.between, some (.comment (word ((" " ++ text ++ " ").toList.reverse ++ [])))) := rfl
    rw [parts, scanFrom_move rfl, scanFrom_move rfl, scanFrom_move rfl, scanFrom_move rfl,
      scanFrom_comment _ [] unclosed, scanFrom_move rfl, scanFrom_move rfl, scanFrom_event ends,
      word_collected]
    rfl
  | start name attributes =>
    have parts : (Event.start name attributes).text.toList ++ rest =
        '<' :: (name.toList ++ ((attributesText attributes).toList ++ '>' :: rest)) := by
      simp [Event.text]
    rw [parts, scanFrom_tag writable.1 writable.2 (by decide), scanFrom_event rfl]
    rfl
  | empty name attributes =>
    have parts : (Event.empty name attributes).text.toList ++ rest =
        '<' :: (name.toList ++ ((attributesText attributes).toList ++ '/' :: '>' :: rest)) := by
      simp [Event.text]
    rw [parts, scanFrom_tag writable.1 writable.2 (by decide), scanFrom_move rfl,
      scanFrom_event rfl]
    rfl
  | finish name =>
    have parts : (Event.finish name).text.toList ++ rest =
        '<' :: '/' :: (name.toList ++ '>' :: rest) := by
      simp [Event.text]
    have collects : ∀ c ∈ name.toList, ∀ seen,
        step (.closing seen) c = some (.closing (c :: seen), none) := by
      intro c member seen
      rw [step, if_pos (isPlain_chars writable c member)]
    rw [parts, scanFrom_move rfl, scanFrom_move rfl, scanFrom_collect .closing collects,
      scanFrom_event rfl, word_collected]
    rfl

theorem scanFrom_lines (width level : Nat) {es : List Event} (writable : ∀ e ∈ es, e.Writable) :
    scanFrom .between ((linesFrom width level es).toList ++ rest) =
      (scanFrom .between rest).map (es.map Event.raw ++ ·) := by
  induction es generalizing level with
  | nil => simp [linesFrom]
  | cons e es ih =>
    simp only [List.forall_mem_cons] at writable
    have parts : (linesFrom width level (e :: es)).toList ++ rest =
        ('\n' :: List.replicate (width * e.level level) ' ') ++ (e.text.toList ++
          ((linesFrom width (e.next (e.level level)) es).toList ++ rest)) := by
      simp [linesFrom]
    have blank : ∀ c ∈ '\n' :: List.replicate (width * e.level level) ' ', c = ' ' ∨ c = '\n' := by
      intro c member
      rcases List.mem_cons.mp member with rfl | spaces
      · exact .inr rfl
      · exact .inl (List.eq_of_mem_replicate spaces)
    rw [parts, scanFrom_blanks _ blank, scanFrom_text writable.1, ih _ writable.2, Option.map_map]
    rfl

/-- A document is read as the events it was written from. -/
theorem scan_document (width : Nat) {es : List Event} (writable : ∀ e ∈ es, e.Writable) :
    scan (document width es) = some (es.map Event.raw) := by
  cases es with
  | nil => simp [scan, document, scanFrom, step]
  | cons e es =>
    simp only [List.forall_mem_cons] at writable
    have parts : (document width (e :: es)).toList = e.text.toList ++
        ((linesFrom width (e.next (e.level 0)) es).toList ++ ['\n']) := by
      simp [document]
    rw [scan, parts, scanFrom_text writable.1, scanFrom_lines width _ writable.2]
    simp [scanFrom, step]

end Idl.Document
