import Idl.Emit.Error
import Idl.Text.Lines

/-!
# Drafts and pages

A draft is a piece of program text in the making. It comes to strokes, which a page takes one after
another, to a counter for temporary names, and to an answer or the error that ended it. The strokes
before an error stay and none follow it, but a block is closed even if its body failed.

A page is text with the indentation level and the counter that further text continues from. Nothing
but the strokes of a draft brings the page back to the level where the draft found it.
-/

set_option autoImplicit false

namespace Idl.Emit

structure Line where
  depth : Nat
  text : String
  deriving DecidableEq, Repr

inductive Stroke where
  | line (text : String)
  | indent
  | dedent
  deriving DecidableEq, Repr

/-- What a draft comes to when its temporary names start at some number. -/
structure Drafted (α : Type) where
  strokes : List Stroke
  counter : Nat
  answer : Emitted α
  /-- The temporary names that were given out, in order. -/
  names : List String

def Draft (α : Type) : Type :=
  Nat → Drafted α

namespace Draft

def pure {α : Type} (a : α) : Draft α := fun n =>
  ⟨[], n, .ok a, []⟩

def bind {α β : Type} (d : Draft α) (f : α → Draft β) : Draft β := fun n =>
  let first := d n
  match first.answer with
  | .error e => ⟨first.strokes, first.counter, .error e, first.names⟩
  | .ok a =>
    let second := f a first.counter
    ⟨first.strokes ++ second.strokes, second.counter, second.answer, first.names ++ second.names⟩

instance : Monad Draft where
  pure := pure
  bind := bind

def fail {α : Type} (e : EmitError) : Draft α := fun n =>
  ⟨[], n, .error e, []⟩

def ofEmitted {α : Type} : Emitted α → Draft α
  | .ok a => pure a
  | .error e => fail e

def line (text : String) : Draft Unit := fun n =>
  ⟨[.line text], n, .ok (), []⟩

def lines (texts : List String) : Draft Unit := fun n =>
  ⟨texts.map .line, n, .ok (), []⟩

def blank : Draft Unit :=
  line ""

/-- A name that no other use of the counter gives. -/
def tmp (lead : String) : Draft String := fun n =>
  ⟨[], n + 1, .ok (lead ++ toString n), [lead ++ toString n]⟩

def indent : Draft Unit := fun n =>
  ⟨[.indent], n, .ok (), []⟩

def dedent : Draft Unit := fun n =>
  ⟨[.dedent], n, .ok (), []⟩

def opening (header : String) : String :=
  if header = "" then "\x7b" else header ++ " \x7b"

def block (header tail : String) (body : Draft Unit) : Draft Unit := fun n =>
  let inner := body n
  { inner with
    strokes := [.line (opening header), .indent] ++ inner.strokes ++
      [.dedent, .line ("\x7d" ++ tail)] }

end Draft

def commentLines (lead text : String) : List String :=
  (Text.lines text).map fun l => if l = "" then lead else lead ++ " " ++ l

structure Page where
  text : String := ""
  level : Nat := 0
  counter : Nat := 0
  /-- Spaces per level. -/
  width : Nat := 4

namespace Page

def lineText (width level : Nat) (l : Line) : String :=
  if l.text = "" then "\n"
  else String.ofList (List.replicate (width * (level + l.depth)) ' ') ++ l.text ++ "\n"

def line (p : Page) (text : String) : Page :=
  { p with text := p.text ++ lineText p.width p.level ⟨0, text⟩ }

def indent (p : Page) : Page :=
  { p with level := p.level + 1 }

def dedent (p : Page) : Page :=
  { p with level := p.level - 1 }

def stroke (p : Page) : Stroke → Page
  | .line text => p.line text
  | .indent => p.indent
  | .dedent => p.dedent

def draft {α : Type} (p : Page) (d : Draft α) : Emitted α × Page :=
  let drafted := d p.counter
  (drafted.answer, { drafted.strokes.foldl stroke p with counter := drafted.counter })

end Page

end Idl.Emit
