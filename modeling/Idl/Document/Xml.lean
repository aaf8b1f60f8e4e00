/-!
# XML text

A document is a list of events. Every event but the first stands on a line of its own; a start
tag indents what follows it, and an end tag takes that back.
-/

set_option autoImplicit false

namespace Idl.Document

abbrev Attributes := List (String × String)

inductive Event where
  | declaration
  | comment (text : String)
  | start (name : String) (attributes : Attributes)
  | empty (name : String) (attributes : Attributes)
  | finish (name : String)
  deriving DecidableEq, Repr

def escapeChar (c : Char) : List Char :=
  if c = '<' then "&lt;".toList
  else if c = '>' then "&gt;".toList
  else if c = '&' then "&amp;".toList
  else if c = '\'' then "&apos;".toList
  else if c = '"' then "&quot;".toList
  else [c]

def escape (s : String) : String :=
  String.ofList (s.toList.flatMap escapeChar)

def attributesText (attributes : Attributes) : String :=
  String.join (attributes.map fun (k, v) => " " ++ k ++ "=\"" ++ escape v ++ "\"")

namespace Event

def text : Event → String
  | .declaration => "<?xml version=\"1.0\" encoding=\"UTF-8\"?>"
  | .comment text => "<!-- " ++ text ++ " -->"
  | .start name attributes => "<" ++ name ++ attributesText attributes ++ ">"
  | .empty name attributes => "<" ++ name ++ attributesText attributes ++ "/>"
  | .finish name => "</" ++ name ++ ">"

def level (e : Event) (n : Nat) : Nat :=
  match e with
  | .finish _ => n - 1
  | _ => n

def next (e : Event) (n : Nat) : Nat :=
  match e with
  | .start _ _ => n + 1
  | _ => n

end Event

def linesFrom (width : Nat) : Nat → List Event → String
  | _, [] => ""
  | n, e :: rest =>
    "\n" ++ String.ofList (List.replicate (width * e.level n) ' ') ++ e.text ++
      linesFrom width (e.next (e.level n)) rest

def document (width : Nat) : List Event → String
  | [] => "\n"
  | e :: rest => e.text ++ linesFrom width (e.next (e.level 0)) rest ++ "\n"

def element (name : String) (attributes : Attributes) (body : List Event) : List Event :=
  .start name attributes :: body ++ [.finish name]

end Idl.Document
