import Idl.Text.Case

/-!
# Identifiers of generated code

Declared names become identifiers in the cases that the generated code uses. A name that is a
word of the target language is escaped, with a raw marker where the language allows one and with
a trailing underscore elsewhere.
-/

set_option autoImplicit false

namespace Idl.Ident

open Idl.Text

/-- Words that take a trailing underscore. -/
def unmarkable : List String :=
  ["self", "Self", "super", "crate", "_"]

/-- Words that take a raw marker. -/
def reserved : List String :=
  ["abstract", "as", "async", "await", "become", "box", "break", "const", "continue", "do",
   "dyn", "else", "enum", "extern", "false", "final", "fn", "for", "gen", "if", "impl", "in",
   "let", "loop", "macro", "match", "mod", "move", "mut", "override", "priv", "pub", "ref",
   "return", "static", "struct", "trait", "true", "try", "type", "typeof", "unsafe", "unsized",
   "use", "virtual", "where", "while", "yield"]

/-- Whether a word begins at an upper case letter after `previous` and before `next`. -/
def startsWord (previous : Char) (next : Option Char) : Bool :=
  previous ≠ '_' && (isLower previous || isDigit previous || next.any isLower)

def snakeChars : Option Char → List Char → List Char
  | _, [] => []
  | previous, c :: rest =>
    if isUpper c && previous.any (startsWord · rest.head?) then
      '_' :: lowered c :: snakeChars (some c) rest
    else lowered c :: snakeChars (some c) rest

def snake (name : String) : String :=
  String.ofList (snakeChars none name.toList)

def pascalChars : Bool → List Char → List Char
  | _, [] => []
  | capital, c :: rest =>
    if c = '_' ∨ c = '-' then pascalChars true rest
    else (if capital then raised c else c) :: pascalChars false rest

def pascal (name : String) : String :=
  String.ofList (pascalChars true name.toList)

def upperSnake (name : String) : String :=
  String.ofList ((snakeChars none name.toList).map raised)

def escape (name : String) : String :=
  if unmarkable.contains name then name ++ "_"
  else if reserved.contains name then "r#" ++ name
  else name

def isConstantChar (c : Char) : Bool :=
  'A' ≤ c && c ≤ 'Z' || isDigit c || c = '_'

/-- Names of constants; one that is all capitals, digits and underscores is kept. -/
def constant (name : String) : String :=
  if name.toList.all isConstantChar then escape name else escape (upperSnake name)

def field (name : String) : String :=
  escape (snake name)

def clientOwn : List String :=
  ["new", "channel_mut", "into_channel"]

def clientMethod (name : String) : String :=
  if clientOwn.contains (field name) then field name ++ "_" else field name

def prefixed (lead name : String) : String :=
  lead ++ "_" ++ snake name

def type (name : String) : String :=
  escape (pascal name)

end Idl.Ident
