/-!
# Lines of a text

A line ends at a line feed; one carriage return before the line feed belongs to the ending. A
text that ends with a line feed has no empty line after it.
-/

set_option autoImplicit false

namespace Idl.Text

/-- A line read backwards, without the carriage return that ends it. -/
def dropReturn : List Char → List Char
  | '\r' :: cs => cs
  | cs => cs

def linesFrom : List Char → List Char → List String
  | [], [] => []
  | start, [] => [String.ofList start.reverse]
  | start, c :: cs =>
    if c = '\n' then String.ofList (dropReturn start).reverse :: linesFrom [] cs
    else linesFrom (c :: start) cs

def lines (s : String) : List String :=
  linesFrom [] s.toList

end Idl.Text
