/-!
# Spans of code points

A property of characters is stored as a list of spans. A span with step two holds every second
code point, which is how upper and lower case letters alternate in many alphabets.
-/

set_option autoImplicit false

namespace Idl.Text

/-- The code points `first`, `first + step`, `first + 2 * step`, … up to `last`. -/
structure Span where
  first : Nat
  last : Nat
  step : Nat
  deriving DecidableEq, Repr

def Span.contains (s : Span) (n : Nat) : Bool :=
  s.first ≤ n && n ≤ s.last && (n - s.first) % s.step == 0

def inSpans (table : List Span) (c : Char) : Bool :=
  table.any fun s => s.contains c.toNat

end Idl.Text
