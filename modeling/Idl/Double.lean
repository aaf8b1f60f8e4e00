import Idl.Decimal.Notation
import Idl.Order

/-!
# Double-precision numbers

A double is its sixty-four bits, so that equality tells apart the two zeros and the payloads of
NaN. The order places the negative numbers first, by falling magnitude, and the positive ones
after them; NaN stands at the end that its sign bit says.
-/

set_option autoImplicit false

namespace Idl

structure Double where
  bits : UInt64
  deriving DecidableEq, Repr

namespace Double

def zero : Double := ⟨0⟩

def isNegative (d : Double) : Bool :=
  0x8000000000000000 ≤ d.bits.toNat

def magnitude (d : Double) : Nat :=
  d.bits.toNat % 0x8000000000000000

def infinity : Nat := 0x7FF0000000000000

def isNaN (d : Double) : Bool :=
  infinity < d.magnitude

def isInfinite (d : Double) : Bool :=
  d.magnitude = infinity

def isZero (d : Double) : Bool :=
  d.magnitude = 0

/-- The place of a double in the order of all doubles. -/
def key (d : Double) : Int :=
  if d.isNegative then -1 - (d.magnitude : Int) else d.magnitude

def order (a b : Double) : Ordering :=
  orderInts a.key b.key

def sorted (ds : List Double) : List Double :=
  ds.mergeSort fun a b => a.key ≤ b.key

def toSet (ds : List Double) : List Double :=
  ascending order ds

def patterns (ds : List Double) : Nat :=
  (ds.map bits).eraseDups.length

def max? : List Double → Option Double
  | [] => none
  | d :: ds =>
    match max? ds with
    | none => some d
    | some top => some (if top.key < d.key then d else top)

def toBinary (d : Double) : Decimal.Binary :=
  let fraction : Nat := d.magnitude % 0x10000000000000
  let exponent : Nat := d.magnitude / 0x10000000000000
  if exponent = 0 then ⟨fraction, -1074, false⟩
  else ⟨fraction + 0x10000000000000, (exponent : Int) - 1075, fraction = 0 && 1 < exponent⟩

def digits (d : Double) : Decimal.Digits :=
  if d.isZero then ⟨0, 0⟩ else d.toBinary.shortest

def signed (d : Double) (text : List Char) : String :=
  String.ofList (if d.isNegative then '-' :: text else text)

def display (d : Double) : String :=
  if d.isNaN then "NaN"
  else if d.isInfinite then d.signed ['i', 'n', 'f']
  else d.signed d.digits.plain

def literal (d : Double) : String :=
  d.signed d.digits.literal

end Double

end Idl
