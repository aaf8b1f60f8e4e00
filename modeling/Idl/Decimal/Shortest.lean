/-!
# The fewest digits that read back

A binary number `mantissa * 2 ^ exponent` is the value to which every real in an interval around
it is rounded. The interval reaches half way to each neighbour, and its ends belong to it when
the mantissa is even. The digits chosen are the fewest of a decimal in the interval; among those
the decimal nearest to the value, and the upper one of two that are equally near.
-/

set_option autoImplicit false

namespace Idl.Decimal

structure Digits where
  coefficient : Nat
  exponent : Int
  deriving DecidableEq, Repr

/-- A positive binary number. `narrow` says that the neighbour below is half as far away as the
one above, which is so at the powers of two. -/
structure Binary where
  mantissa : Nat
  exponent : Int
  narrow : Bool
  deriving DecidableEq, Repr

def numerator (base : Nat) (e : Int) : Nat :=
  Nat.pow base e.toNat

def denominator (base : Nat) (e : Int) : Nat :=
  Nat.pow base (-e).toNat

def digitCount (n : Nat) : Nat :=
  (Nat.toDigits 10 n).length

def Binary.scale (b : Binary) : Int :=
  let shifted := b.mantissa * numerator 2 b.exponent * Nat.pow 10 340 / denominator 2 b.exponent
  (digitCount shifted : Int) - 340

/-- Four times the value, the lower end and the upper end, and the point `c` of the grid
`10 ^ e`, all over one denominator. -/
def Binary.onGrid (b : Binary) (e : Int) (quarters : Nat) : Nat :=
  quarters * numerator 2 b.exponent * denominator 10 e

def Binary.gridUnit (b : Binary) (e : Int) : Nat :=
  4 * denominator 2 b.exponent * numerator 10 e

def Binary.readsBack (b : Binary) (e : Int) (c : Nat) : Bool :=
  let low := b.onGrid e (4 * b.mantissa - (if b.narrow then 1 else 2))
  let high := b.onGrid e (4 * b.mantissa + 2)
  let point := c * b.gridUnit e
  if b.mantissa % 2 = 0 then low ≤ point && point ≤ high else low < point && point < high

def Binary.onGrid? (b : Binary) (e : Int) : Option Digits :=
  let value := b.onGrid e (4 * b.mantissa)
  let unit := b.gridUnit e
  let c := value / unit
  match b.readsBack e c, b.readsBack e (c + 1) with
  | true, true => some ⟨if 2 * value < (2 * c + 1) * unit then c else c + 1, e⟩
  | true, false => some ⟨c, e⟩
  | false, true => some ⟨c + 1, e⟩
  | false, false => none

/-- Tries grids from coarse to fine; the exact value stands where none of them serves. -/
def Binary.search (b : Binary) (k : Int) : List Nat → Digits
  | [] => ⟨b.mantissa * numerator 2 b.exponent * Nat.pow 5 (-b.exponent).toNat,
    -(-b.exponent).toNat⟩
  | n :: rest =>
    match b.onGrid? (k - n) with
    | some d => d
    | none => b.search k rest

def Digits.strip (d : Digits) : Nat → Digits
  | 0 => d
  | fuel + 1 =>
    if d.coefficient ≠ 0 ∧ d.coefficient % 10 = 0 then
      Digits.strip ⟨d.coefficient / 10, d.exponent + 1⟩ fuel
    else d

def Binary.shortest (b : Binary) : Digits :=
  let d := b.search b.scale (List.range' 1 17)
  d.strip (digitCount d.coefficient)

end Idl.Decimal
