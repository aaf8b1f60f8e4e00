import Idl.Decimal.Shortest

/-!
# Layouts of decimal digits

A decimal is written positionally, or with one digit before the point and an exponent.
-/

set_option autoImplicit false

namespace Idl.Decimal

def digitChars (n : Nat) : List Char :=
  Nat.toDigits 10 n

def Digits.leading (d : Digits) : Int :=
  (digitCount d.coefficient : Int) - 1 + d.exponent

def Digits.places (d : Digits) : List Char × List Char :=
  let cs := digitChars d.coefficient
  if 0 ≤ d.exponent then (cs ++ List.replicate d.exponent.toNat '0', [])
  else
    let after := (-d.exponent).toNat
    if cs.length ≤ after then (['0'], List.replicate (after - cs.length) '0' ++ cs)
    else (cs.take (cs.length - after), cs.drop (cs.length - after))

def Digits.plain (d : Digits) : List Char :=
  match d.places with
  | (whole, []) => whole
  | (whole, part) => whole ++ '.' :: part

def Digits.pointed (d : Digits) : List Char :=
  match d.places with
  | (whole, []) => whole ++ ['.', '0']
  | (whole, part) => whole ++ '.' :: part

def intChars (e : Int) : List Char :=
  if e < 0 then '-' :: digitChars (-e).toNat else digitChars e.toNat

def Digits.scientific (d : Digits) : List Char :=
  match digitChars d.coefficient with
  | first :: second :: rest => first :: '.' :: second :: rest ++ 'e' :: intChars d.leading
  | cs => cs ++ 'e' :: intChars d.leading

/-- Positional from a ten-thousandth up to `10 ^ 16`, with an exponent elsewhere. -/
def Digits.literal (d : Digits) : List Char :=
  if -4 ≤ d.leading ∧ d.leading < 16 then d.pointed else d.scientific

end Idl.Decimal
