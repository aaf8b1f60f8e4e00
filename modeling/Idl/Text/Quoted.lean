import Idl.Text.Printable

/-!
# Quoted text

A text between double quotes. The quote, the backslash and four controls have a short escape,
every other character that is not plain is written by its code point in hexadecimal.
-/

set_option autoImplicit false

namespace Idl.Text

def hexDigits (n : Nat) : List Char :=
  Nat.toDigits 16 n

def escapeChar (c : Char) : List Char :=
  if c = '\x00' then ['\\', '0']
  else if c = '\t' then ['\\', 't']
  else if c = '\r' then ['\\', 'r']
  else if c = '\n' then ['\\', 'n']
  else if c = '\\' ∨ c = '"' then ['\\', c]
  else if isPlain c then [c]
  else ['\\', 'u', '\x7b'] ++ hexDigits c.toNat ++ ['\x7d']

def quotedChars (cs : List Char) : List Char :=
  '"' :: cs.flatMap escapeChar ++ ['"']

def quoted (s : String) : String :=
  String.ofList (quotedChars s.toList)

end Idl.Text
