import Idl.Text.Quoted
import Idl.Text.Utf8
import Idl.Wire.Kind

/-!
# Faults of wire data
-/

set_option autoImplicit false

namespace Idl.Wire

inductive Sized where
  | string
  | list
  | set
  | map
  deriving DecidableEq, Repr

def Sized.display : Sized → String
  | .string => "string"
  | .list => "list"
  | .set => "set"
  | .map => "map"

inductive Fault where
  | truncated (needed remaining : Nat)
  | negativeSize (what : Sized) (size : Int32)
  | oversize (what : Sized) (size : Nat)
  /-- A text whose size does not even fit an unsigned word. -/
  | overlong
  | badVersion (word : UInt32)
  | unknownKind (tag : UInt8)
  | unknownMessage (tag : UInt8)
  | badText (fault : Text.Utf8Fault)
  | unskippable (kind : Kind)
  | tooDeep
  | rejected (text : String)
  deriving DecidableEq

namespace Fault

inductive Category where
  | unexpectedEof
  | negativeSize
  | badVersion
  | invalidData
  | depthLimit
  deriving DecidableEq, Repr

def Category.display : Category → String
  | .unexpectedEof => "UnexpectedEof"
  | .negativeSize => "NegativeSize"
  | .badVersion => "BadVersion"
  | .invalidData => "InvalidData"
  | .depthLimit => "DepthLimit"

def category : Fault → Category
  | .truncated _ _ => .unexpectedEof
  | .negativeSize _ _ => .negativeSize
  | .badVersion _ => .badVersion
  | .tooDeep => .depthLimit
  | .oversize _ _ | .overlong | .unknownKind _ | .unknownMessage _ | .badText _ | .unskippable _
  | .rejected _ => .invalidData

def wordText (word : UInt32) : String :=
  let digits := Text.hexDigits word.toNat
  "0x" ++ String.ofList (List.replicate (8 - digits.length) '0' ++ digits)

def message : Fault → String
  | .truncated needed remaining => s!"need {needed} bytes, {remaining} remaining"
  | .negativeSize what size => s!"{what.display} size {size} is negative"
  | .oversize what size => s!"{what.display} size {size} exceeds i32"
  | .overlong => "string longer than i32::MAX"
  | .badVersion word => s!"bad message version word {wordText word}"
  | .unknownKind tag => s!"unknown wire kind {tag}"
  | .unknownMessage tag => s!"unknown message kind {tag}"
  | .badText fault => s!"invalid UTF-8: {fault.message}"
  | .unskippable kind => s!"cannot skip a value of kind {kind.display}"
  | .tooDeep => "skip exceeded 64 nested levels"
  | .rejected text => text

def display (f : Fault) : String :=
  s!"protocol error ({f.category.display}): {f.message}"

end Fault

end Idl.Wire
