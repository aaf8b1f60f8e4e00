import Idl.Wire.Output
import Idl.Wire.Skip

/-!
# Application exceptions

The exception that a peer sends in place of a reply: a text in field 1 and a code in field 2. A
code without a meaning reads as unknown.
-/

set_option autoImplicit false

namespace Idl.Wire

inductive ApplicationKind where
  | unknown
  | unknownMethod
  | invalidMessageType
  | wrongMethodName
  | badSequenceId
  | missingResult
  | internalError
  | protocolError
  deriving DecidableEq, Repr

namespace ApplicationKind

def code : ApplicationKind → Int32
  | .unknown => 0
  | .unknownMethod => 1
  | .invalidMessageType => 2
  | .wrongMethodName => 3
  | .badSequenceId => 4
  | .missingResult => 5
  | .internalError => 6
  | .protocolError => 7

def ofCode (n : Int32) : ApplicationKind :=
  match n.toInt with
  | 1 => .unknownMethod
  | 2 => .invalidMessageType
  | 3 => .wrongMethodName
  | 4 => .badSequenceId
  | 5 => .missingResult
  | 6 => .internalError
  | 7 => .protocolError
  | _ => .unknown

def name : ApplicationKind → String
  | .unknown => "Unknown"
  | .unknownMethod => "UnknownMethod"
  | .invalidMessageType => "InvalidMessageType"
  | .wrongMethodName => "WrongMethodName"
  | .badSequenceId => "BadSequenceId"
  | .missingResult => "MissingResult"
  | .internalError => "InternalError"
  | .protocolError => "ProtocolError"

end ApplicationKind

structure ApplicationException where
  kind : ApplicationKind := .unknown
  text : String := ""
  deriving DecidableEq, Repr

namespace ApplicationException

def display (x : ApplicationException) : String :=
  x.kind.name ++ ": " ++ x.text

def write (x : ApplicationException) : Emission :=
  Emission.field .string 1 ++ Emission.string x.text ++
    (Emission.field .i32 2 ++ Emission.i32 x.kind.code) ++ Emission.stop

def readField (header : FieldHeader) (x : ApplicationException) : Decoder ApplicationException :=
  if header = ⟨.string, 1⟩ then do
    return { x with text := ← Decoder.string }
  else if header = ⟨.i32, 2⟩ then do
    return { x with kind := .ofCode (← Decoder.i32) }
  else do
    skip header.kind
    return x

def read : Decoder ApplicationException := fun bytes =>
  (foldFields readField {} bytes).result

end ApplicationException

inductive Failure where
  | protocol (fault : Fault)
  | application (exception : ApplicationException)
  | user (text : String)
  | io (text : String)
  deriving DecidableEq

def Failure.display : Failure → String
  | .protocol fault => fault.display
  | .application exception => "application exception: " ++ exception.display
  | .user text => "user exception: " ++ text
  | .io text => "IO error: " ++ text

end Idl.Wire
