import Idl.Rpc.Processor
import Idl.Tutorial.Shapes

/-!
# The services of the tutorial

A store of shared structs, a calculator that extends it, a scientific calculator that extends
that one, and a factory on its own.
-/

set_option autoImplicit false

namespace Idl.Tutorial

open Rpc

inductive Function where
  | getStruct
  | ping
  | add
  | calculate
  | reset
  | zip
  | sqrt
  | new
  | channelMut
  | intoChannel
  deriving DecidableEq, Repr

namespace Function

def all : List Function :=
  [.getStruct, .ping, .add, .calculate, .reset, .zip, .sqrt, .new, .channelMut, .intoChannel]

abbrev ouch : Fields := .cons ⟨1, "ouch", none⟩ invalidOperation .nil

@[reducible] def signature : Function → Signature
  | .getStruct =>
    { name := "getStruct", args := .cons ⟨1, "key", none⟩ .i32 .nil
      reply := .value sharedStruct .nil }
  | .ping => { name := "ping", reply := .empty .nil }
  | .add =>
    { name := "add", args := .cons ⟨1, "num1", none⟩ .i32 (.cons ⟨2, "num2", none⟩ .i32 .nil)
      reply := .value .i32 .nil }
  | .calculate =>
    { name := "calculate"
      args := .cons ⟨1, "logid", none⟩ .i32 (.cons ⟨2, "w", none⟩ work .nil)
      reply := .value .i32 ouch }
  | .reset => { name := "reset", reply := .empty ouch }
  | .zip => { name := "zip", reply := .never }
  | .sqrt =>
    { name := "sqrt", args := .cons ⟨1, "value", none⟩ .double .nil, reply := .value .double .nil }
  | .new => { name := "new", args := .cons ⟨1, "seed", none⟩ .i32 .nil, reply := .value .i32 .nil }
  | .channelMut =>
    { name := "channelMut", args := .cons ⟨1, "batch", some (.integer 8)⟩ .i32 .nil
      reply := .value .i32 .nil }
  | .intoChannel => { name := "intoChannel", reply := .never }

end Function

abbrev interface : Interface := ⟨Function, Function.signature⟩

def sharedService : Service interface where
  name := "SharedService"
  functions := [.getStruct]

def calculator : Service interface where
  name := "Calculator"
  functions := [.ping, .add, .calculate, .reset, .zip]
  inherited := sharedService.functions

def scientificCalculator : Service interface where
  name := "ScientificCalculator"
  functions := [.sqrt]
  inherited := calculator.functions ++ calculator.inherited

def factory : Service interface where
  name := "Factory"
  functions := [.new, .channelMut, .intoChannel]

def services : List (Service interface) :=
  [sharedService, calculator, scientificCalculator, factory]

end Idl.Tutorial
