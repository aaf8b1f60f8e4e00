import Idl.Schema.Decl
import Idl.Wire.Output
import Idl.Wire.Skip

/-!
# Samples

A record with a list of numbers and a label, and a schema with any number of structs. They are
made to measure how encoding and generation grow.
-/

set_option autoImplicit false

namespace Idl.Sample

open Wire

def label : String := "benchmark sample"

def record (n : Nat) : Emission :=
  Emission.field .list 1 ++ Emission.items .list .i32 (n % 0x100000000) ++
    Emission.all ((List.range n).map fun i => Emission.i32 (Int32.ofNat i)) ++
    Emission.field .string 2 ++ Emission.string label ++ Emission.stop

def addNumbers : Nat → Int64 → Decoder Int64
  | 0, sum => return sum
  | n + 1, sum => do
    let k ← Decoder.i32
    addNumbers n (sum + k.toInt64)

def addField (header : FieldHeader) (sum : Int64) : Decoder Int64 :=
  if header = ⟨.list, 1⟩ then do
    let (_, n) ← Decoder.items .list
    addNumbers n sum
  else do
    skip header.kind
    return sum

def sum : Decoder Int64 := fun bytes =>
  (foldFields addField 0 bytes).result

def wideRecord (i : Nat) : StructDecl where
  name := "Record" ++ toString i
  fields :=
    [{ id := 1, name := "id", ty := .i64 },
     { id := 2, name := "level", ty := .enum "Level" },
     { id := 3, name := "tags", ty := .set .string, default := some (.list [.text "new"]) },
     { id := 4, name := "history", ty := .map .i32 (.list .double) }]

def wideFunction (i : Nat) : FunctionDecl where
  name := "put" ++ toString i
  returns := .bool
  args := [{ id := 1, name := "record", ty := .struct ("Record" ++ toString i) }]
  throws := [{ id := 1, name := "failure", ty := .exception "Failure" }]

def wideSchema (n : Nat) : Schema where
  name := "bench"
  enums := [{ name := "Level", values := [("LOW", none), ("MEDIUM", none), ("HIGH", none)] }]
  structs :=
    { name := "Failure", isException := true,
      fields :=
        [{ id := 1, name := "code", ty := .i32 }, { id := 2, name := "reason", ty := .string }] }
      :: (List.range n).map wideRecord
  services := [{ name := "Store", functions := (List.range n).map wideFunction }]

end Idl.Sample
