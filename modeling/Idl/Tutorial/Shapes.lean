import Idl.Value.Default

/-!
# The shapes of the tutorial

The enums, structs, exception and constants that the tutorial services use.
-/

set_option autoImplicit false

namespace Idl.Tutorial

abbrev operation : Shape :=
  .enum "Operation" [("ADD", 1), ("SUBTRACT", 2), ("MULTIPLY", 3), ("DIVIDE", 4)]

abbrev color : Shape :=
  .enum "Color" [("RED", 0), ("GREEN", 5), ("BLUE", 6)]

abbrev workFields : Fields :=
  .cons ⟨1, "num1", some (.integer 0)⟩ .i32 <|
  .cons ⟨2, "num2", none⟩ .i32 <|
  .cons ⟨3, "op", none⟩ operation <|
  .cons ⟨4, "comment", none⟩ .string .nil

abbrev pointFields : Fields :=
  .cons ⟨1, "x", some (.integer 0)⟩ .i32 <|
  .cons ⟨2, "y", some (.integer 0)⟩ .i32 .nil

abbrev work : Shape := .record "Work" workFields

abbrev point : Shape := .record "Point" pointFields

abbrev pointV2Fields : Fields :=
  .cons ⟨1, "x", none⟩ .i32 <|
  .cons ⟨2, "y", none⟩ .i32 <|
  .cons ⟨3, "extra", none⟩ (.list (.map .string work)) <|
  .cons ⟨4, "label", none⟩ .string .nil

abbrev pointWideFields : Fields :=
  .cons ⟨1, "x", none⟩ .i64 <|
  .cons ⟨2, "y", none⟩ .i32 .nil

abbrev containersFields : Fields :=
  .cons ⟨1, "ints", none⟩ (.list .i32) <|
  .cons ⟨2, "names", none⟩ (.set .string) <|
  .cons ⟨3, "groups", none⟩ (.map .string (.list point)) <|
  .cons ⟨4, "weights", none⟩ (.map .i16 (.set .double)) <|
  .cons ⟨5, "matrix", none⟩ (.list (.list .i32)) <|
  .cons ⟨6, "color", none⟩ color <|
  .cons ⟨7, "flag", none⟩ .bool <|
  .cons ⟨8, "small", none⟩ .byte <|
  .cons ⟨9, "big", none⟩ .i64 <|
  .cons ⟨10, "ratio", none⟩ .double <|
  .cons ⟨11, "mood", none⟩ .string <|
  .cons ⟨12, "origin", some (.struct [("x", .integer 1), ("y", .integer 2)])⟩ point <|
  .cons ⟨13, "palette", some (.list [.integer 0, .integer 6])⟩ (.list color) .nil

abbrev invalidOperationFields : Fields :=
  .cons ⟨1, "whatOp", none⟩ .i32 <|
  .cons ⟨2, "why", none⟩ .string .nil

abbrev sharedStructFields : Fields :=
  .cons ⟨1, "key", none⟩ .i32 <|
  .cons ⟨2, "value", none⟩ .string .nil

abbrev invalidOperation : Shape := .record "InvalidOperation" invalidOperationFields

abbrev sharedStruct : Shape := .record "SharedStruct" sharedStructFields

def structs : List (String × Fields) :=
  [("Work", workFields), ("Point", pointFields), ("PointV2", pointV2Fields),
   ("PointWide", pointWideFields), ("Containers", containersFields),
   ("InvalidOperation", invalidOperationFields), ("SharedStruct", sharedStructFields)]

structure Constant where
  name : String
  shape : Shape
  literal : Literal

def Constant.value (c : Constant) : c.shape.Val :=
  (c.shape.ofLiteral? c.literal).getD c.shape.zero

def constants : List Constant :=
  [⟨"INT32CONSTANT", .i32, .integer 9853⟩,
   ⟨"GREETING", .string, .text "hello \"world\""⟩,
   ⟨"MAPCONSTANT", .map .string .string,
     .map [(.text "hello", .text "world"), (.text "goodnight", .text "moon")]⟩,
   ⟨"PI", .double, .double ⟨0x400a000000000000⟩⟩,
   ⟨"DEFAULT_COLOR", color, .integer 5⟩,
   ⟨"ORIGIN", point, .struct [("x", .integer 3), ("y", .integer 4)]⟩,
   ⟨"MATRIX", .list (.list .i32), .list [.list [.integer 1, .integer 2], .list []]⟩,
   ⟨"PRIMES", .set .i16, .set [.integer 7, .integer 2, .integer 3]⟩]

end Idl.Tutorial
