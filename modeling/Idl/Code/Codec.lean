import Idl.Code.Type
import Idl.Emit.Page

/-!
# Statements that read and write values

Both directions follow the type. Every temporary takes its name from the counter of the draft,
so that nested containers never use a name twice.
-/

set_option autoImplicit false

namespace Idl.Code

open Emit Draft

def fillCode (start finish head : String) (items : Draft Unit) : Draft Unit :=
  block "" "" do
    line ("let " ++ head ++ " = input." ++ start ++ "()?;")
    block ("for _ in 0.." ++ head ++ ".size") "" items
    line ("input." ++ finish ++ "()?;")

/-- Statements that bind `target` to a value read from `input`. -/
def readCode : Ty → String → Draft Unit
  | .void, _ => fail (.unsupported .voidRead)
  | .bool, target => line ("let " ++ target ++ " = input.read_bool()?;")
  | .byte, target => line ("let " ++ target ++ " = input.read_byte()?;")
  | .i16, target => line ("let " ++ target ++ " = input.read_i16()?;")
  | .i32, target => line ("let " ++ target ++ " = input.read_i32()?;")
  | .i64, target => line ("let " ++ target ++ " = input.read_i64()?;")
  | .double, target => line ("let " ++ target ++ " = rt::Double(input.read_double()?);")
  | .string, target => line ("let " ++ target ++ " = input.read_string()?;")
  | .enum name, target =>
    line ("let " ++ target ++ " = " ++ Ident.type name ++ "(input.read_i32()?);")
  | .struct name, target | .exception name, target =>
    line ("let " ++ target ++ " = " ++ Ident.type name ++ "::read_new(input)?;")
  | .typedef _ type, target => readCode type target
  | .list item, target => do
    line ("let mut " ++ target ++ ": " ++ (Ty.list item).code ++ " = Vec::new();")
    let head ← tmp "_list"
    fillCode "read_list_begin" "read_list_end" head do
      let element ← tmp "_elem"
      readCode item element
      line (target ++ ".push(" ++ element ++ ");")
  | .set item, target => do
    line ("let mut " ++ target ++ ": " ++ (Ty.set item).code ++ " = " ++ Ty.setPath ++ "::new();")
    let head ← tmp "_set"
    fillCode "read_set_begin" "read_set_end" head do
      let element ← tmp "_elem"
      readCode item element
      line (target ++ ".insert(" ++ element ++ ");")
  | .map key value, target => do
    line ("let mut " ++ target ++ ": " ++ (Ty.map key value).code ++ " = " ++ Ty.mapPath ++
      "::new();")
    let head ← tmp "_map"
    fillCode "read_map_begin" "read_map_end" head do
      let k ← tmp "_key"
      let v ← tmp "_val"
      readCode key k
      readCode value v
      line (target ++ ".insert(" ++ k ++ ", " ++ v ++ ");")

/-- Statements that write `value`, a reference, to `output`. -/
def writeCode : Ty → String → Draft Unit
  | .void, _ => fail (.unsupported .voidWrite)
  | .bool, value => line ("output.write_bool(*" ++ value ++ ")?;")
  | .byte, value => line ("output.write_byte(*" ++ value ++ ")?;")
  | .i16, value => line ("output.write_i16(*" ++ value ++ ")?;")
  | .i32, value => line ("output.write_i32(*" ++ value ++ ")?;")
  | .i64, value => line ("output.write_i64(*" ++ value ++ ")?;")
  | .double, value => line ("output.write_double(" ++ value ++ ".0)?;")
  | .string, value => line ("output.write_string(" ++ value ++ ")?;")
  | .enum _, value => line ("output.write_i32(" ++ value ++ ".0)?;")
  | .struct _, value | .exception _, value => line (value ++ ".write(output)?;")
  | .typedef _ type, value => writeCode type value
  | .list item, value => do
    line ("output.write_list_begin(&rt::ListHeader::new(" ++ item.kindCode ++ ", " ++ value ++
      ".len() as u32))?;")
    let each ← tmp "_iter"
    block ("for " ++ each ++ " in " ++ value) "" (writeCode item each)
    line "output.write_list_end()?;"
  | .set item, value => do
    line ("output.write_set_begin(&rt::SetHeader::new(" ++ item.kindCode ++ ", " ++ value ++
      ".len() as u32))?;")
    let each ← tmp "_iter"
    block ("for " ++ each ++ " in " ++ value) "" (writeCode item each)
    line "output.write_set_end()?;"
  | .map key entry, value => do
    line ("output.write_map_begin(&rt::MapHeader::new(" ++ key.kindCode ++ ", " ++ entry.kindCode ++
      ", " ++ value ++ ".len() as u32))?;")
    let k ← tmp "_kiter"
    let v ← tmp "_viter"
    block ("for (" ++ k ++ ", " ++ v ++ ") in " ++ value) "" do
      writeCode key k
      writeCode entry v
    line "output.write_map_end()?;"

end Idl.Code
