import Idl.Value.Shape

/-!
# Values of literals

The value that a literal stands for at a shape, the records made of declared defaults, and what
stands in for a value that is absent.
-/

set_option autoImplicit false

namespace Idl

def Literal.within? (v : Literal) (low high : Int) : Option Int :=
  v.integer?.bind fun n => if low ≤ n.toInt ∧ n.toInt ≤ high then some n.toInt else none

def Double.ofInt (n : Int) : Double :=
  ⟨(Float.ofInt n).toBits⟩

def Literal.entries? : Literal → Option (List (String × Literal))
  | .struct entries => some entries
  | .map pairs => pairs.mapM fun
    | (.text key, v) => some (key, v)
    | _ => none
  | _ => none

def lastEntry? (name : String) (entries : List (String × Literal)) : Option Literal :=
  (entries.reverse.find? (·.1 = name)).map (·.2)

mutual

def Shape.ofLiteral? : (s : Shape) → Literal → Option s.Val
  | .bool, v => v.integer?.map (· ≠ 0)
  | .byte, v => (v.within? (-128) 127).map Int8.ofInt
  | .i16, v => (v.within? (-32768) 32767).map Int16.ofInt
  | .i32, v => (v.within? (-2147483648) 2147483647).map Int32.ofInt
  | .i64, v => v.integer?
  | .double, v =>
    match v with
    | .integer n => some (Double.ofInt n.toInt)
    | .double d => some d
    | _ => none
  | .string, v =>
    match v with
    | .text t => some t
    | _ => none
  | .enum _ _, v => (v.within? (-2147483648) 2147483647).map Int32.ofInt
  | .list item, v => do (← v.items?).mapM item.ofLiteral?
  | .set item, v => do return ascending item.order (← (← v.items?).mapM item.ofLiteral?)
  | .map key value, v =>
    match v with
    | .map pairs => do
      let done ← pairs.mapM fun (k, w) => do return (← key.ofLiteral? k, ← value.ofLiteral? w)
      return entries key.order done
    | _ => none
  | .record _ fields, v => do
    let given ← v.entries?
    if given.all (fields.names.contains ·.1) then fields.ofEntries? given else none

/-- The record that some entries stand for; a field that they leave out has its default. -/
def Fields.ofEntries? : (fs : Fields) → List (String × Literal) → Option fs.Val
  | .nil, _ => some ()
  | .cons field shape rest, given => do
    let others ← rest.ofEntries? given
    match lastEntry? field.name given with
    | some v => return (some (← shape.ofLiteral? v), others)
    | none => return (field.default.bind shape.ofLiteral?, others)

end

def Fields.defaults : (fs : Fields) → fs.Val
  | .nil => ()
  | .cons field shape rest => (field.default.bind shape.ofLiteral?, rest.defaults)

def Shape.zero : (s : Shape) → s.Val
  | .bool => false
  | .byte => (0 : Int8)
  | .i16 => (0 : Int16)
  | .i32 => (0 : Int32)
  | .i64 => (0 : Int64)
  | .double => Double.zero
  | .string => ""
  | .enum _ _ => (0 : Int32)
  | .list _ => []
  | .set _ => []
  | .map _ _ => []
  | .record _ fields => fields.defaults

/-- Fills what is absent with its default, or else with zero. -/
def Fields.complete : (fs : Fields) → fs.Val → fs.Full
  | .nil, _ => ()
  | .cons field shape rest, (a, others) =>
    (a.getD ((field.default.bind shape.ofLiteral?).getD shape.zero), rest.complete others)

end Idl
