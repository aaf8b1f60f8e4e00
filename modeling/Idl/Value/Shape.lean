import Idl.Double
import Idl.Order
import Idl.Schema.Literal
import Idl.Wire.Kind

/-!
# Shapes and their values

A shape is a type with everything it refers to spelled out. Each shape has its type of values:
numbers by their width, texts, lists, sets and maps as ascending lists, and records with one
place for each field, empty when the field is absent.
-/

set_option autoImplicit false

namespace Idl

structure FieldName where
  id : Int16
  name : String
  default : Option Literal := none

mutual

inductive Shape where
  | bool
  | byte
  | i16
  | i32
  | i64
  | double
  | string
  | enum (name : String) (constants : List (String × Int32))
  | list (item : Shape)
  | set (item : Shape)
  | map (key value : Shape)
  | record (name : String) (fields : Fields)

inductive Fields where
  | nil
  | cons (field : FieldName) (shape : Shape) (rest : Fields)

end

mutual

@[reducible] def Shape.Val : Shape → Type
  | .bool => Bool
  | .byte => Int8
  | .i16 => Int16
  | .i32 => Int32
  | .i64 => Int64
  | .double => Double
  | .string => String
  | .enum _ _ => Int32
  | .list item => List item.Val
  | .set item => List item.Val
  | .map key value => List (key.Val × value.Val)
  | .record _ fields => fields.Val

/-- Records: a place for each field. -/
@[reducible] def Fields.Val : Fields → Type
  | .nil => Unit
  | .cons _ shape rest => Option shape.Val × rest.Val

end

@[reducible] def Fields.Full : Fields → Type
  | .nil => Unit
  | .cons _ shape rest => shape.Val × rest.Full

@[reducible] def Fields.One : Fields → Type
  | .nil => Empty
  | .cons _ shape rest => shape.Val ⊕ rest.One

def Shape.kind : Shape → Wire.Kind
  | .bool => .bool
  | .byte => .byte
  | .i16 => .i16
  | .i32 | .enum _ _ => .i32
  | .i64 => .i64
  | .double => .double
  | .string => .string
  | .list _ => .list
  | .set _ => .set
  | .map _ _ => .map
  | .record _ _ => .struct

mutual

/-- The order of values: numbers by size, texts by their characters, lists by their first
difference, records field by field. -/
def Shape.order : (s : Shape) → s.Val → s.Val → Ordering
  | .bool, a, b => orderNats a.toNat b.toNat
  | .byte, a, b => orderInts a.toInt b.toInt
  | .i16, a, b => orderInts a.toInt b.toInt
  | .i32, a, b => orderInts a.toInt b.toInt
  | .i64, a, b => orderInts a.toInt b.toInt
  | .double, a, b => a.order b
  | .string, a, b => orderTexts a b
  | .enum _ _, a, b => orderInts a.toInt b.toInt
  | .list item, a, b => orderLists item.order a b
  | .set item, a, b => orderLists item.order a b
  | .map key value, a, b => orderLists (orderPairs key.order value.order) a b
  | .record _ fields, a, b => fields.order a b

def Fields.order : (fs : Fields) → fs.Val → fs.Val → Ordering
  | .nil, _, _ => .eq
  | .cons _ shape rest, a, b => (orderOptions shape.order a.1 b.1).then (rest.order a.2 b.2)

end

namespace Fields

def names : Fields → List String
  | .nil => []
  | .cons field _ rest => field.name :: rest.names

def absent : (fs : Fields) → fs.Val
  | .nil => ()
  | .cons _ _ rest => (none, rest.absent)

def ofFull : (fs : Fields) → fs.Full → fs.Val
  | .nil, _ => ()
  | .cons _ _ rest, (a, others) => (some a, rest.ofFull others)

def ofOne : (fs : Fields) → fs.One → fs.Val
  | .cons _ _ rest, .inl a => (some a, rest.absent)
  | .cons _ _ rest, .inr x => (none, rest.ofOne x)

def first? : (fs : Fields) → fs.Val → Option fs.One
  | .nil, _ => none
  | .cons _ _ _, (some a, _) => some (.inl a)
  | .cons _ _ rest, (none, others) => (rest.first? others).map .inr

end Fields

end Idl
