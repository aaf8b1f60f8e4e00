import Idl.Value.Shape
import Idl.Wire.Output
import Idl.Wire.Skip

/-!
# Values on the wire

A record is written as its present fields in the order of their declaration. When a record is
read, a field whose id and kind are not declared is passed over, and the last of several
occurrences of a field is kept. The kinds that a container announces for its items are not
compared with the shape.
-/

set_option autoImplicit false

namespace Idl

open Wire

def readItems {α β : Type} (item : Decoder α) (add : β → α → β) : Nat → β → Decoder β
  | 0, done => return done
  | n + 1, done => do
    let a ← item
    readItems item add n (add done a)

def readPair {α β : Type} (first : Decoder α) (second : Decoder β) : Decoder (α × β) := do
  let a ← first
  return (a, ← second)

mutual

def Shape.read : (s : Shape) → Decoder s.Val
  | .bool => Decoder.bool
  | .byte => Decoder.byte
  | .i16 => Decoder.i16
  | .i32 => Decoder.i32
  | .i64 => Decoder.i64
  | .double => Decoder.double
  | .string => Decoder.string
  | .enum _ _ => Decoder.i32
  | .list item => do
    let (_, n) ← Decoder.items .list
    return (← readItems item.read (fun done a => a :: done) n []).reverse
  | .set item => do
    let (_, n) ← Decoder.items .set
    readItems item.read (fun done a => insertAscending item.order a done) n []
  | .map key value => do
    let (_, _, n) ← Decoder.entries
    readItems (readPair key.read value.read)
      (fun done e => insertEntry key.order e.1 e.2 done) n []
  | .record _ fields => fun bytes => (foldFields fields.readField fields.absent bytes).result

/-- Reads the value behind a header into the first field that is declared so. -/
def Fields.readField : (fs : Fields) → FieldHeader → fs.Val → Decoder fs.Val
  | .nil, header, record => do
    skip header.kind
    return record
  | .cons field shape rest, header, (a, others) =>
    if header = ⟨shape.kind, field.id⟩ then do
      let b ← shape.read
      return (some b, others)
    else do
      let others ← rest.readField header others
      return (a, others)

end

/-- Reads fields into a record; those read before a fault stay. -/
def Fields.readInto (fs : Fields) (record : fs.Val) (bytes : Bytes) : Progress fs.Val :=
  foldFields fs.readField record bytes

def Fields.readNew (fs : Fields) : Decoder fs.Val := fun bytes =>
  (fs.readInto fs.absent bytes).result

/-- The number of items as a header carries it, which has thirty-two bits. -/
def headerCount {α : Type} (items : List α) : Nat :=
  items.length % 0x100000000

mutual

def Shape.write : (s : Shape) → s.Val → Emission
  | .bool, b => .bool b
  | .byte, n => .byte n
  | .i16, n => .i16 n
  | .i32, n => .i32 n
  | .i64, n => .i64 n
  | .double, d => .double d
  | .string, s => .string s
  | .enum _ _, n => .i32 n
  | .list item, as =>
    Emission.items .list item.kind (headerCount as) ++ Emission.all (as.map item.write)
  | .set item, as =>
    Emission.items .set item.kind (headerCount as) ++ Emission.all (as.map item.write)
  | .map key value, es =>
    Emission.entries key.kind value.kind (headerCount es) ++
      Emission.all (es.map fun e => key.write e.1 ++ value.write e.2)
  | .record _ fields, record => fields.writeFields record ++ Emission.stop

def Fields.writeFields : (fs : Fields) → fs.Val → Emission
  | .nil, _ => .nothing
  | .cons field shape rest, (a, others) =>
    (match a with
     | none => .nothing
     | some b => Emission.field shape.kind field.id ++ shape.write b) ++ rest.writeFields others

end

def Fields.write (fs : Fields) (record : fs.Val) : Emission :=
  fs.writeFields record ++ Emission.stop

end Idl
