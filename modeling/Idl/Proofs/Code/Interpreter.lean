import Idl.Proofs.Code.LockStep
import Idl.Proofs.Text.Quoted
import Idl.Tutorial.Shapes
import Idl.Value.Codec

/-!
# Generated codecs and the interpreter of shapes

Calls in the outline of a codec get a meaning, which is that of the protocol; a loop runs as often
as the header before it says, and the kinds that a header announces are those of the shape. With
this meaning the text for a struct does what the interpreter does for the shape that spells out the
fields of the struct.
-/

set_option autoImplicit false

namespace Idl

open Wire Emit Code

/-- The shape is the type with what it refers to spelled out. -/
inductive Shape.Spells : Shape → Ty → Prop
  | bool : Spells .bool .bool
  | byte : Spells .byte .byte
  | i16 : Spells .i16 .i16
  | i32 : Spells .i32 .i32
  | i64 : Spells .i64 .i64
  | double : Spells .double .double
  | string : Spells .string .string
  | enum {name : String} {constants : List (String × Int32)} :
      Spells (.enum name constants) (.enum name)
  | struct {name : String} {fields : Fields} : Spells (.record name fields) (.struct name)
  | exception {name : String} {fields : Fields} : Spells (.record name fields) (.exception name)
  | typedef {name : String} {s : Shape} {t : Ty} : Spells s t → Spells s (.typedef name t)
  | list {s : Shape} {t : Ty} : Spells s t → Spells (.list s) (.list t)
  | set {s : Shape} {t : Ty} : Spells s t → Spells (.set s) (.set t)
  | map {s s' : Shape} {t t' : Ty} : Spells s t → Spells s' t' → Spells (.map s s') (.map t t')

inductive Fields.Spell : Fields → List Field → Prop
  | nil : Spell .nil []
  | cons {known : FieldName} {shape : Shape} {rest : Fields} {f : Field} {fields : List Field} :
      known = ⟨f.id, f.name, f.default⟩ → shape.Spells f.ty → Spell rest fields →
      Spell (.cons known shape rest) (f :: fields)

theorem Shape.Spells.wireKind {s : Shape} {t : Ty} (spells : s.Spells t) : t.wireKind = s.kind := by
  induction spells with
  | typedef _ ih => exact ih
  | _ => rfl

theorem Shape.Spells.containsVoid {s : Shape} {t : Ty} (spells : s.Spells t) :
    t.containsVoid = false := by
  induction spells with
  | typedef _ ih | list _ ih | set _ ih => exact ih
  | map _ _ ih ih' => rw [Ty.containsVoid, ih, ih', Bool.or_false]
  | _ => rfl

theorem Fields.Spell.containsVoid {fs : Fields} {fields : List Field} (spell : fs.Spell fields) :
    ∀ f ∈ fields, f.ty.containsVoid = false := by
  induction spell with
  | nil => exact fun _ member => absurd member List.not_mem_nil
  | cons _ spells _ ih => exact List.forall_mem_cons.mpr ⟨spells.containsVoid, ih⟩

def called? (way : Way) (name : String) : List Op → Option (List Op)
  | .call way' name' :: ops => if way' = way ∧ name' = name then some ops else none
  | _ => none

def looped? : List Op → Option (List Op × List Op)
  | .loop body :: ops => some (body, ops)
  | _ => none

def whole? {α : Type} : Option (α × List Op) → Option α
  | some (a, []) => some a
  | _ => none

@[simp] theorem called?_call (way : Way) (name : String) (ops : List Op) :
    called? way name (.call way name :: ops) = some ops :=
  if_pos ⟨rfl, rfl⟩

@[simp] theorem looped?_loop (body ops : List Op) :
    looped? (.loop body :: ops) = some (body, ops) := rfl

theorem whole?_eq {α : Type} {parse : List Op → Option (α × List Op)} {ops : List Op} {a : α}
    (parses : ∀ rest, parse (ops ++ rest) = some (a, rest)) : whole? (parse ops) = some a := by
  have alone := parses []
  rw [List.append_nil] at alone
  rw [alone]
  rfl

namespace Shape

/-- How the calls read a value of the shape, and what is left behind them. -/
def reader? : (s : Shape) → List Op → Option (Decoder s.Val × List Op)
  | .bool, ops => do return (Decoder.bool, ← called? .reads "bool" ops)
  | .byte, ops => do return (Decoder.byte, ← called? .reads "byte" ops)
  | .i16, ops => do return (Decoder.i16, ← called? .reads "i16" ops)
  | .i32, ops => do return (Decoder.i32, ← called? .reads "i32" ops)
  | .i64, ops => do return (Decoder.i64, ← called? .reads "i64" ops)
  | .double, ops => do return (Decoder.double, ← called? .reads "double" ops)
  | .string, ops => do return (Decoder.string, ← called? .reads "string" ops)
  | .enum _ _, ops => do return (Decoder.i32, ← called? .reads "i32" ops)
  | .list item, ops => do
    let (body, ops) ← looped? (← called? .reads "list_begin" ops)
    let each ← whole? (item.reader? body)
    let all : Decoder (List item.Val) := do
      let (_, n) ← Decoder.items .list
      return (← readItems each (fun done a => a :: done) n []).reverse
    return (all, ← called? .reads "list_end" ops)
  | .set item, ops => do
    let (body, ops) ← looped? (← called? .reads "set_begin" ops)
    let each ← whole? (item.reader? body)
    let all : Decoder (List item.Val) := do
      let (_, n) ← Decoder.items .set
      readItems each (fun done a => insertAscending item.order a done) n []
    return (all, ← called? .reads "set_end" ops)
  | .map key value, ops => do
    let (body, ops) ← looped? (← called? .reads "map_begin" ops)
    let (first, body) ← key.reader? body
    let second ← whole? (value.reader? body)
    let all : Decoder (List (key.Val × value.Val)) := do
      let (_, _, n) ← Decoder.entries
      readItems (readPair first second) (fun done e => insertEntry key.order e.1 e.2 done) n []
    return (all, ← called? .reads "map_end" ops)
  | .record _ fields, ops => do return (fields.readNew, ← called? .reads "struct" ops)

def writer? : (s : Shape) → List Op → Option ((s.Val → Emission) × List Op)
  | .bool, ops => do return (Emission.bool, ← called? .writes "bool" ops)
  | .byte, ops => do return (Emission.byte, ← called? .writes "byte" ops)
  | .i16, ops => do return (Emission.i16, ← called? .writes "i16" ops)
  | .i32, ops => do return (Emission.i32, ← called? .writes "i32" ops)
  | .i64, ops => do return (Emission.i64, ← called? .writes "i64" ops)
  | .double, ops => do return (Emission.double, ← called? .writes "double" ops)
  | .string, ops => do return (Emission.string, ← called? .writes "string" ops)
  | .enum _ _, ops => do return (Emission.i32, ← called? .writes "i32" ops)
  | .list item, ops => do
    let (body, ops) ← looped? (← called? .writes "list_begin" ops)
    let each ← whole? (item.writer? body)
    let all (as : List item.Val) : Emission :=
      Emission.items .list item.kind (headerCount as) ++ Emission.all (as.map each)
    return (all, ← called? .writes "list_end" ops)
  | .set item, ops => do
    let (body, ops) ← looped? (← called? .writes "set_begin" ops)
    let each ← whole? (item.writer? body)
    let all (as : List item.Val) : Emission :=
      Emission.items .set item.kind (headerCount as) ++ Emission.all (as.map each)
    return (all, ← called? .writes "set_end" ops)
  | .map key value, ops => do
    let (body, ops) ← looped? (← called? .writes "map_begin" ops)
    let (first, body) ← key.writer? body
    let second ← whole? (value.writer? body)
    let all (es : List (key.Val × value.Val)) : Emission :=
      Emission.entries key.kind value.kind (headerCount es) ++
        Emission.all (es.map fun e => first e.1 ++ second e.2)
    return (all, ← called? .writes "map_end" ops)
  | .record _ fields, ops => do return (fields.write, ← called? .writes "struct" ops)

variable {s : Shape} {t : Ty}

theorem reader?_calls (spells : s.Spells t) (rest : List Op) :
    s.reader? (t.calls .reads ++ rest) = some (s.read, rest) := by
  induction spells generalizing rest with
  | typedef _ ih => exact ih rest
  | list _ ih | set _ ih => simp [reader?, Ty.calls, whole?_eq ih, read]
  | map _ _ ih ih' => simp [reader?, Ty.calls, ih, whole?_eq ih', read]
  | struct | exception =>
    rw [Ty.calls, List.singleton_append, reader?, called?_call]
    rfl
  | _ => simp [reader?, Ty.calls, read]

theorem writer?_calls (spells : s.Spells t) (rest : List Op) :
    s.writer? (t.calls .writes ++ rest) = some (s.write, rest) := by
  induction spells generalizing rest with
  | typedef _ ih => exact ih rest
  | list _ ih | set _ ih => simp [writer?, Ty.calls, whole?_eq ih, write]
  | map _ _ ih ih' => simp [writer?, Ty.calls, ih, whole?_eq ih', write]
  | struct | exception =>
    rw [Ty.calls, List.singleton_append, writer?, called?_call]
    rfl
  | _ => simp [writer?, Ty.calls, write]

end Shape

def Code.FieldCode.Names (c : FieldCode) (header : FieldHeader) : Prop :=
  c.id = toString header.id ∧ c.kind = "rt::WireKind::" ++ header.kind.name

instance (c : FieldCode) (header : FieldHeader) : Decidable (c.Names header) :=
  inferInstanceAs (Decidable (_ ∧ _))

theorem Wire.Kind.name_injective {k k' : Kind} (same : k.name = k'.name) : k = k' := by
  revert same
  cases k <;> cases k' <;> decide

theorem Code.FieldCode.Names.unique {c : FieldCode} {header header' : FieldHeader}
    (names : c.Names header) (names' : c.Names header') : header = header' := by
  obtain ⟨id, kind⟩ := names
  obtain ⟨id', kind'⟩ := names'
  have digits : (toString header.id.toInt).toList ++ [] =
      (toString header'.id.toInt).toList ++ [] :=
    congrArg (fun text => String.toList text ++ []) (id.symm.trans id')
  have ids : header.id = header'.id :=
    Int16.toInt_inj.mp (Text.integer_append_inj (Text.stops_nil _) (Text.stops_nil _) digits).1
  have kinds : header.kind = header'.kind :=
    Wire.Kind.name_injective (String.append_right_inj _ |>.mp (kind.symm.trans kind'))
  cases header
  cases header'
  cases ids
  cases kinds
  rfl

theorem Shape.Spells.names {s : Shape} {f : Field} (spells : s.Spells f.ty) (way : Way) :
    (fieldCode way f).Names ⟨s.kind, f.id⟩ :=
  ⟨rfl, congrArg (fun k => "rt::WireKind::" ++ Kind.name k) spells.wireKind⟩

theorem Shape.Spells.names_iff {s : Shape} {f : Field} (spells : s.Spells f.ty) (way : Way)
    (header : FieldHeader) : (fieldCode way f).Names header ↔ header = ⟨s.kind, f.id⟩ := by
  refine ⟨fun names => names.unique (spells.names way), ?_⟩
  rintro rfl
  exact spells.names way

namespace Fields

/-- What arms do with a field that has a header: the first arm that names the header reads it, and
without such an arm it is passed over. -/
def arms? : (fs : Fields) → List FieldCode → Option (FieldHeader → fs.Val → Decoder fs.Val)
  | .nil, [] => some fun header record => do
    skip header.kind
    return record
  | .cons _ shape rest, arm :: arms => do
    let read ← whole? (shape.reader? arm.ops)
    let others ← rest.arms? arms
    return fun header record =>
      if arm.Names header then do return (some (← read), record.2)
      else do return (record.1, ← others header record.2)
  | _, _ => none

def blocks? : (fs : Fields) → List FieldCode → Option (fs.Val → Emission)
  | .nil, [] => some fun _ => .nothing
  | .cons field shape rest, block :: blocks =>
    if block.Names ⟨shape.kind, field.id⟩ then do
      let write ← whole? (shape.writer? block.ops)
      let others ← rest.blocks? blocks
      return fun record =>
        (match record.1 with
         | none => .nothing
         | some a => Emission.field shape.kind field.id ++ write a) ++ others record.2
    else none
  | _, _ => none

def reader? (fs : Fields) (ops : List Op) : Option (fs.Val → Bytes → Progress fs.Val) :=
  (fs.arms? (readSide ops)).map foldFields

def writer? (fs : Fields) (ops : List Op) : Option (fs.Val → Emission) :=
  (fs.blocks? (writeSide ops)).map fun write record => write record ++ Emission.stop

variable {fs : Fields} {fields : List Field}

theorem arms?_fieldCode (spell : fs.Spell fields) :
    fs.arms? (fields.map (fieldCode .reads)) = some fs.readField := by
  induction spell with
  | nil => rfl
  | @cons known shape rest f fields same spells _ ih =>
    subst same
    have arm : whole? (shape.reader? (fieldCode .reads f).ops) = some shape.read :=
      whole?_eq (shape.reader?_calls spells)
    rw [List.map_cons, arms?, arm, ih]
    simp only [spells.names_iff .reads]
    rfl

theorem blocks?_fieldCode (spell : fs.Spell fields) :
    fs.blocks? (fields.map (fieldCode .writes)) = some fs.writeFields := by
  induction spell with
  | nil => rfl
  | @cons known shape rest f fields same spells _ ih =>
    subst same
    have block : whole? (shape.writer? (fieldCode .writes f).ops) = some shape.write :=
      whole?_eq (shape.writer?_calls spells)
    rw [List.map_cons, blocks?, if_pos (spells.names .writes), block, ih]
    rfl

end Fields

namespace Code

/-- The text of a struct that can be written does what the interpreter does for its shape: its arms
read as `readInto` does and its blocks write as `write` does. -/
theorem structCode_interpreted (s : Schema) (o : Options) {d : StructDecl} {fs : Fields}
    (spell : fs.Spell d.fields) {p : Page} (answered : (p.draft (structCode s o d)).1 = .ok ()) :
    let ops := outline ((structCode s o d p.counter).lines.map Line.text)
    fs.reader? ops = some fs.readInto ∧ fs.writer? ops = some fs.write := by
  intro ops
  have shown : ops = outline (structCode s o d p.counter).texts :=
    congrArg outline (Drafted.map_text_lines _)
  rw [(structCode_shows s o spell.containsVoid p.counter () answered).outline_eq] at shown
  rw [Fields.reader?, Fields.writer?, shown, readSide_struct, writeSide_struct,
    Fields.arms?_fieldCode spell, Fields.blocks?_fieldCode spell]
  exact ⟨rfl, rfl⟩

example : Tutorial.workFields.Spell
    [{ id := 1, name := "num1", ty := .i32, default := some (.integer 0) },
     { id := 2, name := "num2", ty := .i32 },
     { id := 3, name := "op", ty := .enum "Operation" },
     { id := 4, name := "comment", ty := .string }] :=
  .cons rfl .i32 (.cons rfl .i32 (.cons rfl .enum (.cons rfl .string .nil)))

end Code

end Idl
