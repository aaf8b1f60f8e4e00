import Idl.Proofs.Code.Struct

/-!
# Both directions of a codec

The statements that read a value and those that write it are made by two recursions over its type,
and a field has an arm in the one function and a block in the other. Both show the same calls to the
protocol in the same order, inside the same loops, under the same id and kind. They can be written
for the same types: those without void in them.
-/

set_option autoImplicit false

namespace Idl

namespace Emit

def Way.turned : Way → Way
  | .reads => .writes
  | .writes => .reads

mutual

def Op.turned : Op → Op
  | .call way name => .call way.turned name
  | .header id kind => .header id kind
  | .loop body => .loop (turnedAll body)
  | .scope head body => .scope head (turnedAll body)

def turnedAll : List Op → List Op
  | [] => []
  | op :: ops => op.turned :: turnedAll ops

end

@[simp] theorem turnedAll_append (ops ops' : List Op) :
    turnedAll (ops ++ ops') = turnedAll ops ++ turnedAll ops' := by
  induction ops with
  | nil => rfl
  | cons op ops ih => rw [List.cons_append, turnedAll, turnedAll, ih, List.cons_append]

end Emit

namespace Ty

open Emit

end Ty

namespace Code

open Emit Draft

structure FieldCode where
  id : String
  kind : String
  ops : List Op

def FieldCode.turned (c : FieldCode) : FieldCode :=
  { c with ops := turnedAll c.ops }

def fieldCode (way : Way) (f : Field) : FieldCode :=
  ⟨toString f.id, f.ty.kindCode, f.ty.calls way⟩

def bodies (isHead : String → Bool) (ops : List Op) : List Op :=
  ops.flatMap fun
    | .scope head body => if isHead head then body else []
    | _ => []

variable {isHead : String → Bool}

@[simp] theorem bodies_nil : bodies isHead [] = [] := rfl

@[simp] theorem bodies_call (way : Way) (name : String) (ops : List Op) :
    bodies isHead (.call way name :: ops) = bodies isHead ops := rfl

theorem bodies_scope {head : String} (named : isHead head = true) (body ops : List Op) :
    bodies isHead (.scope head body :: ops) = body ++ bodies isHead ops := by
  change (if isHead head then body else []) ++ bodies isHead ops = _
  rw [if_pos named]

theorem bodies_other {head : String} (other : isHead head = false) (body ops : List Op) :
    bodies isHead (.scope head body :: ops) = bodies isHead ops := by
  change (if isHead head then body else []) ++ bodies isHead ops = _
  rw [other]
  rfl

theorem bodies_append (ops ops' : List Op) :
    bodies isHead (ops ++ ops') = bodies isHead ops ++ bodies isHead ops' :=
  List.flatMap_append

/-- An arm with the pattern `<id> if field.kind == <kind> =>`. -/
def arm? : Op → Option FieldCode
  | .scope head body => do
    let rest ← (head.toList.dropWhile (· ≠ ' ')).dropPrefix? " if field.kind == ".toList
    if rest.dropWhile (· ≠ ' ') = " =>".toList then
      some ⟨String.ofList (head.toList.takeWhile (· ≠ ' ')),
        String.ofList (rest.takeWhile (· ≠ ' ')), body⟩
    else none
  | _ => none

/-- A block that begins with the header of a field and ends with the end of one. -/
def written? : Op → Option FieldCode
  | .scope _ (.header id kind :: rest) =>
    match rest.reverse with
    | .call .writes name :: back =>
      if name = "field_end" then some ⟨id, kind, back.reverse⟩ else none
    | _ => none
  | _ => none

def isImpl (head : String) : Bool :=
  "impl ".toList.isPrefixOf head.toList

def readSide (ops : List Op) : List FieldCode :=
  (bodies (· = "match field.id") (bodies (· = "loop") (bodies (· = readHead)
    (bodies isImpl ops)))).filterMap arm?

def writeSide (ops : List Op) : List FieldCode :=
  (bodies (· = writeHead) (bodies isImpl ops)).filterMap written?

theorem arm?_readArm (f : Field) : arm? (readArm f) = some (fieldCode .reads f) := by
  have shape : (armHead f).toList = (toString f.id).toList ++ ' ' ::
      ("if field.kind == ".toList ++ (f.ty.kindCode.toList ++ ' ' :: "=>".toList)) := by
    simp [armHead]
  have pattern : (' ' :: ("if field.kind == ".toList ++ (f.ty.kindCode.toList ++
      ' ' :: "=>".toList))).dropPrefix? " if field.kind == ".toList =
        some (f.ty.kindCode.toList ++ ' ' :: "=>".toList) :=
    dropPrefix?_append " if field.kind == ".toList _
  rw [readArm, arm?, shape, dropWhile_ne_blank (id_plain f.id), takeWhile_ne_blank (id_plain f.id),
    pattern]
  simp only [Option.bind_eq_bind, Option.bind_some, dropWhile_ne_blank (kind_plain f.ty),
    takeWhile_ne_blank (kind_plain f.ty), String.ofList_toList]
  rfl

theorem written?_writeBlock (f : Field) :
    written? (writeBlock f) = some (fieldCode .writes f) := by
  simp [writeBlock, written?, fieldCode]

theorem readSide_struct (d : StructDecl) :
    readSide [.scope ("impl " ++ Ident.type d.name) [readOp d.fields, writeOp d.fields]] =
      d.fields.map (fieldCode .reads) := by
  have impl : isImpl ("impl " ++ Ident.type d.name) = true := isPrefixOf_append _ rfl
  -- Without fields there is no match, and the scope is missing from the outline.
  have arms : bodies (· = "match field.id") (closed "match field.id" (d.fields.map readArm)) =
      d.fields.map readArm := by
    have first : "match field.id".toList.head? = some 'm' := rfl
    cases d.fields with
    | nil => rfl
    | cons f rest =>
      rw [List.map_cons, closed_scope first (by decide) (List.cons_ne_nil _ _),
        bodies_scope (by decide), bodies_nil, List.append_nil]
  rw [readSide, bodies_scope impl, bodies_nil, List.append_nil, readOp, bodies_scope (by decide),
    writeOp, bodies_other (by decide), bodies_nil, List.append_nil, bodies_call,
    bodies_scope (by decide), bodies_nil, List.append_nil, List.cons_append, bodies_call,
    bodies_append, arms, bodies_call, bodies_nil, List.append_nil, List.filterMap_map]
  have each : arm? ∘ readArm = some ∘ fieldCode .reads := funext arm?_readArm
  rw [each, List.filterMap_eq_map]

theorem writeSide_struct (d : StructDecl) :
    writeSide [.scope ("impl " ++ Ident.type d.name) [readOp d.fields, writeOp d.fields]] =
      d.fields.map (fieldCode .writes) := by
  have impl : isImpl ("impl " ++ Ident.type d.name) = true := isPrefixOf_append _ rfl
  have each : written? ∘ writeBlock = some ∘ fieldCode .writes := funext written?_writeBlock
  have call (name : String) : written? (.call .writes name) = none := rfl
  rw [writeSide, bodies_scope impl, bodies_nil, List.append_nil, readOp, bodies_other (by decide),
    writeOp, bodies_scope (by decide), bodies_nil, List.append_nil, List.cons_append,
    List.filterMap_cons_none (call _), List.filterMap_append, List.filterMap_map, each,
    List.filterMap_eq_map, List.filterMap_cons_none (call _)]
  exact List.append_nil _

end Code

end Idl
