import Idl.Proofs.Wire.Records
import Idl.Value.Codec

/-!
# Reading into a record that has values

The same bytes can be read into a record that already holds something and into the empty record.
The two readings go through the same fields, fail at the same byte for the same reason, and differ
only in the places of fields that the bytes do not hold.
-/

set_option autoImplicit false

namespace Idl

open Wire

namespace Fields

/-- The fields that are present in the first record, and for the others those of the second. -/
def overlay : (fs : Fields) → fs.Val → fs.Val → fs.Val
  | .nil, _, _ => ()
  | .cons _ _ rest, (a, others), (b, below) => (a.or b, rest.overlay others below)

@[simp] theorem absent_overlay : (fs : Fields) → (below : fs.Val) →
    fs.overlay fs.absent below = below
  | .nil, _ => rfl
  | .cons _ _ rest, (_, below) => by rw [absent, overlay, rest.absent_overlay below, Option.none_or]

theorem readField_overlay : (fs : Fields) → (header : FieldHeader) → (record below : fs.Val) →
    fs.readField header (fs.overlay record below) =
      (fs.overlay · below) <$> fs.readField header record
  | .nil, header, _, _ => by simp [readField, overlay]
  | .cons field shape rest, header, (a, others), (b, below) => by
    have later := rest.readField_overlay header others below
    rw [overlay, readField, readField]
    by_cases here : header = ⟨shape.kind, field.id⟩
    · simp [here, overlay]
    · simp [here, later, overlay]

/-- Reading into a record succeeds or fails as reading a new one does, with the same fault and the
same bytes left. A field that was read has its new value, and any other keeps what it had. -/
theorem readInto_overlays (fs : Fields) (initial : fs.Val) (bytes : Bytes) :
    (fs.readInto initial bytes).result =
      match fs.readNew bytes with
      | .ok record rest => .ok (fs.overlay record initial) rest
      | .error fault rest => .error fault rest := by
  have both := fold_map fs.readField (fs.overlay · initial) fs.readField
    (fun header record => fs.readField_overlay header record initial) bytes.length fs.absent bytes
  rw [absent_overlay] at both
  unfold readNew readInto foldFields
  rw [both, Progress.result, Progress.result]
  dsimp only
  cases (foldFieldsWithin fs.readField bytes.length fs.absent bytes).fault with
  | none => rfl
  | some fault => rfl

end Fields

end Idl
