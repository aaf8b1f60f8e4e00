import Idl.Proofs.Value.Application
import Idl.Proofs.Wire.Framing

/-!
# Reading records while the bytes arrive

Values of every shape, and with them records and application exceptions, are read by decoders
that do not change their mind when more bytes follow. The proof follows the shape.
-/

set_option autoImplicit false

namespace Idl

open Wire

theorem readItems_stable {α β : Type} {item : Decoder α} (stable : Stable item) (add : β → α → β)
    (n : Nat) (done : β) : Stable (readItems item add n done) := by
  induction n generalizing done with
  | zero => exact .pure done
  | succ n ih => exact stable.bind fun a => ih (add done a)

mutual

theorem Shape.read_stable : (s : Shape) → Stable s.read
  | .bool => bool_stable
  | .byte => byte_stable
  | .i16 => i16_stable
  | .i32 => i32_stable
  | .i64 => i64_stable
  | .double => double_stable
  | .string => string_stable
  | .enum _ _ => i32_stable
  | .list item => by
    apply (items_stable .list).bind
    intro header
    exact (readItems_stable item.read_stable _ header.2 []).bind fun _ => .pure _
  | .set item => by
    apply (items_stable .set).bind
    intro header
    exact readItems_stable item.read_stable _ header.2 []
  | .map key value => by
    have entry : Stable (readPair key.read value.read) :=
      key.read_stable.bind fun _ => value.read_stable.bind fun _ => .pure _
    apply entries_stable.bind
    intro header
    exact readItems_stable entry _ header.2.2 []
  | .record _ fields => foldFields_stable fields.readField_stable fields.absent

theorem Fields.readField_stable : (fs : Fields) → (header : FieldHeader) → (record : fs.Val) →
    Stable (fs.readField header record)
  | .nil, header, record => (skip_stable header.kind).bind fun _ => .pure record
  | .cons field shape rest, header, (a, others) => by
    have here : Stable (shape.read >>= fun b => pure (some b, others)) :=
      shape.read_stable.bind fun _ => .pure _
    have later := (rest.readField_stable header others).bind fun others => .pure (a, others)
    exact .ite _ here later

end

theorem Fields.readNew_stable (fs : Fields) : Stable fs.readNew :=
  foldFields_stable fs.readField_stable fs.absent

theorem Wire.ApplicationException.read_stable : Stable ApplicationException.read := by
  rw [read_eq]
  exact fields.readNew_stable.map ofRecord

end Idl
