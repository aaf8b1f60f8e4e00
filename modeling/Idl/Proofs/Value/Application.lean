import Idl.Proofs.Value.Encoding
import Idl.Wire.Application

/-!
# Application exceptions as records

An application exception is read as a record of two fields is: the last text and the last code
count, and whatever else stands in the struct is skipped.
-/

set_option autoImplicit false

namespace Idl.Wire

namespace ApplicationKind

theorem ofCode_code (k : ApplicationKind) : ofCode k.code = k := by
  cases k <;> rfl

theorem ofCode_unlisted (n : Int32) (h : ∀ k : ApplicationKind, k.code ≠ n) :
    ofCode n = .unknown := by
  have other : ∀ k : ApplicationKind, n.toInt ≠ k.code.toInt := by
    intro k hk
    exact h k (Int32.toInt_inj.mp hk.symm)
  unfold ofCode
  split
  · exact absurd ‹_› (other .unknownMethod)
  · exact absurd ‹_› (other .invalidMessageType)
  · exact absurd ‹_› (other .wrongMethodName)
  · exact absurd ‹_› (other .badSequenceId)
  · exact absurd ‹_› (other .missingResult)
  · exact absurd ‹_› (other .internalError)
  · exact absurd ‹_› (other .protocolError)
  · rfl

end ApplicationKind

namespace ApplicationException

abbrev fields : Fields :=
  .cons ⟨1, "message", none⟩ .string <| .cons ⟨2, "type", none⟩ .i32 .nil

def ofRecord : fields.Val → ApplicationException
  | (text, code, _) => ⟨code.elim .unknown .ofCode, text.getD ""⟩

theorem fields_distinct : fields.Distinct := by
  simp [Fields.Distinct, Fields.headers, Shape.Distinct, Shape.kind]

theorem readField_ofRecord (header : FieldHeader) (record : fields.Val) :
    readField header (ofRecord record) = ofRecord <$> fields.readField header record := by
  obtain ⟨text, code, rest⟩ := record
  unfold readField
  by_cases ht : header = ⟨.string, 1⟩
  · simp [Fields.readField, Shape.kind, Shape.read, ofRecord, ht]
  · by_cases hc : header = ⟨.i32, 2⟩
    · simp [Fields.readField, Shape.kind, Shape.read, ofRecord, hc]
    · simp [Fields.readField, Shape.kind, ofRecord, ht, hc]

theorem read_struct (rs : List Record) (h : ∀ r ∈ rs, fields.Admits r) :
    ∃ record, fields.Holds record rs ∧ Reads read (Tree.struct rs).encode (ofRecord record) := by
  have start : ∃ record, fields.Holds record [] ∧ ({} : ApplicationException) = ofRecord record :=
    ⟨fields.absent, fields.holds_absent, rfl⟩
  obtain ⟨x, ⟨record, hold, rfl⟩, hread⟩ := foldFields_records readField rs
    (fun done x => ∃ record, fields.Holds record done ∧ x = ofRecord record)
    (fun done r x hr ⟨record, hd, hx⟩ => by
      obtain ⟨next, hnext, hold⟩ := fields.readField_record fields_distinct
        (fields.readBack fields_distinct) r (h r hr) done record hd
      refine ⟨ofRecord next, ?_, next, hold, rfl⟩
      rw [hx, readField_ofRecord]
      exact hnext.map ofRecord)
    {} start
  exact ⟨record, hold, hread⟩

theorem read_eq : read = ofRecord <$> fields.readNew := by
  funext bytes
  change _ = EStateM.map ofRecord fields.readNew bytes
  have folded := fold_map fields.readField ofRecord readField readField_ofRecord bytes.length
    fields.absent bytes
  change (foldFieldsWithin readField bytes.length (ofRecord fields.absent) bytes).result = _
  rw [folded, EStateM.map, Fields.readNew, Fields.readInto, foldFields, Progress.result,
    Progress.result]
  dsimp only
  cases (foldFieldsWithin fields.readField bytes.length fields.absent bytes).fault <;> rfl

end ApplicationException

end Idl.Wire
