import Idl.Proofs.Tutorial.Records
import Idl.Proofs.Value.Framing

/-!
# Reading from a connection

Bytes arrive in pieces, and a reader can try again whenever a piece arrives. This is sound for
everything that reads: only a reading that ran out of bytes can end otherwise when more bytes
follow, and no beginning of a written value passes for a value.
-/

set_option autoImplicit false

namespace Idl.Tutorial

open Wire Wire.Tree

/-- What can be read off some bytes: words, texts and headers, a value of some kind that is passed
over, an application exception, and the records of the tutorial. -/
inductive Reading where
  /-- The marks around messages, structs, fields and containers, which take no bytes. -/
  | mark
  | message
  | field
  | items (what : Sized)
  | entries
  | bool
  | byte
  | i16
  | i32
  | i64
  | double
  | string
  | skip (kind : Kind)
  | exception
  | record (fs : Fields) (declared : fs ∈ recordFields)

namespace Reading

def Answer : Reading → Type
  | .mark => Unit
  | .message => MessageHeader
  | .field => Option FieldHeader
  | .items _ => Kind × Nat
  | .entries => Kind × Kind × Nat
  | .bool => Bool
  | .byte => Int8
  | .i16 => Int16
  | .i32 => Int32
  | .i64 => Int64
  | .double => Double
  | .string => String
  | .skip _ => Unit
  | .exception => ApplicationException
  | .record fs _ => fs.Val

def decoder : (r : Reading) → Decoder r.Answer
  | .mark => (pure () : Decoder Unit)
  | .message => Decoder.message
  | .field => Decoder.field
  | .items what => Decoder.items what
  | .entries => Decoder.entries
  | .bool => Decoder.bool
  | .byte => Decoder.byte
  | .i16 => Decoder.i16
  | .i32 => Decoder.i32
  | .i64 => Decoder.i64
  | .double => Decoder.double
  | .string => Decoder.string
  | .skip kind => Wire.skip kind
  | .exception => ApplicationException.read
  | .record fs _ => fs.readNew

theorem decoder_stable (r : Reading) : Stable r.decoder := by
  cases r with
  | mark => exact .pure ()
  | message => exact message_stable
  | field => exact field_stable
  | items what => exact items_stable what
  | entries => exact entries_stable
  | bool => exact bool_stable
  | byte => exact byte_stable
  | i16 => exact i16_stable
  | i32 => exact i32_stable
  | i64 => exact i64_stable
  | double => exact double_stable
  | string => exact string_stable
  | skip kind => exact skip_stable kind
  | exception => exact ApplicationException.read_stable
  | record fs declared => exact fs.readNew_stable

end Reading

/-- More bytes do not change what was read, nor a fault other than that of too few bytes; they are
left after what was left before. A written record, and a value that can be skipped, is taken in
full, and every proper beginning of it is refused for too few bytes. -/
theorem reading_persists :
    (∀ (r : Reading) (bytes suffix : Bytes),
      (∀ a rest, r.decoder bytes = .ok a rest →
        r.decoder (bytes ++ suffix) = .ok a (rest ++ suffix)) ∧
      ∀ fault rest, r.decoder bytes = .error fault rest → fault.category ≠ .unexpectedEof →
        r.decoder (bytes ++ suffix) = .error fault (rest ++ suffix)) ∧
    (∀ fs ∈ recordFields, ∀ record : fs.Val, fs.Canonical record → fs.Fits record →
      fs.readNew (fs.write record).bytes = .ok record [] ∧
      ∀ front, front <+: (fs.write record).bytes → front ≠ (fs.write record).bytes →
        ∃ fault left, fs.readNew front = .error fault left ∧ fault.category = .unexpectedEof) ∧
    ∀ t : Tree, t.WellFormed → t.depth ≤ 64 → skip t.kind t.encode = .ok () [] ∧
      ∀ front, front <+: t.encode → front ≠ t.encode →
        ∃ fault left, skip t.kind front = .error fault left ∧ fault.category = .unexpectedEof := by
  refine ⟨?_, ?_, ?_⟩
  · intro r bytes suffix
    have settled := r.decoder_stable bytes suffix
    constructor
    · intro a rest h
      rw [h] at settled
      exact settled id
    · intro fault rest h other
      rw [h] at settled
      exact settled other
  · intro fs declared record canonical fits
    have whole := fs.reads_write (recordFields_distinct fs declared) record canonical fits []
    rw [List.append_nil] at whole
    constructor
    · exact whole
    · intro front begins proper
      exact fs.readNew_stable.runsOut whole begins proper
  · intro t wellFormed shallow
    have whole := (skip_passes t wellFormed maxDepth).reads shallow []
    rw [List.append_nil] at whole
    constructor
    · exact whole
    · intro front begins proper
      exact (skip_stable t.kind).runsOut whole begins proper

theorem reading_persists_pieces :
    skip .list ([200] ++ [0, 1]) = .error (.unknownKind 200) [0, 1] ∧
    pointFields.readNew ([8, 0, 1, 0, 0, 0, 5, 0] ++ [8, 0]) = .ok (some 5, none, ()) [8, 0] ∧
    (∃ fault left, containersFields.readNew
        ((containersFields.write someContainers).bytes.take 20) = .error fault left ∧
      fault.category = .unexpectedEof) ∧
    ∃ fault left, skip .list ((nestedLists 63).encode.take 300) = .error fault left ∧
      fault.category = .unexpectedEof := by
  obtain ⟨settled, records, trees⟩ := reading_persists
  refine ⟨?_, ?_, ?_, ?_⟩
  · exact (settled (.skip .list) [200] [0, 1]).2 (.unknownKind 200) [] rfl (by decide)
  · have declared : pointFields ∈ recordFields := by simp [recordFields, structs]
    exact (settled (.record pointFields declared) _ [8, 0]).1 (some 5, none, ()) [] rfl
  · have declared : containersFields ∈ recordFields := by simp [recordFields, structs]
    apply (records containersFields declared someContainers (by decide) (by decide)).2
    · exact List.take_prefix 20 _
    · decide
  · apply (trees (nestedLists 63) (nestedLists_wellFormed 63)
      (Nat.le_of_eq (nestedLists_depth 63))).2
    · exact List.take_prefix 300 _
    · decide +kernel

end Idl.Tutorial
