import Idl.Proofs.Value.Application
import Idl.Proofs.Value.RoundTrip
import Idl.Tutorial.Services

/-!
# The records of the tutorial

Every struct of the tutorial, and the arguments and results of its functions, are read back as
they were written. They also read the records of other versions of themselves: in any order, with
repetitions, and with fields that are unknown or of another kind.
-/

set_option autoImplicit false

namespace Idl.Tutorial

open Wire Wire.Tree

def recordFields : List Fields :=
  structs.map Prod.snd ++ Function.all.map (fun f => f.signature.args) ++
    Function.all.map fun f => f.signature.reply.fields

theorem recordFields_distinct : ∀ fs ∈ recordFields, fs.Distinct := by
  simp [recordFields, structs, Function.all, Function.signature, Rpc.Reply.fields,
    Fields.Distinct, Fields.headers, Shape.Distinct, Shape.kind]

/-- A record that fits its size words can be written, and is read back from the bytes written,
which are taken exactly. -/
theorem readNew_write (fs : Fields) (h : fs ∈ recordFields) (record : fs.Val)
    (canonical : fs.Canonical record) (fits : fs.Fits record) (rest : Bytes) :
    (fs.write record).fault = none ∧
    fs.readNew ((fs.write record).bytes ++ rest) = .ok record rest := by
  constructor
  · rw [fs.write_eq record fits]
  · exact fs.reads_write (recordFields_distinct fs h) record canonical fits rest

def someContainers : containersFields.Val :=
  (some [1, -2], some ["a", "é"], some [("", []), ("k", [(some 3, none, ()), (none, none, ())])],
    some [(-1, [⟨0x8000000000000000⟩, ⟨0⟩]), (5, [])], some [[], [7]], none, some true,
    some (-128), none, some ⟨0x7FF8000000000001⟩, none, none, none, ())

theorem readNew_write_someContainers :
    (containersFields.write someContainers).fault = none ∧
    containersFields.readNew ((containersFields.write someContainers).bytes ++ [9]) =
      .ok someContainers [9] := by
  apply readNew_write containersFields
  · simp [recordFields, structs]
  · decide
  · decide

theorem encode_struct (rs : List Record) (rest : Bytes) :
    encodeRecords rs ++ Kind.stop.tag :: rest = (Tree.struct rs).encode ++ rest := by
  simp [encode]

/-- Each place of a record holds the value of the last record with the id and the kind of its
field. An application exception is read by the same rule from the empty text and the unknown
kind, and a code that is not listed is unknown. -/
theorem readNew_keeps_last (fs : Fields) (h : fs ∈ recordFields) (rs : List Record)
    (trailing : Bytes) :
    ((∀ r ∈ rs, fs.Admits r) → ∃ record, fs.Holds record rs ∧
      fs.readNew (encodeRecords rs ++ Kind.stop.tag :: trailing) = .ok record trailing) ∧
    ((∀ r ∈ rs, ApplicationException.fields.Admits r) → ∃ text code,
      ApplicationException.fields.Holds (text, code, ()) rs ∧
      ApplicationException.read (encodeRecords rs ++ Kind.stop.tag :: trailing) =
        .ok ⟨code.elim .unknown ApplicationKind.ofCode, text.getD ""⟩ trailing) ∧
    (∀ k : ApplicationKind, ApplicationKind.ofCode k.code = k) ∧
    (∀ n, (∀ k : ApplicationKind, k.code ≠ n) → ApplicationKind.ofCode n = .unknown) := by
  rw [encode_struct]
  refine ⟨fun admits => ?_, fun admits => ?_, ApplicationKind.ofCode_code,
    ApplicationKind.ofCode_unlisted⟩
  · have distinct := recordFields_distinct fs h
    obtain ⟨record, holds, reads⟩ := fs.readNew_struct distinct (fs.readBack distinct) rs admits
    exact ⟨record, holds, reads trailing⟩
  · obtain ⟨⟨text, code, _⟩, holds, reads⟩ := ApplicationException.read_struct rs admits
    exact ⟨text, code, holds, reads trailing⟩

def strayRecords : List Record :=
  [(1, .scalar (.i32 5)), (7, .list .list [.list .void [], .list .i16 [.scalar (.i16 3)]]),
    (1, .scalar (.string "é")), (2, .scalar (.i32 99)), (1, .scalar (.i32 8))]

theorem strayRecords_wellFormed : ∀ r ∈ strayRecords, r.2.WellFormed := by
  have nested : (Tree.list .list [.list .void [], .list .i16 [.scalar (.i16 3)]]).WellFormed := by
    refine .list (by decide) (by simp [kind]) ?_
    simp only [List.forall_mem_cons]
    exact ⟨.list (by decide) (by simp) (by simp), .list (by decide) (by simp [kind, Scalar.kind])
      (by simpa using .scalar trivial), by simp⟩
  have text : (Tree.scalar (.string "é")).WellFormed :=
    .scalar (show (Text.utf8 "é").length ≤ 0x7FFFFFFF by decide)
  simp only [strayRecords, List.forall_mem_cons]
  exact ⟨.scalar trivial, nested, text, .scalar trivial, .scalar trivial, by simp⟩

theorem strayRecords_shallow : ∀ r ∈ strayRecords, r.2.depth ≤ 64 := by
  decide

theorem readNew_keeps_last_strayRecords :
    pointFields.readNew (encodeRecords strayRecords ++ Kind.stop.tag :: [9]) =
      .ok (some 8, some 99, ()) [9] ∧
    ApplicationException.read (encodeRecords strayRecords ++ Kind.stop.tag :: [9]) =
      .ok ⟨.unknown, "é"⟩ [9] := by
  have known : pointFields ∈ recordFields := by simp [recordFields, structs]
  obtain ⟨point, exception, -⟩ := readNew_keeps_last pointFields known strayRecords [9]
  constructor
  · have types : ∀ r ∈ strayRecords, pointFields.Types r := by
      simp [strayRecords, Fields.Types, Record.header, kind, Scalar.kind, Shape.kind, Shape.Encodes]
    have expected : pointFields.Holds (some 8, some 99, ()) strayRecords :=
      ⟨⟨strayRecords.take 4, _, [], rfl, rfl, rfl, by simp⟩,
        ⟨strayRecords.take 3, _, strayRecords.drop 4, rfl, rfl, rfl, by decide⟩, trivial⟩
    obtain ⟨record, holds, hread⟩ := point fun r hr =>
      ⟨strayRecords_wellFormed r hr, types r hr, fun _ => strayRecords_shallow r hr⟩
    rw [hread, pointFields.holds_unique (pointFields.readBack (recordFields_distinct _ known))
      strayRecords strayRecords_wellFormed record _ holds expected]
  · have types : ∀ r ∈ strayRecords, ApplicationException.fields.Types r := by
      simp [strayRecords, Fields.Types, Record.header, kind, Scalar.kind, Shape.kind, Shape.Encodes]
    have expected : ApplicationException.fields.Holds (some "é", some 99, ()) strayRecords :=
      ⟨⟨strayRecords.take 2, _, strayRecords.drop 3, rfl, rfl, rfl, by decide⟩,
        ⟨strayRecords.take 3, _, strayRecords.drop 4, rfl, rfl, rfl, by decide⟩, trivial⟩
    obtain ⟨text, code, holds, hread⟩ := exception fun r hr =>
      ⟨strayRecords_wellFormed r hr, types r hr, fun _ => strayRecords_shallow r hr⟩
    have same := ApplicationException.fields.holds_unique
      (ApplicationException.fields.readBack ApplicationException.fields_distinct) strayRecords
      strayRecords_wellFormed _ _ holds expected
    obtain ⟨rfl, rfl, -⟩ : text = some "é" ∧ code = some 99 ∧ True := by simpa using same
    exact hread

end Idl.Tutorial
