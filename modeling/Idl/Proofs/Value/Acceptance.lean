import Idl.Proofs.Outcome
import Idl.Proofs.Value.Application
import Idl.Proofs.Value.RoundTrip

/-!
# Records that are accepted

Where no container is declared, the reading of a well-formed struct succeeds only if each of its
records can be read: a record that matches a field carries a value of it, and any other is not too
deep to be skipped. So a reading that succeeds takes exactly the struct, whatever stands behind it.
With containers this fails, since a list may announce one kind and be read as another.
-/

set_option autoImplicit false

namespace Idl

open Wire Wire.Tree

mutual

def Shape.Flat : Shape → Prop
  | .bool | .byte | .i16 | .i32 | .i64 | .double | .string | .enum _ _ => True
  | .list _ | .set _ | .map _ _ => False
  | .record _ fields => fields.Flat

def Fields.Flat : Fields → Prop
  | .nil => True
  | .cons _ shape rest => shape.Flat ∧ rest.Flat

end

/-- What the shape reads from a well-formed tree of its kind encodes a value of it. -/
def Shape.ReadsOnly (s : Shape) : Prop :=
  ∀ t : Tree, t.WellFormed → t.kind = s.kind → ∀ a rest left,
    s.read (t.encode ++ rest) = .ok a left → ∃ b, s.Encodes b t

def Fields.ReadOnly (fs : Fields) : Prop :=
  ∀ r : Record, r.2.WellFormed → ∀ before after rest left,
    fs.readField r.header before (r.2.encode ++ rest) = .ok after left → fs.Admits r

theorem Fields.admits_of_fold (fs : Fields) (distinct : fs.Distinct) (only : fs.ReadOnly)
    (rs : List Record) (wellFormed : ∀ r ∈ rs, r.2.WellFormed) (done : List Record)
    (before : fs.Val) (holds : fs.Holds before done) (budget : Nat) {trailing left : Bytes}
    {after : fs.Val}
    (read : (foldFieldsWithin fs.readField budget before
      (encodeRecords rs ++ Kind.stop.tag :: trailing)).result = .ok after left) :
    ∀ r ∈ rs, fs.Admits r := by
  induction rs generalizing done before budget with
  | nil => simp
  | cons r rs ih =>
    obtain ⟨first, others⟩ := List.forall_mem_cons.mp wellFormed
    cases budget with
    | zero => cases read
    | succ budget =>
      rw [fold_record_result] at read
      obtain ⟨between, rest, here, later⟩ := ok_of_bind read
      have admits := only r first before between _ rest here
      obtain ⟨next, reads, holds⟩ :=
        fs.readField_record distinct (fs.readBack distinct) r admits done before holds
      cases here.symm.trans (reads _)
      exact List.forall_mem_cons.mpr ⟨admits, ih others (done ++ [r]) _ holds budget later⟩

theorem Fields.admits_of_readNew (fs : Fields) (distinct : fs.Distinct) (only : fs.ReadOnly)
    (rs : List Record) (wellFormed : ∀ r ∈ rs, r.2.WellFormed) {trailing left : Bytes}
    {record : fs.Val}
    (read : fs.readNew (encodeRecords rs ++ Kind.stop.tag :: trailing) = .ok record left) :
    ∀ r ∈ rs, fs.Admits r :=
  fs.admits_of_fold distinct only rs wellFormed [] fs.absent fs.holds_absent _ read

theorem record_readsOnly (name : String) (fields : Fields) (distinct : fields.Distinct)
    (only : fields.ReadOnly) : (Shape.record name fields).ReadsOnly := by
  intro t wellFormed kind a rest left read
  cases wellFormed with
  | struct wellFormed =>
    rename_i rs
    rw [encode, List.append_assoc] at read
    have admits := fields.admits_of_readNew distinct only rs wellFormed read
    obtain ⟨record, holds, -⟩ :=
      fields.readNew_struct distinct (fields.readBack distinct) rs admits
    exact ⟨record, rs, rfl, fun r member => ⟨(admits r member).types, (admits r member).shallow⟩,
      holds⟩
  | @scalar value _ => cases value <;> cases kind
  | list | set | map => cases kind

mutual

theorem Shape.readsOnly : (s : Shape) → s.Flat → s.Distinct → s.ReadsOnly
  | .bool, _, _ => by
    intro t _ kind a rest left _
    cases t with
    | scalar value => cases value <;> cases kind; exact ⟨_, _, rfl, rfl⟩
    | _ => cases kind
  | .byte, _, _ | .i16, _, _ | .i32, _, _ | .i64, _, _ | .double, _, _ | .string, _, _
  | .enum _ _, _, _ => by
    intro t _ kind a rest left _
    cases t with
    | scalar value => cases value <;> cases kind; exact ⟨_, rfl⟩
    | _ => cases kind
  | .record name fields, flat, distinct =>
    record_readsOnly name fields distinct (fields.readOnly flat distinct)

theorem Fields.readOnly : (fs : Fields) → fs.Flat → fs.Distinct → fs.ReadOnly
  | .nil, _, _ => by
    intro r wellFormed before after rest left read
    refine ⟨wellFormed, trivial, fun _ => ?_⟩
    by_contra deep
    obtain ⟨_, between, skipped, -⟩ := ok_of_bind read
    obtain ⟨stopped, failed⟩ := (skip_passes r.2 wellFormed maxDepth).fails deep rest
    cases skipped.symm.trans failed
  | .cons field shape rest, flat, distinct => by
    rintro r wellFormed ⟨a, others⟩ after trailing left read
    rw [Fields.readField] at read
    by_cases here : r.header = ⟨shape.kind, field.id⟩
    · rw [if_pos here] at read
      obtain ⟨b, between, readHere, -⟩ := ok_of_bind read
      have kind : r.2.kind = shape.kind := congrArg FieldHeader.kind here
      have encodes := shape.readsOnly flat.1 distinct.2.1 r.2 wellFormed kind b _ _ readHere
      have undeclared : r.header ∉ rest.headers := here ▸ distinct.1
      exact ⟨wellFormed, ⟨fun _ => encodes, rest.types_of_undeclared r undeclared⟩,
        fun outside => absurd (here ▸ List.mem_cons_self) outside⟩
    · rw [if_neg here] at read
      obtain ⟨next, between, later, -⟩ := ok_of_bind read
      have admits := rest.readOnly flat.2 distinct.2.2 r wellFormed others next _ _ later
      exact ⟨wellFormed, ⟨fun same => absurd same here, admits.types⟩,
        fun outside => admits.shallow fun inRest => outside (List.mem_cons_of_mem _ inRest)⟩

end

/-- A reading that succeeds takes exactly the struct. -/
theorem Fields.reads_of_readNew (fs : Fields) (flat : fs.Flat) (distinct : fs.Distinct)
    (rs : List Record) (wellFormed : ∀ r ∈ rs, r.2.WellFormed) {trailing left : Bytes}
    {record : fs.Val}
    (read : fs.readNew (encodeRecords rs ++ Kind.stop.tag :: trailing) = .ok record left) :
    Reads fs.readNew (Tree.struct rs).encode record := by
  have admits := fs.admits_of_readNew distinct (fs.readOnly flat distinct) rs wellFormed read
  obtain ⟨found, -, reads⟩ := fs.readNew_struct distinct (fs.readBack distinct) rs admits
  have exactly := reads trailing
  rw [encode, List.append_assoc] at exactly
  cases read.symm.trans exactly
  exact reads

theorem Wire.ApplicationException.reads_of_read (rs : List Record)
    (wellFormed : ∀ r ∈ rs, r.2.WellFormed) {trailing left : Bytes} {x : ApplicationException}
    (read : ApplicationException.read (encodeRecords rs ++ Kind.stop.tag :: trailing) =
      .ok x left) :
    Reads ApplicationException.read (Tree.struct rs).encode x := by
  rw [read_eq, map_eq_pure_bind] at read
  obtain ⟨record, between, readRecord, told⟩ := ok_of_bind read
  cases told
  rw [read_eq]
  exact (fields.reads_of_readNew (by simp [Fields.Flat, Shape.Flat]) fields_distinct rs wellFormed
    readRecord).map ofRecord

end Idl
