import Idl.Proofs.Wire.Tree

/-!
# Reading records up to the end of a struct

One record is one step of the loop over fields. An invariant of the records that were read and
the value built from them holds at the end if every step keeps it.
-/

set_option autoImplicit false

namespace Idl.Wire

open Wire.Tree

variable {α : Type} (step : FieldHeader → α → Decoder α)

theorem fold_stop (budget : Nat) (a : α) (rest : Bytes) :
    foldFieldsWithin step (budget + 1) a (Kind.stop.tag :: rest) = ⟨a, none, rest⟩ := by
  have h : Decoder.field (Kind.stop.tag :: rest) = .ok none rest := stop_reads rest
  rw [foldFieldsWithin, h]

theorem fold_record (budget : Nat) (a : α) (r : Record) (rs : List Record) (rest : Bytes) :
    foldFieldsWithin step (budget + 1) a (encodeRecords (r :: rs) ++ rest) =
      match step r.header a (r.2.encode ++ (encodeRecords rs ++ rest)) with
      | .error fault left => ⟨a, some fault, left⟩
      | .ok b left => foldFieldsWithin step budget b left := by
  have h := field_reads r.2.kind r.1 r.2.kind_ne_stop (r.2.encode ++ (encodeRecords rs ++ rest))
  have split : encodeRecords (r :: rs) ++ rest =
      r.2.kind.tag :: bigEndian 2 r.1.toUInt16.toNat ++
        (r.2.encode ++ (encodeRecords rs ++ rest)) := by
    simp [encodeRecords]
  rw [foldFieldsWithin, split, h]
  rfl

theorem fold_record_result (budget : Nat) (a : α) (r : Record) (rs : List Record) (rest : Bytes) :
    (foldFieldsWithin step (budget + 1) a (encodeRecords (r :: rs) ++ rest)).result =
      (step r.header a >>= fun b bytes => (foldFieldsWithin step budget b bytes).result)
        (r.2.encode ++ (encodeRecords rs ++ rest)) := by
  rw [fold_record]
  change _ = EStateM.bind _ _ _
  unfold EStateM.bind
  cases step r.header a (r.2.encode ++ (encodeRecords rs ++ rest)) <;> rfl

theorem fold_map {β : Type} (f : α → β) (step' : FieldHeader → β → Decoder β)
    (same : ∀ header a, step' header (f a) = f <$> step header a) (budget : Nat) (a : α)
    (bytes : Bytes) :
    foldFieldsWithin step' budget (f a) bytes =
      { value := f (foldFieldsWithin step budget a bytes).value
        fault := (foldFieldsWithin step budget a bytes).fault
        rest := (foldFieldsWithin step budget a bytes).rest } := by
  induction budget generalizing a bytes with
  | zero => rfl
  | succ budget ih =>
    rw [foldFieldsWithin, foldFieldsWithin]
    cases Decoder.field bytes with
    | error fault rest => rfl
    | ok header rest =>
      cases header with
      | none => rfl
      | some header =>
        have mapped : step' header (f a) rest = (f <$> step header a) rest := by rw [same]
        change _ = EStateM.map f (step header a) rest at mapped
        dsimp only
        rw [mapped, EStateM.map]
        cases step header a rest with
        | error fault rest => rfl
        | ok b rest => exact ih b rest

theorem length_encodeRecords (rs : List Record) (rest : Bytes) :
    rs.length + rest.length ≤ (encodeRecords rs ++ rest).length := by
  induction rs with
  | nil => simp [encodeRecords]
  | cons r rs ih =>
    simp only [encodeRecords, List.length_append, List.length_cons] at *
    omega

theorem fold_records (rs : List Record) (invariant : List Record → α → Prop)
    (keeps : ∀ done r a, r ∈ rs → invariant done a →
      ∃ b, Reads (step r.header a) r.2.encode b ∧ invariant (done ++ [r]) b)
    (done : List Record) (a : α) (start : invariant done a) :
    ∃ b, invariant (done ++ rs) b ∧ ∀ budget rest, rs.length < budget →
      foldFieldsWithin step budget a (encodeRecords rs ++ Kind.stop.tag :: rest) =
        ⟨b, none, rest⟩ := by
  induction rs generalizing done a with
  | nil =>
    refine ⟨a, by simpa using start, fun budget rest hb => ?_⟩
    obtain ⟨budget, rfl⟩ := Nat.exists_eq_succ_of_ne_zero (Nat.ne_of_gt hb)
    exact fold_stop step budget a rest
  | cons r rs ih =>
    obtain ⟨b, hread, hb⟩ := keeps done r a List.mem_cons_self start
    obtain ⟨c, hc, hrun⟩ := ih (fun done r a hr => keeps done r a (List.mem_cons_of_mem _ hr))
      (done ++ [r]) b hb
    refine ⟨c, by simpa using hc, fun budget rest hlen => ?_⟩
    obtain ⟨budget, rfl⟩ := Nat.exists_eq_succ_of_ne_zero (Nat.ne_of_gt (Nat.zero_lt_of_lt hlen))
    rw [fold_record, hread]
    exact hrun budget rest (Nat.lt_of_succ_lt_succ hlen)

theorem foldFields_records (rs : List Record) (invariant : List Record → α → Prop)
    (keeps : ∀ done r a, r ∈ rs → invariant done a →
      ∃ b, Reads (step r.header a) r.2.encode b ∧ invariant (done ++ [r]) b)
    (a : α) (start : invariant [] a) :
    ∃ b, invariant rs b ∧ Reads (fun bytes => (foldFields step a bytes).result)
      (Tree.struct rs).encode b := by
  obtain ⟨b, hb, hrun⟩ := fold_records step rs invariant keeps [] a start
  refine ⟨b, hb, fun rest => ?_⟩
  have hlen := length_encodeRecords rs (Kind.stop.tag :: rest)
  have hbytes : (Tree.struct rs).encode ++ rest = encodeRecords rs ++ Kind.stop.tag :: rest := by
    simp [encode]
  rw [List.length_cons] at hlen
  change (foldFields step a _).result = _
  rw [hbytes, foldFields, hrun _ rest (by omega)]
  rfl

end Idl.Wire
