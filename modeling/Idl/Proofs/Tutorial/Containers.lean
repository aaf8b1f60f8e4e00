import Idl.Proofs.Tutorial.Records
import Idl.Proofs.Value.Rearranged
import Idl.Proofs.Value.Sorted

/-!
# Containers in order

The names, the groups and the weights of containers can arrive in any order. What is read does not
depend on it, and is written again in ascending order.
-/

set_option autoImplicit false

namespace Idl.Tutorial

open Wire Wire.Tree

abbrev containers : Shape := .record "Containers" containersFields

def groups (record : containersFields.Val) : Option (Shape.map .string (.list point)).Val :=
  record.2.2.1

def weights (record : containersFields.Val) : Option (Shape.map .i16 (.set .double)).Val :=
  record.2.2.2.1

theorem containersFields_keyed : containersFields.Keyed := by
  simp [Fields.Keyed, Shape.Keyed, Shape.IsScalar]

theorem containers_keep_last (rs : List Record) :
    IsLastValue (KeepsLast .string (.list point)) ⟨.map, 3⟩ rs
      (groups (containers.value (.struct rs))) ∧
    IsLastValue (KeepsLast .i16 (.set .double)) ⟨.map, 4⟩ rs
      (weights (containers.value (.struct rs))) := by
  have distinct := recordFields_distinct containersFields (by simp [recordFields, structs])
  have assigned := containersFields.assigned_foldl distinct rs
  constructor
  · apply isLastValue_imp _ assigned.2.2.1
    rintro _ t rfl
    exact keepsLast_value _ _ t
  · apply isLastValue_imp _ assigned.2.2.2.1
    rintro _ t rfl
    exact keepsLast_value _ _ t

theorem readNew_containers (t : Tree) (accepted : containers.Accepts t) (rest : Bytes) :
    containersFields.readNew (t.encode ++ rest) = .ok (containers.value t) rest :=
  containers.reads_value t accepted rest

/-- Whatever is read as containers is an accepted tree. Accepted trees that differ only in the order
and repetition of set items and in the order of map entries with different keys are read as the same
record. Its groups and its weights have the last value of each key. A record that was read can be
written, with set items and map keys in strictly ascending order. -/
theorem containers_read_in_order :
    (∀ (bytes : Bytes) (record : containersFields.Val) (rest : Bytes),
      containersFields.readNew bytes = .ok record rest →
        ∃ t, containers.Accepts t ∧ bytes = t.encode ++ rest) ∧
    (∀ t u : Tree, containers.Accepts t → containers.Accepts u → containers.Rearranged t u →
      ∀ rest : Bytes, ∃ record, containersFields.readNew (t.encode ++ rest) = .ok record rest ∧
        containersFields.readNew (u.encode ++ rest) = .ok record rest) ∧
    (∀ rs : List Record, containers.Accepts (.struct rs) → ∀ rest : Bytes, ∃ record,
      containersFields.readNew ((Tree.struct rs).encode ++ rest) = .ok record rest ∧
        IsLastValue (KeepsLast .string (.list point)) ⟨.map, 3⟩ rs (groups record) ∧
        IsLastValue (KeepsLast .i16 (.set .double)) ⟨.map, 4⟩ rs (weights record)) ∧
    ∀ (bytes : Bytes) (record : containersFields.Val) (rest : Bytes),
      containersFields.readNew bytes = .ok record rest →
        containersFields.write record =
          ⟨(Tree.struct (containersFields.records record)).encode, none⟩ ∧
        (Tree.struct (containersFields.records record)).Sorted := by
  refine ⟨?_, ?_, ?_, ?_⟩
  · intro bytes record rest read
    obtain ⟨t, accepted, -, split⟩ := (containers.read_eq_ok_iff bytes record rest).mp read
    exact ⟨t, accepted, split⟩
  · intro t u ht hu rearranged rest
    refine ⟨containers.value t, readNew_containers t ht rest, ?_⟩
    rw [containers.value_rearranged t u rearranged]
    exact readNew_containers u hu rest
  · intro rs accepted rest
    exact ⟨_, readNew_containers (.struct rs) accepted rest, containers_keep_last rs⟩
  · intro bytes record rest read
    exact containersFields.write_read containersFields_keyed read

def namesAndWeights (names weights : Tree) : Tree :=
  .struct [(2, names), (4, weights)]

section NamesAndWeights

variable {names weights : Tree} (hn : (Shape.set .string).Accepts names)
  (hw : (Shape.map .i16 (.set .double)).Accepts weights)

include hn hw

theorem accepts_namesAndWeights : containers.Accepts (namesAndWeights names weights) := by
  refine ⟨_, rfl, ?_⟩
  simp [Fields.AcceptsRecord, Record.header, hn.kind_eq, hw.kind_eq, Shape.kind, hn, hw]

theorem rearranged_namesAndWeights {names' weights' : Tree}
    (first : (Shape.set .string).Rearranged names names')
    (second : (Shape.map .i16 (.set .double)).Rearranged weights weights') :
    containers.Rearranged (namesAndWeights names weights) (namesAndWeights names' weights') := by
  refine ⟨_, _, rfl, rfl, ?_⟩
  simp [Fields.RearrangedIn, Record.header, hn.kind_eq, hw.kind_eq, Shape.kind, first, second]

end NamesAndWeights

def shuffledNames : Tree :=
  .set .string [.scalar (.string "é"), .scalar (.string "a"), .scalar (.string "é")]

def settledNames : Tree :=
  .set .string [.scalar (.string "a"), .scalar (.string "é")]

def shuffledWeights : Tree :=
  .map .i16 .set
    [(.scalar (.i16 5), .set .double [.scalar (.double ⟨0⟩), .scalar (.double ⟨0⟩),
      .scalar (.double ⟨0x8000000000000000⟩)]), (.scalar (.i16 (-1)), .set .double [])]

def settledWeights : Tree :=
  .map .i16 .set
    [(.scalar (.i16 (-1)), .set .double []), (.scalar (.i16 5),
      .set .double [.scalar (.double ⟨0x8000000000000000⟩), .scalar (.double ⟨0⟩)])]

theorem names_accepted :
    (Shape.set .string).Accepts shuffledNames ∧ (Shape.set .string).Accepts settledNames := by
  have short : (Text.utf8 "é").length ≤ 0x7FFFFFFF ∧ (Text.utf8 "a").length ≤ 0x7FFFFFFF := by
    decide
  simp [shuffledNames, settledNames, Shape.Accepts, short]

theorem weights_accepted : (Shape.map .i16 (.set .double)).Accepts shuffledWeights ∧
    (Shape.map .i16 (.set .double)).Accepts settledWeights := by
  simp [shuffledWeights, settledWeights, Shape.Accepts, -Prod.forall]

theorem names_rearranged : (Shape.set .string).Rearranged shuffledNames settledNames := by
  simp [shuffledNames, settledNames, Shape.Rearranged]

theorem weights_rearranged :
    (Shape.map .i16 (.set .double)).Rearranged shuffledWeights settledWeights := by
  refine ⟨.i16, .set, _, _, _, rfl, rfl,
    reordered_of_perm (fun _ _ h => h.symm) (.swap _ _ []) ?_, ?_⟩
  · simp [Shape.value]
  · simp [Shape.Rearranged]

theorem containers_read_in_order_shuffled : ∃ record,
    containersFields.readNew ((namesAndWeights shuffledNames shuffledWeights).encode ++ [9]) =
      .ok record [9] ∧
    containersFields.readNew ((namesAndWeights settledNames settledWeights).encode ++ [9]) =
      .ok record [9] ∧
    (Tree.struct (containersFields.records record)).Sorted := by
  obtain ⟨record, shuffled, settled⟩ := containers_read_in_order.2.1
    (namesAndWeights shuffledNames shuffledWeights) (namesAndWeights settledNames settledWeights)
    (accepts_namesAndWeights names_accepted.1 weights_accepted.1)
    (accepts_namesAndWeights names_accepted.2 weights_accepted.2)
    (rearranged_namesAndWeights names_accepted.1 weights_accepted.1 names_rearranged
      weights_rearranged) [9]
  exact ⟨record, shuffled, settled, (containers_read_in_order.2.2.2 _ record [9] shuffled).2⟩

end Idl.Tutorial
