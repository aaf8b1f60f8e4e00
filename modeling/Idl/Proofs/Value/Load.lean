import Mathlib.Algebra.Order.BigOperators.Group.List
import Mathlib.Algebra.Order.Ring.Nat
import Idl.Proofs.Value.TreeValue
import Idl.Tutorial.Shapes

/-!
# The input pays for what is built

A header can announce any number of items, but each item that is passed over or kept takes bytes of
its own. So a skip takes at least as many bytes as it is told of items, and the load of a record
that was read, which counts everything in it, is less than the number of bytes taken.
-/

set_option autoImplicit false

namespace Idl

open Wire Wire.Tree

namespace Wire

theorem Scalar.length_encode_pos (s : Scalar) : 1 ≤ s.encode.length := by
  cases s <;> simp [encode]
  omega

theorem Tree.length_encode_pos (t : Tree) : 1 ≤ t.encode.length := by
  cases t with
  | scalar s => exact s.length_encode_pos
  | _ => simp [Tree.encode]

theorem sum_length_items (t : Tree) :
    (t.items.map fun u => u.encode.length).sum + 1 ≤ t.encode.length := by
  cases t with
  | list kind ts | set kind ts =>
    simp [Tree.items, Tree.encode, encodeItems_eq, List.length_flatMap]
  | _ => exact length_encode_pos _

theorem sum_length_entries (t : Tree) :
    (t.entries.map fun e => e.1.encode.length + e.2.encode.length).sum + 1 ≤ t.encode.length := by
  cases t with
  | map kind kind' es =>
    simp [Tree.entries, Tree.encode, encodeEntries_eq, List.length_flatMap]
    omega
  | _ => exact length_encode_pos _

theorem sum_length_encodeRecords (rs : List Record) :
    (rs.map fun r => r.2.encode.length).sum ≤ (encodeRecords rs).length := by
  induction rs with
  | nil => simp
  | cons r rs ih =>
    simp only [encodeRecords, List.map_cons, List.sum_cons, List.length_append]
    omega

theorem sum_length_records (t : Tree) :
    (t.records.map fun r => r.2.encode.length).sum + 1 ≤ t.encode.length := by
  cases t with
  | struct rs =>
    rw [Tree.encode, List.length_append]
    exact Nat.add_le_add_right (sum_length_encodeRecords rs) 1
  | _ => exact length_encode_pos _

theorem length_le_encodeItems (ts : List Tree) : ts.length ≤ (encodeItems ts).length := by
  induction ts with
  | nil => exact Nat.le_refl 0
  | cons t ts ih =>
    have := t.length_encode_pos
    rw [encodeItems, List.length_append, List.length_cons]
    omega

theorem two_mul_length_le_encodeEntries (es : List (Tree × Tree)) :
    2 * es.length ≤ (encodeEntries es).length := by
  induction es with
  | nil => exact Nat.le_refl 0
  | cons e es ih =>
    have key := e.1.length_encode_pos
    have value := e.2.length_encode_pos
    rw [encodeEntries, List.length_append, List.length_append, List.length_cons]
    omega

theorem bigEndian_append_inj {n : Nat} {m : UInt32} {body body' : Bytes} (small : n ≤ 0x7FFFFFFF)
    (h : bigEndian 4 n ++ body = bigEndian 4 m.toNat ++ body') : n = m.toNat := by
  have same := (List.append_inj h (by simp)).1
  rw [← ofBigEndian_bigEndian 4 n (Nat.lt_of_le_of_lt small (by decide)), same,
    ofBigEndian_bigEndian 4 m.toNat m.toNat_lt]

theorem announced_items_le {t : Tree} (wellFormed : t.WellFormed)
    (sequence : t.kind = .list ∨ t.kind = .set) {item : UInt8} {n : UInt32} {body rest : Bytes}
    (announced : t.encode ++ rest = item :: bigEndian 4 n.toNat ++ body) :
    n.toNat ≤ t.encode.length := by
  cases wellFormed with
  | @list kind ts small | @set kind ts small =>
    rw [Tree.encode, List.cons_append, List.cons_append, List.append_assoc] at announced
    have size := bigEndian_append_inj small (List.cons.inj announced).2
    have items := length_le_encodeItems ts
    rw [Tree.encode, List.length_append]
    omega
  | @scalar value => cases value <;> simp [Tree.kind, Scalar.kind] at sequence
  | _ => simp [Tree.kind] at sequence

theorem announced_entries_le {t : Tree} (wellFormed : t.WellFormed) (mapping : t.kind = .map)
    {key value : UInt8} {n : UInt32} {body rest : Bytes}
    (announced : t.encode ++ rest = key :: value :: bigEndian 4 n.toNat ++ body) :
    2 * n.toNat ≤ t.encode.length := by
  cases wellFormed with
  | @map kind kind' es small =>
    simp only [Tree.encode, List.cons_append, List.append_assoc, List.cons.injEq] at announced
    have size := bigEndian_append_inj small announced.2.2
    have pairs := two_mul_length_le_encodeEntries es
    rw [Tree.encode, List.length_append]
    omega
  | @scalar value => cases value <;> simp [Tree.kind, Scalar.kind] at mapping
  | _ => simp [Tree.kind] at mapping

end Wire

section Sums

variable {α κ ν : Type}

theorem sum_insertAscending_le (order : α → α → Ordering) (weight : α → Nat) (a : α)
    (kept : List α) :
    ((insertAscending order a kept).map weight).sum ≤ weight a + (kept.map weight).sum := by
  induction kept with
  | nil => simp [insertAscending]
  | cons b bs ih =>
    rw [insertAscending]
    cases order a b <;> simp only [List.map_cons, List.sum_cons] at * <;> omega

theorem sum_ascending_le (order : α → α → Ordering) (weight : α → Nat) (items : List α) :
    ((ascending order items).map weight).sum ≤ (items.map weight).sum := by
  have go (kept : List α) : ((items.foldl (fun kept a => insertAscending order a kept) kept).map
      weight).sum ≤ (items.map weight).sum + (kept.map weight).sum := by
    induction items generalizing kept with
    | nil => simp
    | cons a items ih =>
      have step := sum_insertAscending_le order weight a kept
      have rest := ih (insertAscending order a kept)
      simp only [List.foldl_cons, List.map_cons, List.sum_cons]
      omega
  exact go []

theorem sum_insertEntry_le (order : κ → κ → Ordering) (first : κ → Nat) (second : ν → Nat) (k : κ)
    (v : ν) (kept : List (κ × ν)) :
    ((insertEntry order k v kept).map fun e => first e.1 + second e.2).sum ≤
      first k + second v + (kept.map fun e => first e.1 + second e.2).sum := by
  induction kept with
  | nil => simp [insertEntry]
  | cons e rest ih =>
    obtain ⟨l, w⟩ := e
    rw [insertEntry]
    cases order k l <;> simp only [List.map_cons, List.sum_cons] at * <;> omega

theorem sum_entries_le (order : κ → κ → Ordering) (first : κ → Nat) (second : ν → Nat)
    (items : List (κ × ν)) :
    ((entries order items).map fun e => first e.1 + second e.2).sum ≤
      (items.map fun e => first e.1 + second e.2).sum := by
  have go (kept : List (κ × ν)) :
      ((items.foldl (fun kept e => insertEntry order e.1 e.2 kept) kept).map
        fun e => first e.1 + second e.2).sum ≤
      (items.map fun e => first e.1 + second e.2).sum +
        (kept.map fun e => first e.1 + second e.2).sum := by
    induction items generalizing kept with
    | nil => simp
    | cons e items ih =>
      have step := sum_insertEntry_le order first second e.1 e.2 kept
      have rest := ih (insertEntry order e.1 e.2 kept)
      simp only [List.foldl_cons, List.map_cons, List.sum_cons]
      omega
  exact go []

end Sums

mutual

/-- The number of items, entries and present fields, at every level. -/
def Shape.load : (s : Shape) → s.Val → Nat
  | .bool, _ | .byte, _ | .i16, _ | .i32, _ | .i64, _ | .double, _ | .string, _ | .enum _ _, _ => 0
  | .list item, as => (as.map fun a => item.load a + 1).sum
  | .set item, as => (as.map fun a => item.load a + 1).sum
  | .map key value, es => (es.map fun e => key.load e.1 + (value.load e.2 + 1)).sum
  | .record _ fields, record => fields.load record

def Fields.load : (fs : Fields) → fs.Val → Nat
  | .nil, _ => 0
  | .cons _ shape rest, (a, others) => a.elim 0 (fun b => shape.load b + 1) + rest.load others

end

theorem Fields.load_absent (fs : Fields) : fs.load fs.absent = 0 := by
  cases fs with
  | nil => rfl
  | cons field shape rest =>
    rw [absent, load, rest.load_absent]
    rfl

mutual

/-- A value has more bytes than it has anything in it. -/
theorem Shape.load_value : (s : Shape) → (t : Tree) → s.load (s.value t) + 1 ≤ t.encode.length
  | .bool, t | .byte, t | .i16, t | .i32, t | .i64, t | .double, t | .string, t | .enum _ _, t =>
    t.length_encode_pos
  | .list item, t => by
    have each : (t.items.map fun u => item.load (item.value u) + 1).sum ≤
        (t.items.map fun u => u.encode.length).sum :=
      List.sum_le_sum fun u _ => item.load_value u
    rw [Shape.value, Shape.load, List.map_map]
    exact Nat.le_trans (Nat.add_le_add_right each 1) (sum_length_items t)
  | .set item, t => by
    have kept := sum_ascending_le item.order (fun a => item.load a + 1) (t.items.map item.value)
    have each : (t.items.map fun u => item.load (item.value u) + 1).sum ≤
        (t.items.map fun u => u.encode.length).sum :=
      List.sum_le_sum fun u _ => item.load_value u
    rw [List.map_map] at kept
    rw [Shape.value, Shape.load]
    exact Nat.le_trans (Nat.add_le_add_right (Nat.le_trans kept each) 1) (sum_length_items t)
  | .map key value, t => by
    have kept := sum_entries_le key.order key.load (fun v => value.load v + 1)
      (t.entries.map fun e => (key.value e.1, value.value e.2))
    have each : (t.entries.map fun e => key.load (key.value e.1) +
        (value.load (value.value e.2) + 1)).sum ≤
        (t.entries.map fun e => e.1.encode.length + e.2.encode.length).sum := by
      refine List.sum_le_sum fun e _ => ?_
      have first := key.load_value e.1
      have second := value.load_value e.2
      omega
    rw [List.map_map] at kept
    rw [Shape.value, Shape.load]
    exact Nat.le_trans (Nat.add_le_add_right (Nat.le_trans kept each) 1) (sum_length_entries t)
  | .record _ fields, t => by
    -- A record adds no more than its own bytes, also if it replaces what an earlier one has set.
    have run (rs : List Record) (record : fields.Val) :
        fields.load (rs.foldl fields.assign record) ≤
          fields.load record + (rs.map fun r => r.2.encode.length).sum := by
      induction rs generalizing record with
      | nil => exact Nat.le_refl _
      | cons r rs ih =>
        have step := fields.load_assign record r
        have rest := ih (fields.assign record r)
        simp only [List.foldl_cons, List.map_cons, List.sum_cons]
        omega
    have all := run t.records fields.absent
    rw [fields.load_absent, Nat.zero_add] at all
    rw [Shape.value, Shape.load]
    exact Nat.le_trans (Nat.add_le_add_right all 1) (sum_length_records t)

theorem Fields.load_assign : (fs : Fields) → (record : fs.Val) → (r : Record) →
    fs.load (fs.assign record r) ≤ fs.load record + r.2.encode.length
  | .nil, _, _ => Nat.zero_le _
  | .cons field shape rest, (a, others), r => by
    rw [Fields.assign]
    by_cases here : r.header = ⟨shape.kind, field.id⟩
    · have value := shape.load_value r.2
      rw [if_pos here, Fields.load, Fields.load, Option.elim_some]
      omega
    · have later := rest.load_assign others r
      rw [if_neg here, Fields.load, Fields.load]
      omega

end

/-- Whatever is skipped takes a byte at least, a list or a set as many as it announces items, and a
map two for every entry that it announces. A record that was read took more bytes than there are
items, entries and present fields in it. -/
theorem input_pays :
    (∀ (kind : Kind) (bytes rest : Bytes), skip kind bytes = .ok () rest →
      ∃ taken, bytes = taken ++ rest ∧ 1 ≤ taken.length ∧
        ((kind = .list ∨ kind = .set) → ∀ (item : UInt8) (n : UInt32) (body : Bytes),
          bytes = item :: bigEndian 4 n.toNat ++ body → n.toNat ≤ taken.length) ∧
        (kind = .map → ∀ (key value : UInt8) (n : UInt32) (body : Bytes),
          bytes = key :: value :: bigEndian 4 n.toNat ++ body → 2 * n.toNat ≤ taken.length)) ∧
    ∀ (fs : Fields) (bytes : Bytes) (record : fs.Val) (rest : Bytes),
      fs.readNew bytes = .ok record rest →
        ∃ taken, bytes = taken ++ rest ∧ fs.load record < taken.length := by
  constructor
  · intro kind bytes rest skipped
    obtain ⟨_, rfl, t, ⟨rfl, wellFormed, -⟩, rfl⟩ :=
      skipWithin_takes maxDepth kind bytes () rest skipped
    exact ⟨t.encode, rfl, t.length_encode_pos,
      fun sequence _ _ _ announced => announced_items_le wellFormed sequence announced,
      fun mapping _ _ _ _ announced => announced_entries_le wellFormed mapping announced⟩
  · intro fs bytes record rest read
    obtain ⟨t, -, rfl, rfl⟩ := ((Shape.record "" fs).read_eq_ok_iff bytes record rest).mp read
    exact ⟨t.encode, rfl, (Shape.record "" fs).load_value t⟩

def Tutorial.oneName : Tutorial.containersFields.Val :=
  (none, some ["a"], none, none, none, none, none, none, none, none, none, none, none, ())

theorem input_pays_map_names :
    (∃ taken, ([3, 3, 0, 0, 0, 1, 7, 9, 5] : Bytes) = taken ++ [5] ∧ 2 ≤ taken.length) ∧
    Tutorial.containersFields.load Tutorial.oneName = 2 ∧
    ∃ taken, ([14, 0, 2, 11, 0, 0, 0, 2, 0, 0, 0, 1, 97, 0, 0, 0, 1, 97, 0] : Bytes) = taken ++ [] ∧
      Tutorial.containersFields.load Tutorial.oneName < taken.length := by
  refine ⟨?_, by decide, ?_⟩
  · obtain ⟨taken, split, -, -, entries⟩ := input_pays.1 .map [3, 3, 0, 0, 0, 1, 7, 9, 5] [5] rfl
    exact ⟨taken, split, entries rfl 3 3 1 [7, 9, 5] (by decide)⟩
  · exact input_pays.2 Tutorial.containersFields _ Tutorial.oneName [] (by rfl)

end Idl
