import Mathlib.Data.List.Perm.Subperm
import Idl.Proofs.Text.ByteOrder
import Idl.Proofs.Value.RoundTrip
import Idl.Proofs.Value.TreeValue

/-!
# Writing what was read

The sets and maps of a value that was read are ascending, and there is no more in them than was
given, so that the value can be written again. Where sets hold scalars and maps have scalar keys,
what is written is sorted: numbers come by their size, doubles by sign and magnitude, and texts by
their bytes.
-/

set_option autoImplicit false

namespace Idl

open Wire Wire.Tree

section Sizes

variable {α κ ν : Type}

theorem length_ascending_le (order : α → α → Ordering) [Std.LawfulEqCmp order]
    [Std.TransCmp order] (items : List α) : (ascending order items).length ≤ items.length :=
  ((ascending_nodup order items).subperm fun a h => (mem_ascending order items a).mp h).length_le

theorem length_entries_le (order : κ → κ → Ordering) [Std.LawfulEqCmp order] [Std.TransCmp order]
    (items : List (κ × ν)) : (entries order items).length ≤ items.length := by
  have nodup : (entries order items).Nodup := by
    apply (List.pairwise_map.mp (entries_ascend order items)).imp
    rintro e _ h rfl
    exact Std.OrientedCmp.not_lt_of_lt h h
  exact (nodup.subperm fun _ h => mem_of_mem_entries order h).length_le

end Sizes

theorem Fields.canonical_absent (fs : Fields) : fs.Canonical fs.absent := by
  cases fs with
  | nil => trivial
  | cons field shape rest => exact ⟨by simp, rest.canonical_absent⟩

theorem Fields.fits_absent (fs : Fields) : fs.Fits fs.absent := by
  cases fs with
  | nil => trivial
  | cons field shape rest => exact ⟨by simp, rest.fits_absent⟩

mutual

/-- A tree stands for a value whose sets and maps are strictly ascending. -/
theorem Shape.canonical_value : (s : Shape) → (t : Tree) → s.Canonical (s.value t)
  | .bool, _ | .byte, _ | .i16, _ | .i32, _ | .i64, _ | .double, _ | .string, _
  | .enum _ _, _ => trivial
  | .list item, t => List.forall_mem_map.mpr fun u _ => item.canonical_value u
  | .set item, t => by
    refine ⟨ascending_ascends item.order _, fun a ha => ?_⟩
    obtain ⟨u, -, rfl⟩ := List.mem_map.mp ((mem_ascending item.order _ a).mp ha)
    exact item.canonical_value u
  | .map key value, t => by
    refine ⟨entries_ascend key.order _, fun e he => ?_⟩
    obtain ⟨p, -, rfl⟩ := List.mem_map.mp (mem_of_mem_entries key.order he)
    exact ⟨key.canonical_value p.1, value.canonical_value p.2⟩
  | .record _ fields, t =>
    List.foldlRecOn t.records fields.assign fields.canonical_absent
      fun record h r _ => fields.canonical_assign record r h

theorem Fields.canonical_assign : (fs : Fields) → (record : fs.Val) → (r : Record) →
    fs.Canonical record → fs.Canonical (fs.assign record r)
  | .nil, _, _, _ => trivial
  | .cons field shape rest, (a, others), r, h => by
    rw [Fields.assign]
    by_cases here : r.header = ⟨shape.kind, field.id⟩
    · rw [if_pos here]
      exact ⟨by simpa using shape.canonical_value r.2, h.2⟩
    · rw [if_neg here]
      exact ⟨h.1, rest.canonical_assign others r h.2⟩

end

mutual

theorem Shape.fits_value : (s : Shape) → (t : Tree) → s.Accepts t → s.Fits (s.value t)
  | .bool, _, _ | .byte, _, _ | .i16, _, _ | .i32, _, _ | .i64, _, _ | .double, _, _
  | .enum _ _, _, _ => trivial
  | .string, _, ⟨s, rfl, short⟩ => short
  | .list item, _, ⟨kind, ts, rfl, size, each⟩ => by
    refine ⟨?_, List.forall_mem_map.mpr fun u hu => item.fits_value u (each u hu)⟩
    rw [Shape.value, Tree.items, List.length_map]
    exact size
  | .set item, _, ⟨kind, ts, rfl, size, each⟩ => by
    have kept := length_ascending_le item.order (ts.map item.value)
    rw [List.length_map] at kept
    refine ⟨Nat.le_trans kept size, fun a ha => ?_⟩
    obtain ⟨u, hu, rfl⟩ := List.mem_map.mp ((mem_ascending item.order _ a).mp ha)
    exact item.fits_value u (each u hu)
  | .map key value, _, ⟨kind, kind', es, rfl, size, each⟩ => by
    have kept := length_entries_le key.order
      (es.map fun e => (key.value e.1, value.value e.2))
    rw [List.length_map] at kept
    refine ⟨Nat.le_trans kept size, fun e he => ?_⟩
    obtain ⟨p, hp, rfl⟩ := List.mem_map.mp (mem_of_mem_entries key.order he)
    exact ⟨key.fits_value p.1 (each p hp).1, value.fits_value p.2 (each p hp).2⟩
  | .record _ fields, _, ⟨rs, rfl, each⟩ =>
    List.foldlRecOn rs fields.assign fields.fits_absent
      fun record h r hr => fields.fits_assign record r (each r hr) h

theorem Fields.fits_assign : (fs : Fields) → (record : fs.Val) → (r : Record) →
    fs.AcceptsRecord r → fs.Fits record → fs.Fits (fs.assign record r)
  | .nil, _, _, _, _ => trivial
  | .cons field shape rest, (a, others), r, accepted, h => by
    rw [Fields.AcceptsRecord] at accepted
    rw [Fields.assign]
    by_cases here : r.header = ⟨shape.kind, field.id⟩
    · rw [if_pos here] at accepted ⊢
      exact ⟨by simpa using shape.fits_value r.2 accepted, h.2⟩
    · rw [if_neg here] at accepted ⊢
      exact ⟨h.1, rest.fits_assign others r accepted h.2⟩

end

/-- Negative doubles come first, by falling magnitude, and then the others by rising magnitude. -/
def Double.Below (a b : Double) : Prop :=
  match a.isNegative, b.isNegative with
  | true, true => b.magnitude < a.magnitude
  | true, false => True
  | false, true => False
  | false, false => a.magnitude < b.magnitude

theorem Double.order_eq_lt (a b : Double) : a.order b = .lt ↔ a.Below b := by
  rw [Double.order, orderInts_eq_lt, Double.key, Double.key, Double.Below]
  cases a.isNegative <;> cases b.isNegative <;> simp <;> omega

namespace Wire

def Scalar.Precedes : Scalar → Scalar → Prop
  | .bool a, .bool b => a < b
  | .byte m, .byte n => m.toInt < n.toInt
  | .i16 m, .i16 n => m.toInt < n.toInt
  | .i32 m, .i32 n => m.toInt < n.toInt
  | .i64 m, .i64 n => m.toInt < n.toInt
  | .double d, .double e => d.Below e
  | .string s, .string t => Text.utf8 s < Text.utf8 t
  | _, _ => False

def Tree.Precedes : Tree → Tree → Prop
  | .scalar a, .scalar b => a.Precedes b
  | _, _ => False

/-- The items of sets and the keys of maps are strictly ascending, at every level. -/
inductive Tree.Sorted : Tree → Prop
  | scalar (s : Scalar) : Sorted (.scalar s)
  | struct {rs : List (Int16 × Tree)} (h : ∀ r ∈ rs, Sorted r.2) : Sorted (.struct rs)
  | list {kind : Kind} {ts : List Tree} (h : ∀ t ∈ ts, Sorted t) : Sorted (.list kind ts)
  | set {kind : Kind} {ts : List Tree} (ascending : ts.Pairwise Tree.Precedes)
      (h : ∀ t ∈ ts, Sorted t) : Sorted (.set kind ts)
  | map {kind kind' : Kind} {es : List (Tree × Tree)}
      (ascending : (es.map Prod.fst).Pairwise Tree.Precedes) (keys : ∀ e ∈ es, Sorted e.1)
      (values : ∀ e ∈ es, Sorted e.2) : Sorted (.map kind kind' es)

end Wire

def Shape.IsScalar : Shape → Prop
  | .bool | .byte | .i16 | .i32 | .i64 | .double | .string | .enum _ _ => True
  | .list _ | .set _ | .map _ _ | .record _ _ => False

theorem Shape.IsScalar.sorted_tree {s : Shape} (scalar : s.IsScalar) (a : s.Val) :
    (s.tree a).Sorted := by
  cases s with
  | bool | byte | i16 | i32 | i64 | double | string | enum => exact .scalar _
  | _ => cases scalar

theorem Shape.IsScalar.precedes_tree {s : Shape} (scalar : s.IsScalar) {a b : s.Val}
    (h : s.order a b = .lt) : (s.tree a).Precedes (s.tree b) := by
  cases s with
  | bool =>
    cases a with
    | true => cases b <;> cases h
    | false =>
      cases b with
      | true => exact (by decide : (0 : UInt8) < 1)
      | false => cases h
  | byte | i16 | i32 | i64 | enum => exact orderInts_eq_lt.mp h
  | double => exact (Double.order_eq_lt a b).mp h
  | string => exact (Text.orderTexts_eq_lt a b).mp h
  | _ => cases scalar

mutual

/-- Sets hold scalars, and maps have scalars for keys, at every level. -/
def Shape.Keyed : Shape → Prop
  | .bool | .byte | .i16 | .i32 | .i64 | .double | .string | .enum _ _ => True
  | .list item => item.Keyed
  | .set item => item.IsScalar
  | .map key value => key.IsScalar ∧ value.Keyed
  | .record _ fields => fields.Keyed

def Fields.Keyed : Fields → Prop
  | .nil => True
  | .cons _ shape rest => shape.Keyed ∧ rest.Keyed

end

mutual

theorem Shape.sorted_tree : (s : Shape) → s.Keyed → (a : s.Val) → s.Canonical a →
    (s.tree a).Sorted
  | .bool, _, _, _ | .byte, _, _, _ | .i16, _, _, _ | .i32, _, _, _ | .i64, _, _, _
  | .double, _, _, _ | .string, _, _, _ | .enum _ _, _, _, _ => .scalar _
  | .list item, keyed, as, h =>
    .list (List.forall_mem_map.mpr fun a ha => item.sorted_tree keyed a (h a ha))
  | .set item, keyed, as, h =>
    .set (List.pairwise_map.mpr (h.1.imp fun less => keyed.precedes_tree less))
      (List.forall_mem_map.mpr fun a _ => keyed.sorted_tree a)
  | .map key value, keyed, es, h => by
    refine .map ?_ (List.forall_mem_map.mpr fun e _ => keyed.1.sorted_tree e.1)
      (List.forall_mem_map.mpr fun e he => value.sorted_tree keyed.2 e.2 (h.2 e he).2)
    rw [List.map_map, List.pairwise_map]
    exact (List.pairwise_map.mp h.1).imp fun less => keyed.1.precedes_tree less
  | .record _ fields, keyed, record, h => .struct (fields.sorted_records keyed record h)

theorem Fields.sorted_records : (fs : Fields) → fs.Keyed → (record : fs.Val) →
    fs.Canonical record → ∀ r ∈ fs.records record, r.2.Sorted
  | .nil, _, _, _, _, hr => by cases hr
  | .cons _ _ rest, keyed, (none, others), h, r, hr =>
    rest.sorted_records keyed.2 others h.2 r hr
  | .cons _ shape rest, keyed, (some b, others), h, r, hr => by
    rcases List.mem_cons.mp hr with rfl | hr
    · exact shape.sorted_tree keyed.1 b (h.1 b rfl)
    · exact rest.sorted_records keyed.2 others h.2 r hr

end

/-- A record that was read can be written, and is written sorted. -/
theorem Fields.write_read (fs : Fields) (keyed : fs.Keyed) {bytes rest : Bytes} {record : fs.Val}
    (read : fs.readNew bytes = .ok record rest) :
    fs.write record = ⟨(Tree.struct (fs.records record)).encode, none⟩ ∧
      (Tree.struct (fs.records record)).Sorted := by
  obtain ⟨t, accepted, rfl, -⟩ := ((Shape.record "" fs).read_eq_ok_iff bytes record rest).mp read
  exact ⟨fs.write_eq _ ((Shape.record "" fs).fits_value t accepted),
    .struct (fs.sorted_records keyed _ ((Shape.record "" fs).canonical_value t))⟩

end Idl
