import Idl.Proofs.Value.Encoding

/-!
# Writing and reading back

A value that fits its size words is written as the bytes of a well-formed tree, and this tree
encodes the value. So a record is read back as it was written: the fields that are present with
their values, and the absent ones absent, whatever their defaults.
-/

set_option autoImplicit false

namespace Idl

open Wire Wire.Tree

mutual

/-- Every text and every container is small enough for its size word. -/
def Shape.Fits : (s : Shape) → s.Val → Prop
  | .bool, _ | .byte, _ | .i16, _ | .i32, _ | .i64, _ | .double, _ | .enum _ _, _ => True
  | .string, s => (Text.utf8 s).length ≤ 0x7FFFFFFF
  | .list item, as => as.length ≤ 0x7FFFFFFF ∧ ∀ a ∈ as, item.Fits a
  | .set item, as => as.length ≤ 0x7FFFFFFF ∧ ∀ a ∈ as, item.Fits a
  | .map key value, es => es.length ≤ 0x7FFFFFFF ∧ ∀ e ∈ es, key.Fits e.1 ∧ value.Fits e.2
  | .record _ fields, record => fields.Fits record

def Fields.Fits : (fs : Fields) → fs.Val → Prop
  | .nil, _ => True
  | .cons _ shape rest, (a, others) => (∀ b ∈ a, shape.Fits b) ∧ rest.Fits others

end

mutual

@[reducible] def Shape.decideFits : (s : Shape) → DecidablePred s.Fits
  | .bool | .byte | .i16 | .i32 | .i64 | .double | .enum _ _ => fun _ => .isTrue trivial
  | .string => fun s => inferInstanceAs (Decidable ((Text.utf8 s).length ≤ 0x7FFFFFFF))
  | .list item | .set item => fun as =>
    have := item.decideFits
    inferInstanceAs (Decidable (as.length ≤ 0x7FFFFFFF ∧ ∀ a ∈ as, item.Fits a))
  | .map key value => fun es =>
    have := key.decideFits
    have := value.decideFits
    inferInstanceAs (Decidable (es.length ≤ 0x7FFFFFFF ∧ ∀ e ∈ es, key.Fits e.1 ∧ value.Fits e.2))
  | .record _ fields => fields.decideFits

@[reducible] def Fields.decideFits : (fs : Fields) → DecidablePred fs.Fits
  | .nil => fun _ => .isTrue trivial
  | .cons _ shape rest => fun (a, others) =>
    have := shape.decideFits
    have := rest.decideFits
    inferInstanceAs (Decidable ((∀ b ∈ a, shape.Fits b) ∧ rest.Fits others))

end

instance (fs : Fields) : DecidablePred fs.Fits := fs.decideFits

mutual

/-- Sets and maps are strictly ascending, at every level. -/
def Shape.Canonical : (s : Shape) → s.Val → Prop
  | .bool, _ | .byte, _ | .i16, _ | .i32, _ | .i64, _ | .double, _ | .string, _
  | .enum _ _, _ => True
  | .list item, as => ∀ a ∈ as, item.Canonical a
  | .set item, as => Ascending item.order as ∧ ∀ a ∈ as, item.Canonical a
  | .map key value, es => Ascending key.order (es.map Prod.fst) ∧
      ∀ e ∈ es, key.Canonical e.1 ∧ value.Canonical e.2
  | .record _ fields, record => fields.Canonical record

def Fields.Canonical : (fs : Fields) → fs.Val → Prop
  | .nil, _ => True
  | .cons _ shape rest, (a, others) => (∀ b ∈ a, shape.Canonical b) ∧ rest.Canonical others

end

mutual

@[reducible] def Shape.decideCanonical : (s : Shape) → DecidablePred s.Canonical
  | .bool | .byte | .i16 | .i32 | .i64 | .double | .string | .enum _ _ => fun _ => .isTrue trivial
  | .list item => fun as =>
    have := item.decideCanonical
    inferInstanceAs (Decidable (∀ a ∈ as, item.Canonical a))
  | .set item => fun as =>
    have := item.decideCanonical
    inferInstanceAs (Decidable (Ascending item.order as ∧ ∀ a ∈ as, item.Canonical a))
  | .map key value => fun es =>
    have := key.decideCanonical
    have := value.decideCanonical
    inferInstanceAs (Decidable (Ascending key.order (es.map Prod.fst) ∧
      ∀ e ∈ es, key.Canonical e.1 ∧ value.Canonical e.2))
  | .record _ fields => fields.decideCanonical

@[reducible] def Fields.decideCanonical : (fs : Fields) → DecidablePred fs.Canonical
  | .nil => fun _ => .isTrue trivial
  | .cons _ shape rest => fun (a, others) =>
    have := shape.decideCanonical
    have := rest.decideCanonical
    inferInstanceAs (Decidable ((∀ b ∈ a, shape.Canonical b) ∧ rest.Canonical others))

end

instance (fs : Fields) : DecidablePred fs.Canonical := fs.decideCanonical

mutual

def Shape.Plain : Shape → Prop
  | .bool | .byte | .i16 | .i32 | .i64 | .double | .string | .enum _ _ => True
  | .list item => item.Plain
  | .set _ | .map _ _ => False
  | .record _ fields => fields.Plain

def Fields.Plain : Fields → Prop
  | .nil => True
  | .cons _ shape rest => shape.Plain ∧ rest.Plain

end

mutual

theorem Shape.canonical_of_plain : (s : Shape) → s.Plain → (a : s.Val) → s.Canonical a
  | .bool, _, _ | .byte, _, _ | .i16, _, _ | .i32, _, _ | .i64, _, _ | .double, _, _
  | .string, _, _ | .enum _ _, _, _ => trivial
  | .list item, h, _ => fun a _ => item.canonical_of_plain h a
  | .record _ fields, h, record => fields.canonical_of_plain h record

theorem Fields.canonical_of_plain : (fs : Fields) → fs.Plain → (record : fs.Val) →
    fs.Canonical record
  | .nil, _, _ => trivial
  | .cons _ shape rest, h, (_, others) =>
    ⟨fun b _ => shape.canonical_of_plain h.1 b, rest.canonical_of_plain h.2 others⟩

end

mutual

/-- The tree that a value is written as. -/
def Shape.tree : (s : Shape) → s.Val → Tree
  | .bool, b => .scalar (.bool (if b then 1 else 0))
  | .byte, n => .scalar (.byte n)
  | .i16, n => .scalar (.i16 n)
  | .i32, n => .scalar (.i32 n)
  | .i64, n => .scalar (.i64 n)
  | .double, d => .scalar (.double d)
  | .string, s => .scalar (.string s)
  | .enum _ _, n => .scalar (.i32 n)
  | .list item, as => .list item.kind (as.map item.tree)
  | .set item, as => .set item.kind (as.map item.tree)
  | .map key value, es =>
    .map key.kind value.kind (es.map fun e => (key.tree e.1, value.tree e.2))
  | .record _ fields, record => .struct (fields.records record)

def Fields.records : (fs : Fields) → fs.Val → List Record
  | .nil, _ => []
  | .cons field shape rest, (a, others) =>
    (match a with
     | none => []
     | some b => [(field.id, shape.tree b)]) ++ rest.records others

end

@[simp] theorem Shape.tree_kind (s : Shape) (a : s.Val) : (s.tree a).kind = s.kind := by
  cases s <;> rfl

theorem emission_items {α : Type} (what : Sized) (k : Kind) (as : List α)
    (h : as.length ≤ 0x7FFFFFFF) :
    Emission.items what k (headerCount as) = ⟨k.tag :: bigEndian 4 as.length, none⟩ := by
  rw [headerCount, Nat.mod_eq_of_lt (by omega), Emission.items, emission_size _ _ h]
  rfl

theorem emission_entries {α : Type} (k v : Kind) (as : List α) (h : as.length ≤ 0x7FFFFFFF) :
    Emission.entries k v (headerCount as) = ⟨k.tag :: v.tag :: bigEndian 4 as.length, none⟩ := by
  rw [headerCount, Nat.mod_eq_of_lt (by omega), Emission.entries, emission_size _ _ h]
  rfl

mutual

theorem Shape.write_eq : (s : Shape) → (a : s.Val) → s.Fits a →
    s.write a = ⟨(s.tree a).encode, none⟩
  | .bool, _, _ | .byte, _, _ | .i16, _, _ | .i32, _, _ | .i64, _, _ | .double, _, _
  | .enum _ _, _, _ => rfl
  | .string, s, h => emission_string s h
  | .list item, as, h => by
    rw [Shape.write, emission_items _ _ _ h.1,
      emission_all as fun a ha => item.write_eq a (h.2 a ha), Shape.tree, encode, encodeItems_eq,
      List.length_map, List.flatMap_map]
    rfl
  | .set item, as, h => by
    rw [Shape.write, emission_items _ _ _ h.1,
      emission_all as fun a ha => item.write_eq a (h.2 a ha), Shape.tree, encode, encodeItems_eq,
      List.length_map, List.flatMap_map]
    rfl
  | .map key value, es, h => by
    have pairs : ∀ e ∈ es, key.write e.1 ++ value.write e.2 =
        ⟨(key.tree e.1).encode ++ (value.tree e.2).encode, none⟩ := by
      intro e he
      rw [key.write_eq e.1 (h.2 e he).1, value.write_eq e.2 (h.2 e he).2]
      rfl
    rw [Shape.write, emission_entries _ _ _ h.1, emission_all es pairs, Shape.tree, encode,
      encodeEntries_eq, List.length_map, List.flatMap_map]
    rfl
  | .record _ fields, record, h => by
    rw [Shape.write, fields.writeFields_eq record h]
    rfl

theorem Fields.writeFields_eq : (fs : Fields) → (record : fs.Val) → fs.Fits record →
    fs.writeFields record = ⟨encodeRecords (fs.records record), none⟩
  | .nil, _, _ => rfl
  | .cons field shape rest, (none, others), h => rest.writeFields_eq others h.2
  | .cons field shape rest, (some b, others), h => by
    rw [Fields.writeFields, rest.writeFields_eq others h.2]
    simp only [shape.write_eq b (h.1 b rfl), Fields.records, List.singleton_append, encodeRecords,
      Shape.tree_kind]
    simp [Emission.field, Emission.kind, Emission.i16, emission_append]

end

mutual

theorem Shape.tree_wellFormed : (s : Shape) → (a : s.Val) → s.Fits a → (s.tree a).WellFormed
  | .bool, _, _ | .byte, _, _ | .i16, _, _ | .i32, _, _ | .i64, _, _ | .double, _, _
  | .enum _ _, _, _ => .scalar trivial
  | .string, _, h => .scalar h
  | .list item, as, h => by
    refine .list (by simpa using h.1) (List.forall_mem_map.mpr fun a _ => item.tree_kind a)
      (List.forall_mem_map.mpr fun a ha => ?_)
    exact item.tree_wellFormed a (h.2 a ha)
  | .set item, as, h => by
    refine .set (by simpa using h.1) (List.forall_mem_map.mpr fun a _ => item.tree_kind a)
      (List.forall_mem_map.mpr fun a ha => ?_)
    exact item.tree_wellFormed a (h.2 a ha)
  | .map key value, es, h => by
    refine .map (by simpa using h.1)
      (List.forall_mem_map.mpr fun e _ => ⟨key.tree_kind e.1, value.tree_kind e.2⟩)
      (List.forall_mem_map.mpr fun e he => ?_) (List.forall_mem_map.mpr fun e he => ?_)
    · exact key.tree_wellFormed e.1 (h.2 e he).1
    · exact value.tree_wellFormed e.2 (h.2 e he).2
  | .record _ fields, record, h => .struct (fields.records_wellFormed record h)

theorem Fields.records_wellFormed : (fs : Fields) → (record : fs.Val) → fs.Fits record →
    ∀ r ∈ fs.records record, r.2.WellFormed
  | .nil, _, _, _, hr => by cases hr
  | .cons _ _ rest, (none, others), h, r, hr => rest.records_wellFormed others h.2 r hr
  | .cons _ shape rest, (some b, others), h, r, hr => by
    rcases List.mem_cons.mp hr with rfl | hr
    · exact shape.tree_wellFormed b (h.1 b rfl)
    · exact rest.records_wellFormed others h.2 r hr

end

theorem Fields.records_headers : (fs : Fields) → (record : fs.Val) →
    ∀ r ∈ fs.records record, r.header ∈ fs.headers
  | .nil, _, _, hr => by cases hr
  | .cons _ _ rest, (none, others), r, hr =>
    List.mem_cons_of_mem _ (rest.records_headers others r hr)
  | .cons field shape rest, (some b, others), r, hr => by
    rcases List.mem_cons.mp hr with rfl | hr
    · have header : Record.header (field.id, shape.tree b) = ⟨shape.kind, field.id⟩ := by
        rw [Record.header, shape.tree_kind]
      rw [header]
      exact List.mem_cons_self
    · exact List.mem_cons_of_mem _ (rest.records_headers others r hr)

theorem Fields.types_of_undeclared : (fs : Fields) → (r : Record) → r.header ∉ fs.headers →
    fs.Types r
  | .nil, _, _ => trivial
  | .cons _ _ rest, r, h =>
    ⟨fun he => absurd (he ▸ List.mem_cons_self) h,
      rest.types_of_undeclared r fun hm => h (List.mem_cons_of_mem _ hm)⟩

theorem isLastValue_cons_other {α : Type} {encodes : α → Tree → Prop} {header : FieldHeader}
    {rs : List Record} {r : Record} {a : Option α} (hr : r.header ≠ header)
    (h : IsLastValue encodes header rs a) : IsLastValue encodes header (r :: rs) a := by
  cases a with
  | none => exact List.forall_mem_cons.mpr ⟨hr, h⟩
  | some a =>
    obtain ⟨before, s, after, rfl, hs⟩ := h
    exact ⟨r :: before, s, after, rfl, hs⟩

theorem Fields.holds_cons_other : (fs : Fields) → (record : fs.Val) → (rs : List Record) →
    (r : Record) → r.header ∉ fs.headers → fs.Holds record rs → fs.Holds record (r :: rs)
  | .nil, _, _, _, _, _ => trivial
  | .cons _ _ rest, (_, others), rs, r, hr, h =>
    ⟨isLastValue_cons_other (fun he => hr (he ▸ List.mem_cons_self)) h.1,
      rest.holds_cons_other others rs r (fun hm => hr (List.mem_cons_of_mem _ hm)) h.2⟩

mutual

/-- What is written encodes the value. -/
theorem Shape.encodes_tree : (s : Shape) → s.Distinct → (a : s.Val) → s.Canonical a →
    s.Encodes a (s.tree a)
  | .bool, _, b, _ => ⟨_, rfl, by cases b <;> rfl⟩
  | .byte, _, _, _ | .i16, _, _, _ | .i32, _, _, _ | .i64, _, _, _ | .double, _, _, _
  | .string, _, _, _ | .enum _ _, _, _, _ => rfl
  | .list item, hd, as, h => by
    refine ⟨_, _, rfl, List.forall₂_map_right_iff.mpr (List.forall₂_same.mpr fun a ha => ?_)⟩
    exact item.encodes_tree hd a (h a ha)
  | .set item, hd, as, h => by
    refine ⟨_, _, as, rfl, List.forall₂_map_right_iff.mpr (List.forall₂_same.mpr fun a ha => ?_),
      h.1, fun _ => Iff.rfl⟩
    exact item.encodes_tree hd a (h.2 a ha)
  | .map key value, hd, es, h => by
    refine ⟨_, _, _, es, rfl, List.forall₂_map_right_iff.mpr (List.forall₂_same.mpr fun e he => ?_),
      h.1, mem_iff_isLastEntry key.order es h.1⟩
    exact ⟨key.encodes_tree hd.1 e.1 (h.2 e he).1, value.encodes_tree hd.2 e.2 (h.2 e he).2⟩
  | .record _ fields, hd, record, h =>
    ⟨_, rfl, fun r hr => ⟨fields.types_records hd record h r hr,
      fun hn => absurd (fields.records_headers record r hr) hn⟩, fields.holds_records hd record h⟩

theorem Fields.types_records : (fs : Fields) → fs.Distinct → (record : fs.Val) →
    fs.Canonical record → ∀ r ∈ fs.records record, fs.Types r
  | .nil, _, _, _, _, _ => trivial
  | .cons field shape rest, hd, (a, others), h, r, hr => by
    rcases List.mem_append.mp hr with hr | hr
    · cases a with
      | none => cases hr
      | some b =>
        obtain rfl := List.mem_singleton.mp hr
        refine ⟨fun _ => ⟨b, shape.encodes_tree hd.2.1 b (h.1 b rfl)⟩,
          rest.types_of_undeclared _ ?_⟩
        rw [Record.header, shape.tree_kind]
        exact hd.1
    · have declared := rest.records_headers others r hr
      exact ⟨fun he => absurd (he ▸ declared) hd.1,
        rest.types_records hd.2.2 others h.2 r hr⟩

theorem Fields.holds_records : (fs : Fields) → fs.Distinct → (record : fs.Val) →
    fs.Canonical record → fs.Holds record (fs.records record)
  | .nil, _, _, _ => trivial
  | .cons field shape rest, hd, (a, others), h => by
    have others_hold := rest.holds_records hd.2.2 others h.2
    have other : ∀ r ∈ rest.records others, r.header ≠ ⟨shape.kind, field.id⟩ := by
      intro r hr he
      exact hd.1 (he ▸ rest.records_headers others r hr)
    cases a with
    | none => exact ⟨other, others_hold⟩
    | some b =>
      have header : Record.header (field.id, shape.tree b) = ⟨shape.kind, field.id⟩ := by
        rw [Record.header, shape.tree_kind]
      exact ⟨⟨[], _, _, rfl, header, shape.encodes_tree hd.2.1 b (h.1 b rfl), other⟩,
        rest.holds_cons_other others _ _ (header ▸ hd.1) others_hold⟩

end

theorem Fields.write_eq (fs : Fields) (record : fs.Val) (fits : fs.Fits record) :
    fs.write record = ⟨(Tree.struct (fs.records record)).encode, none⟩ :=
  (Shape.record "" fs).write_eq record fits

/-- A record is read back from the bytes that it is written as. -/
theorem Fields.reads_write (fs : Fields) (distinct : fs.Distinct) (record : fs.Val)
    (canonical : fs.Canonical record) (fits : fs.Fits record) :
    Reads fs.readNew (fs.write record).bytes record := by
  rw [fs.write_eq record fits]
  exact (Shape.record "" fs).readsBack distinct record _
    ((Shape.record "" fs).tree_wellFormed record fits)
    ((Shape.record "" fs).encodes_tree distinct record canonical)

end Idl
