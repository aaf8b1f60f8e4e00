import Idl.Value.Shape
import Mathlib.Data.List.Sort

/-!
# Orders of values and ascending lists

The values of every shape are totally ordered, and only equal values compare as equal. So the
lists that sets and maps are kept in are determined by what is in them: inserting leaves a list
strictly ascending, and two strictly ascending lists with the same members are the same list.
-/

set_option autoImplicit false

namespace Idl

variable {α β κ ν : Type}

/-- A comparison is a total order of values that it can tell apart. -/
structure TotalOrder (order : α → α → Ordering) : Prop where
  trans : Std.TransCmp order
  lawful : Std.LawfulEqCmp order

namespace TotalOrder

theorem nats : TotalOrder orderNats := by
  have h : orderNats = compare := by
    funext a b
    simp [orderNats, compare, compareOfLessAndEq]
  rw [h]
  exact ⟨inferInstance, inferInstance⟩

theorem ints : TotalOrder orderInts := by
  have h : orderInts = compare := by
    funext a b
    simp [orderInts, compare, compareOfLessAndEq]
  rw [h]
  exact ⟨inferInstance, inferInstance⟩

theorem on {order : β → β → Ordering} (total : TotalOrder order) (key : α → β)
    (inj : ∀ a b, key a = key b → a = b) : TotalOrder fun a b => order (key a) (key b) where
  trans :=
    { eq_swap := total.trans.eq_swap
      isLE_trans := total.trans.isLE_trans }
  lawful :=
    { compare_self := total.lawful.compare_self
      eq_of_compare := fun h => inj _ _ (total.lawful.eq_of_compare h) }

theorem lists {order : α → α → Ordering} (total : TotalOrder order) :
    TotalOrder (orderLists order) := by
  have h : orderLists order = List.compareLex order := by
    funext as bs
    induction as generalizing bs with
    | nil => cases bs <;> rfl
    | cons a as ih =>
      cases bs with
      | nil => rfl
      | cons b bs => rw [orderLists, List.compareLex_cons_cons, ih]
  have := total.trans
  have := total.lawful
  rw [h]
  exact ⟨inferInstance, inferInstance⟩

theorem pairs {first : α → α → Ordering} {second : β → β → Ordering} (hf : TotalOrder first)
    (hs : TotalOrder second) : TotalOrder (orderPairs first second) := by
  have : Std.TransCmp fun x y : α × β => first x.1 y.1 :=
    { eq_swap := hf.trans.eq_swap, isLE_trans := hf.trans.isLE_trans }
  have : Std.TransCmp fun x y : α × β => second x.2 y.2 :=
    { eq_swap := hs.trans.eq_swap, isLE_trans := hs.trans.isLE_trans }
  have trans : Std.TransCmp (orderPairs first second) := inferInstanceAs (Std.TransCmp
    (compareLex (fun x y : α × β => first x.1 y.1) fun x y => second x.2 y.2))
  refine ⟨trans, ⟨fun {x y} h => ?_⟩⟩
  rw [orderPairs, Ordering.then_eq_eq] at h
  exact Prod.ext (hf.lawful.eq_of_compare h.1) (hs.lawful.eq_of_compare h.2)

theorem options {order : α → α → Ordering} (total : TotalOrder order) :
    TotalOrder (orderOptions order) := by
  let _ : Ord α := ⟨order⟩
  have : Std.TransOrd α := total.trans
  have : Std.LawfulEqOrd α := total.lawful
  have h : orderOptions order = compare := by
    funext a b
    cases a <;> cases b <;> rfl
  rw [h]
  exact ⟨inferInstance, inferInstance⟩

theorem texts : TotalOrder orderTexts :=
  (lists (on nats Char.toNat fun _ _ => Char.toNat_inj.mp)).on String.toList
    fun _ _ => String.toList_injective

end TotalOrder

theorem Double.key_injective (a b : Double) (h : a.key = b.key) : a = b := by
  obtain ⟨a⟩ := a
  obtain ⟨b⟩ := b
  have ha := a.toNat_lt
  have hb := b.toNat_lt
  simp only [key, isNegative, magnitude, decide_eq_true_eq] at h
  congr 1
  apply UInt64.toNat_inj.mp
  by_cases h₁ : 0x8000000000000000 ≤ a.toNat <;> by_cases h₂ : 0x8000000000000000 ≤ b.toNat <;>
    simp only [h₁, h₂, if_true, if_false] at h <;> omega

mutual

theorem Shape.order_total : (s : Shape) → TotalOrder s.order
  | .bool => .on .nats Bool.toNat (by decide)
  | .byte => .on .ints Int8.toInt fun _ _ => Int8.toInt_inj.mp
  | .i16 => .on .ints Int16.toInt fun _ _ => Int16.toInt_inj.mp
  | .i32 | .enum _ _ => .on .ints Int32.toInt fun _ _ => Int32.toInt_inj.mp
  | .i64 => .on .ints Int64.toInt fun _ _ => Int64.toInt_inj.mp
  | .double => .on .ints Double.key Double.key_injective
  | .string => .texts
  | .list item => item.order_total.lists
  | .set item => item.order_total.lists
  | .map key value => (key.order_total.pairs value.order_total).lists
  | .record _ fields => fields.order_total

theorem Fields.order_total : (fs : Fields) → TotalOrder fs.order
  | .nil =>
    { trans := { eq_swap := rfl, isLE_trans := fun _ _ => rfl }
      lawful := { compare_self := rfl, eq_of_compare := fun _ => rfl } }
  | .cons _ shape rest => shape.order_total.options.pairs rest.order_total

end

instance : Std.TransCmp orderTexts := TotalOrder.texts.trans

instance : Std.LawfulEqCmp orderTexts := TotalOrder.texts.lawful

instance (s : Shape) : Std.TransCmp s.order := s.order_total.trans

instance (s : Shape) : Std.LawfulEqCmp s.order := s.order_total.lawful

def Ascending (order : α → α → Ordering) (items : List α) : Prop :=
  items.Pairwise fun a b => order a b = .lt

instance (order : α → α → Ordering) (items : List α) : Decidable (Ascending order items) :=
  inferInstanceAs (Decidable (items.Pairwise fun a b => order a b = .lt))

/-- An entry that no later entry with the same key replaces. -/
def IsLastEntry (items : List (κ × ν)) (k : κ) (v : ν) : Prop :=
  ∃ before after, items = before ++ (k, v) :: after ∧ ∀ e ∈ after, e.1 ≠ k

theorem isLastEntry_cons (e : κ × ν) (items : List (κ × ν)) (k : κ) (v : ν) :
    IsLastEntry (e :: items) k v ↔
      IsLastEntry items k v ∨ (e = (k, v) ∧ ∀ f ∈ items, f.1 ≠ k) := by
  constructor
  · rintro ⟨before, after, h, later⟩
    cases before with
    | nil =>
      obtain ⟨rfl, rfl⟩ := List.cons.inj h
      exact .inr ⟨rfl, later⟩
    | cons b before =>
      obtain ⟨rfl, rfl⟩ := List.cons.inj h
      exact .inl ⟨before, after, rfl, later⟩
  · rintro (⟨before, after, rfl, later⟩ | ⟨rfl, later⟩)
    · exact ⟨e :: before, after, rfl, later⟩
    · exact ⟨[], items, rfl, later⟩

theorem exists_isLastEntry_iff {items : List (κ × ν)} {k : κ} :
    (∃ v, IsLastEntry items k v) ↔ k ∈ items.map Prod.fst := by
  induction items with
  | nil => simp [IsLastEntry]
  | cons e items ih =>
    simp only [isLastEntry_cons, exists_or, ih, List.map_cons, List.mem_cons]
    by_cases later : k ∈ items.map Prod.fst
    · simp [later]
    · have only : ∀ f ∈ items, f.1 ≠ k := fun f member same =>
        later (List.mem_map.mpr ⟨f, member, same⟩)
      simp only [later, false_or, or_false]
      constructor
      · rintro ⟨v, rfl, -⟩
        rfl
      · rintro rfl
        exact ⟨e.2, rfl, only⟩

section Strict

variable (order : κ → κ → Ordering) [Std.TransCmp order] (key : α → κ)

theorem strict_irrefl : Std.Irrefl fun a b => order (key a) (key b) = .lt :=
  ⟨fun _ lt => Std.OrientedCmp.not_lt_of_lt lt lt⟩

theorem strict_antisymm : Std.Antisymm fun a b => order (key a) (key b) = .lt :=
  ⟨fun _ _ lt gt => (Std.OrientedCmp.not_lt_of_lt lt gt).elim⟩

end Strict

section Sets

variable (order : α → α → Ordering) [Std.LawfulEqCmp order]

theorem mem_insertAscending (a x : α) (kept : List α) :
    x ∈ insertAscending order a kept ↔ x = a ∨ x ∈ kept := by
  induction kept with
  | nil => simp [insertAscending]
  | cons b bs ih =>
    rw [insertAscending]
    cases h : order a b with
    | lt => simp
    | eq =>
      have hab : a = b := Std.LawfulEqCmp.eq_of_compare h
      simp [hab]
    | gt =>
      simp only [List.mem_cons, ih]
      exact or_left_comm

theorem mem_foldl_insertAscending (items kept : List α) (x : α) :
    x ∈ items.foldl (fun kept a => insertAscending order a kept) kept ↔ x ∈ items ∨ x ∈ kept := by
  induction items generalizing kept with
  | nil => simp
  | cons a items ih =>
    rw [List.foldl_cons, ih, mem_insertAscending, List.mem_cons, or_assoc, or_left_comm]

theorem mem_ascending (items : List α) (x : α) : x ∈ ascending order items ↔ x ∈ items := by
  rw [ascending, mem_foldl_insertAscending]
  simp

variable [Std.TransCmp order]

theorem insertAscending_ascending (a : α) (kept : List α) (h : Ascending order kept) :
    Ascending order (insertAscending order a kept) := by
  induction kept with
  | nil => exact List.pairwise_singleton _ a
  | cons b bs ih =>
    obtain ⟨hb, hbs⟩ := List.pairwise_cons.mp h
    rw [insertAscending]
    cases hab : order a b with
    | lt =>
      refine List.pairwise_cons.mpr ⟨fun x hx => ?_, h⟩
      rcases List.mem_cons.mp hx with rfl | hx
      · exact hab
      · exact Std.TransCmp.lt_trans hab (hb x hx)
    | eq => exact h
    | gt =>
      refine List.pairwise_cons.mpr ⟨fun x hx => ?_, ih hbs⟩
      rcases (mem_insertAscending order a x bs).mp hx with rfl | hx
      · exact Std.OrientedCmp.lt_of_gt hab
      · exact hb x hx

theorem foldl_insertAscending_ascending (items kept : List α) (h : Ascending order kept) :
    Ascending order (items.foldl (fun kept a => insertAscending order a kept) kept) := by
  induction items generalizing kept with
  | nil => exact h
  | cons a items ih => exact ih _ (insertAscending_ascending order a kept h)

theorem ascending_ascends (items : List α) : Ascending order (ascending order items) :=
  foldl_insertAscending_ascending order items [] List.Pairwise.nil

theorem ascending_eq (items set : List α) (h : Ascending order set)
    (hm : ∀ x, x ∈ set ↔ x ∈ items) : ascending order items = set := by
  have : Std.Irrefl fun a b => order a b = .lt := strict_irrefl order id
  have : Std.Antisymm fun a b => order a b = .lt := strict_antisymm order id
  apply (ascending_ascends order items).eq_of_mem_iff h
  intro x
  rw [mem_ascending, hm x]

theorem ascending_nodup (items : List α) : (ascending order items).Nodup := by
  apply (ascending_ascends order items).imp
  rintro a _ h rfl
  exact Std.OrientedCmp.not_lt_of_lt h h

end Sets

section Maps

variable (order : κ → κ → Ordering) [Std.LawfulEqCmp order]

theorem key_ne_of_lt {k l : κ} (h : order k l = .lt) : l ≠ k := by
  rintro rfl
  have self : order l l = .eq := Std.ReflCmp.compare_self
  rw [self] at h
  cases h

theorem mem_iff_isLastEntry (es : List (κ × ν)) (h : Ascending order (es.map Prod.fst)) (k : κ)
    (v : ν) : (k, v) ∈ es ↔ IsLastEntry es k v := by
  induction es with
  | nil => simp [IsLastEntry]
  | cons e es ih =>
    obtain ⟨he, hes⟩ := List.pairwise_cons.mp h
    have other : ∀ f ∈ es, f.1 ≠ e.1 := fun f hf =>
      key_ne_of_lt order (he f.1 (List.mem_map_of_mem hf))
    rw [List.mem_cons, isLastEntry_cons, ih hes]
    constructor
    · rintro (rfl | hv)
      · exact .inr ⟨rfl, other⟩
      · exact .inl hv
    · rintro (hv | ⟨rfl, -⟩)
      · exact .inr hv
      · exact .inl rfl

variable [Std.TransCmp order]

theorem mem_insertEntry (k : κ) (v : ν) (kept : List (κ × ν))
    (h : Ascending order (kept.map Prod.fst)) (x : κ × ν) :
    x ∈ insertEntry order k v kept ↔ x = (k, v) ∨ (x.1 ≠ k ∧ x ∈ kept) := by
  induction kept with
  | nil => simp [insertEntry]
  | cons e rest ih =>
    obtain ⟨l, w⟩ := e
    obtain ⟨hl, hrest⟩ := List.pairwise_cons.mp h
    have after : ∀ y ∈ rest, order l y.1 = .lt := fun y hy => hl y.1 (List.mem_map_of_mem hy)
    rw [insertEntry]
    cases hk : order k l with
    | lt =>
      have absent : x ∈ (l, w) :: rest → x.1 ≠ k := by
        intro hx
        rcases List.mem_cons.mp hx with rfl | hx
        · exact key_ne_of_lt order hk
        · exact key_ne_of_lt order (Std.TransCmp.lt_trans hk (after x hx))
      rw [List.mem_cons, and_iff_right_of_imp absent]
    | eq =>
      obtain rfl : k = l := Std.LawfulEqCmp.eq_of_compare hk
      have absent : x ∈ rest → x.1 ≠ k := fun hx => key_ne_of_lt order (after x hx)
      constructor
      · intro hx
        rcases List.mem_cons.mp hx with rfl | hx
        · exact .inl rfl
        · exact .inr ⟨absent hx, List.mem_cons_of_mem _ hx⟩
      · rintro (rfl | ⟨hne, hx⟩)
        · exact List.mem_cons_self
        · rcases List.mem_cons.mp hx with rfl | hx
          · exact absurd rfl hne
          · exact List.mem_cons_of_mem _ hx
    | gt =>
      have hne : l ≠ k := (key_ne_of_lt order (Std.OrientedCmp.lt_of_gt hk)).symm
      rw [List.mem_cons, ih hrest, List.mem_cons]
      constructor
      · rintro (rfl | hx | ⟨hx, hm⟩)
        · exact .inr ⟨hne, .inl rfl⟩
        · exact .inl hx
        · exact .inr ⟨hx, .inr hm⟩
      · rintro (hx | ⟨hx, rfl | hm⟩)
        · exact .inr (.inl hx)
        · exact .inl rfl
        · exact .inr (.inr ⟨hx, hm⟩)

theorem insertEntry_ascending (k : κ) (v : ν) (kept : List (κ × ν))
    (h : Ascending order (kept.map Prod.fst)) :
    Ascending order ((insertEntry order k v kept).map Prod.fst) := by
  induction kept with
  | nil => exact List.pairwise_singleton _ k
  | cons e rest ih =>
    obtain ⟨l, w⟩ := e
    obtain ⟨hl, hrest⟩ := List.pairwise_cons.mp h
    rw [insertEntry]
    cases hk : order k l with
    | lt =>
      refine List.pairwise_cons.mpr ⟨fun m hm => ?_, h⟩
      rcases List.mem_cons.mp hm with rfl | hm
      · exact hk
      · exact Std.TransCmp.lt_trans hk (hl m hm)
    | eq => exact h
    | gt =>
      refine List.pairwise_cons.mpr ⟨fun m hm => ?_, ih hrest⟩
      obtain ⟨x, hx, rfl⟩ := List.mem_map.mp hm
      rcases (mem_insertEntry order k v rest hrest x).mp hx with rfl | ⟨-, hx⟩
      · exact Std.OrientedCmp.lt_of_gt hk
      · exact hl x.1 (List.mem_map_of_mem hx)

theorem mem_foldl_insertEntry (items kept : List (κ × ν))
    (h : Ascending order (kept.map Prod.fst)) (k : κ) (v : ν) :
    (k, v) ∈ items.foldl (fun kept e => insertEntry order e.1 e.2 kept) kept ↔
      IsLastEntry items k v ∨ ((∀ e ∈ items, e.1 ≠ k) ∧ (k, v) ∈ kept) := by
  induction items generalizing kept with
  | nil => simp [IsLastEntry]
  | cons e items ih =>
    rw [List.foldl_cons, ih _ (insertEntry_ascending order e.1 e.2 kept h),
      mem_insertEntry order _ _ _ h, isLastEntry_cons]
    grind

theorem foldl_insertEntry_ascending (items kept : List (κ × ν))
    (h : Ascending order (kept.map Prod.fst)) :
    Ascending order
      ((items.foldl (fun kept e => insertEntry order e.1 e.2 kept) kept).map Prod.fst) := by
  induction items generalizing kept with
  | nil => exact h
  | cons e items ih => exact ih _ (insertEntry_ascending order e.1 e.2 kept h)

theorem entries_ascend (items : List (κ × ν)) :
    Ascending order ((entries order items).map Prod.fst) :=
  foldl_insertEntry_ascending order items [] List.Pairwise.nil

theorem mem_entries (items : List (κ × ν)) (k : κ) (v : ν) :
    (k, v) ∈ entries order items ↔ IsLastEntry items k v := by
  rw [entries, mem_foldl_insertEntry order items [] List.Pairwise.nil]
  simp

theorem mem_of_mem_entries {items : List (κ × ν)} {e : κ × ν} (h : e ∈ entries order items) :
    e ∈ items := by
  obtain ⟨before, after, rfl, -⟩ := (mem_entries order items e.1 e.2).mp h
  exact List.mem_append_right before List.mem_cons_self

theorem mem_entries_keys (items : List (κ × ν)) (k : κ) :
    k ∈ (entries order items).map Prod.fst ↔ k ∈ items.map Prod.fst := by
  have last : (∃ v, (k, v) ∈ entries order items) ↔ k ∈ items.map Prod.fst := by
    simp only [mem_entries, exists_isLastEntry_iff]
  rw [← last]
  simp

/-- Inserting entries one by one builds the map of those that are not replaced. -/
theorem entries_eq (items map : List (κ × ν)) (h : Ascending order (map.map Prod.fst))
    (hm : ∀ k v, (k, v) ∈ map ↔ IsLastEntry items k v) : entries order items = map := by
  have built := entries_ascend order items
  have : Std.Irrefl fun x y : κ × ν => order x.1 y.1 = .lt := strict_irrefl order Prod.fst
  have : Std.Antisymm fun x y : κ × ν => order x.1 y.1 = .lt := strict_antisymm order Prod.fst
  apply (List.pairwise_map.mp built).eq_of_mem_iff (List.pairwise_map.mp h)
  rintro ⟨k, v⟩
  rw [mem_entries, hm k v]

end Maps

end Idl
