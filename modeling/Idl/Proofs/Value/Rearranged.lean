import Idl.Proofs.Value.TreeValue

/-!
# Rearranged trees

The items of a set can be written in any order and more than once, and the entries of a map in any
order that leaves those with the same key in theirs. Trees that differ in nothing else, at any
level, stand for the same value. Of the entries with one key, the last one counts.
-/

set_option autoImplicit false

namespace Idl

open Wire Wire.Tree

section Reordering

variable {α β γ κ ν : Type} {apart : α → α → Prop} {as bs : List α}

inductive Reordered (apart : α → α → Prop) : List α → List α → Prop
  | refl (as : List α) : Reordered apart as as
  | cons (a : α) {as bs : List α} (h : Reordered apart as bs) : Reordered apart (a :: as) (a :: bs)
  | swap {a b : α} (h : apart a b) (as : List α) : Reordered apart (a :: b :: as) (b :: a :: as)
  | trans {as bs cs : List α} (h : Reordered apart as bs) (h' : Reordered apart bs cs) :
      Reordered apart as cs

theorem Reordered.perm (h : Reordered apart as bs) : as.Perm bs := by
  induction h with
  | refl as => exact .refl as
  | cons a _ ih => exact ih.cons a
  | swap _ as => exact .swap _ _ as
  | trans _ _ ih ih' => exact ih.trans ih'

theorem reordered_of_perm (symm : ∀ a b, apart a b → apart b a) (perm : as.Perm bs)
    (distinct : as.Pairwise apart) : Reordered apart as bs := by
  induction perm with
  | nil => exact .refl []
  | cons a _ ih => exact .cons a (ih (List.pairwise_cons.mp distinct).2)
  | swap a b as => exact .swap ((List.pairwise_cons.mp distinct).1 a List.mem_cons_self) as
  | trans first _ ih ih' =>
    exact .trans (ih distinct) (ih' (first.pairwise distinct fun h => symm _ _ h))

theorem Reordered.map {apart : β → β → Prop} (f : α → β)
    (h : Reordered (fun a b => apart (f a) (f b)) as bs) :
    Reordered apart (as.map f) (bs.map f) := by
  induction h with
  | refl as => exact .refl _
  | cons a _ ih => exact .cons (f a) ih
  | swap h as => exact .swap h _
  | trans _ _ ih ih' => exact .trans ih ih'

theorem Reordered.isLastEntry_iff {es gs : List (κ × ν)}
    (h : Reordered (fun e f => e.1 ≠ f.1) es gs) (k : κ) (v : ν) :
    IsLastEntry es k v ↔ IsLastEntry gs k v := by
  induction h with
  | refl => exact Iff.rfl
  | cons e h ih => simp only [isLastEntry_cons, ih, h.perm.mem_iff]
  | swap h es =>
    simp only [isLastEntry_cons, List.forall_mem_cons]
    grind
  | trans _ _ ih ih' => exact ih.trans ih'

theorem entries_reordered (order : κ → κ → Ordering) [Std.LawfulEqCmp order] [Std.TransCmp order]
    {es gs : List (κ × ν)} (h : Reordered (fun e f => e.1 ≠ f.1) es gs) :
    entries order es = entries order gs := by
  apply entries_eq order es _ (entries_ascend order gs)
  intro k v
  rw [mem_entries, h.isLastEntry_iff]

theorem map_eq_of_forall₂ {f : α → γ} {g : β → γ} {bs : List β}
    (h : List.Forall₂ (fun a b => f a = g b) as bs) : as.map f = bs.map g := by
  rw [← List.forall₂_eq_eq_eq, List.forall₂_map_left_iff, List.forall₂_map_right_iff]
  exact h

end Reordering

mutual

/-- The trees differ only in the order and the repetition of the items of sets, and in the order of
map entries with different keys, at every level. -/
def Shape.Rearranged : Shape → Tree → Tree → Prop
  | .bool, t, u | .byte, t, u | .i16, t, u | .i32, t, u | .i64, t, u | .double, t, u
  | .string, t, u | .enum _ _, t, u => t = u
  | .list item, t, u => ∃ kind ts us, t = .list kind ts ∧ u = .list kind us ∧
      List.Forall₂ item.Rearranged ts us
  | .set item, t, u => ∃ kind ts us, t = .set kind ts ∧ u = .set kind us ∧
      (∀ x ∈ ts, ∃ y ∈ us, item.Rearranged x y) ∧ ∀ y ∈ us, ∃ x ∈ ts, item.Rearranged x y
  | .map key value, t, u => ∃ kind kind' es gs fs, t = .map kind kind' es ∧
      u = .map kind kind' fs ∧ Reordered (fun e f => key.value e.1 ≠ key.value f.1) es gs ∧
      List.Forall₂ (fun e f => key.Rearranged e.1 f.1 ∧ value.Rearranged e.2 f.2) gs fs
  | .record _ fields, t, u => ∃ rs ss, t = .struct rs ∧ u = .struct ss ∧
      List.Forall₂ fields.RearrangedIn rs ss

def Fields.RearrangedIn : Fields → Record → Record → Prop
  | .nil, r, s => r = s
  | .cons field shape rest, r, s =>
    if r.header = ⟨shape.kind, field.id⟩ then r.1 = s.1 ∧ shape.Rearranged r.2 s.2
    else rest.RearrangedIn r s

end

theorem Shape.Rearranged.kind_eq {s : Shape} {t u : Tree} (h : s.Rearranged t u) :
    t.kind = u.kind := by
  cases s with
  | bool | byte | i16 | i32 | i64 | double | string | enum => exact congrArg Tree.kind h
  | list | set =>
    obtain ⟨_, _, _, rfl, rfl, _⟩ := h
    rfl
  | map =>
    obtain ⟨_, _, _, _, _, rfl, rfl, _⟩ := h
    rfl
  | record =>
    obtain ⟨_, _, rfl, rfl, _⟩ := h
    rfl

theorem Fields.RearrangedIn.header_eq : {fs : Fields} → {r s : Record} → fs.RearrangedIn r s →
    r.header = s.header
  | .nil, _, _, h => congrArg Record.header h
  | .cons field shape rest, r, s, h => by
    rw [Fields.RearrangedIn] at h
    by_cases here : r.header = ⟨shape.kind, field.id⟩
    · rw [if_pos here] at h
      rw [Record.header, Record.header, h.1, h.2.kind_eq]
    · rw [if_neg here] at h
      exact RearrangedIn.header_eq h

mutual

/-- Trees that are rearranged stand for the same value. -/
theorem Shape.value_rearranged : (s : Shape) → (t u : Tree) → s.Rearranged t u →
    s.value t = s.value u
  | .bool, _, _, h | .byte, _, _, h | .i16, _, _, h | .i32, _, _, h | .i64, _, _, h
  | .double, _, _, h | .string, _, _, h | .enum _ _, _, _, h => congrArg _ h
  | .list item, _, _, ⟨kind, ts, us, rfl, rfl, h⟩ =>
    map_eq_of_forall₂ (h.imp fun t u => item.value_rearranged t u)
  | .set item, _, _, ⟨kind, ts, us, rfl, rfl, there, back⟩ => by
    rw [Shape.value, Shape.value]
    apply ascending_eq item.order _ _ (ascending_ascends item.order _)
    intro a
    rw [mem_ascending, List.mem_map, List.mem_map]
    constructor
    · rintro ⟨u, hu, rfl⟩
      obtain ⟨t, ht, h⟩ := back u hu
      exact ⟨t, ht, item.value_rearranged t u h⟩
    · rintro ⟨t, ht, rfl⟩
      obtain ⟨u, hu, h⟩ := there t ht
      exact ⟨u, hu, (item.value_rearranged t u h).symm⟩
  | .map key value, _, _, ⟨kind, kind', es, gs, fs, rfl, rfl, reordered, h⟩ => by
    have same : List.Forall₂ (fun e f : Tree × Tree =>
        (key.value e.1, value.value e.2) = (key.value f.1, value.value f.2)) gs fs :=
      h.imp fun e f both => Prod.ext (key.value_rearranged e.1 f.1 both.1)
        (value.value_rearranged e.2 f.2 both.2)
    rw [Shape.value, Shape.value, Tree.entries, Tree.entries,
      entries_reordered key.order (Reordered.map _ reordered), map_eq_of_forall₂ same]
  | .record _ fields, _, _, ⟨rs, ss, rfl, rfl, h⟩ => by
    have run (record : fields.Val) :
        rs.foldl fields.assign record = ss.foldl fields.assign record := by
      induction h generalizing record with
      | nil => rfl
      | cons first _ ih => rw [List.foldl_cons, List.foldl_cons,
          fields.assign_rearranged record _ _ first, ih]
    exact run fields.absent

theorem Fields.assign_rearranged : (fs : Fields) → (record : fs.Val) → (r s : Record) →
    fs.RearrangedIn r s → fs.assign record r = fs.assign record s
  | .nil, _, _, _, _ => rfl
  | .cons field shape rest, (a, others), r, s, h => by
    have header := h.header_eq
    rw [Fields.RearrangedIn] at h
    rw [Fields.assign, Fields.assign, ← header]
    by_cases here : r.header = ⟨shape.kind, field.id⟩
    · rw [if_pos here] at h
      rw [if_pos here, if_pos here, shape.value_rearranged r.2 s.2 h.2]
    · rw [if_neg here] at h
      rw [if_neg here, if_neg here, rest.assign_rearranged others r s h]

end

def KeepsLast (key value : Shape) (map : (Shape.map key value).Val) (t : Tree) : Prop :=
  ∀ k v, (k, v) ∈ map ↔ IsLastEntry (t.entries.map fun e => (key.value e.1, value.value e.2)) k v

theorem keepsLast_value (key value : Shape) (t : Tree) :
    KeepsLast key value ((Shape.map key value).value t) t :=
  mem_entries key.order _

theorem isLastValue_imp {α : Type} {p q : α → Tree → Prop} (imp : ∀ a t, p a t → q a t)
    {header : FieldHeader} {rs : List Record} {a : Option α} (h : IsLastValue p header rs a) :
    IsLastValue q header rs a := by
  cases a with
  | none => exact h
  | some a =>
    obtain ⟨before, r, after, split, here, ha, later⟩ := h
    exact ⟨before, r, after, split, here, imp a r.2 ha, later⟩

namespace Fields

def Assigned : (fs : Fields) → fs.Val → List Record → Prop
  | .nil, _, _ => True
  | .cons field shape rest, (a, others), rs =>
    IsLastValue (fun b t => b = shape.value t) ⟨shape.kind, field.id⟩ rs a ∧
      rest.Assigned others rs

theorem assigned_absent (fs : Fields) : fs.Assigned fs.absent [] := by
  cases fs with
  | nil => trivial
  | cons field shape rest => exact ⟨by simp [IsLastValue], rest.assigned_absent⟩

theorem assigned_append_other : (fs : Fields) → (record : fs.Val) → (rs : List Record) →
    (r : Record) → r.header ∉ fs.headers → fs.Assigned record rs → fs.Assigned record (rs ++ [r])
  | .nil, _, _, _, _, _ => trivial
  | .cons _ _ rest, (_, others), rs, r, hr, h =>
    ⟨isLastValue_append_other (fun he => hr (he ▸ List.mem_cons_self)) h.1,
      rest.assigned_append_other others rs r (fun hm => hr (List.mem_cons_of_mem _ hm)) h.2⟩

theorem assigned_assign : (fs : Fields) → fs.Distinct → (record : fs.Val) → (rs : List Record) →
    (r : Record) → fs.Assigned record rs → fs.Assigned (fs.assign record r) (rs ++ [r])
  | .nil, _, _, _, _, _ => trivial
  | .cons field shape rest, ⟨undeclared, _, distinct⟩, (a, others), rs, r, h => by
    rw [assign]
    by_cases here : r.header = ⟨shape.kind, field.id⟩
    · rw [if_pos here]
      exact ⟨isLastValue_append_match here rfl,
        rest.assigned_append_other others rs r (here ▸ undeclared) h.2⟩
    · rw [if_neg here]
      exact ⟨isLastValue_append_other here h.1, rest.assigned_assign distinct others rs r h.2⟩

theorem assigned_foldl (fs : Fields) (distinct : fs.Distinct) (rs : List Record) :
    fs.Assigned (rs.foldl fs.assign fs.absent) rs := by
  induction rs using List.reverseRecOn with
  | nil => exact fs.assigned_absent
  | append_singleton rs r ih =>
    rw [List.foldl_append]
    exact fs.assigned_assign distinct _ rs r ih

end Fields

end Idl
