import Idl.Proofs.Code.Codec
import Idl.Proofs.Schema.WellFormed

/-!
# Typedefs leave no trace

A type and the same type without its typedefs are written and read by the same statements, and
literals have the same text for both. Only the declaration of a variable that a container is read
into tells them apart, since there the type is named as it was declared.
-/

set_option autoImplicit false

namespace Idl

namespace Ty

theorem parts_erase_ne_typedef (t : Ty) :
    ∀ part ∈ t.erase.parts, ∀ name target, part ≠ .typedef name target := by
  induction t with
  | typedef name target ih => exact ih
  | list item ih | set item ih =>
    rw [erase, parts, List.forall_mem_cons]
    exact ⟨nofun, ih⟩
  | map key value ihk ihv =>
    rw [erase, parts, List.forall_mem_cons, List.forall_mem_append]
    exact ⟨nofun, ihk, ihv⟩
  | _ => simp [erase, parts]

theorem wireKind_erase (t : Ty) : t.erase.wireKind = t.wireKind := by
  induction t with
  | typedef name target ih => exact ih
  | _ => rfl

theorem kindCode_erase (t : Ty) : t.erase.kindCode = t.kindCode := by
  rw [kindCode, wireKind_erase, kindCode]

theorem containsVoid_erase (t : Ty) : t.erase.containsVoid = t.containsVoid := by
  induction t with
  | typedef name target ih => exact ih
  | list item ih | set item ih => exact ih
  | map key value ihk ihv => rw [erase, containsVoid, containsVoid, ihk, ihv]
  | _ => rfl

end Ty

namespace Emit

def annotated (target : String) (t : Ty) : String :=
  "let mut " ++ target ++ ": " ++ t.code ++ " = "

/-- The lines are the same, or they declare the same variable, the second one with the typedefs
erased from its type. -/
def Line.Unaliased (l m : Line) : Prop :=
  l.depth = m.depth ∧ (l.text = m.text ∨ ∃ target t value,
    l.text = annotated target t ++ value ∧ m.text = annotated target t.erase ++ value)

inductive Stroke.Unaliased : Stroke → Stroke → Prop
  | same (s : Stroke) : Stroke.Unaliased s s
  | declaration (target value : String) (t : Ty) : Stroke.Unaliased
      (.line (annotated target t ++ value)) (.line (annotated target t.erase ++ value))

theorem laidOut_unaliased {ss ts : List Stroke} (alike : List.Forall₂ Stroke.Unaliased ss ts)
    (level : Nat) : List.Forall₂ Line.Unaliased (laidOut level ss) (laidOut level ts) := by
  induction alike generalizing level with
  | nil => exact .nil
  | @cons s _ _ _ first _ ih =>
    cases first with
    | declaration target value t =>
      exact .cons ⟨rfl, .inr ⟨target, t, value, rfl, rfl⟩⟩ (ih level)
    | same =>
      cases s with
      | line text => exact .cons ⟨rfl, .inl rfl⟩ (ih level)
      | indent => exact ih (level + 1)
      | dedent => exact ih (level - 1)

/-- What two drafts come to when they differ in the types of declarations at most. -/
structure Drafted.Unaliased {α : Type} (x y : Drafted α) : Prop where
  strokes : List.Forall₂ Stroke.Unaliased x.strokes y.strokes
  counter : x.counter = y.counter
  answer : x.answer = y.answer

namespace Draft

variable {α β : Type}

def Unaliased (d e : Draft α) : Prop :=
  ∀ n, (d n).Unaliased (e n)

namespace Unaliased

theorem refl (d : Draft α) : d.Unaliased d := fun _ =>
  ⟨List.forall₂_same.mpr fun s _ => .same s, rfl, rfl⟩

theorem bind {d e : Draft α} {f g : α → Draft β} (first : d.Unaliased e)
    (second : ∀ a, (f a).Unaliased (g a)) : (d >>= f).Unaliased (e >>= g) := by
  intro n
  obtain ⟨strokes, counter, answer⟩ := first n
  cases answered : (d n).answer with
  | error err =>
    rw [bind_error answered, bind_error (answer.symm.trans answered)]
    exact ⟨strokes, counter, rfl⟩
  | ok a =>
    rw [bind_ok answered, bind_ok (answer.symm.trans answered), ← counter]
    obtain ⟨strokes', counter', answer'⟩ := second a (d n).counter
    exact ⟨List.rel_append strokes strokes', counter', answer'⟩

theorem after (d : Draft α) {f g : α → Draft β} (second : ∀ a, (f a).Unaliased (g a)) :
    (d >>= f).Unaliased (d >>= g) :=
  (refl d).bind second

theorem block (header tail : String) {d e : Draft Unit} (inside : d.Unaliased e) :
    (Draft.block header tail d).Unaliased (Draft.block header tail e) := by
  intro n
  obtain ⟨strokes, counter, answer⟩ := inside n
  have front : List.Forall₂ Stroke.Unaliased [.line (opening header), .indent]
      [.line (opening header), .indent] := List.forall₂_same.mpr fun s _ => .same s
  have back : List.Forall₂ Stroke.Unaliased [.dedent, .line ("\x7d" ++ tail)]
      [.dedent, .line ("\x7d" ++ tail)] := List.forall₂_same.mpr fun s _ => .same s
  exact ⟨List.rel_append (List.rel_append front strokes) back, counter, answer⟩

theorem declaration {text text' : String} (target value : String) (t : Ty)
    (named : text = annotated target t ++ value)
    (named' : text' = annotated target t.erase ++ value) :
    (line text).Unaliased (line text') := by
  intro _
  subst named named'
  exact ⟨.cons (.declaration target value t) .nil, rfl, rfl⟩

end Unaliased

end Draft

end Emit

namespace Code

open Emit Draft

theorem writeCode_erase (t : Ty) (value : String) :
    writeCode t.erase value = writeCode t value := by
  induction t generalizing value with
  | typedef name target ih => exact ih value
  | list item ih | set item ih =>
    rw [Ty.erase, writeCode, writeCode, Ty.kindCode_erase]
    simp only [ih]
  | map key entry ihk ihe =>
    rw [Ty.erase, writeCode, writeCode, Ty.kindCode_erase, Ty.kindCode_erase]
    simp only [ihk, ihe]
  | _ => rfl

theorem fillCode_unaliased {text text' : String} (declares : (line text).Unaliased (line text'))
    (lead start finish : String) {items items' : Draft Unit} (alike : items.Unaliased items') :
    (do line text; fillCode start finish (← tmp lead) items).Unaliased
      (do line text'; fillCode start finish (← tmp lead) items') := by
  refine declares.bind fun _ => .after _ fun head => .block _ _ (.after _ fun _ => ?_)
  exact (Unaliased.block _ _ alike).bind fun _ => .refl _

theorem readCode_erase (t : Ty) (target : String) :
    (readCode t target).Unaliased (readCode t.erase target) := by
  induction t generalizing target with
  | typedef name inner ih => exact ih target
  | list item ih =>
    refine fillCode_unaliased (.declaration target "Vec::new();" (.list item) ?_ ?_) _ _ _ ?_
    · simp [annotated, String.append_assoc]
    · simp [annotated, String.append_assoc, Ty.erase]
    · exact .after _ fun element => (ih element).bind fun _ => .refl _
  | set item ih =>
    refine fillCode_unaliased (.declaration target (Ty.setPath ++ "::new();") (.set item) ?_ ?_)
      _ _ _ ?_
    · simp [annotated, String.append_assoc]
    · simp [annotated, String.append_assoc, Ty.erase]
    · exact .after _ fun element => (ih element).bind fun _ => .refl _
  | map key value ihk ihv =>
    refine fillCode_unaliased (.declaration target (Ty.mapPath ++ "::new();")
      (.map key value) ?_ ?_)
      _ _ _ ?_
    · simp [annotated, String.append_assoc]
    · simp [annotated, String.append_assoc, Ty.erase]
    · exact .after _ fun k => .after _ fun v => (ihk k).bind fun _ => (ihv v).bind fun _ => .refl _
  | _ => exact .refl _

end Code

namespace Schema

variable {s : Schema} {v : Literal} {text : String}

theorem render_of_resolve {t u : Ty} (same : t.resolve = u.resolve) :
    s.render t v = .ok text ↔ s.render u v = .ok text := by
  cases form : u.resolve with
  | void => exact iff_of_false (not_render_void (same.trans form)) (not_render_void form)
  | string => rw [render_string_ok_iff form, render_string_ok_iff (same.trans form)]
  | bool => rw [render_bool_ok_iff form, render_bool_ok_iff (same.trans form)]
  | double => rw [render_double_ok_iff form, render_double_ok_iff (same.trans form)]
  | byte | i16 | i32 | i64 | enum name =>
    have sized := congrArg Ty.bits? form
    rw [render_number_ok_iff sized, render_number_ok_iff ((congrArg Ty.bits? same).trans sized),
      same]
  | struct name | exception name =>
    have named : u.structName? = some name := by simp [Ty.structName?, form]
    have named' : t.structName? = some name := by simp [Ty.structName?, same, form]
    rw [render_struct_ok_iff named, render_struct_ok_iff named']
  | list item => rw [render_list_ok_iff form, render_list_ok_iff (same.trans form)]
  | set item => rw [render_set_ok_iff form, render_set_ok_iff (same.trans form)]
  | map key value => rw [render_map_ok_iff form, render_map_ok_iff (same.trans form)]
  | typedef name target => exact absurd form (resolve_ne_typedef u name target)

theorem render_erase (t : Ty) : s.render t.erase v = .ok text ↔ s.render t v = .ok text := by
  induction t generalizing v text with
  | typedef name target ih =>
    have below : (Ty.typedef name target).resolve = target.resolve := rfl
    rw [render_of_resolve below]
    exact ih
  | list item ih =>
    have form (u : Ty) : (Ty.list u).resolve = .list u := rfl
    rw [Ty.erase, render_list_ok_iff (form item.erase), render_list_ok_iff (form item)]
    simp only [ih]
  | set item ih =>
    have form (u : Ty) : (Ty.set u).resolve = .set u := rfl
    rw [Ty.erase, render_set_ok_iff (form item.erase), render_set_ok_iff (form item)]
    simp only [ih]
  | map key value ihk ihv =>
    rw [Ty.erase, render_map_ok_iff rfl, render_map_ok_iff rfl]
    simp only [renderPair_ok_iff, ihk, ihv]
  | _ => rfl

end Schema

namespace Code

open Emit Draft

/-- A type without its typedefs has the kind of the type on the wire, holds void where the type
does, and gives the same statements and the same texts of literals. From every page, reading adds
the same lines up to the types that its declarations name. -/
theorem erase_transparent (t : Ty) :
    (∀ part ∈ t.erase.parts, ∀ name target, part ≠ .typedef name target) ∧
      t.erase.wireKind = t.wireKind ∧ t.erase.containsVoid = t.containsVoid ∧
      (∀ (p : Page) value, p.draft (writeCode t.erase value) = p.draft (writeCode t value)) ∧
      (∀ (p : Page) target, ∃ ls ms answer counter, List.Forall₂ Line.Unaliased ls ms ∧
        p.draft (readCode t target) = (answer, { p.put ls with counter }) ∧
        p.draft (readCode t.erase target) = (answer, { p.put ms with counter })) ∧
      ∀ (s : Schema) v text, s.render t.erase v = .ok text ↔ s.render t v = .ok text := by
  refine ⟨t.parts_erase_ne_typedef, t.wireKind_erase, t.containsVoid_erase, ?_, ?_, ?_⟩
  · intro p value
    rw [writeCode_erase]
  · intro p target
    obtain ⟨strokes, counter, answer⟩ := readCode_erase t target p.counter
    have whole := p.draft_eq (Steady.balanced (d := readCode t target) p.counter)
    have erased := p.draft_eq (Steady.balanced (d := readCode t.erase target) p.counter)
    rw [← answer, ← counter] at erased
    exact ⟨_, _, _, _, laidOut_unaliased strokes 0, whole, erased⟩
  · intro s v text
    exact Schema.render_erase t

end Code

end Idl
