import Idl.Proofs.Code.Rendering

/-!
# Literals that fit a type

Whether a literal fits a type is said by rules, one for each form of type, which know nothing of the
text. A literal is written exactly if it fits: the forms that stand in for each other do so at every
depth, and nothing else is let through.
-/

set_option autoImplicit false

namespace Idl

inductive Literal.Counts : Literal → Int → Prop
  | integer (n : Int64) : Counts (.integer n) n.toInt
  | yes : Counts (.bool true) 1
  | no : Counts (.bool false) 0

theorem Literal.counts_iff {v : Literal} {n : Int} :
    v.Counts n ↔ ∃ k, v.integer? = some k ∧ k.toInt = n := by
  constructor
  · intro counts
    cases counts with
    | integer k => exact ⟨k, rfl, rfl⟩
    | yes => exact ⟨1, rfl, rfl⟩
    | no => exact ⟨0, rfl, rfl⟩
  · rintro ⟨k, given, rfl⟩
    cases v with
    | integer m =>
      cases given
      exact .integer k
    | bool b =>
      cases given
      cases b with
      | true => exact .yes
      | false => exact .no
    | _ => cases given

namespace Schema

/-- The literal can be a value of the type. -/
inductive Fits (s : Schema) : Ty → Literal → Prop
  | typedef {name : String} {target : Ty} {v : Literal} :
      s.Fits target v → s.Fits (.typedef name target) v
  | string (t : String) : s.Fits .string (.text t)
  | bool {v : Literal} {n : Int} : v.Counts n → s.Fits .bool v
  | number {ty : Ty} {bits : Nat} {v : Literal} {n : Int} : ty.bits? = some bits → v.Counts n →
      -2 ^ (bits - 1) ≤ n → n < 2 ^ (bits - 1) → s.Fits ty v
  | whole (n : Int64) : s.Fits .double (.integer n)
  | double (d : Double) : s.Fits .double (.double d)
  | list {item : Ty} {v : Literal} {items : List Literal} : v = .list items ∨ v = .set items →
      (∀ i ∈ items, s.Fits item i) → s.Fits (.list item) v
  | set {item : Ty} {v : Literal} {items : List Literal} : v = .list items ∨ v = .set items →
      (∀ i ∈ items, s.Fits item i) → s.Fits (.set item) v
  | map {key value : Ty} {pairs : List (Literal × Literal)} : (∀ p ∈ pairs, s.Fits key p.1) →
      (∀ p ∈ pairs, s.Fits value p.2) → s.Fits (.map key value) (.map pairs)
  | struct {ty : Ty} {name : String} {d : StructDecl} {v : Literal}
      {entries : List (String × Literal)} : ty = .struct name ∨ ty = .exception name →
      s.struct? name = some d → v.Gives entries → (∀ e ∈ entries, ∃ f, d.field? e.1 = some f) →
      (∀ e ∈ entries, ∀ f, d.field? e.1 = some f → s.Fits f.ty e.2) → s.Fits ty v

variable {s : Schema}

theorem fits_iff_resolve {ty : Ty} {v : Literal} : s.Fits ty v ↔ s.Fits ty.resolve v := by
  induction ty with
  | typedef name target ih =>
    rw [Ty.resolve, ← ih]
    constructor
    · intro fits
      cases fits with
      | typedef inner => exact inner
      | number sized => cases sized
      | struct shape => rcases shape with shape | shape <;> cases shape
    · exact .typedef
  | _ => rfl

theorem resolve_ne_typedef (ty : Ty) (name : String) (target : Ty) :
    ty.resolve ≠ .typedef name target := by
  induction ty with
  | typedef _ _ ih => exact ih
  | _ => simp [Ty.resolve]

theorem fits_of_render {ty : Ty} {v : Literal} {text : String}
    (rendered : s.render ty v = .ok text) :
    s.Fits ty v := by
  induction v using Literal.part_induction generalizing ty text with
  | step v ih =>
    have items_fit {item : Ty} {items : List Literal} {texts : List String}
        (has : v.items? = some items)
        (all : List.Forall₂ (fun i t => s.render item i = .ok t) items texts) :
        ∀ i ∈ items, s.Fits item i := by
      intro i member
      obtain ⟨t, written⟩ := exists_forall₂_iff.mp ⟨texts, all⟩ i member
      exact ih i (Literal.mem_parts_of_items? has member) written
    rw [fits_iff_resolve]
    cases form : ty.resolve with
    | void => exact absurd rendered (not_render_void form)
    | typedef name target => exact absurd form (resolve_ne_typedef ty name target)
    | string =>
      obtain ⟨t, rfl, -⟩ := (render_string_ok_iff form).mp rendered
      exact .string t
    | bool =>
      obtain ⟨n, given, -⟩ := (render_bool_ok_iff form).mp rendered
      exact .bool (Literal.counts_iff.mpr ⟨n, given, rfl⟩)
    | byte | i16 | i32 | i64 | enum name =>
      obtain ⟨n, given, above, below, -⟩ := (render_number_ok_iff (by rw [form]; rfl)).mp rendered
      exact .number rfl (Literal.counts_iff.mpr ⟨n, given, rfl⟩) above below
    | double =>
      rcases (render_double_ok_iff form).mp rendered with ⟨n, rfl, -⟩ | ⟨d, rfl, -⟩
      · exact .whole n
      · exact .double d
    | list item =>
      obtain ⟨items, texts, has, all, -⟩ := (render_list_ok_iff form).mp rendered
      exact .list (Literal.items?_eq_some_iff.mp has) (items_fit has all)
    | set item =>
      obtain ⟨items, texts, has, all, -⟩ := (render_set_ok_iff form).mp rendered
      exact .set (Literal.items?_eq_some_iff.mp has) (items_fit has all)
    | map key value =>
      obtain ⟨pairs, texts, rfl, all, -⟩ := (render_map_ok_iff form).mp rendered
      have both : ∀ p ∈ pairs, s.Fits key p.1 ∧ s.Fits value p.2 := by
        intro p member
        obtain ⟨t, written⟩ := exists_forall₂_iff.mp ⟨texts, all⟩ p member
        obtain ⟨first, second, writtenKey, writtenValue, -⟩ := renderPair_ok_iff.mp written
        have parts : ∀ part ∈ [p.1, p.2], part ∈ (Literal.map pairs).parts := fun part either =>
          List.mem_flatMap.mpr ⟨p, member, either⟩
        exact ⟨ih p.1 (parts _ (by simp)) writtenKey, ih p.2 (parts _ (by simp)) writtenValue⟩
      exact .map (fun p member => (both p member).1) fun p member => (both p member).2
    | struct name | exception name =>
      have named : ty.structName? = some name := by rw [Ty.structName?, form]
      obtain ⟨d, entries, placed, found, gives, all, -⟩ := (render_struct_ok_iff named).mp rendered
      have each := exists_forall₂_iff.mp ⟨placed, all⟩
      refine .struct (by simp) found gives ?_ ?_
      · intro e member
        obtain ⟨p, f, t, declared, -⟩ := each e member
        exact ⟨f, declared⟩
      · intro e member f declared
        obtain ⟨p, f', t, declared', written, -⟩ := each e member
        cases declared.symm.trans declared'
        exact ih e.2 (gives.mem_parts member) written

/-- The errors name the type as it is declared, so that the texts alone are the same for types that
resolve to the same one. -/
theorem render_of_fits {ty ty' : Ty} {v : Literal} (fits : s.Fits ty v)
    (same : ty'.resolve = ty.resolve) : ∃ text, s.render ty' v = .ok text := by
  induction fits generalizing ty' with
  | typedef _ ih => exact ih same
  | string t => exact ⟨_, (render_string_ok_iff same).mpr ⟨t, rfl, rfl⟩⟩
  | bool counts =>
    obtain ⟨n, given, -⟩ := Literal.counts_iff.mp counts
    exact ⟨_, (render_bool_ok_iff same).mpr ⟨n, given, rfl⟩⟩
  | @number ty bits v n sized counts above below =>
    have plain : ty.resolve = ty := by cases ty <;> first | rfl | cases sized
    obtain ⟨k, given, rfl⟩ := Literal.counts_iff.mp counts
    exact ⟨_, (render_number_ok_iff (by rwa [same, plain])).mpr ⟨k, given, above, below, rfl⟩⟩
  | whole n => exact ⟨_, (render_double_ok_iff same).mpr (.inl ⟨n, rfl, rfl⟩)⟩
  | double d => exact ⟨_, (render_double_ok_iff same).mpr (.inr ⟨d, rfl, rfl⟩)⟩
  | list shape _ ih =>
    obtain ⟨texts, all⟩ := exists_forall₂_iff.mpr fun i member => ih i member rfl
    exact ⟨_, (render_list_ok_iff same).mpr
      ⟨_, texts, Literal.items?_eq_some_iff.mpr shape, all, rfl⟩⟩
  | set shape _ ih =>
    obtain ⟨texts, all⟩ := exists_forall₂_iff.mpr fun i member => ih i member rfl
    exact ⟨_, (render_set_ok_iff same).mpr
      ⟨_, texts, Literal.items?_eq_some_iff.mpr shape, all, rfl⟩⟩
  | @map key value pairs _ _ ihk ihv =>
    have each : ∀ p ∈ pairs, ∃ t, s.renderPair key value p = .ok t := by
      intro p member
      obtain ⟨first, writtenKey⟩ := ihk p member rfl
      obtain ⟨second, writtenValue⟩ := ihv p member rfl
      exact ⟨_, renderPair_ok_iff.mpr ⟨first, second, writtenKey, writtenValue, rfl⟩⟩
    obtain ⟨texts, all⟩ := exists_forall₂_iff.mpr each
    exact ⟨_, (render_map_ok_iff same).mpr ⟨pairs, texts, rfl, all, rfl⟩⟩
  | @struct ty name d v entries shape found gives declared _ ih =>
    have named : ty'.structName? = some name := by
      rcases shape with rfl | rfl <;> rw [Ty.structName?, same] <;> rfl
    have each : ∀ e ∈ entries, ∃ p, s.Places d e p := by
      intro e member
      obtain ⟨f, known⟩ := declared e member
      obtain ⟨t, written⟩ := ih e member f known rfl
      exact ⟨_, f, t, known, written, rfl⟩
    obtain ⟨placed, all⟩ := exists_forall₂_iff.mpr each
    exact ⟨_, (render_struct_ok_iff named).mpr ⟨d, entries, placed, found, gives, all, rfl⟩⟩

/-- A literal is written for a type exactly if it fits the type. -/
theorem renders_iff_fits (s : Schema) (ty : Ty) (v : Literal) :
    (∃ text, s.render ty v = .ok text) ↔ s.Fits ty v := by
  constructor
  · rintro ⟨text, rendered⟩
    exact fits_of_render rendered
  · intro fits
    exact render_of_fits fits rfl

end Schema

end Idl
