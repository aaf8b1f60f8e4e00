import Idl.Code.Literal
import Idl.Proofs.Outcome
import Mathlib.Algebra.Ring.Int.Defs
import Mathlib.Data.List.Forall2

/-!
# How literals are written

The text of a literal follows the type that it is given to, with its typedefs resolved. For each
form of type it is said here which literals have a text and which text that is. What the text of a
literal is made of are the texts of its parts, so that properties of texts are shown part by part.
-/

set_option autoImplicit false

namespace Idl

theorem mapM_eq_ok_iff {ε α β : Type} {f : α → Except ε β} {as : List α} {bs : List β} :
    as.mapM f = .ok bs ↔ List.Forall₂ (fun a b => f a = .ok b) as bs := by
  induction as generalizing bs with
  | nil => simp [pure, Except.pure, eq_comm]
  | cons a rest ih =>
    rw [List.mapM_cons, bind_eq_ok_iff]
    simp only [bind_eq_ok_iff, ih, List.forall₂_cons_left_iff]
    constructor
    · rintro ⟨b, first, others, all, same⟩
      cases same
      exact ⟨b, others, first, all, rfl⟩
    · rintro ⟨b, others, first, all, rfl⟩
      exact ⟨b, first, others, all, rfl⟩

theorem exists_forall₂_iff {α β : Type} {R : α → β → Prop} {as : List α} :
    (∃ bs, List.Forall₂ R as bs) ↔ ∀ a ∈ as, ∃ b, R a b := by
  induction as with
  | nil => simp
  | cons a rest ih =>
    rw [List.forall_mem_cons, ← ih]
    simp only [List.forall₂_cons_left_iff]
    constructor
    · rintro ⟨-, b, others, first, all, rfl⟩
      exact ⟨⟨b, first⟩, others, all⟩
    · rintro ⟨⟨b, first⟩, others, all⟩
      exact ⟨_, b, others, first, all, rfl⟩

theorem exists_of_forall₂ {α β : Type} {R : α → β → Prop} {as : List α} {bs : List β}
    (all : List.Forall₂ R as bs) {b : β} (member : b ∈ bs) : ∃ a ∈ as, R a b := by
  induction all with
  | nil => cases member
  | @cons a b' as bs first _ ih =>
    rcases List.mem_cons.mp member with rfl | later
    · exact ⟨a, List.mem_cons_self, first⟩
    · obtain ⟨a', inside, related⟩ := ih later
      exact ⟨a', List.mem_cons_of_mem a inside, related⟩

namespace Literal

def parts : Literal → List Literal
  | .list items | .set items => items
  | .map pairs => pairs.flatMap fun (k, v) => [k, v]
  | .struct entries => entries.map (·.2)
  | _ => []

theorem sizeOf_part {v part : Literal} (member : part ∈ v.parts) : sizeOf part < sizeOf v := by
  cases v with
  | list items | set items =>
    have inside : sizeOf part < sizeOf items := List.sizeOf_lt_of_mem member
    simp only [list.sizeOf_spec, set.sizeOf_spec]
    omega
  | map pairs =>
    obtain ⟨⟨k, w⟩, inPairs, either⟩ := List.mem_flatMap.mp member
    have inside := List.sizeOf_lt_of_mem inPairs
    simp only [List.mem_cons, List.not_mem_nil, or_false] at either
    simp only [Prod.mk.sizeOf_spec] at inside
    simp only [map.sizeOf_spec]
    rcases either with rfl | rfl <;> omega
  | struct entries =>
    obtain ⟨⟨k, w⟩, inEntries, rfl⟩ := List.mem_map.mp member
    have inside := List.sizeOf_lt_of_mem inEntries
    simp only [Prod.mk.sizeOf_spec] at inside
    simp only [struct.sizeOf_spec]
    omega
  | _ => cases member

/-- What holds of a literal whenever it holds of its parts holds of every literal. -/
theorem part_induction {P : Literal → Prop} (step : ∀ v, (∀ part ∈ v.parts, P part) → P v)
    (v : Literal) : P v :=
  step v fun part _ => part_induction step part
termination_by sizeOf v
decreasing_by
  apply sizeOf_part
  assumption

/-- What a literal gives for the fields of a struct: the entries of a struct literal, and those of a
map literal if its keys are all texts. -/
inductive Gives : Literal → List (String × Literal) → Prop
  | struct (entries : List (String × Literal)) : (Literal.struct entries).Gives entries
  | map (entries : List (String × Literal)) :
      (Literal.map (entries.map fun (key, v) => (.text key, v))).Gives entries

theorem items?_eq_some_iff {v : Literal} {items : List Literal} :
    v.items? = some items ↔ v = .list items ∨ v = .set items := by
  cases v <;> simp [items?]

theorem mem_parts_of_items? {v item : Literal} {items : List Literal} (has : v.items? = some items)
    (member : item ∈ items) : item ∈ v.parts := by
  rcases items?_eq_some_iff.mp has with rfl | rfl
  · exact member
  · exact member

theorem Gives.mem_parts {v : Literal} {entries : List (String × Literal)} (gives : v.Gives entries)
    {e : String × Literal} (member : e ∈ entries) : e.2 ∈ v.parts := by
  cases gives with
  | struct => exact List.mem_map.mpr ⟨e, member, rfl⟩
  | map => exact List.mem_flatMap.mpr ⟨(.text e.1, e.2), List.mem_map.mpr ⟨e, member, rfl⟩, by simp⟩

end Literal

theorem checkKeys_ok_iff (d : StructDecl) (pairs : List (Literal × Literal)) :
    checkKeys d pairs = .ok () ↔
      ∃ entries : List (String × Literal), pairs = entries.map fun (key, v) => (.text key, v) := by
  induction pairs with
  | nil => exact ⟨fun _ => ⟨[], rfl⟩, fun _ => rfl⟩
  | cons p rest ih =>
    obtain ⟨k, v⟩ := p
    cases k with
    | text key =>
      rw [checkKeys, ih]
      constructor
      · rintro ⟨entries, rfl⟩
        exact ⟨(key, v) :: entries, rfl⟩
      · rintro ⟨entries, split⟩
        cases entries with
        | nil => cases split
        | cons e entries => exact ⟨entries, (List.cons.inj split).2⟩
    | _ =>
      simp only [checkKeys, reduceCtorEq, false_iff]
      rintro ⟨entries, split⟩
      cases entries with
      | nil => cases split
      | cons e entries => cases (List.cons.inj split).1

def placeAll (done placed : List (String × String)) : List (String × String) :=
  placed.foldl (fun done p => placeEntry p.1 p.2 done) done

theorem mem_of_placeEntry {i e : String} {p : String × String} {done : List (String × String)}
    (member : p ∈ placeEntry i e done) : p = (i, e) ∨ p ∈ done := by
  induction done with
  | nil => exact .inl (List.mem_singleton.mp member)
  | cons q rest ih =>
    rw [placeEntry] at member
    split at member
    case isTrue same =>
      rw [same] at member
      exact (List.mem_cons.mp member).imp_right (List.mem_cons_of_mem q)
    case isFalse =>
      rcases List.mem_cons.mp member with rfl | later
      · exact .inr List.mem_cons_self
      · exact (ih later).imp_right (List.mem_cons_of_mem q)

theorem mem_of_placeAll {p : String × String} {done placed : List (String × String)}
    (member : p ∈ placeAll done placed) : p ∈ done ∨ p ∈ placed := by
  induction placed generalizing done with
  | nil => exact .inl member
  | cons q rest ih =>
    rcases ih member with early | later
    · rcases mem_of_placeEntry early with rfl | before
      · exact .inr List.mem_cons_self
      · exact .inl before
    · exact .inr (List.mem_cons_of_mem q later)

def Ty.bits? : Ty → Option Nat
  | .byte => some 8
  | .i16 => some 16
  | .i32 | .enum _ => some 32
  | .i64 => some 64
  | _ => none

def numberCode (ty : Ty) (n : Int64) : String :=
  match ty with
  | .enum name => Ident.type name ++ "(" ++ toString n ++ ")"
  | _ => toString n

theorem renderInteger_ok_iff {ty : Ty} {v : Literal} {low high : Int} (bits : Nat) {text : String}
    (lowest : low = -2 ^ (bits - 1)) (highest : high = 2 ^ (bits - 1) - 1) :
    renderInteger ty v low high = .ok text ↔ ∃ n, v.integer? = some n ∧ -2 ^ (bits - 1) ≤ n.toInt ∧
      n.toInt < 2 ^ (bits - 1) ∧ toString n = text := by
  unfold renderInteger
  cases v.integer? with
  | none => simp
  | some n =>
    have below : n.toInt ≤ high ↔ n.toInt < 2 ^ (bits - 1) := by rw [highest, Int.le_sub_one_iff]
    simp [when_eq_ok_iff, and_assoc, lowest, below]

namespace Schema

variable {s : Schema}

/-- An entry for a field of the struct comes out as this identifier and this expression. -/
def Places (s : Schema) (d : StructDecl) (e : String × Literal) (p : String × String) : Prop :=
  ∃ f text, d.field? e.1 = some f ∧ s.render f.ty e.2 = .ok text ∧
    p = (Ident.field f.name, "Some(" ++ text ++ ")")

theorem renderItems_eq (ty : Ty) (items : List Literal) :
    s.renderItems ty items = items.mapM (s.render ty) := by
  induction items with
  | nil => rfl
  | cons v rest ih =>
    rw [renderItems, ih, List.mapM_cons]
    rfl

def renderPair (s : Schema) (key value : Ty) (p : Literal × Literal) : Emitted String := do
  let first ← s.render key p.1
  let second ← s.render value p.2
  .ok ("(" ++ first ++ ", " ++ second ++ ")")

theorem renderPairs_eq (key value : Ty) (pairs : List (Literal × Literal)) :
    s.renderPairs key value pairs = pairs.mapM (s.renderPair key value) := by
  induction pairs with
  | nil => rfl
  | cons p rest ih =>
    rw [renderPairs, ih, List.mapM_cons, renderPair]
    cases s.render key p.1 with
    | error e => rfl
    | ok first => cases s.render value p.2 <;> rfl

theorem renderPair_ok_iff {key value : Ty} {p : Literal × Literal} {text : String} :
    s.renderPair key value p = .ok text ↔ ∃ first second, s.render key p.1 = .ok first ∧
      s.render value p.2 = .ok second ∧ "(" ++ first ++ ", " ++ second ++ ")" = text := by
  simp [renderPair, bind_eq_ok_iff]

theorem renderEntries_ok_iff (d : StructDecl) {done fields : List (String × String)}
    {entries : List (String × Literal)} :
    s.renderEntries d done entries = .ok fields ↔
      ∃ placed, List.Forall₂ (s.Places d) entries placed ∧ fields = placeAll done placed := by
  induction entries generalizing done with
  | nil => simp [renderEntries, placeAll, eq_comm]
  | cons e rest ih =>
    obtain ⟨key, v⟩ := e
    rw [renderEntries]
    simp only [List.forall₂_cons_left_iff]
    cases found : d.field? key with
    | none =>
      simp only [reduceCtorEq, false_iff]
      rintro ⟨placed, ⟨p, others, ⟨f, text, declared, -⟩, -⟩, -⟩
      rw [found] at declared
      cases declared
    | some f =>
      simp only [bind_eq_ok_iff, ih]
      constructor
      · rintro ⟨text, first, placed, others, rfl⟩
        exact ⟨_ :: placed, ⟨_, placed, ⟨f, text, found, first, rfl⟩, others, rfl⟩, rfl⟩
      · rintro ⟨-, ⟨-, placed, ⟨f', text, declared, first, rfl⟩, others, rfl⟩, rfl⟩
        cases found.symm.trans declared
        exact ⟨text, first, placed, others, rfl⟩

theorem renderKeyed_eq (d : StructDecl) (done : List (String × String))
    (entries : List (String × Literal)) :
    s.renderKeyed d done (entries.map fun (key, v) => (.text key, v)) =
      s.renderEntries d done entries := by
  induction entries generalizing done with
  | nil => rfl
  | cons e rest ih =>
    obtain ⟨key, v⟩ := e
    rw [List.map_cons, renderKeyed, renderEntries]
    cases d.field? key with
    | none => rfl
    | some f => simp only [ih]

theorem requireStruct_ok_iff {name : String} {d : StructDecl} :
    ofSchema (s.requireStruct name) = .ok d ↔ s.struct? name = some d := by
  unfold requireStruct
  cases s.struct? name <;> simp [ofSchema]

section Forms

variable {ty item key value : Ty} {name : String} {v : Literal} {text : String}

theorem render_eq_simple (single : ty.isContainer = false) (own : ty.isStruct = false) :
    s.render ty v = s.renderSimple ty v := by
  unfold Ty.isContainer at single
  unfold Ty.isStruct Ty.structName? at own
  cases v <;> unfold render <;> first | rfl | (split <;> simp_all)

theorem render_list_ok_iff (form : ty.resolve = .list item) : s.render ty v = .ok text ↔
    ∃ items texts, v.items? = some items ∧
      List.Forall₂ (fun i t => s.render item i = .ok t) items texts ∧ listCode texts = text := by
  cases v <;> simp [render, renderSimple, form, Literal.items?, renderItems_eq, bind_eq_ok_iff,
    mapM_eq_ok_iff]

theorem render_set_ok_iff (form : ty.resolve = .set item) : s.render ty v = .ok text ↔
    ∃ items texts, v.items? = some items ∧
      List.Forall₂ (fun i t => s.render item i = .ok t) items texts ∧
      collectionCode Ty.setPath texts = text := by
  cases v <;> simp [render, renderSimple, form, Literal.items?, renderItems_eq, bind_eq_ok_iff,
    mapM_eq_ok_iff]

theorem render_map_ok_iff (form : ty.resolve = .map key value) : s.render ty v = .ok text ↔
    ∃ pairs texts, v = .map pairs ∧
      List.Forall₂ (fun p t => s.renderPair key value p = .ok t) pairs texts ∧
      collectionCode Ty.mapPath texts = text := by
  cases v <;> simp [render, renderSimple, form, renderPairs_eq, bind_eq_ok_iff, mapM_eq_ok_iff]

theorem render_struct_ok_iff (form : ty.structName? = some name) : s.render ty v = .ok text ↔
    ∃ d entries placed, s.struct? name = some d ∧ v.Gives entries ∧
      List.Forall₂ (s.Places d) entries placed ∧ structCode d (placeAll [] placed) = text := by
  have shape : ty.resolve = .struct name ∨ ty.resolve = .exception name := by
    unfold Ty.structName? at form
    split at form <;> simp_all
  have named (entries : List (String × Literal)) (d : StructDecl) :
      (do .ok (structCode d (← s.renderEntries d [] entries)) : Emitted String) = .ok text ↔
        ∃ placed, List.Forall₂ (s.Places d) entries placed ∧
          structCode d (placeAll [] placed) = text := by
    simp only [bind_eq_ok_iff, renderEntries_ok_iff, Except.ok.injEq]
    constructor
    · rintro ⟨-, ⟨placed, all, rfl⟩, written⟩
      exact ⟨placed, all, written⟩
    · rintro ⟨placed, all, written⟩
      exact ⟨_, ⟨placed, all, rfl⟩, written⟩
  constructor
  · intro rendered
    cases v with
    | struct entries =>
      have opened : (do
          let d ← ofSchema (s.requireStruct name)
          .ok (structCode d (← s.renderEntries d [] entries)) : Emitted String) = .ok text := by
        rcases shape with shape | shape <;> simpa only [render, shape] using rendered
      obtain ⟨d, found, rest⟩ := bind_eq_ok_iff.mp opened
      obtain ⟨placed, all, written⟩ := (named entries d).mp rest
      exact ⟨d, entries, placed, requireStruct_ok_iff.mp found, .struct entries, all, written⟩
    | map pairs =>
      have opened : (do
          let d ← ofSchema (s.requireStruct name)
          checkKeys d pairs
          .ok (structCode d (← s.renderKeyed d [] pairs)) : Emitted String) = .ok text := by
        rcases shape with shape | shape <;> simpa only [render, shape] using rendered
      obtain ⟨d, found, rest⟩ := bind_eq_ok_iff.mp opened
      obtain ⟨keys, rest⟩ := seq_eq_ok_iff.mp rest
      obtain ⟨entries, rfl⟩ := (checkKeys_ok_iff d pairs).mp keys
      rw [renderKeyed_eq] at rest
      obtain ⟨placed, all, written⟩ := (named entries d).mp rest
      exact ⟨d, entries, placed, requireStruct_ok_iff.mp found, .map entries, all, written⟩
    | _ =>
      rcases shape with shape | shape <;>
        simp [render, renderSimple, shape, bind_eq_ok_iff] at rendered
  · rintro ⟨d, entries, placed, found, gives, all, written⟩
    have rest := (named entries d).mpr ⟨placed, all, written⟩
    have found' := requireStruct_ok_iff.mpr found
    cases gives with
    | struct =>
      rcases shape with shape | shape <;> simpa only [render, shape, found', ok_bind] using rest
    | map =>
      have keys := (checkKeys_ok_iff d _).mpr ⟨entries, rfl⟩
      rcases shape with shape | shape <;>
        simpa only [render, shape, found', ok_bind, keys, renderKeyed_eq] using rest

theorem not_render_void (form : ty.resolve = .void) : s.render ty v ≠ .ok text := by
  rw [render_eq_simple (by simp [Ty.isContainer, form])
    (by simp [Ty.isStruct, Ty.structName?, form])]
  simp [renderSimple, form]

theorem render_string_ok_iff (form : ty.resolve = .string) : s.render ty v = .ok text ↔
    ∃ t, v = .text t ∧ Text.quoted t ++ ".to_owned()" = text := by
  rw [render_eq_simple (by simp [Ty.isContainer, form])
    (by simp [Ty.isStruct, Ty.structName?, form])]
  cases v <;> simp [renderSimple, form]

theorem render_bool_ok_iff (form : ty.resolve = .bool) : s.render ty v = .ok text ↔
    ∃ n, v.integer? = some n ∧ (if n = 0 then "false" else "true") = text := by
  rw [render_eq_simple (by simp [Ty.isContainer, form])
    (by simp [Ty.isStruct, Ty.structName?, form])]
  cases v <;> simp [renderSimple, form, Literal.integer?]

theorem render_double_ok_iff (form : ty.resolve = .double) : s.render ty v = .ok text ↔
    (∃ n, v = .integer n ∧ "rt::Double(" ++ toString n ++ "_f64)" = text) ∨
      ∃ d, v = .double d ∧ "rt::Double(" ++ d.code ++ ")" = text := by
  rw [render_eq_simple (by simp [Ty.isContainer, form])
    (by simp [Ty.isStruct, Ty.structName?, form])]
  cases v <;> simp [renderSimple, form]

theorem render_number_ok_iff {bits : Nat} (form : ty.resolve.bits? = some bits) :
    s.render ty v = .ok text ↔ ∃ n, v.integer? = some n ∧ -2 ^ (bits - 1) ≤ n.toInt ∧
      n.toInt < 2 ^ (bits - 1) ∧ numberCode ty.resolve n = text := by
  have simple : s.render ty v = s.renderSimple ty v := by
    apply render_eq_simple
    · unfold Ty.isContainer
      split <;> simp_all [Ty.bits?]
    · unfold Ty.isStruct Ty.structName?
      split <;> simp_all [Ty.bits?]
  rw [simple]
  unfold Ty.bits? at form
  split at form <;> cases form
  case h_4 shape =>
    have number (digits : String) :
        renderInteger ty v (-2147483648) 2147483647 = .ok digits ↔ _ :=
      renderInteger_ok_iff 32 rfl rfl
    simp only [renderSimple, shape, bind_eq_ok_iff, number, numberCode, Except.ok.injEq]
    constructor
    · rintro ⟨-, ⟨n, given, above, below, rfl⟩, written⟩
      exact ⟨n, given, above, below, written⟩
    · rintro ⟨n, given, above, below, written⟩
      exact ⟨_, ⟨n, given, above, below, rfl⟩, written⟩
  all_goals
    rename_i shape
    simp only [renderSimple, shape]
    exact renderInteger_ok_iff _ rfl rfl

end Forms

end Schema

end Idl
