import Idl.Code.Service
import Idl.Proofs.Code.Fitting
import Idl.Proofs.Schema.Ident
import Idl.Proofs.Schema.Names

/-!
# What generated texts are made of

Identifiers, types and literals are written with the characters of the names that they mention, a
few of their own, and braces that match. Texts of literals stand in quotes.
-/

set_option autoImplicit false

namespace Idl

open Text

variable {A : Char → Prop} [usual : Usual A]

namespace Ident

theorem usual_of_own {c : Char} (own : isOwnChar c = true) : A c := by
  refine usual.mem c ?_ ?_ ?_ <;> rintro rfl <;> cases own

theorem worded_of_mem {name ident : String}
    (chars : ∀ {c}, c ∈ ident.toList → c ∈ name.toList ∨ isOwnChar c = true)
    (worded : Worded A name) :
    Worded A ident :=
  fun c member => (chars member).elim (worded c) usual_of_own

variable {name : String} (worded : Worded A name)

include worded

theorem worded_field : Worded A (field name) := worded_of_mem mem_field worded

theorem worded_type : Worded A (type name) := worded_of_mem mem_type worded

theorem worded_constant : Worded A (constant name) := worded_of_mem mem_constant worded

theorem worded_snake : Worded A (snake name) := worded_of_mem mem_snake worded

theorem worded_clientMethod : Worded A (clientMethod name) := by
  unfold clientMethod
  split
  · exact (worded_field worded).append (.fixed rfl)
  · exact worded_field worded

end Ident

namespace Ty

omit usual in
theorem names_key {key value : Ty} (named : ∀ w ∈ (Ty.map key value).names, Worded A w) :
    ∀ w ∈ key.names, Worded A w :=
  fun w member => named w (List.mem_append_left _ member)

omit usual in
theorem names_value {key value : Ty} (named : ∀ w ∈ (Ty.map key value).names, Worded A w) :
    ∀ w ∈ value.names, Worded A w :=
  fun w member => named w (List.mem_append_right _ member)

omit usual in
theorem names_resolve (ty : Ty) : ty.resolve.names ⊆ ty.names := by
  induction ty with
  | typedef name target ih => exact fun w member => List.mem_cons_of_mem name (ih member)
  | _ => exact List.Subset.refl _

theorem worded_setPath : Worded A setPath := .fixed rfl

theorem worded_mapPath : Worded A mapPath := .fixed rfl

theorem worded_code {ty : Ty} (named : ∀ w ∈ ty.names, Worded A w) : Worded A ty.code := by
  induction ty with
  | enum name | struct name | exception name | typedef name target _ =>
    exact Ident.worded_type (named name List.mem_cons_self)
  | list item ih =>
    rw [code]
    exact .and (.fixed rfl) (ih named) rfl
  | set item ih =>
    rw [code]
    exact .and (.append worded_setPath (.fixed rfl)) (ih named) rfl
  | map key value ihk ihv =>
    rw [code]
    refine .and (.and (.append worded_mapPath (.fixed rfl)) ?_ rfl) ?_ rfl
    · exact ihk (names_key named)
    · exact ihv (names_value named)
  | _ => exact .fixed rfl

theorem worded_display {ty : Ty} (named : ∀ w ∈ ty.names, Worded A w) : Worded A ty.display := by
  induction ty with
  | enum name | struct name | exception name | typedef name target _ =>
    exact named name List.mem_cons_self
  | list item ih | set item ih =>
    rw [display]
    exact .and (.fixed rfl) (ih named) rfl
  | map key value ihk ihv =>
    rw [display]
    exact .and (.and (.fixed rfl) (ihk (names_key named)) rfl) (ihv (names_value named)) rfl
  | _ => exact .fixed rfl

theorem worded_kindCode (ty : Ty) : Worded A ty.kindCode := by
  have kind : Worded A ty.wireKind.name := by cases ty.wireKind <;> exact .fixed rfl
  rw [kindCode]
  exact .append (.fixed rfl) kind

end Ty

namespace Decimal

def isNumeral (c : Char) : Bool :=
  c.isDigit || c = '.' || c = 'e' || c = '-'

theorem isNumeral_of_digitChars {n : Nat} : ∀ c ∈ digitChars n, isNumeral c = true := by
  intro c member
  simp [isNumeral, isDigit_of_mem_toString c member]

theorem isNumeral_of_intChars {z : Int} : ∀ c ∈ intChars z, isNumeral c = true := by
  intro c member
  unfold intChars at member
  split at member
  · rcases List.mem_cons.mp member with rfl | digit
    · rfl
    · exact isNumeral_of_digitChars c digit
  · exact isNumeral_of_digitChars c member

theorem isNumeral_of_places {d : Digits} :
    (∀ c ∈ d.places.1, isNumeral c = true) ∧ ∀ c ∈ d.places.2, isNumeral c = true := by
  have zeros (k : Nat) : ∀ c ∈ List.replicate k '0', isNumeral c = true := by
    intro c member
    rw [List.eq_of_mem_replicate member]
    rfl
  have digits : ∀ c ∈ digitChars d.coefficient, isNumeral c = true := isNumeral_of_digitChars
  unfold Digits.places
  dsimp only
  split
  · exact ⟨fun c member => (List.mem_append.mp member).elim (digits c) (zeros _ c),
      fun c member => absurd member List.not_mem_nil⟩
  · split
    · refine ⟨fun c member => ?_, fun c member => (List.mem_append.mp member).elim
        (zeros _ c) (digits c)⟩
      rw [List.mem_singleton.mp member]
      rfl
    · exact ⟨fun c member => digits c (List.mem_of_mem_take member),
        fun c member => digits c (List.mem_of_mem_drop member)⟩

theorem isNumeral_of_pointed {d : Digits} : ∀ c ∈ d.pointed, isNumeral c = true := by
  obtain ⟨whole, part⟩ := isNumeral_of_places (d := d)
  unfold Digits.pointed
  split
  case h_1 shape =>
    rw [shape] at whole
    intro c member
    rcases List.mem_append.mp member with before | after
    · exact whole c before
    · have ending : ['.', '0'].all isNumeral = true := by decide
      exact List.all_eq_true.mp ending c after
  case h_2 shape =>
    rw [shape] at whole part
    intro c member
    rcases List.mem_append.mp member with before | after
    · exact whole c before
    · rcases List.mem_cons.mp after with rfl | after
      · rfl
      · exact part c after

theorem isNumeral_of_scientific {d : Digits} : ∀ c ∈ d.scientific, isNumeral c = true := by
  have digits : ∀ c ∈ digitChars d.coefficient, isNumeral c = true := isNumeral_of_digitChars
  have exponent : ∀ c ∈ 'e' :: intChars d.leading, isNumeral c = true := by
    intro c member
    rcases List.mem_cons.mp member with rfl | member
    · rfl
    · exact isNumeral_of_intChars c member
  unfold Digits.scientific
  split
  case h_1 first second rest shape =>
    rw [shape] at digits
    simp only [List.forall_mem_cons] at digits
    intro c member
    rcases List.mem_append.mp member with before | after
    · simp only [List.mem_cons] at before
      rcases before with rfl | rfl | rfl | before
      · exact digits.1
      · rfl
      · exact digits.2.1
      · exact digits.2.2 c before
    · exact exponent c after
  case h_2 =>
    intro c member
    exact (List.mem_append.mp member).elim (digits c) (exponent c)

end Decimal

theorem Double.worded_code (d : Double) : Worded A d.code := by
  have usual_of_numeral {c : Char} (numeral : Decimal.isNumeral c = true) : A c := by
    refine usual.mem c ?_ ?_ ?_ <;> rintro rfl <;> cases numeral
  have digits : ∀ c ∈ d.digits.literal, Decimal.isNumeral c = true := by
    unfold Decimal.Digits.literal
    split
    · exact Decimal.isNumeral_of_pointed
    · exact Decimal.isNumeral_of_scientific
  unfold Double.code
  split
  · exact .fixed rfl
  · split
    · split <;> exact .fixed rfl
    · intro c member
      rw [Double.literal, Double.signed, String.toList_ofList] at member
      apply usual_of_numeral
      split at member
      · rcases List.mem_cons.mp member with rfl | member
        · rfl
        · exact digits c member
      · exact digits c member

theorem commaSeparated_phrased {texts : List String} (each : ∀ t ∈ texts, Phrased A t) :
    Phrased A (commaSeparated texts) :=
  .intercalate (.fixed rfl) each

theorem listCode_phrased {texts : List String} (each : ∀ t ∈ texts, Phrased A t) :
    Phrased A (listCode texts) := by
  cases texts with
  | nil => exact .fixed rfl
  | cons t texts =>
    exact .and (.fixed rfl) (commaSeparated_phrased each) rfl

theorem collectionCode_phrased {path : String} (walked : Phrased A path) {texts : List String}
    (each : ∀ t ∈ texts, Phrased A t) : Phrased A (collectionCode path texts) := by
  cases texts with
  | nil => exact walked.mark rfl
  | cons t texts =>
    exact .and (walked.mark rfl) (commaSeparated_phrased each) rfl

theorem structCode_phrased {d : StructDecl} (named : Worded A d.name)
    {fields : List (String × String)} (each : ∀ p ∈ fields, Phrased A p.1 ∧ Phrased A p.2) :
    Phrased A (structCode d fields) := by
  let set : String × String → String := fun p => p.1 ++ ": " ++ p.2 ++ ", "
  have inner : Phrased A (String.join (fields.map set)) := by
    refine .join fun t member => ?_
    obtain ⟨p, inside, rfl⟩ := List.mem_map.mp member
    obtain ⟨ident, value⟩ := each p inside
    exact .and (ident.mark rfl) value rfl
  have type := (Ident.worded_type named).phrased
  have group : Phrased A
      ("\x7b" ++ (" " ++ String.join (fields.map set) ++ "..Default::default() ") ++ "\x7d") :=
    .enclosed (.and (.fixed rfl) inner rfl)
  have whole : structCode d fields = Ident.type d.name ++ " " ++ ("\x7b" ++ (" " ++
      String.join (fields.map set) ++ "..Default::default() ") ++ "\x7d") := by
    simp [structCode, ← String.toList_inj, set]
  rw [whole]
  exact (type.mark rfl).append group

namespace Schema

variable {s : Schema}

theorem render_phrased (spelled : Spelled A s.names s.texts) {ty : Ty}
    (named : ∀ w ∈ ty.names, Worded A w) {v : Literal} (worded : ∀ w ∈ v.texts, Worded (orFeed A) w)
    {text : String} (rendered : s.render ty v = .ok text) : Phrased A text := by
  induction v using Literal.part_induction generalizing ty text with
  | step v ih =>
    have resolved : ∀ w ∈ ty.resolve.names, Worded A w := fun w member =>
      named w (ty.names_resolve member)
    have part_phrased {part : Literal} (member : part ∈ v.parts) {item : Ty}
        (mentioned : ∀ w ∈ item.names, Worded A w) {t : String}
        (written : s.render item part = .ok t) :
        Phrased A t :=
      ih part member mentioned (fun w inside => worded w (Literal.texts_of_part member inside))
        written
    have items_phrased {item : Ty} (mentioned : ∀ w ∈ item.names, Worded A w) {items : List Literal}
        (has : v.items? = some items) {texts : List String}
        (all : List.Forall₂ (fun i t => s.render item i = .ok t) items texts) :
        ∀ t ∈ texts, Phrased A t := by
      intro t member
      obtain ⟨i, inside, written⟩ := exists_of_forall₂ all member
      exact part_phrased (Literal.mem_parts_of_items? has inside) mentioned written
    cases form : ty.resolve with
    | void => exact absurd rendered (not_render_void form)
    | typedef name target => exact absurd form (resolve_ne_typedef ty name target)
    | string =>
      obtain ⟨t, rfl, rfl⟩ := (render_string_ok_iff form).mp rendered
      have quoted : Phrased A (quoted t) := .quoted (worded t (by simp [Literal.texts])).phrased
      exact quoted.mark rfl
    | bool =>
      obtain ⟨n, -, rfl⟩ := (render_bool_ok_iff form).mp rendered
      split <;> exact .fixed rfl
    | byte | i16 | i32 | i64 =>
      obtain ⟨n, -, -, -, rfl⟩ := (render_number_ok_iff (by rw [form]; rfl)).mp rendered
      rw [form]
      exact (Worded.integer n.toInt).phrased
    | enum name =>
      obtain ⟨n, -, -, -, rfl⟩ := (render_number_ok_iff (by rw [form]; rfl)).mp rendered
      rw [form] at resolved ⊢
      have type := (Ident.worded_type (resolved name List.mem_cons_self)).phrased
      have digits : Phrased A (toString n) := (Worded.integer n.toInt).phrased
      exact .and (type.mark rfl) digits rfl
    | double =>
      rcases (render_double_ok_iff form).mp rendered with ⟨n, -, rfl⟩ | ⟨d, -, rfl⟩
      · have digits : Phrased A (toString n) := (Worded.integer n.toInt).phrased
        exact .and (.fixed rfl) digits rfl
      · exact .and (.fixed rfl) d.worded_code.phrased rfl
    | list item =>
      obtain ⟨items, texts, has, all, rfl⟩ := (render_list_ok_iff form).mp rendered
      have mentioned : ∀ w ∈ item.names, Worded A w := by rwa [form] at resolved
      exact listCode_phrased (items_phrased mentioned has all)
    | set item =>
      obtain ⟨items, texts, has, all, rfl⟩ := (render_set_ok_iff form).mp rendered
      have mentioned : ∀ w ∈ item.names, Worded A w := by rwa [form] at resolved
      exact collectionCode_phrased Ty.worded_setPath.phrased (items_phrased mentioned has all)
    | map key value =>
      obtain ⟨pairs, texts, rfl, all, rfl⟩ := (render_map_ok_iff form).mp rendered
      rw [form] at resolved
      refine collectionCode_phrased Ty.worded_mapPath.phrased fun t member => ?_
      obtain ⟨p, inside, written⟩ := exists_of_forall₂ all member
      obtain ⟨first, second, writtenKey, writtenValue, rfl⟩ := renderPair_ok_iff.mp written
      have parts : ∀ part ∈ [p.1, p.2], part ∈ (Literal.map pairs).parts := fun part either =>
        List.mem_flatMap.mpr ⟨p, inside, either⟩
      have keyed := part_phrased (parts _ (by simp)) (Ty.names_key resolved) writtenKey
      have valued := part_phrased (parts _ (by simp)) (Ty.names_value resolved) writtenValue
      exact .and (.and (.fixed rfl) keyed rfl) valued rfl
    | struct name | exception name =>
      have structured : ty.structName? = some name := by rw [Ty.structName?, form]
      obtain ⟨d, entries, placed, found, gives, all, rfl⟩ :=
        (render_struct_ok_iff structured).mp rendered
      have known : d ∈ s.structs := List.mem_reverse.mp (List.mem_of_find?_eq_some found)
      have words := spelled_struct spelled known
      refine structCode_phrased (words.name d.name List.mem_cons_self) fun p member => ?_
      obtain ⟨e, inside, f, t, declared, written, rfl⟩ :=
        exists_of_forall₂ all ((mem_of_placeAll member).resolve_left List.not_mem_nil)
      have field := d.spelled_field words (List.mem_of_find?_eq_some declared)
      have ident := (Ident.worded_field (field.name f.name List.mem_cons_self)).phrased
      have value := part_phrased (gives.mem_parts inside)
        (fun w member => field.name w (List.mem_cons_of_mem _ member)) written
      exact ⟨ident, .and (.fixed rfl) value rfl⟩

end Schema

end Idl
