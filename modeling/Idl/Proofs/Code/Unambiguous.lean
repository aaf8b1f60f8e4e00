import Idl.Proofs.Code.Fitting
import Idl.Proofs.Code.Meaning
import Idl.Proofs.Schema.Ident
import Idl.Proofs.Text.Quoted
import Mathlib.Data.List.Nodup

/-!
# Texts of literals can be read

At a type in which no double occurs, the text of a literal says what the literal stands for,
wherever the text begins and whatever follows it that is no digit. Lists, sets, maps and structs are
read part by part: each part says where it ends, and the mark behind it says whether another one
follows.
-/

set_option autoImplicit false

namespace Idl

open Text (Stops stops_nil stops_cons)

/-! ## The last value for a key -/

section LastGiven

variable {α β : Type}

theorem lastGiven_cons (e : String × α) (rest : List (String × α)) (key : String) :
    lastGiven (e :: rest) key =
      (lastGiven rest key).or (if e.1 = key then some e.2 else none) := by
  by_cases same : e.1 = key <;> simp [lastGiven, List.find?_append, same]

theorem mem_of_lastGiven {entries : List (String × α)} {key : String} {a : α}
    (last : lastGiven entries key = some a) : (key, a) ∈ entries := by
  induction entries with
  | nil => cases last
  | cons e rest ih =>
    rw [lastGiven_cons, Option.or_eq_some_iff] at last
    rcases last with later | ⟨-, here⟩
    · exact List.mem_cons_of_mem e (ih later)
    · split at here
      case isTrue same =>
        cases here
        rw [← same]
        exact List.mem_cons_self
      case isFalse => cases here

theorem lastGiven_rel {rename : String → String} {Q : α → β → Prop} {key : String}
    {entries : List (String × α)} {others : List (String × β)}
    (each : List.Forall₂ (fun e o => o.1 = rename e.1 ∧ (e.1 = key → Q e.2 o.2)) entries others)
    (apart : ∀ e ∈ entries, rename e.1 = rename key → e.1 = key) :
    Option.Rel Q (lastGiven entries key) (lastGiven others (rename key)) := by
  induction each with
  | nil => exact .none
  | @cons e o entries others first _ ih =>
    rw [List.forall_mem_cons] at apart
    have later := ih apart.2
    rw [lastGiven_cons, lastGiven_cons]
    generalize lastGiven entries key = last, lastGiven others (rename key) = last' at later
    cases later with
    | some related => exact .some related
    | none =>
      by_cases same : e.1 = key
      · rw [if_pos same, if_pos (by rw [first.1, same])]
        exact .some (first.2 same)
      · rw [if_neg same, if_neg (by rw [first.1]; exact fun here => same (apart.1 here))]
        exact .none

theorem mem_placeEntry_iff {i j e e' : String} {done : List (String × String)}
    (distinct : (done.map (·.1)).Nodup) :
    (i, e) ∈ placeEntry j e' done ↔ j = i ∧ e' = e ∨ j ≠ i ∧ (i, e) ∈ done := by
  induction done with
  | nil => simp [placeEntry, eq_comm]
  | cons p rest ih =>
    obtain ⟨k, x⟩ := p
    rw [List.map_cons, List.nodup_cons] at distinct
    have absent : (k, e) ∉ rest := fun later => distinct.1 (List.mem_map.mpr ⟨_, later, rfl⟩)
    rw [placeEntry]
    by_cases here : k = j
    · rw [if_pos here]
      by_cases same : j = i <;> grind
    · rw [if_neg here, List.mem_cons, ih distinct.2]
      grind

theorem placeEntry_keys (j e : String) (done : List (String × String)) :
    (placeEntry j e done).map (·.1) =
      if j ∈ done.map (·.1) then done.map (·.1) else done.map (·.1) ++ [j] := by
  induction done with
  | nil => simp [placeEntry]
  | cons p rest ih =>
    by_cases same : p.1 = j
    · simp [placeEntry, same]
    · by_cases later : j ∈ rest.map (·.1) <;> simp_all [placeEntry, Ne.symm]

theorem mem_placeAll_iff {i e : String} {done placed : List (String × String)}
    (distinct : (done.map (·.1)).Nodup) : (i, e) ∈ placeAll done placed ↔
      lastGiven placed i = some e ∨ lastGiven placed i = none ∧ (i, e) ∈ done := by
  induction placed generalizing done with
  | nil => simp [placeAll, lastGiven]
  | cons p rest ih =>
    have again : ((placeEntry p.1 p.2 done).map (·.1)).Nodup := by
      rw [placeEntry_keys]
      split
      case isTrue => exact distinct
      case isFalse absent => exact List.nodup_append.mpr ⟨distinct, by simp, by grind⟩
    change (i, e) ∈ placeAll (placeEntry p.1 p.2 done) rest ↔ _
    rw [ih again, mem_placeEntry_iff distinct, lastGiven_cons]
    cases lastGiven rest i with
    | some last => simp
    | none => by_cases same : p.1 = i <;> simp [same]

end LastGiven

/-! ## Sequences of texts -/

/-- Whatever follows that is no digit, a text that is read as the text for `a` is as long as it, and
what it is written for means the same. -/
def Tells {α β : Type} (writes : α → Emitted String) (means : α → β) (a : α) : Prop :=
  ∀ a' text text' rest rest', writes a = .ok text → writes a' = .ok text' →
    Stops Char.isDigit rest → Stops Char.isDigit rest' →
    text.toList ++ rest = text'.toList ++ rest' → means a = means a' ∧ rest = rest'

theorem Tells.enclosed {α β : Type} {writes : α → Emitted String} {means : α → β} {a a' : α}
    {text text' opening closing : String} {rest rest' : List Char} (tells : Tells writes means a)
    (mark : ∃ c more, closing.toList = c :: more ∧ c.isDigit = false)
    (written : writes a = .ok text)
    (written' : writes a' = .ok text')
    (same : (opening ++ text ++ closing).toList ++ rest =
      (opening ++ text' ++ closing).toList ++ rest') :
    means a = means a' ∧ text = text' ∧ rest = rest' := by
  obtain ⟨c, more, shape, noDigit⟩ := mark
  simp only [String.toList_append, List.append_assoc, shape, List.cons_append] at same
  have inner := List.append_cancel_left same
  obtain ⟨meaning, behind⟩ := tells a' text text' _ _ written written' (stops_cons noDigit _)
    (stops_cons noDigit _) inner
  rw [behind] at inner
  exact ⟨meaning, String.toList_injective (List.append_cancel_right inner),
    List.append_cancel_left (List.cons.inj behind).2⟩

section Sequences

variable {α β : Type} {writes : α → Emitted String} {means : α → β} {as as' : List α}
  {texts texts' : List String} {rest rest' : List Char}

def followers (texts : List String) : List Char :=
  texts.flatMap fun t => ',' :: ' ' :: t.toList

theorem toList_commaSeparated_cons (t : String) (texts : List String) :
    (commaSeparated (t :: texts)).toList = t.toList ++ followers texts := by
  induction texts generalizing t with
  | nil => simp [commaSeparated, followers]
  | cons u texts ih =>
    have next := ih u
    unfold commaSeparated at next ⊢
    rw [String.intercalate_cons_cons, String.toList_append, next]
    simp [followers]

theorem stops_followers (texts : List String) (rest : List Char) :
    Stops Char.isDigit (followers texts ++ ']' :: rest) := by
  cases texts with
  | nil => exact stops_cons rfl _
  | cons t texts => exact stops_cons rfl _

theorem followers_tell (tells : ∀ a ∈ as, Tells writes means a)
    (written : List.Forall₂ (fun a t => writes a = .ok t) as texts)
    (written' : List.Forall₂ (fun a t => writes a = .ok t) as' texts')
    (same : followers texts ++ ']' :: rest = followers texts' ++ ']' :: rest') :
    as.map means = as'.map means ∧ rest = rest' := by
  induction written generalizing as' texts' with
  | nil =>
    cases written' with
    | nil => exact ⟨rfl, (List.cons.inj same).2⟩
    | cons _ _ => cases (List.cons.inj same).1
  | @cons a t as texts first _ ih =>
    rw [List.forall_mem_cons] at tells
    cases written' with
    | nil => cases (List.cons.inj same).1
    | @cons a' t' as' texts' first' others' =>
      simp only [followers, List.flatMap_cons, List.cons_append, List.append_assoc, List.cons.injEq,
        true_and] at same
      obtain ⟨meaning, more⟩ := tells.1 a' t t' _ _ first first' (stops_followers texts rest)
        (stops_followers texts' rest') same
      obtain ⟨meanings, rests⟩ := ih tells.2 others' more
      exact ⟨by rw [List.map_cons, List.map_cons, meaning, meanings], rests⟩

theorem brackets_tell {code : List String → String} (front none opening closing : String)
    (empty : code [] = front ++ none)
    (filled : ∀ t ts, code (t :: ts) = front ++ (opening ++ commaSeparated (t :: ts) ++ closing))
    (apart : ∀ more more', none.toList ++ more ≠ opening.toList ++ more')
    (bracket : ∃ more, closing.toList = ']' :: more) (tells : ∀ a ∈ as, Tells writes means a)
    (written : List.Forall₂ (fun a t => writes a = .ok t) as texts)
    (written' : List.Forall₂ (fun a t => writes a = .ok t) as' texts')
    (same : (code texts).toList ++ rest = (code texts').toList ++ rest') :
    as.map means = as'.map means ∧ rest = rest' := by
  obtain ⟨more, closing_eq⟩ := bracket
  cases written with
  | nil =>
    cases written' with
    | nil => exact ⟨rfl, List.append_cancel_left same⟩
    | cons _ _ =>
      simp only [empty, filled, String.toList_append, List.append_assoc] at same
      exact absurd (List.append_cancel_left same) (apart _ _)
  | @cons a t as texts first others =>
    cases written' with
    | nil =>
      simp only [empty, filled, String.toList_append, List.append_assoc] at same
      exact absurd (List.append_cancel_left same).symm (apart _ _)
    | @cons a' t' as' texts' first' others' =>
      simp only [filled, String.toList_append, List.append_assoc, toList_commaSeparated_cons,
        closing_eq, List.cons_append] at same
      rw [List.forall_mem_cons] at tells
      obtain ⟨meaning, behind⟩ := tells.1 a' t t' _ _ first first' (stops_followers texts _)
        (stops_followers texts' _) (List.append_cancel_left (List.append_cancel_left same))
      obtain ⟨meanings, rests⟩ := followers_tell tells.2 others others' behind
      exact ⟨by rw [List.map_cons, List.map_cons, meaning, meanings],
        List.append_cancel_left rests⟩

theorem list_tells (tells : ∀ a ∈ as, Tells writes means a)
    (written : List.Forall₂ (fun a t => writes a = .ok t) as texts)
    (written' : List.Forall₂ (fun a t => writes a = .ok t) as' texts')
    (same : (listCode texts).toList ++ rest = (listCode texts').toList ++ rest') :
    as.map means = as'.map means ∧ rest = rest' :=
  brackets_tell "" "Vec::new()" "vec![" "]" rfl (fun t ts => by simp [listCode]) (by simp) ⟨[], rfl⟩
    tells written written' same

theorem collection_tells (path : String) (tells : ∀ a ∈ as, Tells writes means a)
    (written : List.Forall₂ (fun a t => writes a = .ok t) as texts)
    (written' : List.Forall₂ (fun a t => writes a = .ok t) as' texts')
    (same : (collectionCode path texts).toList ++ rest =
      (collectionCode path texts').toList ++ rest') :
    as.map means = as'.map means ∧ rest = rest' :=
  brackets_tell path "::new()" "::from([" "])" rfl
    (fun t ts => by simp [collectionCode, String.append_assoc])
    (by simp) ⟨[')'], rfl⟩ tells written written' same

end Sequences

namespace Schema

variable {s : Schema}

/-! ## Structs -/

section Structs

variable {d : StructDecl}

/-- The fields of a struct have names that are told apart from what stands around them, and from
each other. -/
structure LegibleFields (d : StructDecl) : Prop where
  plain : ∀ f ∈ d.fields, ∀ c ∈ (Ident.field f.name).toList, c ≠ ':' ∧ c ≠ '.'
  distinct : (d.fields.map fun f => Ident.field f.name).Nodup

theorem legibleFields_of_identifiers
    (identifiers : ∀ f ∈ d.fields, Ident.isIdentifier f.name = true)
    (distinct : (d.fields.map fun f => Ident.field f.name).Nodup) : LegibleFields d := by
  refine ⟨fun f ofF c member => ?_, distinct⟩
  rcases Ident.mem_field member with inside | own
  · constructor <;> rintro rfl <;> cases Ident.isWord_of_mem (identifiers f ofF) inside
  · constructor <;> rintro rfl <;> cases own

theorem LegibleFields.eq (apart : LegibleFields d) {f g : Field} (ofF : f ∈ d.fields)
    (ofG : g ∈ d.fields) (same : Ident.field f.name = Ident.field g.name) : f = g :=
  List.inj_on_of_nodup_map apart.distinct ofF ofG same

theorem mem_of_field? {key : String} {f : Field} (found : d.field? key = some f) :
    f ∈ d.fields ∧ f.name = key :=
  ⟨List.mem_of_find?_eq_some found, by simpa using List.find?_some found⟩

def fieldsChars (fields : List (String × String)) : List Char :=
  fields.flatMap fun p => p.1.toList ++ ':' :: ' ' :: (p.2.toList ++ [',', ' '])

theorem toList_structCode (d : StructDecl) (fields : List (String × String)) :
    (structCode d fields).toList = (Ident.type d.name ++ " \x7b ").toList ++
      (fieldsChars fields ++ '.' :: ".Default::default() \x7d".toList) := by
  simp [structCode, fieldsChars, String.toList_join, List.flatMap_map]

theorem fields_tell (apart : LegibleFields d) {entries : List (String × Literal)}
    (tells : ∀ e ∈ entries, ∀ f ∈ d.fields, Tells (s.render f.ty) (s.meaning? f.ty) e.2)
    {fields fields' : List (String × String)} (sets : ∀ p ∈ fields, ∃ e ∈ entries, s.Places d e p)
    (sets' : ∀ p ∈ fields', ∃ e, s.Places d e p) {rest rest' : List Char}
    (same : fieldsChars fields ++ '.' :: rest = fieldsChars fields' ++ '.' :: rest') :
    fields = fields' ∧ rest = rest' := by
  have other {p : String × String} {e : String × Literal} (places : s.Places d e p)
      (more more' : List Char) : p.1.toList ++ ':' :: more ≠ '.' :: more' := by
    obtain ⟨f, text, found, -, rfl⟩ := places
    intro begins
    cases name : (Ident.field f.name).toList with
    | nil => simp [name] at begins
    | cons c cs =>
      refine (apart.plain f (mem_of_field? found).1 '.' ?_).2 rfl
      simp_all
  induction fields generalizing fields' with
  | nil =>
    cases fields' with
    | nil => exact ⟨rfl, (List.cons.inj same).2⟩
    | cons p' fields' =>
      obtain ⟨e', places'⟩ := sets' p' List.mem_cons_self
      simp only [fieldsChars, List.flatMap_cons, List.append_assoc, List.cons_append] at same
      exact absurd same.symm (other places' _ _)
  | cons p fields ih =>
    rw [List.forall_mem_cons] at sets
    obtain ⟨e, member, places⟩ := sets.1
    cases fields' with
    | nil =>
      simp only [fieldsChars, List.flatMap_cons, List.append_assoc, List.cons_append] at same
      exact absurd same (other places _ _)
    | cons p' fields' =>
      rw [List.forall_mem_cons] at sets'
      obtain ⟨e', places'⟩ := sets'.1
      obtain ⟨f, text, found, written, rfl⟩ := places
      obtain ⟨f', text', found', written', rfl⟩ := places'
      have ofF := (mem_of_field? found).1
      have ofF' := (mem_of_field? found').1
      simp only [fieldsChars, List.flatMap_cons, List.append_assoc, List.cons_append] at same
      obtain ⟨names, behind⟩ := Text.append_cons_inj
        (fun colon => (apart.plain f ofF ':' colon).1 rfl)
        (fun colon => (apart.plain f' ofF' ':' colon).1 rfl) same
      cases apart.eq ofF ofF' (String.toList_injective names)
      obtain ⟨-, texts, more⟩ :=
        (tells e member f ofF).enclosed ⟨')', [], rfl, rfl⟩ written written'
        (List.cons.inj behind).2
      obtain ⟨others, rests⟩ := ih sets.2 sets'.2 (List.cons.inj (List.cons.inj more).2).2
      exact ⟨by rw [texts, others], rests⟩

theorem lastGiven_given {entries : List (String × Literal)} {given : List (String × Meaning)}
    (gives : s.entryMeanings? d entries = some given) (key : String) :
    lastGiven given key =
      (lastGiven entries key).bind fun w => (d.field? key).bind fun f => s.meaning? f.ty w := by
  have last : Option.Rel (fun w m => ∃ f, d.field? key = some f ∧ s.meaning? f.ty w = some m)
      (lastGiven entries key) (lastGiven given (id key)) := by
    refine lastGiven_rel ((entryMeanings?_eq_some_iff.mp gives).imp ?_) fun e _ same => same
    rintro e g ⟨f, found, meaning, name⟩
    exact ⟨name, fun same => ⟨f, same ▸ found, meaning⟩⟩
  rw [id] at last
  generalize lastGiven entries key = w, lastGiven given key = m at last
  cases last with
  | none => rfl
  | some known =>
    obtain ⟨f, found, meaning⟩ := known
    simp [found, meaning]

theorem lastGiven_placed (apart : LegibleFields d) {entries : List (String × Literal)}
    {placed : List (String × String)} (written : List.Forall₂ (s.Places d) entries placed)
    {key : String} {f : Field} (found : d.field? key = some f) :
    Option.Rel (fun w e => ∃ text, s.render f.ty w = .ok text ∧ e = "Some(" ++ text ++ ")")
      (lastGiven entries key) (lastGiven placed (Ident.field key)) := by
  refine lastGiven_rel (written.imp ?_) ?_
  · rintro e p ⟨g, text, declared, rendered, rfl⟩
    refine ⟨by rw [(mem_of_field? declared).2], ?_⟩
    rintro rfl
    cases found.symm.trans declared
    exact ⟨text, rendered, rfl⟩
  · intro e member same
    obtain ⟨ofF, name⟩ := mem_of_field? found
    obtain ⟨p, g, text, declared, -⟩ := exists_forall₂_iff.mp ⟨placed, written⟩ e member
    obtain ⟨ofG, name'⟩ := mem_of_field? declared
    rw [← name, ← name', apart.eq ofG ofF (by rw [name, name', same])]

theorem lastGiven_placed_eq {placed placed' : List (String × String)}
    (same : placeAll [] placed = placeAll [] placed') : lastGiven placed = lastGiven placed' := by
  have placed_iff (placed : List (String × String)) (i e : String) :
      lastGiven placed i = some e ↔ (i, e) ∈ placeAll [] placed := by
    simp [mem_placeAll_iff]
  funext i
  ext e
  rw [placed_iff, placed_iff, same]

/-- The text of a struct tells the value of every field. -/
theorem record_tells (apart : LegibleFields d) {entries entries' : List (String × Literal)}
    (tells : ∀ e ∈ entries, ∀ f ∈ d.fields, Tells (s.render f.ty) (s.meaning? f.ty) e.2)
    {placed placed' : List (String × String)} (written : List.Forall₂ (s.Places d) entries placed)
    (written' : List.Forall₂ (s.Places d) entries' placed') {given given' : List (String × Meaning)}
    (gives : s.entryMeanings? d entries = some given)
    (gives' : s.entryMeanings? d entries' = some given') {rest rest' : List Char}
    (same : (structCode d (placeAll [] placed)).toList ++ rest =
      (structCode d (placeAll [] placed')).toList ++ rest') :
    lastGiven given = lastGiven given' ∧ rest = rest' := by
  have sets {entries : List (String × Literal)} {placed : List (String × String)}
      (written : List.Forall₂ (s.Places d) entries placed) :
      ∀ p ∈ placeAll [] placed, ∃ e ∈ entries, s.Places d e p := by
    intro p member
    exact exists_of_forall₂ written ((mem_of_placeAll member).resolve_left List.not_mem_nil)
  rw [toList_structCode, toList_structCode] at same
  simp only [List.append_assoc, List.cons_append] at same
  obtain ⟨fields, behind⟩ := fields_tell apart tells (sets written)
    (fun p member => (sets written' p member).imp fun e => And.right) (List.append_cancel_left same)
  refine ⟨funext fun key => ?_, List.append_cancel_left behind⟩
  rw [lastGiven_given gives, lastGiven_given gives']
  cases found : d.field? key with
  | none => simp
  | some f =>
    have last := lastGiven_placed apart written found
    have last' := lastGiven_placed apart written' found
    have member (w : Literal) (here : lastGiven entries key = some w) := mem_of_lastGiven here
    rw [lastGiven_placed_eq fields] at last
    generalize lastGiven entries key = w, lastGiven entries' key = w',
      lastGiven placed' (Ident.field key) = text at last last' member
    cases last with
    | none =>
      cases last'
      rfl
    | @some w e expr =>
      cases last' with
      | @some w' _ expr' =>
        obtain ⟨text, written, rfl⟩ := expr
        obtain ⟨text', written', same⟩ := expr'
        exact ((tells _ (member w rfl) f (mem_of_field? found).1).enclosed
          ⟨')', [], rfl, rfl⟩ written written' (congrArg (fun e => e.toList ++ []) same)).1

end Structs

/-! ## Types in which a type occurs -/

/-- The type occurs in another one, where structs are looked through. -/
inductive Occurs (s : Schema) (inner : Ty) : Ty → Prop
  | self : s.Occurs inner inner
  | typedef {name : String} {target : Ty} : s.Occurs inner target →
      s.Occurs inner (.typedef name target)
  | list {item : Ty} : s.Occurs inner item → s.Occurs inner (.list item)
  | set {item : Ty} : s.Occurs inner item → s.Occurs inner (.set item)
  | key {key value : Ty} : s.Occurs inner key → s.Occurs inner (.map key value)
  | value {key value : Ty} : s.Occurs inner value → s.Occurs inner (.map key value)
  | field {ty : Ty} {name : String} {d : StructDecl} {f : Field} :
      ty = .struct name ∨ ty = .exception name → s.struct? name = some d → f ∈ d.fields →
      s.Occurs inner f.ty → s.Occurs inner ty

theorem Occurs.of_resolve {inner ty : Ty} (occurs : s.Occurs inner ty.resolve) :
    s.Occurs inner ty := by
  induction ty with
  | typedef name target ih => exact .typedef (ih occurs)
  | _ => exact occurs

/-! ## Literals -/

theorem itemMeanings?_eq (ty : Ty) (items : List Literal) :
    s.itemMeanings? ty items = (items.map (s.meaning? ty)).mapM id := by
  induction items with
  | nil => rfl
  | cons i rest ih => simp [itemMeanings?, ih]

def pairMeaning (s : Schema) (key value : Ty) (p : Literal × Literal) :
    Option (Meaning × Meaning) := do
  some (← s.meaning? key p.1, ← s.meaning? value p.2)

theorem pairMeanings?_eq (key value : Ty) (pairs : List (Literal × Literal)) :
    s.pairMeanings? key value pairs = (pairs.map (s.pairMeaning key value)).mapM id := by
  induction pairs with
  | nil => rfl
  | cons p rest ih =>
    rw [pairMeanings?, ih, List.map_cons, pairMeaning, List.mapM_cons]
    simp [Option.bind_assoc]

theorem pair_tells {key value : Ty} {p : Literal × Literal}
    (first : Tells (s.render key) (s.meaning? key) p.1)
    (second : Tells (s.render value) (s.meaning? value) p.2) :
    Tells (s.renderPair key value) (s.pairMeaning key value) p := by
  intro p' text text' rest rest' written written' stops stops' same
  obtain ⟨k, w, writtenKey, writtenValue, rfl⟩ := renderPair_ok_iff.mp written
  obtain ⟨k', w', writtenKey', writtenValue', rfl⟩ := renderPair_ok_iff.mp written'
  have same : ("(" ++ k ++ ", ").toList ++ (("" ++ w ++ ")").toList ++ rest) =
      ("(" ++ k' ++ ", ").toList ++ (("" ++ w' ++ ")").toList ++ rest') := by
    simpa using same
  obtain ⟨keys, -, behind⟩ := first.enclosed ⟨',', [' '], rfl, rfl⟩ writtenKey writtenKey' same
  obtain ⟨values, -, rests⟩ := second.enclosed ⟨')', [], rfl, rfl⟩ writtenValue writtenValue' behind
  exact ⟨by rw [pairMeaning, pairMeaning, keys, values], rests⟩

theorem number_tells {ty : Ty} {n n' : Int64} {rest rest' : List Char}
    (stops : Stops Char.isDigit rest) (stops' : Stops Char.isDigit rest')
    (same : (numberCode ty n).toList ++ rest = (numberCode ty n').toList ++ rest') :
    n.toInt = n'.toInt ∧ rest = rest' := by
  have digits (n : Int64) : toString n = toString n.toInt := rfl
  unfold numberCode at same
  split at same
  · simp only [digits, String.toList_append, List.append_assoc] at same
    obtain ⟨number, behind⟩ := Text.integer_append_inj (stops_cons rfl _) (stops_cons rfl _)
      (List.append_cancel_left (List.append_cancel_left same))
    exact ⟨number, (List.cons.inj behind).2⟩
  · exact Text.integer_append_inj stops stops' same

theorem meaning?_of_fits {ty ty' : Ty} {v : Literal} (fits : s.Fits ty v)
    (free : ¬ s.Occurs .double ty) (same : ty'.resolve = ty.resolve) :
    ∃ m, s.meaning? ty' v = some m := by
  induction fits generalizing ty' with
  | typedef _ ih => exact ih (fun occurs => free (.typedef occurs)) same
  | string t => exact ⟨_, meaning?_string same t⟩
  | bool counts =>
    obtain ⟨n, given, -⟩ := Literal.counts_iff.mp counts
    exact ⟨_, meaning?_bool same given⟩
  | @number ty bits v n sized counts _ _ =>
    have plain : ty.resolve = ty := by cases ty <;> first | rfl | cases sized
    obtain ⟨k, given, -⟩ := Literal.counts_iff.mp counts
    exact ⟨_, meaning?_number (by rwa [same, plain]) given⟩
  | whole n => exact absurd .self free
  | double d => exact absurd .self free
  | @list item v items shape _ ih =>
    have each : ∃ ms, s.itemMeanings? item items = some ms := by
      simp only [itemMeanings?_eq_some_iff, exists_forall₂_iff]
      exact fun i member => ih i member (fun occurs => free (.list occurs)) rfl
    obtain ⟨ms, each⟩ := each
    refine ⟨.sequence ms, ?_⟩
    rw [meaning?_sequence (.inl same) (Literal.items?_eq_some_iff.mpr shape), each]
    rfl
  | @set item v items shape _ ih =>
    have each : ∃ ms, s.itemMeanings? item items = some ms := by
      simp only [itemMeanings?_eq_some_iff, exists_forall₂_iff]
      exact fun i member => ih i member (fun occurs => free (.set occurs)) rfl
    obtain ⟨ms, each⟩ := each
    refine ⟨.sequence ms, ?_⟩
    rw [meaning?_sequence (.inr same) (Literal.items?_eq_some_iff.mpr shape), each]
    rfl
  | @map key value pairs _ _ ihk ihv =>
    have each : ∃ ms, s.pairMeanings? key value pairs = some ms := by
      simp only [pairMeanings?_eq_some_iff, exists_forall₂_iff]
      intro p member
      obtain ⟨k, keyMeans⟩ := ihk p member (fun occurs => free (.key occurs)) rfl
      obtain ⟨w, valueMeans⟩ := ihv p member (fun occurs => free (.value occurs)) rfl
      exact ⟨(k, w), keyMeans, valueMeans⟩
    obtain ⟨ms, each⟩ := each
    refine ⟨.table ms, ?_⟩
    rw [meaning?_table same, each]
    rfl
  | @struct ty name d v entries shape found gives declared _ ih =>
    have named : ty'.structName? = some name := by
      rcases shape with rfl | rfl <;> rw [Ty.structName?, same] <;> rfl
    have each : ∃ given, s.entryMeanings? d entries = some given := by
      simp only [entryMeanings?_eq_some_iff, exists_forall₂_iff]
      intro e member
      obtain ⟨f, known⟩ := declared e member
      obtain ⟨m, means⟩ := ih e member f known
        (fun occurs => free (.field shape found (mem_of_field? known).1 occurs)) rfl
      exact ⟨(e.1, m), f, known, means, rfl⟩
    obtain ⟨given, each⟩ := each
    refine ⟨.record (lastGiven given), ?_⟩
    rw [meaning?_record named found gives, each]
    rfl

theorem tells_of_free (apart : ∀ d ∈ s.structs, LegibleFields d) {ty : Ty}
    (free : ¬ s.Occurs .double ty) (v : Literal) : Tells (s.render ty) (s.meaning? ty) v := by
  induction v using Literal.part_induction generalizing ty with
  | step v ih =>
    intro v' text text' rest rest' rendered rendered' stops stops' same
    have items_tell {item : Ty} {items : List Literal}
        (inside : s.Occurs .double item → s.Occurs .double ty) (has : v.items? = some items) :
        ∀ i ∈ items, Tells (s.render item) (s.meaning? item) i := fun i member =>
      ih i (Literal.mem_parts_of_items? has member) fun occurs => free (inside occurs)
    cases form : ty.resolve with
    | void => exact absurd rendered (not_render_void form)
    | typedef name target => exact absurd form (resolve_ne_typedef ty name target)
    | double => exact absurd (.of_resolve (by rw [form]; exact .self)) free
    | string =>
      obtain ⟨t, rfl, rfl⟩ := (render_string_ok_iff form).mp rendered
      obtain ⟨t', rfl, rfl⟩ := (render_string_ok_iff form).mp rendered'
      simp only [String.toList_append, List.append_assoc] at same
      obtain ⟨texts, behind⟩ := Text.quoted_append_inj same
      exact ⟨by rw [texts], List.append_cancel_left behind⟩
    | bool =>
      obtain ⟨n, given, rfl⟩ := (render_bool_ok_iff form).mp rendered
      obtain ⟨n', given', rfl⟩ := (render_bool_ok_iff form).mp rendered'
      rw [meaning?_bool form given, meaning?_bool form given']
      by_cases zero : n = 0 <;> by_cases zero' : n' = 0 <;> simp_all
    | byte | i16 | i32 | i64 | enum name =>
      obtain ⟨n, given, -, -, rfl⟩ := (render_number_ok_iff (by rw [form]; rfl)).mp rendered
      obtain ⟨n', given', -, -, rfl⟩ := (render_number_ok_iff (by rw [form]; rfl)).mp rendered'
      obtain ⟨numbers, rests⟩ := number_tells stops stops' same
      refine ⟨?_, rests⟩
      rw [meaning?_number (by rw [form]; rfl) given, meaning?_number (by rw [form]; rfl) given',
        numbers]
    | list item =>
      obtain ⟨items, texts, has, all, rfl⟩ := (render_list_ok_iff form).mp rendered
      obtain ⟨items', texts', has', all', rfl⟩ := (render_list_ok_iff form).mp rendered'
      obtain ⟨meanings, rests⟩ := list_tells
        (items_tell (fun occurs => .of_resolve (form ▸ .list occurs)) has) all all' same
      refine ⟨?_, rests⟩
      rw [meaning?_sequence (.inl form) has, meaning?_sequence (.inl form) has', itemMeanings?_eq,
        itemMeanings?_eq, meanings]
    | set item =>
      obtain ⟨items, texts, has, all, rfl⟩ := (render_set_ok_iff form).mp rendered
      obtain ⟨items', texts', has', all', rfl⟩ := (render_set_ok_iff form).mp rendered'
      obtain ⟨meanings, rests⟩ := collection_tells Ty.setPath
        (items_tell (fun occurs => .of_resolve (form ▸ .set occurs)) has) all all' same
      refine ⟨?_, rests⟩
      rw [meaning?_sequence (.inr form) has, meaning?_sequence (.inr form) has', itemMeanings?_eq,
        itemMeanings?_eq, meanings]
    | map key value =>
      obtain ⟨pairs, texts, rfl, all, rfl⟩ := (render_map_ok_iff form).mp rendered
      obtain ⟨pairs', texts', rfl, all', rfl⟩ := (render_map_ok_iff form).mp rendered'
      have tells : ∀ p ∈ pairs, Tells (s.renderPair key value) (s.pairMeaning key value) p := by
        intro p member
        have parts : ∀ part ∈ [p.1, p.2], part ∈ (Literal.map pairs).parts := fun part either =>
          List.mem_flatMap.mpr ⟨p, member, either⟩
        exact pair_tells
          (ih p.1 (parts _ (by simp)) fun occurs => free (.of_resolve (form ▸ .key occurs)))
          (ih p.2 (parts _ (by simp)) fun occurs => free (.of_resolve (form ▸ .value occurs)))
      obtain ⟨meanings, rests⟩ := collection_tells Ty.mapPath tells all all' same
      refine ⟨?_, rests⟩
      rw [meaning?_table form, meaning?_table form, pairMeanings?_eq, pairMeanings?_eq, meanings]
    | struct name | exception name =>
      have named : ty.structName? = some name := by rw [Ty.structName?, form]
      obtain ⟨d, entries, placed, found, gives, all, rfl⟩ :=
        (render_struct_ok_iff named).mp rendered
      obtain ⟨d', entries', placed', found', gives', all', rfl⟩ :=
        (render_struct_ok_iff named).mp rendered'
      cases found.symm.trans found'
      have known : d ∈ s.structs := List.mem_reverse.mp (List.mem_of_find?_eq_some found)
      have tells : ∀ e ∈ entries, ∀ f ∈ d.fields, Tells (s.render f.ty) (s.meaning? f.ty) e.2 :=
        fun e member f ofF => ih e.2 (gives.mem_parts member) fun occurs =>
          free (.of_resolve (form ▸ .field (by simp) found ofF occurs))
      obtain ⟨m, means⟩ := meaning?_of_fits (fits_of_render rendered) free rfl
      obtain ⟨m', means'⟩ := meaning?_of_fits (fits_of_render rendered') free rfl
      rw [meaning?_record named found gives] at means ⊢
      rw [meaning?_record named found gives'] at means' ⊢
      obtain ⟨given, each, -⟩ := Option.map_eq_some_iff.mp means
      obtain ⟨given', each', -⟩ := Option.map_eq_some_iff.mp means'
      obtain ⟨values, rests⟩ := record_tells (apart d known) tells all all' each each' same
      exact ⟨by rw [each, each', Option.map_some, Option.map_some, values], rests⟩

/-- Two literals that have one text at a type without doubles stand for one value, if the fields
of every struct are identifiers and differ in program text. How the structs are called does not
matter. -/
theorem render_determines_meaning (s : Schema)
    (identifiers : ∀ d ∈ s.structs, ∀ f ∈ d.fields, Ident.isIdentifier f.name = true)
    (distinct : ∀ d ∈ s.structs, (d.fields.map fun f => Ident.field f.name).Nodup) {ty : Ty}
    (free : ¬ s.Occurs .double ty) {v v' : Literal} {text : String}
    (rendered : s.render ty v = .ok text) (rendered' : s.render ty v' = .ok text) :
    ∃ m, s.meaning? ty v = some m ∧ s.meaning? ty v' = some m := by
  have apart : ∀ d ∈ s.structs, LegibleFields d := fun d known =>
    legibleFields_of_identifiers (identifiers d known) (distinct d known)
  obtain ⟨m, means⟩ := meaning?_of_fits (fits_of_render rendered) free rfl
  obtain ⟨same, -⟩ := tells_of_free apart free v v' text text [] [] rendered rendered'
    (stops_nil _) (stops_nil _) rfl
  exact ⟨m, means, same ▸ means⟩

def notes : Schema where
  name := "notes"
  structs := [{
    name := "Note"
    fields := [
      { id := 1, name := "pageNumber", ty := Ty.typedef "Page" .i16 },
      { id := 2, name := "type", ty := .string },
      { id := 3, name := "replies", ty := .list (.struct "Note") }] }]

theorem notes_free : ¬ notes.Occurs .double (.struct "Note") := by
  have closed : ∀ ty, notes.Occurs .double ty → ty ∉
      [.struct "Note", Ty.typedef "Page" .i16, .i16, .string, .list (.struct "Note")] := by
    intro ty occurs
    induction occurs with
    | self => simp
    | typedef _ ih => simp_all
    | list _ ih => simp_all
    | set | key | value => simp
    | @field ty name d f shape found ofF _ ih =>
      rcases shape with rfl | rfl
      · by_cases note : name = "Note"
        · subst note
          have only : d = notes.structs.head (by simp [notes]) := by
            simpa [notes, struct?, eq_comm] using found
          subst only
          simp only [notes, List.head_cons, List.mem_cons, List.not_mem_nil, or_false] at ofF
          rcases ofF with rfl | rfl | rfl <;> simp at ih
        · simp [note]
      · simp
  intro occurs
  exact closed _ occurs (by simp)

theorem render_determines_meaning_notes :
    let v : Literal :=
      .struct [("pageNumber", .integer 7), ("type", .text "\", ..Default::default() \x7d"),
        ("replies", .set []), ("pageNumber", .bool true)]
    let v' : Literal := .map [(.text "pageNumber", .integer 1),
      (.text "type", .text "\", ..Default::default() \x7d"), (.text "replies", .list [])]
    notes.render (.struct "Note") v = notes.render (.struct "Note") v' ∧
      ∃ m, notes.meaning? (.struct "Note") v = some m ∧
        notes.meaning? (.struct "Note") v' = some m := by
  intro v v'
  let text := "Note \x7b page_number: Some(1), " ++
    "r#type: Some(\"\\\", ..Default::default() \x7d\".to_owned()), " ++
    "replies: Some(Vec::new()), ..Default::default() \x7d"
  have rendered : notes.render (.struct "Note") v = .ok text := by decide +kernel
  have rendered' : notes.render (.struct "Note") v' = .ok text := by decide +kernel
  refine ⟨rendered.trans rendered'.symm, ?_⟩
  exact render_determines_meaning notes (by decide) (by decide) notes_free rendered rendered'

end Schema

end Idl
