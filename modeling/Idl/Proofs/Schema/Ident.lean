import Idl.Schema.Ident
import Mathlib.Data.List.Nodup

/-!
# Laws of identifiers

Pascal case drops what separates the words of a name, so that the parts of a composed name stand one
after another in it. It never gives a word that takes a raw marker, and only one that takes an
underscore. So names of types are told apart exactly by their Pascal case. Names in snake case can
be words of both sorts, and an escaped word can be the plain spelling of another name, but never a
name without underscores and markers. All that an identifier has beyond the characters of its name
are letters, underscores and the marker.
-/

set_option autoImplicit false

namespace Idl.Ident

open Idl.Text

theorem toNat_ofNat {n : Nat} (small : n < 0xD800) : (Char.ofNat n).toNat = n := by
  have valid : n.isValidChar := .inl small
  rw [Char.ofNat, dif_pos valid]
  rfl

theorem raised_cases (c : Char) :
    'A' ≤ raised c ∧ raised c ≤ 'Z' ∨ ¬ ('a' ≤ c ∧ c ≤ 'z') ∧ raised c = c := by
  by_cases letter : 'a' ≤ c ∧ c ≤ 'z'
  · have low : 97 ≤ c.toNat := letter.1
    have high : c.toNat ≤ 122 := letter.2
    have capital : (raised c).toNat = c.toNat - 32 := by
      rw [raised, if_pos (by simpa using letter), toNat_ofNat (by omega)]
    have bounds : 65 ≤ (raised c).toNat ∧ (raised c).toNat ≤ 90 := by omega
    exact .inl bounds
  · exact .inr ⟨letter, by simp [raised, letter]⟩

theorem lowered_cases (c : Char) :
    'a' ≤ lowered c ∧ lowered c ≤ 'z' ∨ ¬ ('A' ≤ c ∧ c ≤ 'Z') ∧ lowered c = c := by
  by_cases letter : 'A' ≤ c ∧ c ≤ 'Z'
  · have low : 65 ≤ c.toNat := letter.1
    have high : c.toNat ≤ 90 := letter.2
    have small : (lowered c).toNat = c.toNat + 32 := by
      rw [lowered, if_pos (by simpa using letter), toNat_ofNat (by omega)]
    have bounds : 97 ≤ (lowered c).toNat ∧ (lowered c).toNat ≤ 122 := by omega
    exact .inl bounds
  · exact .inr ⟨letter, by simp [lowered, letter]⟩

theorem lowered_of_not_upper {c : Char} (other : isUpper c = false) : lowered c = c := by
  unfold lowered
  by_cases capital : ('A' ≤ c && c ≤ 'Z') = true
  · have high : c ≤ 'Z' := of_decide_eq_true (Bool.and_eq_true_iff.mp capital).2
    have small : c.toNat < 128 := Nat.lt_of_le_of_lt high (by decide)
    rw [isUpper, if_pos small, capital] at other
    cases other
  · rw [if_neg capital]

theorem isUpper_of_isDigit {c : Char} (digit : c.isDigit = true) : isUpper c = false := by
  have high : c ≤ '9' := of_decide_eq_true (Bool.and_eq_true_iff.mp digit).2
  have small : c.toNat < 128 := Nat.lt_of_le_of_lt high (by decide)
  have below : ¬ 'A' ≤ c := fun capital => absurd (Char.le_trans capital high) (by decide)
  rw [isUpper, if_pos small, decide_eq_false below]
  rfl

theorem raised_ne_underscore {c : Char} (plain : c ≠ '_') : raised c ≠ '_' := by
  rcases raised_cases c with ⟨-, capital⟩ | ⟨-, same⟩
  · intro here
    rw [here] at capital
    exact absurd capital (by decide)
  · rwa [same]

theorem not_small_raised (c : Char) : ¬ ('a' ≤ raised c ∧ raised c ≤ 'z') := by
  rcases raised_cases c with ⟨-, capital⟩ | ⟨other, same⟩
  · rintro ⟨small, -⟩
    exact absurd (Char.le_trans small capital) (by decide)
  · rwa [same]

theorem toList_snake (name : String) : (snake name).toList = snakeChars none name.toList := by
  rw [snake, String.toList_ofList]

theorem snakeChars_cases {previous : Option Char} {cs : List Char} {c : Char}
    (member : c ∈ snakeChars previous cs) : c = '_' ∨ ∃ d ∈ cs, c = lowered d := by
  induction cs generalizing previous with
  | nil => cases member
  | cons d cs ih =>
    have letter : c ∈ lowered d :: snakeChars (some d) cs →
        c = '_' ∨ ∃ e ∈ d :: cs, c = lowered e := by
      intro inside
      rcases List.mem_cons.mp inside with here | later
      · exact .inr ⟨d, List.mem_cons_self, here⟩
      · exact (ih later).imp_right fun ⟨e, among, same⟩ => ⟨e, List.mem_cons_of_mem d among, same⟩
    unfold snakeChars at member
    split at member
    · exact (List.mem_cons.mp member).elim .inl letter
    · exact letter member

theorem snakeChars_eq_self {cs : List Char} (plain : ∀ c ∈ cs, isUpper c = false)
    (previous : Option Char) : snakeChars previous cs = cs := by
  induction cs generalizing previous with
  | nil => rfl
  | cons c rest ih =>
    have first : isUpper c = false := plain c List.mem_cons_self
    have later := ih (fun d member => plain d (List.mem_cons_of_mem c member)) (some c)
    rw [snakeChars, first, Bool.false_and, if_neg (by decide), lowered_of_not_upper first, later]

theorem snake_eq_self {name : String} (plain : ∀ c ∈ name.toList, isUpper c = false) :
    snake name = name := by
  rw [snake, snakeChars_eq_self plain none, String.ofList_toList]

theorem pascalChars_append (capital : Bool) (front back : List Char) :
    pascalChars capital (front ++ '_' :: back) =
      pascalChars capital front ++ pascalChars true back := by
  induction front generalizing capital with
  | nil => simp [pascalChars]
  | cons c front ih =>
    by_cases separates : c = '_' ∨ c = '-'
    · simp [pascalChars, separates, ih]
    · simp [pascalChars, separates, ih]

theorem pascal_join (front back : String) :
    pascal (front ++ "_" ++ back) = pascal front ++ pascal back := by
  have parts : (front ++ "_" ++ back).toList = front.toList ++ '_' :: back.toList := by simp
  rw [pascal, parts, pascalChars_append, String.ofList_append]
  rfl

theorem underscore_not_mem_pascalChars (capital : Bool) (cs : List Char) :
    '_' ∉ pascalChars capital cs := by
  induction cs generalizing capital with
  | nil => simp [pascalChars]
  | cons c cs ih =>
    by_cases separates : c = '_' ∨ c = '-'
    · simp [pascalChars, separates, ih]
    · have plain : c ≠ '_' := fun here => separates (.inl here)
      have other := raised_ne_underscore plain
      cases capital <;> simp [pascalChars, separates, ih, plain.symm, other.symm]

theorem underscore_not_mem_pascal (name : String) : '_' ∉ (pascal name).toList := by
  simpa [pascal] using underscore_not_mem_pascalChars true name.toList

theorem pascalChars_head (cs : List Char) (c : Char) (head : (pascalChars true cs).head? = some c) :
    ¬ ('a' ≤ c ∧ c ≤ 'z') := by
  induction cs with
  | nil => cases head
  | cons first cs ih =>
    by_cases separates : first = '_' ∨ first = '-'
    · rw [pascalChars, if_pos separates] at head
      exact ih head
    · rw [pascalChars, if_neg separates] at head
      cases head
      exact not_small_raised first

theorem words_head : ∀ word ∈ unmarkable ++ reserved, word = "Self" ∨ word = "_" ∨
    word.toList.head?.any (fun c => 'a' ≤ c && c ≤ 'z') = true := by
  decide +kernel

theorem pascal_eq_self_of_word {name : String} (word : pascal name ∈ unmarkable ++ reserved) :
    pascal name = "Self" := by
  rcases words_head _ word with self | underscore | begins
  · exact self
  · have absent := underscore_not_mem_pascal name
    rw [underscore] at absent
    exact absurd (by decide) absent
  · rw [pascal, String.toList_ofList, Option.any_eq_true] at begins
    obtain ⟨c, head, small⟩ := begins
    exact absurd (by simpa using small) (pascalChars_head name.toList c head)

theorem type_eq (name : String) :
    type name = if pascal name = "Self" then "Self_" else pascal name := by
  by_cases self : pascal name = "Self"
  · rw [if_pos self, type, self]
    decide
  · have plain : pascal name ∉ unmarkable ++ reserved :=
      fun word => self (pascal_eq_self_of_word word)
    rw [List.mem_append, not_or] at plain
    simp [type, escape, self, plain]

theorem type_eq_type_iff {a b : String} : type a = type b ↔ pascal a = pascal b := by
  have ne_escaped (name : String) : pascal name ≠ "Self_" := by
    intro escaped
    have absent := underscore_not_mem_pascal name
    rw [escaped] at absent
    exact absent (by decide)
  rw [type_eq, type_eq]
  by_cases hereSelf : pascal a = "Self"
  · by_cases thereSelf : pascal b = "Self"
    · simp [hereSelf, thereSelf]
    · simp [hereSelf, thereSelf, (ne_escaped b).symm, Ne.symm thereSelf]
  · by_cases thereSelf : pascal b = "Self"
    · simp [hereSelf, thereSelf, ne_escaped a]
    · simp [hereSelf, thereSelf]

theorem append_ne_append {front front' back back' : String}
    (apart : ¬ (back.toList <:+ back'.toList ∨ back'.toList <:+ back.toList)) :
    front ++ back ≠ front' ++ back' := by
  intro same
  have ends : back.toList <:+ (front ++ back).toList := by simp
  have ends' : back'.toList <:+ (front ++ back).toList := by simp [same]
  exact apart (List.suffix_or_suffix_of_suffix ends ends')

theorem escape_cases (name : String) :
    escape name = name ++ "_" ∨ escape name = "r#" ++ name ∨ escape name = name := by
  unfold escape
  by_cases unmarked : unmarkable.contains name
  · simp only [unmarked, if_true, true_or]
  · by_cases marked : reserved.contains name
    · simp only [unmarked, marked, if_true, true_or, or_true, Bool.false_eq_true, if_false]
    · simp only [unmarked, marked, or_true, Bool.false_eq_true, if_false]

theorem escape_eq_plain_iff {name plain : String} (bare : '_' ∉ plain.toList)
    (unmarked : '#' ∉ plain.toList) :
    escape name = plain ↔ name = plain ∧ escape plain = plain := by
  constructor
  · intro escaped
    rcases escape_cases name with trailing | marker | same
    · rw [← escaped, trailing] at bare
      simp at bare
    · rw [← escaped, marker] at unmarked
      simp at unmarked
    · have plainName : name = plain := same.symm.trans escaped
      exact ⟨plainName, by rwa [plainName] at escaped⟩
  · rintro ⟨rfl, same⟩
    exact same

theorem field_eq_plain_iff {name plain : String} (bare : '_' ∉ plain.toList)
    (unmarked : '#' ∉ plain.toList) (free : escape plain = plain) :
    field name = plain ↔ snake name = plain := by
  rw [field, escape_eq_plain_iff bare unmarked]
  exact and_iff_left free

/-- A character that an identifier can have although the name does not have it. -/
def isOwnChar (c : Char) : Bool :=
  c.isAlphanum || c = '_' || c = '#'

theorem isOwnChar_eq (c : Char) :
    isOwnChar c = (c.isUpper || c.isLower || c.isDigit || c = '_' || c = '#') :=
  rfl

theorem isOwnChar_of_small {c : Char} (small : 'a' ≤ c ∧ c ≤ 'z') : isOwnChar c = true := by
  have lower : c.isLower = true :=
    Bool.and_eq_true_iff.mpr ⟨decide_eq_true small.1, decide_eq_true small.2⟩
  simp [isOwnChar_eq, lower]

theorem isOwnChar_of_capital {c : Char} (capital : 'A' ≤ c ∧ c ≤ 'Z') : isOwnChar c = true := by
  have upper : c.isUpper = true := decide_eq_true capital
  simp [isOwnChar_eq, upper]

theorem isOwnChar_raised (c : Char) : raised c = c ∨ isOwnChar (raised c) = true := by
  rcases raised_cases c with capital | ⟨-, same⟩
  · exact .inr (isOwnChar_of_capital capital)
  · exact .inl same

theorem mem_snakeChars {previous : Option Char} {cs : List Char} {c : Char}
    (member : c ∈ snakeChars previous cs) : c ∈ cs ∨ isOwnChar c = true := by
  rcases snakeChars_cases member with rfl | ⟨d, inside, rfl⟩
  · exact .inr rfl
  · rcases lowered_cases d with small | ⟨-, same⟩
    · exact .inr (isOwnChar_of_small small)
    · exact .inl (by rwa [same])

theorem mem_pascalChars {capital : Bool} {cs : List Char} {c : Char}
    (member : c ∈ pascalChars capital cs) : c ∈ cs ∨ isOwnChar c = true := by
  induction cs generalizing capital with
  | nil => cases member
  | cons d cs ih =>
    unfold pascalChars at member
    split at member
    · exact (ih member).imp_left (List.mem_cons_of_mem d)
    · rcases List.mem_cons.mp member with rfl | member
      · cases capital with
        | false => exact .inl List.mem_cons_self
        | true =>
          rcases isOwnChar_raised d with same | own
          · exact .inl (by simp [same])
          · exact .inr own
      · exact (ih member).imp_left (List.mem_cons_of_mem d)

theorem mem_snake {name : String} {c : Char} (member : c ∈ (snake name).toList) :
    c ∈ name.toList ∨ isOwnChar c = true := by
  rw [toList_snake] at member
  exact mem_snakeChars member

theorem mem_upperSnake {name : String} {c : Char} (member : c ∈ (upperSnake name).toList) :
    c ∈ name.toList ∨ isOwnChar c = true := by
  rw [upperSnake, String.toList_ofList] at member
  obtain ⟨d, inside, rfl⟩ := List.mem_map.mp member
  rcases isOwnChar_raised d with same | own
  · rw [same]
    exact mem_snakeChars inside
  · exact .inr own

theorem mem_escape {name : String} {c : Char} (member : c ∈ (escape name).toList) :
    c ∈ name.toList ∨ isOwnChar c = true := by
  rcases escape_cases name with trailing | marker | same
  · rw [trailing, String.toList_append, List.mem_append] at member
    refine member.imp_right fun last => ?_
    rw [List.mem_singleton.mp last]
    rfl
  · rw [marker, String.toList_append, List.mem_append] at member
    refine member.symm.imp_right fun first => ?_
    have own : "r#".toList.all isOwnChar = true := by decide
    exact List.all_eq_true.mp own c first
  · rw [same] at member
    exact .inl member

theorem mem_field {name : String} {c : Char} (member : c ∈ (field name).toList) :
    c ∈ name.toList ∨ isOwnChar c = true :=
  (mem_escape member).elim mem_snake .inr

theorem mem_type {name : String} {c : Char} (member : c ∈ (type name).toList) :
    c ∈ name.toList ∨ isOwnChar c = true := by
  refine (mem_escape member).elim (fun inside => ?_) .inr
  rw [pascal, String.toList_ofList] at inside
  exact mem_pascalChars inside

theorem mem_constant {name : String} {c : Char} (member : c ∈ (constant name).toList) :
    c ∈ name.toList ∨ isOwnChar c = true := by
  unfold constant at member
  split at member
  · exact mem_escape member
  · exact (mem_escape member).elim mem_upperSnake .inr

/-- ASCII letters, digits and underscores, of which the first one is no digit. -/
def isIdentifier (name : String) : Bool :=
  name.toList.head?.any (!·.isDigit) && name.toList.all fun c => c.isAlphanum || c = '_'

theorem isWord_of_mem {name : String} (identifier : isIdentifier name = true) {c : Char}
    (member : c ∈ name.toList) : (c.isAlphanum || c = '_') = true := by
  rw [isIdentifier, Bool.and_eq_true, List.all_eq_true] at identifier
  exact identifier.2 c member

theorem slash_not_mem_field {name : String} (absent : '/' ∉ name.toList) :
    '/' ∉ (field name).toList := by
  intro member
  rcases mem_field member with inside | own
  · exact absent inside
  · cases own

def Separates (image : String → String) (names : List String) : Prop :=
  ∀ a ∈ names, ∀ b ∈ names, image a = image b → a = b

theorem separates_iff {image : String → String} {names : List String} (distinct : names.Nodup) :
    (names.map image).Nodup ↔ Separates image names :=
  List.nodup_map_iff_inj_on distinct

end Idl.Ident
