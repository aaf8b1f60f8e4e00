import Idl.Proofs.Schema.Ident
import Mathlib.Order.Monotone.Basic

/-!
# Snake case

Snake case makes the letters of a name small and parts its words by underscores. Every character of
the name has a place in it, one after another, and what stands between the places are new
underscores, one before each capital with which a word begins. So the underscores of the name are
kept, nothing else is lost, and names that are the same in snake case differ by the case of their
letters and by underscores only.
-/

set_option autoImplicit false

namespace Idl.Ident

open Idl.Text

def isAscii (name : String) : Bool :=
  name.toList.all (·.toNat < 128)

/-- What a name is up to the case of its letters and underscores. -/
def bare (name : String) : List Char :=
  (name.toList.filter (· ≠ '_')).map lowered

/-- Whether a word begins with the character at a place. -/
def begins (cs : List Char) : Nat → Bool
  | 0 => false
  | i + 1 => cs[i + 1]?.any isUpper && cs[i]?.any (startsWord · cs[i + 2]?)

/-- Where the character at a place stands in snake case: next to the one before it, or one further
if a word begins with it. -/
def place (cs : List Char) : Nat → Nat
  | 0 => 0
  | i + 1 => place cs i + if begins cs (i + 1) then 2 else 1

theorem isUpper_lowered {c : Char} (ascii : c.toNat < 128) : isUpper (lowered c) = false := by
  rcases lowered_cases c with ⟨low, high⟩ | ⟨other, same⟩
  · have small : (lowered c).toNat < 128 := Nat.lt_of_le_of_lt high (by decide)
    have above : ¬ lowered c ≤ 'Z' := fun capital => absurd (Char.le_trans low capital) (by decide)
    rw [isUpper, if_pos small, decide_eq_false above, Bool.and_false]
  · rw [same, isUpper, if_pos ascii]
    simpa using other

theorem lowered_eq_underscore_iff {c : Char} : lowered c = '_' ↔ c = '_' := by
  constructor
  · intro here
    rcases lowered_cases c with ⟨small, -⟩ | ⟨-, same⟩
    · rw [here] at small
      exact absurd small (by decide)
    · exact same.symm.trans here
  · rintro rfl
    rfl

theorem isUpper_of_mem_snake {name : String} (ascii : isAscii name = true) {c : Char}
    (member : c ∈ (snake name).toList) : isUpper c = false := by
  rw [toList_snake] at member
  rcases snakeChars_cases member with rfl | ⟨d, inside, rfl⟩
  · rfl
  · have small : d.toNat < 128 := by simpa using List.all_eq_true.mp ascii d inside
    exact isUpper_lowered small

theorem filter_snakeChars (previous : Option Char) (cs : List Char) :
    (snakeChars previous cs).filter (· ≠ '_') = (cs.filter (· ≠ '_')).map lowered := by
  induction cs generalizing previous with
  | nil => rfl
  | cons c cs ih =>
    have letter : (lowered c :: snakeChars (some c) cs).filter (· ≠ '_') =
        ((c :: cs).filter (· ≠ '_')).map lowered := by
      by_cases underscore : c = '_'
      · have kept : lowered c = '_' := lowered_eq_underscore_iff.mpr underscore
        rw [List.filter_cons_of_neg (by simpa using kept), ih,
          List.filter_cons_of_neg (by simpa using underscore)]
      · have kept : lowered c ≠ '_' := fun here => underscore (lowered_eq_underscore_iff.mp here)
        rw [List.filter_cons_of_pos (by simpa using kept), ih,
          List.filter_cons_of_pos (by simpa using underscore), List.map_cons]
    unfold snakeChars
    split
    · rw [List.filter_cons_of_neg (by simp), letter]
    · exact letter

theorem filter_snake (name : String) : (snake name).toList.filter (· ≠ '_') = bare name := by
  rw [toList_snake, filter_snakeChars, bare]

theorem startsWord_iff {p : Char} {next : Option Char} :
    startsWord p next = true ↔ p ≠ '_' ∧
      (isLower p = true ∨ isDigit p = true ∨ ∃ n, next = some n ∧ isLower n = true) := by
  simp [startsWord, or_assoc, Option.any_eq_true]

theorem begins_iff {cs : List Char} {i : Nat} :
    begins cs i = true ↔ ∃ k p c, i = k + 1 ∧ cs[k]? = some p ∧ cs[i]? = some c ∧
      isUpper c = true ∧ p ≠ '_' ∧
      (isLower p = true ∨ isDigit p = true ∨ ∃ n, cs[i + 1]? = some n ∧ isLower n = true) := by
  cases i with
  | zero => simp [begins]
  | succ i =>
    rw [begins, Bool.and_eq_true, Option.any_eq_true, Option.any_eq_true]
    constructor
    · rintro ⟨⟨c, here, capital⟩, p, before, word⟩
      exact ⟨i, p, c, rfl, before, here, capital, startsWord_iff.mp word⟩
    · rintro ⟨k, p, c, same, before, here, capital, word⟩
      cases same
      exact ⟨⟨c, here, capital⟩, p, before, startsWord_iff.mpr word⟩

theorem snakeChars_drop {cs : List Char} {i : Nat} {p c : Char} (before : cs[i]? = some p)
    (here : cs[i + 1]? = some c) :
    snakeChars (some p) (cs.drop (i + 1)) =
      (if begins cs (i + 1) then ['_'] else []) ++
        lowered c :: snakeChars (some c) (cs.drop (i + 2)) := by
  obtain ⟨inside, found⟩ := List.getElem?_eq_some_iff.mp here
  have word : begins cs (i + 1) = (isUpper c && startsWord p cs[i + 2]?) := by
    rw [begins, before, here, Option.any_some, Option.any_some]
  rw [List.drop_eq_getElem_cons inside, found, snakeChars, List.head?_drop, Option.any_some, ← word]
  split
  · rfl
  · rfl

theorem place_strictMono (cs : List Char) : StrictMono (place cs) := by
  apply strictMono_nat_of_lt_succ
  intro i
  rw [place]
  split
  · omega
  · omega

/-- From the place of a character on stands the character itself, made small, and then the snake
case of those after it. -/
theorem drop_place {cs : List Char} {i : Nat} {c : Char} (here : cs[i]? = some c) :
    (snakeChars none cs).drop (place cs i) =
      lowered c :: snakeChars (some c) (cs.drop (i + 1)) := by
  induction i generalizing c with
  | zero =>
    cases cs with
    | nil => cases here
    | cons d cs =>
      cases here
      simp [place, snakeChars]
  | succ i ih =>
    obtain ⟨inside, -⟩ := List.getElem?_eq_some_iff.mp here
    have before : cs[i]? = some cs[i] := List.getElem?_eq_getElem (by omega)
    rw [place, ← List.drop_drop, ih before, snakeChars_drop before here]
    split
    · rfl
    · rfl

theorem getElem?_place {cs : List Char} {i : Nat} {c : Char} (here : cs[i]? = some c) :
    (snakeChars none cs)[place cs i]? = some (lowered c) := by
  rw [← List.head?_drop, drop_place here, List.head?_cons]

theorem getElem?_place_succ {cs : List Char} {i : Nat} {p : Char} (before : cs[i]? = some p) :
    (snakeChars none cs)[place cs i + 1]? =
      if begins cs (i + 1) then some '_' else cs[i + 1]?.map lowered := by
  rw [← List.head?_drop, ← List.drop_drop, drop_place before, List.drop_one, List.tail_cons]
  cases here : cs[i + 1]? with
  | none =>
    have ended : cs.drop (i + 1) = [] := List.drop_eq_nil_of_le (List.getElem?_eq_none_iff.mp here)
    simp [begins, snakeChars, ended, here]
  | some c =>
    rw [snakeChars_drop before here]
    split
    · rfl
    · rfl

theorem place_ne_of_begins {cs : List Char} {i j : Nat} (word : begins cs i = true)
    (next : place cs i = j + 1) (k : Nat) : place cs k ≠ j := by
  have order := place_strictMono cs
  cases i with
  | zero => cases word
  | succ i =>
    rw [place, if_pos word] at next
    rcases Nat.lt_or_ge i k with after | upto
    · have later := order.monotone after
      rw [place, if_pos word] at later
      omega
    · have earlier := order.monotone upto
      omega

theorem underscore_of_begins {cs : List Char} {i j : Nat} (word : begins cs i = true)
    (next : place cs i = j + 1) : (snakeChars none cs)[j]? = some '_' := by
  obtain ⟨k, p, c, rfl, before, -⟩ := begins_iff.mp word
  have skipped : place cs k + 1 = j := by
    rw [place, if_pos word] at next
    omega
  rw [← skipped, getElem?_place_succ before, if_pos word]

theorem place_cases {cs : List Char} {j : Nat} {d : Char}
    (here : (snakeChars none cs)[j]? = some d) :
    (∃ i c, cs[i]? = some c ∧ place cs i = j ∧ d = lowered c) ∨
      d = '_' ∧ ∃ i, begins cs i = true ∧ place cs i = j + 1 := by
  induction j generalizing d with
  | zero =>
    cases cs with
    | nil => cases here
    | cons c cs =>
      have first : (snakeChars none (c :: cs))[place (c :: cs) 0]? = some (lowered c) :=
        getElem?_place rfl
      exact .inl ⟨0, c, rfl, rfl, Option.some.inj (here.symm.trans first)⟩
  | succ j ih =>
    obtain ⟨inside, -⟩ := List.getElem?_eq_some_iff.mp here
    rcases ih (List.getElem?_eq_getElem (by omega)) with ⟨i, p, before, rfl, -⟩ | ⟨-, i, word, next⟩
    · rw [getElem?_place_succ before] at here
      by_cases word : begins cs (i + 1) = true
      · rw [if_pos word] at here
        exact .inr ⟨(Option.some.inj here).symm, i + 1, word, by rw [place, if_pos word]⟩
      · rw [if_neg word] at here
        obtain ⟨c, found, same⟩ := Option.map_eq_some_iff.mp here
        exact .inl ⟨i + 1, c, found, by rw [place, if_neg word], same.symm⟩
    · obtain ⟨-, -, c, -, -, found, -⟩ := begins_iff.mp word
      have standing := getElem?_place found
      rw [next, here] at standing
      exact .inl ⟨i, c, found, next, Option.some.inj standing⟩

theorem getElem?_snake_iff (name : String) (j : Nat) (d : Char) :
    (snake name).toList[j]? = some d ↔
      (∃ i c, name.toList[i]? = some c ∧ place name.toList i = j ∧ d = lowered c) ∨
      d = '_' ∧ (∀ k, place name.toList k ≠ j) ∧
        ∃ i, begins name.toList i = true ∧ place name.toList i = j + 1 := by
  rw [toList_snake]
  constructor
  · intro here
    refine (place_cases here).imp_right ?_
    rintro ⟨underscore, i, word, next⟩
    exact ⟨underscore, place_ne_of_begins word next, i, word, next⟩
  · rintro (⟨i, c, found, rfl, rfl⟩ | ⟨rfl, -, i, word, next⟩)
    · exact getElem?_place found
    · exact underscore_of_begins word next

/-- In snake case an ASCII name has no capitals, and without underscores it is the name in small
letters without its own. Its characters keep their order, the underscores among them, and those that
are new are underscores, each directly before a capital with which a word begins: one that is not
the first character and does not follow an underscore. What is in snake case stays as it is, and
names that are the same in it are the same up to the case of their letters and underscores. -/
theorem snake_respells (name : String) (ascii : isAscii name = true) :
    (∀ c ∈ (snake name).toList, isUpper c = false) ∧
    (snake name).toList.filter (· ≠ '_') = bare name ∧
    StrictMono (place name.toList) ∧
    (∀ i, name.toList[i]? = some '_' → (snake name).toList[place name.toList i]? = some '_') ∧
    (∀ j d, (snake name).toList[j]? = some d ↔
      (∃ i c, name.toList[i]? = some c ∧ place name.toList i = j ∧ d = lowered c) ∨
      d = '_' ∧ (∀ k, place name.toList k ≠ j) ∧
        ∃ i, begins name.toList i = true ∧ place name.toList i = j + 1) ∧
    (∀ i, begins name.toList i = true ↔
      ∃ k p c, i = k + 1 ∧ name.toList[k]? = some p ∧ name.toList[i]? = some c ∧
        isUpper c = true ∧ p ≠ '_' ∧ (isLower p = true ∨ isDigit p = true ∨
          ∃ n, name.toList[i + 1]? = some n ∧ isLower n = true)) ∧
    snake (snake name) = snake name ∧
    ∀ other, snake other = snake name → bare other = bare name := by
  have small : ∀ c ∈ (snake name).toList, isUpper c = false := fun c => isUpper_of_mem_snake ascii
  refine ⟨small, filter_snake name, place_strictMono name.toList, ?_, getElem?_snake_iff name,
    fun i => begins_iff, snake_eq_self small, ?_⟩
  · intro i underscore
    rw [toList_snake, getElem?_place underscore]
    rfl
  · intro other same
    rw [← filter_snake, ← filter_snake, same]

theorem snake_respells_acronym :
    isAscii "getHTTPCode_V2" = true ∧
    "getHTTPCode_V2".toList[11]? = some '_' ∧ (snake "getHTTPCode_V2").toList[13]? = some '_' ∧
    begins "getHTTPCode_V2".toList 7 = true ∧ (snake "getHTTPCode_V2").toList[8]? = some '_' ∧
    snake (snake "getHTTPCode_V2") = snake "getHTTPCode_V2" ∧
    snake "GetHttpCode_v2" = snake "getHTTPCode_V2" ∧
    bare "GetHttpCode_v2" = bare "getHTTPCode_V2" := by
  have ascii : isAscii "getHTTPCode_V2" = true := by decide
  have same : snake "GetHttpCode_v2" = snake "getHTTPCode_V2" := by decide
  obtain ⟨-, -, -, kept, stands, word, again, only⟩ := snake_respells "getHTTPCode_V2" ascii
  have code : begins "getHTTPCode_V2".toList 7 = true :=
    (word 7).mpr ⟨6, 'P', 'C', rfl, rfl, rfl, rfl, by decide, .inr (.inr ⟨'o', rfl, rfl⟩)⟩
  refine ⟨ascii, rfl, kept 11 rfl, code, ?_, again, same, only _ same⟩
  exact (stands 8 '_').mpr (.inr ⟨rfl, place_ne_of_begins code rfl, 7, code, rfl⟩)

example : snake "AÉ" = "aÉ" ∧ snake "aÉ" = "a_É" := by decide

end Idl.Ident
