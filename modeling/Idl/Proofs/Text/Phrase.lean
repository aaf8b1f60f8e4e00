import Idl.Proofs.Text.Quoted

/-!
# Texts whose braces match

A phrase is made of characters from some set and of phrases between braces. A text that never closes
a brace before it is opened, and leaves none open, is a phrase; so is what is put together from
phrases, and a phrase in quotes.
-/

set_option autoImplicit false

namespace Idl.Text

/-- Whether every brace that is closed is open, and none is left open in the end. -/
def matching : Nat → List Char → Bool
  | depth, [] => depth = 0
  | depth, c :: cs =>
    if c = '\x7b' then matching (depth + 1) cs
    else if c = '\x7d' then 0 < depth && matching (depth - 1) cs
    else matching depth cs

def isBrace (c : Char) : Bool :=
  c = '\x7b' || c = '\x7d'

theorem matching_filter (depth : Nat) (cs : List Char) :
    matching depth (cs.filter isBrace) = matching depth cs := by
  induction cs generalizing depth with
  | nil => rfl
  | cons c cs ih =>
    by_cases brace : isBrace c = true
    · rw [List.filter_cons_of_pos brace, matching, matching]
      simp only [ih]
    · have other : c ≠ '\x7b' ∧ c ≠ '\x7d' := by simpa [isBrace] using brace
      rw [List.filter_cons_of_neg brace, matching, if_neg other.1, if_neg other.2, ih]

variable {A : Char → Prop}

inductive Phrase (A : Char → Prop) : List Char → Prop
  | nil : Phrase A []
  | char {c : Char} {cs : List Char} : A c → Phrase A cs → Phrase A (c :: cs)
  | braces {inner rest : List Char} : Phrase A inner → Phrase A rest →
      Phrase A ('\x7b' :: inner ++ '\x7d' :: rest)

namespace Phrase

theorem append {cs ds : List Char} (first : Phrase A cs) (second : Phrase A ds) :
    Phrase A (cs ++ ds) := by
  induction first with
  | nil => exact second
  | char allowed _ ih => exact .char allowed ih
  | braces inner _ _ ih =>
    rw [List.append_assoc]
    exact .braces inner ih

theorem of_all {cs : List Char} (all : ∀ c ∈ cs, A c) : Phrase A cs := by
  induction cs with
  | nil => exact .nil
  | cons c cs ih =>
    rw [List.forall_mem_cons] at all
    exact .char all.1 (ih all.2)

theorem flatMap {α : Type} {f : α → List Char} {as : List α} (each : ∀ a ∈ as, Phrase A (f a)) :
    Phrase A (as.flatMap f) := by
  induction as with
  | nil => exact .nil
  | cons a as ih =>
    rw [List.forall_mem_cons] at each
    exact each.1.append (ih each.2)

theorem mem {cs : List Char} (phrase : Phrase A cs) {c : Char} (member : c ∈ cs) :
    A c ∨ c = '\x7b' ∨ c = '\x7d' := by
  induction phrase with
  | nil => cases member
  | char allowed _ ih =>
    rcases List.mem_cons.mp member with rfl | later
    · exact .inl allowed
    · exact ih later
  | braces _ _ ihInner ihRest =>
    simp only [List.cons_append, List.mem_cons, List.mem_append] at member
    rcases member with rfl | inside | rfl | later
    · exact .inr (.inl rfl)
    · exact ihInner inside
    · exact .inr (.inr rfl)
    · exact ihRest later

theorem matching_append (plain : ∀ c, A c → c ≠ '\x7b' ∧ c ≠ '\x7d') {cs : List Char}
    (phrase : Phrase A cs) (depth : Nat) (ds : List Char) :
    matching depth (cs ++ ds) = matching depth ds := by
  induction phrase generalizing depth ds with
  | nil => rfl
  | char allowed _ ih =>
    have other := plain _ allowed
    rw [List.cons_append, matching, if_neg other.1, if_neg other.2, ih]
  | @braces inner rest _ _ ihInner ihRest =>
    rw [List.append_assoc, List.cons_append, matching, if_pos rfl, ihInner,
      List.cons_append, matching, if_neg (by decide), if_pos rfl, ihRest]
    simp

end Phrase

/-- What closes open braces: a phrase before each of the closing ones, and a phrase behind them. -/
inductive Closes (A : Char → Prop) : Nat → List Char → Prop
  | done {cs : List Char} : Phrase A cs → Closes A 0 cs
  | close {depth : Nat} {cs ds : List Char} : Phrase A cs → Closes A depth ds →
      Closes A (depth + 1) (cs ++ '\x7d' :: ds)

theorem Closes.behind {depth : Nat} {cs ds : List Char} (front : Phrase A cs)
    (closes : Closes A depth ds) : Closes A depth (cs ++ ds) := by
  cases closes with
  | done phrase => exact .done (front.append phrase)
  | close phrase rest =>
    rw [← List.append_assoc]
    exact .close (front.append phrase) rest

theorem closes_of_matching {depth : Nat} {cs : List Char}
    (allowed : ∀ c ∈ cs, c ≠ '\x7b' → c ≠ '\x7d' → A c) (matched : matching depth cs = true) :
    Closes A depth cs := by
  induction cs generalizing depth with
  | nil =>
    have closed : depth = 0 := by simpa [matching] using matched
    rw [closed]
    exact .done .nil
  | cons c cs ih =>
    rw [List.forall_mem_cons] at allowed
    unfold matching at matched
    split at matched
    case isTrue opened =>
      subst opened
      cases ih allowed.2 matched with
      | @close _ inner ds phrase rest =>
        have group : Phrase A ('\x7b' :: inner ++ ['\x7d']) := .braces phrase .nil
        simpa using rest.behind group
    case isFalse opened =>
      split at matched
      case isTrue closed =>
        subst closed
        cases depth with
        | zero => cases matched
        | succ depth => exact .close .nil (ih allowed.2 (by simpa using matched))
      case isFalse closed =>
        have single : Phrase A [c] := .char (allowed.1 opened closed) .nil
        exact (ih allowed.2 matched).behind single

class Usual (A : Char → Prop) : Prop where
  mem : ∀ c, c ≠ '\x7b' → c ≠ '\x7d' → c ≠ '\n' → A c

def Worded (A : Char → Prop) (text : String) : Prop :=
  ∀ c ∈ text.toList, A c

def Phrased (A : Char → Prop) (text : String) : Prop :=
  Phrase A text.toList

def orFeed (A : Char → Prop) (c : Char) : Prop :=
  A c ∨ c = '\n'

theorem intercalate_of_append {P : String → Prop} (empty : P "")
    (append : ∀ {a b}, P a → P b → P (a ++ b)) {separator : String} {texts : List String}
    (between : P separator) (each : ∀ t ∈ texts, P t) : P (separator.intercalate texts) := by
  induction texts with
  | nil => exact empty
  | cons t texts ih =>
    rw [List.forall_mem_cons] at each
    cases texts with
    | nil =>
      rw [String.intercalate_singleton]
      exact each.1
    | cons u texts =>
      rw [String.intercalate_cons_cons]
      exact append (append each.1 between) (ih each.2)

namespace Worded

variable {a b : String}

theorem append (first : Worded A a) (second : Worded A b) : Worded A (a ++ b) := by
  intro c member
  rw [String.toList_append, List.mem_append] at member
  exact member.elim (first c) (second c)

theorem orFeed (worded : Worded A a) : Worded (orFeed A) a :=
  fun c member => .inl (worded c member)

theorem phrased (worded : Worded A a) : Phrased A a :=
  .of_all worded

theorem fixedLines [usual : Usual A] {cs : List Char}
    (plain : cs.all (fun c => c ≠ '\x7b' && c ≠ '\x7d') = true) :
    Worded (Text.orFeed A) (String.ofList cs) := by
  intro c member
  rw [String.toList_ofList] at member
  have other : c ≠ '\x7b' ∧ c ≠ '\x7d' := by
    simpa using List.all_eq_true.mp plain c member
  exact (em (c = '\n')).elim .inr fun feed => .inl (usual.mem c other.1 other.2 feed)

theorem fixed [usual : Usual A] {cs : List Char}
    (plain : cs.all (fun c => c ≠ '\x7b' && c ≠ '\x7d' && c ≠ '\n') = true) :
    Worded A (String.ofList cs) := by
  intro c member
  rw [String.toList_ofList] at member
  have other : (c ≠ '\x7b' ∧ c ≠ '\x7d') ∧ c ≠ '\n' := by
    simpa using List.all_eq_true.mp plain c member
  exact usual.mem c other.1.1 other.1.2 other.2

theorem intercalate {separator : String} {texts : List String} (between : Worded A separator)
    (each : ∀ t ∈ texts, Worded A t) : Worded A (separator.intercalate texts) :=
  intercalate_of_append (fun _ member => absurd member List.not_mem_nil) append between each

theorem and [Usual A] {cs : List Char} (first : Worded A a) (second : Worded A b)
    (plain : cs.all (fun c => c ≠ '\x7b' && c ≠ '\x7d' && c ≠ '\n') = true) :
    Worded A (a ++ b ++ String.ofList cs) :=
  (first.append second).append (.fixed plain)

end Worded

namespace Phrased

variable {a b : String}

def isTidy (cs : List Char) : Bool :=
  cs.all (· ≠ '\n') && matching 0 cs

theorem fixed [usual : Usual A] {cs : List Char} (tidy : isTidy cs = true) :
    Phrased A (String.ofList cs) := by
  rw [isTidy, Bool.and_eq_true, List.all_eq_true] at tidy
  have allowed : ∀ c ∈ cs, c ≠ '\x7b' → c ≠ '\x7d' → A c := fun c member opened closed =>
    usual.mem c opened closed (by simpa using tidy.1 c member)
  rw [Phrased, String.toList_ofList]
  cases closes_of_matching allowed tidy.2 with
  | done phrase => exact phrase

theorem append (first : Phrased A a) (second : Phrased A b) : Phrased A (a ++ b) := by
  rw [Phrased, String.toList_append]
  exact Phrase.append first second

theorem mark [Usual A] {cs : List Char} (first : Phrased A a) (tidy : isTidy cs = true) :
    Phrased A (a ++ String.ofList cs) :=
  first.append (.fixed tidy)

theorem and [Usual A] {cs : List Char} (first : Phrased A a) (second : Phrased A b)
    (tidy : isTidy cs = true) : Phrased A (a ++ b ++ String.ofList cs) :=
  (first.append second).mark tidy

theorem join {texts : List String} (each : ∀ t ∈ texts, Phrased A t) :
    Phrased A (String.join texts) := by
  rw [Phrased, String.toList_join]
  exact .flatMap each

theorem intercalate {separator : String} {texts : List String} (between : Phrased A separator)
    (each : ∀ t ∈ texts, Phrased A t) : Phrased A (separator.intercalate texts) :=
  intercalate_of_append .nil append between each

theorem enclosed (phrased : Phrased A a) : Phrased A ("\x7b" ++ a ++ "\x7d") := by
  have group : Phrase A ('\x7b' :: a.toList ++ ['\x7d']) := .braces phrased .nil
  simpa [Phrased] using group

end Phrased

variable [usual : Usual A]

theorem escapeChar_phrase {c : Char} (allowed : orFeed A c) : Phrase A (escapeChar c) := by
  rcases escapeChar_cases c with ⟨e, short, code⟩ | ⟨-, -, code⟩ | code
  · have tame : ∀ p ∈ shortEscapes, p.1 ≠ '\x7b' ∧ p.1 ≠ '\x7d' ∧ p.1 ≠ '\n' := by decide
    obtain ⟨opened, closed, feed⟩ := tame _ short
    rw [code]
    exact .char (usual.mem _ (by decide) (by decide) (by decide))
      (.char (usual.mem _ opened closed feed) .nil)
  · rw [code]
    rcases allowed with allowed | rfl
    · exact .char allowed .nil
    · cases code
  · have digits : Phrase A (hexDigits c.toNat) := by
      refine .of_all fun d member => ?_
      obtain ⟨k, low, rfl⟩ := mem_toDigits (by decide) member
      have tame : ∀ k < 16, Nat.digitChar k ≠ '\x7b' ∧ Nat.digitChar k ≠ '\x7d' ∧
          Nat.digitChar k ≠ '\n' := by decide
      obtain ⟨opened, closed, feed⟩ := tame k low
      exact usual.mem _ opened closed feed
    rw [code]
    exact .char (usual.mem _ (by decide) (by decide) (by decide))
      (.char (usual.mem _ (by decide) (by decide) (by decide)) (.braces digits .nil))

theorem Phrased.quoted {t : String} (phrased : Phrased (orFeed A) t) : Phrased A (quoted t) := by
  have inner {cs : List Char} (phrase : Phrase (orFeed A) cs) :
      Phrase A (cs.flatMap escapeChar) := by
    induction phrase with
    | nil => exact .nil
    | char allowed _ ih => exact (escapeChar_phrase allowed).append ih
    | braces _ _ ihInner ihRest =>
      have opened : escapeChar '\x7b' = ['\x7b'] := by decide
      have closed : escapeChar '\x7d' = ['\x7d'] := by decide
      rw [List.flatMap_append, List.flatMap_cons, List.flatMap_cons, opened, closed]
      exact .braces ihInner ihRest
  have quote : A '"' := usual.mem _ (by decide) (by decide) (by decide)
  rw [Phrased, Text.quoted, String.toList_ofList]
  exact .char quote ((inner phrased).append (.char quote .nil))

theorem Worded.natural (n : Nat) : Worded A (toString n) := by
  intro c member
  rw [toList_toString_nat] at member
  have digit := isDigit_of_mem_toString c member
  refine usual.mem c ?_ ?_ ?_ <;> rintro rfl <;> cases digit

theorem Worded.integer (z : Int) : Worded A (toString z) := by
  intro c member
  rw [toList_toString_int] at member
  split at member
  · rcases List.mem_cons.mp member with rfl | digit
    · exact usual.mem _ (by decide) (by decide) (by decide)
    · exact Worded.natural z.natAbs c digit
  · exact Worded.natural z.natAbs c member

end Idl.Text
