import Idl.Text.Quoted
import Mathlib.Data.List.Basic

/-!
# Quoted texts and numbers inside other texts

A quoted text ends at its first quote that is not escaped, and every escape stands for one
character. So whatever follows a quoted text, it can be told where the text ends and what it says. A
number ends where its digits do, which can be told if what follows it is no digit.
-/

set_option autoImplicit false

namespace Idl.Text

theorem toDigits_injective {b : Nat} (base : 1 < b) (small : b ≤ 16) :
    Function.Injective (Nat.toDigits b) := by
  have digit : ∀ m < 16, ∀ n < 16, Nat.digitChar m = Nat.digitChar n → m = n := by decide
  intro m n same
  -- The last digit is the remainder, and the digits before it are those of the quotient.
  induction m using Nat.strongRecOn generalizing n with
  | ind m ih =>
    rw [Nat.toDigits_eq_if (n := m) base, Nat.toDigits_eq_if (n := n) base] at same
    split at same <;> split at same
    case isTrue.isTrue low low' =>
      exact digit m (by omega) n (by omega) (List.cons.inj same).1
    case isTrue.isFalse =>
      have length := congrArg List.length same
      simp at length
    case isFalse.isTrue =>
      have length := congrArg List.length same
      simp at length
    case isFalse.isFalse high high' =>
      obtain ⟨front, last⟩ := List.append_inj' same rfl
      have quotient := ih (m / b) (Nat.div_lt_self (by omega) base) front
      have below := Nat.mod_lt m (show 0 < b by omega)
      have below' := Nat.mod_lt n (show 0 < b by omega)
      have remainder := digit _ (by omega) _ (by omega) (List.cons.inj last).1
      rw [← Nat.div_add_mod m b, ← Nat.div_add_mod n b, quotient, remainder]

/-- What follows does not continue a word of such characters. -/
def Stops (p : Char → Bool) (rest : List Char) : Prop :=
  ∀ c, rest.head? = some c → p c = false

theorem stops_nil (p : Char → Bool) : Stops p [] := by
  intro c first
  cases first

theorem stops_cons {p : Char → Bool} {c : Char} (other : p c = false) (rest : List Char) :
    Stops p (c :: rest) := by
  rintro d ⟨⟩
  exact other

theorem takeWhile_of_stops {p : Char → Bool} {word rest : List Char} (all : ∀ c ∈ word, p c = true)
    (stops : Stops p rest) : (word ++ rest).takeWhile p = word := by
  rw [List.takeWhile_append_of_pos all]
  cases rest with
  | nil => simp
  | cons c rest => rw [List.takeWhile_cons_of_neg (by simp [stops c rfl]), List.append_nil]

theorem words_append_inj {p : Char → Bool} {word word' rest rest' : List Char}
    (all : ∀ c ∈ word, p c = true) (all' : ∀ c ∈ word', p c = true) (stops : Stops p rest)
    (stops' : Stops p rest') (same : word ++ rest = word' ++ rest') :
    word = word' ∧ rest = rest' := by
  have words : word = word' := by
    rw [← takeWhile_of_stops all stops, same, takeWhile_of_stops all' stops']
  rw [words] at same
  exact ⟨words, List.append_cancel_left same⟩

theorem append_cons_inj {mark : Char} {word word' rest rest' : List Char} (absent : mark ∉ word)
    (absent' : mark ∉ word') (same : word ++ mark :: rest = word' ++ mark :: rest') :
    word = word' ∧ rest = rest' := by
  have other {w : List Char} (absent : mark ∉ w) : ∀ c ∈ w, decide (c ≠ mark) = true :=
    fun c member => decide_eq_true (ne_of_mem_of_not_mem member absent)
  have stops (r : List Char) : Stops (fun c => decide (c ≠ mark)) (mark :: r) :=
    stops_cons (by simp) r
  obtain ⟨words, marked⟩ := words_append_inj (other absent) (other absent') (stops rest)
    (stops rest') same
  exact ⟨words, (List.cons.inj marked).2⟩

theorem toList_toString_nat (n : Nat) : (toString n).toList = Nat.toDigits 10 n :=
  String.toList_ofList

theorem isDigit_of_mem_toString {n : Nat} : ∀ c ∈ Nat.toDigits 10 n, c.isDigit = true :=
  fun _ member => Nat.isDigit_of_mem_toDigits (by decide) (by decide) member

theorem natural_append_inj {m n : Nat} {rest rest' : List Char} (stops : Stops Char.isDigit rest)
    (stops' : Stops Char.isDigit rest')
    (same : (toString m).toList ++ rest = (toString n).toList ++ rest') : m = n ∧ rest = rest' := by
  rw [toList_toString_nat, toList_toString_nat] at same
  obtain ⟨digits, rests⟩ :=
    words_append_inj isDigit_of_mem_toString isDigit_of_mem_toString stops stops' same
  exact ⟨toDigits_injective (by decide) (by decide) digits, rests⟩

theorem word_natural_inj {word word' : String} {m n : Nat}
    (plain : word.toList.all (fun c => !c.isDigit) = true)
    (plain' : word'.toList.all (fun c => !c.isDigit) = true)
    (same : word ++ toString m = word' ++ toString n) : word = word' ∧ m = n := by
  have stops (k : Nat) : Stops (fun c => !c.isDigit) (toString k).toList := by
    intro c first
    rw [toList_toString_nat] at first
    simp [isDigit_of_mem_toString c (List.mem_of_mem_head? first)]
  have chars := congrArg String.toList same
  rw [String.toList_append, String.toList_append] at chars
  obtain ⟨words, digits⟩ :=
    words_append_inj (List.all_eq_true.mp plain) (List.all_eq_true.mp plain')
    (stops m) (stops n) chars
  rw [toList_toString_nat, toList_toString_nat] at digits
  exact ⟨String.toList_injective words, toDigits_injective (by decide) (by decide) digits⟩

theorem toList_toString_int (z : Int) :
    (toString z).toList = if z < 0 then '-' :: (toString z.natAbs).toList
      else (toString z.natAbs).toList := by
  cases z with
  | ofNat n => rfl
  | negSucc n =>
    have minus : toString (Int.negSucc n) = "-" ++ toString (n + 1) := rfl
    rw [minus, String.toList_append, if_pos (Int.negSucc_lt_zero n)]
    rfl

theorem minus_not_mem_toString (n : Nat) : '-' ∉ (toString n).toList := by
  intro member
  rw [toList_toString_nat] at member
  cases isDigit_of_mem_toString '-' member

theorem integer_append_inj {y z : Int} {rest rest' : List Char} (stops : Stops Char.isDigit rest)
    (stops' : Stops Char.isDigit rest')
    (same : (toString y).toList ++ rest = (toString z).toList ++ rest') : y = z ∧ rest = rest' := by
  have unsigned (n : Nat) (more more' : List Char) :
      (toString n).toList ++ more ≠ '-' :: more' := by
    intro signed
    have some : (toString n).toList ≠ [] := by
      rw [toList_toString_nat]
      exact Nat.toDigits_ne_nil
    obtain ⟨c, digits, shape⟩ := List.exists_cons_of_ne_nil some
    rw [shape] at signed
    refine minus_not_mem_toString n ?_
    rw [shape, (List.cons.inj signed).1]
    exact List.mem_cons_self
  rw [toList_toString_int, toList_toString_int] at same
  split at same <;> split at same
  case isTrue.isTrue negative negative' =>
    obtain ⟨magnitude, rests⟩ := natural_append_inj stops stops' (List.cons.inj same).2
    exact ⟨by omega, rests⟩
  case isTrue.isFalse => exact absurd same.symm (unsigned _ _ _)
  case isFalse.isTrue => exact absurd same (unsigned _ _ _)
  case isFalse.isFalse =>
    obtain ⟨magnitude, rests⟩ := natural_append_inj stops stops' same
    exact ⟨by omega, rests⟩

theorem mem_toDigits {b n : Nat} (base : 1 < b) {c : Char} (member : c ∈ Nat.toDigits b n) :
    ∃ k < b, c = Nat.digitChar k := by
  induction n using Nat.strongRecOn with
  | ind n ih =>
    rw [Nat.toDigits_eq_if base] at member
    split at member
    case isTrue low => exact ⟨n, low, List.mem_singleton.mp member⟩
    case isFalse high =>
      rcases List.mem_append.mp member with front | last
      · exact ih (n / b) (Nat.div_lt_self (by omega) base) front
      · exact ⟨n % b, Nat.mod_lt n (by omega), List.mem_singleton.mp last⟩

theorem brace_not_mem_hexDigits (n : Nat) : '\x7d' ∉ hexDigits n := by
  intro member
  obtain ⟨k, low, same⟩ := mem_toDigits (by decide) member
  have other : ∀ k < 16, '\x7d' ≠ Nat.digitChar k := by decide
  exact other k low same

def shortEscapes : List (Char × Char) :=
  [('0', '\x00'), ('t', '\t'), ('r', '\r'), ('n', '\n'), ('\\', '\\'), ('"', '"')]

theorem escapeChar_cases (c : Char) : (∃ e, (e, c) ∈ shortEscapes ∧ escapeChar c = ['\\', e]) ∨
    c ≠ '\\' ∧ c ≠ '"' ∧ escapeChar c = [c] ∨
    escapeChar c = '\\' :: 'u' :: '\x7b' :: (hexDigits c.toNat ++ ['\x7d']) := by
  unfold escapeChar
  split_ifs with nul tab feed line short plain
  · exact .inl ⟨'0', by simp [shortEscapes, nul], rfl⟩
  · exact .inl ⟨'t', by simp [shortEscapes, tab], rfl⟩
  · exact .inl ⟨'r', by simp [shortEscapes, feed], rfl⟩
  · exact .inl ⟨'n', by simp [shortEscapes, line], rfl⟩
  · exact .inl ⟨c, by rcases short with rfl | rfl <;> decide, rfl⟩
  · rw [not_or] at short
    exact .inr (.inl ⟨short.1, short.2, rfl⟩)
  · exact .inr (.inr rfl)

theorem shortEscapes_inj : ∀ p ∈ shortEscapes, ∀ q ∈ shortEscapes, p.1 = q.1 → p.2 = q.2 := by
  decide

theorem shortEscapes_ne_u : ∀ p ∈ shortEscapes, p.1 ≠ 'u' := by
  decide

theorem escapeChar_append_inj {c d : Char} {rest rest' : List Char}
    (same : escapeChar c ++ rest = escapeChar d ++ rest') : c = d ∧ rest = rest' := by
  rcases escapeChar_cases c with ⟨e, short, code⟩ | ⟨slash, -, code⟩ | code <;>
    rcases escapeChar_cases d with ⟨e', short', code'⟩ | ⟨slash', -, code'⟩ | code' <;>
    rw [code, code'] at same
  · obtain ⟨letter, rests⟩ := List.cons.inj (List.cons.inj same).2
    exact ⟨shortEscapes_inj _ short _ short' letter, rests⟩
  · exact absurd (List.cons.inj same).1.symm slash'
  · exact absurd (List.cons.inj (List.cons.inj same).2).1 (shortEscapes_ne_u _ short)
  · exact absurd (List.cons.inj same).1 slash
  · exact List.cons.inj same
  · exact absurd (List.cons.inj same).1 slash
  · exact absurd (List.cons.inj (List.cons.inj same).2).1.symm (shortEscapes_ne_u _ short')
  · exact absurd (List.cons.inj same).1.symm slash'
  · simp only [List.cons_append, List.append_assoc, List.cons.injEq, true_and,
      List.nil_append] at same
    obtain ⟨digits, rests⟩ := append_cons_inj (brace_not_mem_hexDigits c.toNat)
      (brace_not_mem_hexDigits d.toNat) same
    exact ⟨Char.toNat_inj.mp (toDigits_injective (by decide) (by decide) digits), rests⟩

theorem escapeChar_ne_quote (c : Char) (rest rest' : List Char) :
    escapeChar c ++ rest ≠ '"' :: rest' := by
  intro same
  rcases escapeChar_cases c with ⟨e, -, code⟩ | ⟨-, quote, code⟩ | code <;> rw [code] at same
  · cases (List.cons.inj same).1
  · exact quote (List.cons.inj same).1
  · cases (List.cons.inj same).1

theorem escaped_append_inj {cs ds : List Char} {rest rest' : List Char}
    (same : cs.flatMap escapeChar ++ '"' :: rest = ds.flatMap escapeChar ++ '"' :: rest') :
    cs = ds ∧ rest = rest' := by
  induction cs generalizing ds with
  | nil =>
    cases ds with
    | nil => exact ⟨rfl, (List.cons.inj same).2⟩
    | cons d ds =>
      rw [List.flatMap_cons, List.append_assoc] at same
      exact absurd same.symm (escapeChar_ne_quote d _ _)
  | cons c cs ih =>
    cases ds with
    | nil =>
      rw [List.flatMap_cons, List.append_assoc] at same
      exact absurd same (escapeChar_ne_quote c _ _)
    | cons d ds =>
      rw [List.flatMap_cons, List.flatMap_cons, List.append_assoc, List.append_assoc] at same
      obtain ⟨first, others⟩ := escapeChar_append_inj same
      obtain ⟨cs_eq, rests⟩ := ih others
      exact ⟨by rw [first, cs_eq], rests⟩

/-- A quoted text can be read back, whatever it says and whatever follows it. -/
theorem quoted_append_inj {t u : String} {rest rest' : List Char}
    (same : (quoted t).toList ++ rest = (quoted u).toList ++ rest') : t = u ∧ rest = rest' := by
  simp only [quoted, quotedChars, String.toList_ofList, List.cons_append, List.append_assoc,
    List.nil_append, List.cons.injEq, true_and] at same
  obtain ⟨chars, rests⟩ := escaped_append_inj same
  exact ⟨String.toList_injective chars, rests⟩

end Idl.Text
