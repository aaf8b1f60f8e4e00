import Mathlib.Tactic.SplitIfs
import Idl.Text.Utf8

/-!
# Decoding encoded text

Each character is read back from its one to four bytes, so that decoding the bytes of a text
gives the text.
-/

set_option autoImplicit false

namespace Idl.Text

theorem byte_toNat (n : Nat) (h : n < 256) : (UInt8.ofNat n).toNat = n := by
  simp
  omega

theorem byte_continues (n : Nat) (h : n < 64) : isContinuation (UInt8.ofNat (n + 0x80)) = true := by
  simp only [isContinuation, Bool.and_eq_true, decide_eq_true_eq, UInt8.le_iff_toNat_le,
    byte_toNat (n + 0x80) (by omega), UInt8.reduceToNat]
  omega

theorem bitsOf_byte (n base : Nat) (h : n + base < 256) :
    bitsOf (UInt8.ofNat (n + base)) base = n := by
  rw [bitsOf, byte_toNat _ h]
  omega

theorem decode_one (index v : Nat) (rest : List UInt8) (high : v ≤ 0x7F) :
    decodeFrom index (UInt8.ofNat v :: rest) =
      (decodeFrom (index + 1) rest).map (Char.ofNat v :: ·) := by
  have hv : v < 256 := by omega
  rw [decodeFrom.eq_def]
  dsimp only
  rw [if_pos]
  · rw [byte_toNat _ hv]
  · simp only [UInt8.lt_iff_toNat_lt, byte_toNat _ hv, UInt8.reduceToNat]
    omega

theorem decode_two (index v : Nat) (rest : List UInt8) (low : 0x7F < v) (high : v ≤ 0x7FF) :
    decodeFrom index (UInt8.ofNat (v / 64 % 32 + 0xC0) :: UInt8.ofNat (v % 64 + 0x80) :: rest) =
      (decodeFrom (index + 2) rest).map (Char.ofNat v :: ·) := by
  have h₀ : v / 64 % 32 + 0xC0 < 256 := by omega
  have h₁ := byte_continues (v % 64) (by omega)
  have hv : twoByteChar (UInt8.ofNat (v / 64 % 32 + 0xC0)) (UInt8.ofNat (v % 64 + 0x80)) =
      Char.ofNat v := by
    rw [twoByteChar, bitsOf_byte _ _ h₀, bitsOf_byte _ _ (by omega)]
    congr 1
    omega
  rw [decodeFrom, if_neg, if_pos]
  · simp only [h₁, if_true, hv]
  · simp only [Bool.and_eq_true, decide_eq_true_eq, UInt8.le_iff_toNat_le, byte_toNat _ h₀,
      UInt8.reduceToNat]
    omega
  · simp only [UInt8.lt_iff_toNat_lt, byte_toNat _ h₀, UInt8.reduceToNat]
    omega

theorem second_of_three (v : Nat) (low : 0x7FF < v) (high : v ≤ 0xFFFF)
    (hs : v < 0xD800 ∨ 0xDFFF < v) :
    secondOfThree (UInt8.ofNat (v / 4096 % 16 + 0xE0)) (UInt8.ofNat (v / 64 % 64 + 0x80)) =
      true := by
  have h₀ := byte_toNat (v / 4096 % 16 + 0xE0) (by omega)
  have h₁ := byte_toNat (v / 64 % 64 + 0x80) (by omega)
  unfold secondOfThree isContinuation
  split_ifs <;> simp only [← UInt8.toNat_inj, Bool.and_eq_true, decide_eq_true_eq,
    UInt8.le_iff_toNat_le, h₀, h₁, UInt8.reduceToNat] at * <;> omega

theorem decode_three (index v : Nat) (rest : List UInt8) (low : 0x7FF < v) (high : v ≤ 0xFFFF)
    (hs : v < 0xD800 ∨ 0xDFFF < v) :
    decodeFrom index (UInt8.ofNat (v / 4096 % 16 + 0xE0) :: UInt8.ofNat (v / 64 % 64 + 0x80) ::
      UInt8.ofNat (v % 64 + 0x80) :: rest) =
      (decodeFrom (index + 3) rest).map (Char.ofNat v :: ·) := by
  have h₀ : v / 4096 % 16 + 0xE0 < 256 := by omega
  have h₁ := second_of_three v low high hs
  have h₂ := byte_continues (v % 64) (by omega)
  have hv : threeByteChar (UInt8.ofNat (v / 4096 % 16 + 0xE0)) (UInt8.ofNat (v / 64 % 64 + 0x80))
      (UInt8.ofNat (v % 64 + 0x80)) = Char.ofNat v := by
    rw [threeByteChar, bitsOf_byte _ _ h₀, bitsOf_byte _ _ (by omega), bitsOf_byte _ _ (by omega)]
    congr 1
    omega
  rw [decodeFrom, if_neg, if_neg, if_pos]
  · simp only [h₁, h₂, Bool.not_true, Bool.false_eq_true, if_false, if_true, hv]
  all_goals
    simp only [Bool.and_eq_true, decide_eq_true_eq, UInt8.le_iff_toNat_le, UInt8.lt_iff_toNat_lt,
      byte_toNat _ h₀, UInt8.reduceToNat]
    omega

theorem second_of_four (v : Nat) (low : 0xFFFF < v) (high : v < 0x110000) :
    secondOfFour (UInt8.ofNat (v / 262144 % 8 + 0xF0)) (UInt8.ofNat (v / 4096 % 64 + 0x80)) =
      true := by
  have h₀ := byte_toNat (v / 262144 % 8 + 0xF0) (by omega)
  have h₁ := byte_toNat (v / 4096 % 64 + 0x80) (by omega)
  unfold secondOfFour isContinuation
  split_ifs <;> simp only [← UInt8.toNat_inj, Bool.and_eq_true, decide_eq_true_eq,
    UInt8.le_iff_toNat_le, h₀, h₁, UInt8.reduceToNat] at * <;> omega

theorem decode_four (index v : Nat) (rest : List UInt8) (low : 0xFFFF < v) (high : v < 0x110000) :
    decodeFrom index (UInt8.ofNat (v / 262144 % 8 + 0xF0) :: UInt8.ofNat (v / 4096 % 64 + 0x80) ::
      UInt8.ofNat (v / 64 % 64 + 0x80) :: UInt8.ofNat (v % 64 + 0x80) :: rest) =
      (decodeFrom (index + 4) rest).map (Char.ofNat v :: ·) := by
  have h₀ : v / 262144 % 8 + 0xF0 < 256 := by omega
  have h₁ := second_of_four v low high
  have h₂ := byte_continues (v / 64 % 64) (by omega)
  have h₃ := byte_continues (v % 64) (by omega)
  have hv : fourByteChar (UInt8.ofNat (v / 262144 % 8 + 0xF0)) (UInt8.ofNat (v / 4096 % 64 + 0x80))
      (UInt8.ofNat (v / 64 % 64 + 0x80)) (UInt8.ofNat (v % 64 + 0x80)) = Char.ofNat v := by
    rw [fourByteChar, bitsOf_byte _ _ h₀, bitsOf_byte _ _ (by omega), bitsOf_byte _ _ (by omega),
      bitsOf_byte _ _ (by omega)]
    congr 1
    omega
  rw [decodeFrom, if_neg, if_neg, if_neg, if_pos]
  · simp only [h₁, h₂, h₃, Bool.not_true, Bool.false_eq_true, if_false, if_true, hv]
  all_goals
    simp only [Bool.and_eq_true, decide_eq_true_eq, UInt8.le_iff_toNat_le, UInt8.lt_iff_toNat_lt,
      byte_toNat _ h₀, UInt8.reduceToNat]
    omega

theorem decode_char (c : Char) (index : Nat) (rest : List UInt8) :
    ∃ next, decodeFrom index (String.utf8EncodeChar c ++ rest) =
      (decodeFrom next rest).map (c :: ·) := by
  have hc : Char.ofNat c.val.toNat = c := Char.ofNat_toNat c
  have valid : c.val.toNat < 0xD800 ∨ (0xDFFF < c.val.toNat ∧ c.val.toNat < 0x110000) := c.valid
  unfold String.utf8EncodeChar
  dsimp only
  split_ifs with h₁ h₂ h₃
  · exact ⟨index + 1, by simpa [hc] using decode_one index c.val.toNat rest h₁⟩
  · exact ⟨index + 2, by simpa [hc] using decode_two index c.val.toNat rest (by omega) h₂⟩
  · exact ⟨index + 3,
      by simpa [hc] using decode_three index c.val.toNat rest (by omega) h₃ (by omega)⟩
  · exact ⟨index + 4, by simpa [hc] using decode_four index c.val.toNat rest (by omega) (by omega)⟩

theorem decode_chars (cs : List Char) (index : Nat) :
    decodeFrom index (cs.flatMap String.utf8EncodeChar) = .ok cs := by
  induction cs generalizing index with
  | nil => rw [List.flatMap_nil, decodeFrom]
  | cons c cs ih =>
    obtain ⟨next, h⟩ := decode_char c index (cs.flatMap String.utf8EncodeChar)
    rw [List.flatMap_cons, h, ih next]
    rfl

theorem ofUtf8_utf8 (s : String) : ofUtf8 (utf8 s) = .ok s := by
  rw [ofUtf8, utf8, decode_chars]
  exact congrArg Except.ok String.ofList_toList

end Idl.Text
