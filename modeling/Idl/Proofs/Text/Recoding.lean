import Idl.Proofs.Text.Utf8

/-!
# Encoding what was decoded

Bytes that decode are the bytes of the text that they decode to. So a text has one encoding: bytes
that are longer than needed, or that stand for a surrogate, are refused and not read as something
else.
-/

set_option autoImplicit false

namespace Idl.Text

theorem toNat_ofNat (v : Nat) (valid : v < 0xD800 ∨ (0xDFFF < v ∧ v < 0x110000)) :
    (Char.ofNat v).val.toNat = v := by
  rw [Char.ofNat, dif_pos valid]
  rfl

theorem byte_eq {n : Nat} {b : UInt8} (h : n = b.toNat) : UInt8.ofNat n = b := by
  rw [h, UInt8.ofNat_toNat]

theorem continuation_bounds {b : UInt8} (h : isContinuation b = true) :
    0x80 ≤ b.toNat ∧ b.toNat ≤ 0xBF := by
  simpa [isContinuation, UInt8.le_iff_toNat_le] using h

theorem encode_one (b : UInt8) (h : b < 0x80) :
    String.utf8EncodeChar (Char.ofNat b.toNat) = [b] := by
  have low : b.toNat < 0x80 := UInt8.lt_iff_toNat_lt.mp h
  unfold String.utf8EncodeChar
  rw [toNat_ofNat _ (.inl (by omega)), if_pos (by omega)]
  exact congrArg (· :: []) (byte_eq rfl)

theorem encode_two (b₀ b₁ : UInt8) (h₀ : (decide (0xC2 ≤ b₀) && decide (b₀ ≤ 0xDF)) = true)
    (h₁ : isContinuation b₁ = true) :
    String.utf8EncodeChar (twoByteChar b₀ b₁) = [b₀, b₁] := by
  have first : 0xC2 ≤ b₀.toNat ∧ b₀.toNat ≤ 0xDF := by
    simpa [UInt8.le_iff_toNat_le] using h₀
  have second := continuation_bounds h₁
  unfold String.utf8EncodeChar
  rw [twoByteChar, toNat_ofNat _ (.inl (by unfold bitsOf; omega))]
  unfold bitsOf
  rw [if_neg (by omega), if_pos (by omega), byte_eq (b := b₀) (by omega),
    byte_eq (b := b₁) (by omega)]

theorem second_of_three_bounds {b₀ b₁ : UInt8} (h : secondOfThree b₀ b₁ = true) :
    0x80 ≤ b₁.toNat ∧ b₁.toNat ≤ 0xBF ∧ (b₀.toNat = 0xE0 → 0xA0 ≤ b₁.toNat) ∧
      (b₀.toNat = 0xED → b₁.toNat ≤ 0x9F) := by
  unfold secondOfThree isContinuation at h
  split_ifs at h <;> simp only [← UInt8.toNat_inj, Bool.and_eq_true, decide_eq_true_eq,
    UInt8.le_iff_toNat_le, UInt8.reduceToNat] at * <;> omega

theorem second_of_four_bounds {b₀ b₁ : UInt8} (h : secondOfFour b₀ b₁ = true) :
    0x80 ≤ b₁.toNat ∧ b₁.toNat ≤ 0xBF ∧ (b₀.toNat = 0xF0 → 0x90 ≤ b₁.toNat) ∧
      (b₀.toNat = 0xF4 → b₁.toNat ≤ 0x8F) := by
  unfold secondOfFour isContinuation at h
  split_ifs at h <;> simp only [← UInt8.toNat_inj, Bool.and_eq_true, decide_eq_true_eq,
    UInt8.le_iff_toNat_le, UInt8.reduceToNat] at * <;> omega

theorem encode_three (b₀ b₁ b₂ : UInt8) (h₀ : (decide (0xE0 ≤ b₀) && decide (b₀ ≤ 0xEF)) = true)
    (h₁ : secondOfThree b₀ b₁ = true) (h₂ : isContinuation b₂ = true) :
    String.utf8EncodeChar (threeByteChar b₀ b₁ b₂) = [b₀, b₁, b₂] := by
  have first : 0xE0 ≤ b₀.toNat ∧ b₀.toNat ≤ 0xEF := by
    simpa [UInt8.le_iff_toNat_le] using h₀
  have second := second_of_three_bounds h₁
  have third := continuation_bounds h₂
  unfold String.utf8EncodeChar
  rw [threeByteChar, toNat_ofNat _ (by unfold bitsOf; omega)]
  unfold bitsOf
  rw [if_neg (by omega), if_neg (by omega), if_pos (by omega), byte_eq (b := b₀) (by omega),
    byte_eq (b := b₁) (by omega), byte_eq (b := b₂) (by omega)]

theorem encode_four (b₀ b₁ b₂ b₃ : UInt8)
    (h₀ : (decide (0xF0 ≤ b₀) && decide (b₀ ≤ 0xF4)) = true)
    (h₁ : secondOfFour b₀ b₁ = true) (h₂ : isContinuation b₂ = true)
    (h₃ : isContinuation b₃ = true) :
    String.utf8EncodeChar (fourByteChar b₀ b₁ b₂ b₃) = [b₀, b₁, b₂, b₃] := by
  have first : 0xF0 ≤ b₀.toNat ∧ b₀.toNat ≤ 0xF4 := by
    simpa [UInt8.le_iff_toNat_le] using h₀
  have second := second_of_four_bounds h₁
  have third := continuation_bounds h₂
  have fourth := continuation_bounds h₃
  unfold String.utf8EncodeChar
  rw [fourByteChar, toNat_ofNat _ (by unfold bitsOf; omega)]
  unfold bitsOf
  rw [if_neg (by omega), if_neg (by omega), if_neg (by omega), byte_eq (b := b₀) (by omega),
    byte_eq (b := b₁) (by omega), byte_eq (b := b₂) (by omega), byte_eq (b := b₃) (by omega)]

theorem decoded_cons {tail : Except Utf8Fault (List Char)} {c : Char} {cs : List Char}
    (h : tail.map (c :: ·) = .ok cs) : ∃ rest, tail = .ok rest ∧ cs = c :: rest := by
  cases tail with
  | error fault => cases h
  | ok rest =>
    cases h
    exact ⟨rest, rfl, rfl⟩

theorem encode_decoded (index : Nat) (bytes : List UInt8) (cs : List Char)
    (h : decodeFrom index bytes = .ok cs) : cs.flatMap String.utf8EncodeChar = bytes := by
  fun_induction decodeFrom index bytes generalizing cs with
  | case1 index =>
    cases h
    rfl
  | case2 index b₀ r₀ h₀ ih =>
    obtain ⟨rest, tail, rfl⟩ := decoded_cons h
    rw [List.flatMap_cons, encode_one b₀ h₀, ih rest tail]
    rfl
  | case4 index b₀ _ h₀ b₁ r₁ h₁ ih =>
    obtain ⟨rest, tail, rfl⟩ := decoded_cons h
    rw [List.flatMap_cons, encode_two b₀ b₁ h₀ h₁, ih rest tail]
    rfl
  | case9 index b₀ _ _ h₀ b₁ b₂ r₂ h₁ h₂ ih =>
    obtain ⟨rest, tail, rfl⟩ := decoded_cons h
    rw [List.flatMap_cons, encode_three b₀ b₁ b₂ h₀ (by simpa using h₁) h₂, ih rest tail]
    rfl
  | case17 index b₀ _ _ _ h₀ b₁ b₂ b₃ r₃ h₁ h₂ h₃ ih =>
    obtain ⟨rest, tail, rfl⟩ := decoded_cons h
    rw [List.flatMap_cons, encode_four b₀ b₁ b₂ b₃ h₀ (by simpa using h₁) (by simpa using h₂) h₃,
      ih rest tail]
    rfl
  | _ => cases h

/-- Bytes decode to a text only if they are its encoding. -/
theorem ofUtf8_eq_ok_iff (bytes : List UInt8) (s : String) :
    ofUtf8 bytes = .ok s ↔ bytes = utf8 s := by
  constructor
  · intro h
    unfold ofUtf8 at h
    cases decoded : decodeFrom 0 bytes with
    | error fault =>
      rw [decoded] at h
      cases h
    | ok cs =>
      rw [decoded] at h
      cases h
      rw [utf8, String.toList_ofList, encode_decoded 0 bytes cs decoded]
  · rintro rfl
    exact ofUtf8_utf8 s

end Idl.Text
