/-!
# Numbers as bytes, the most significant byte first
-/

set_option autoImplicit false

namespace Idl.Wire

abbrev Bytes := List UInt8

def bigEndian : Nat → Nat → Bytes
  | 0, _ => []
  | width + 1, n => bigEndian width (n / 256) ++ [UInt8.ofNat n]

def ofBigEndian (bytes : Bytes) : Nat :=
  bytes.foldl (fun n b => n * 256 + b.toNat) 0

@[simp] theorem bigEndian_length (width n : Nat) : (bigEndian width n).length = width := by
  induction width generalizing n with
  | zero => rfl
  | succ width ih => simp [bigEndian, ih]

theorem ofBigEndian_append_singleton (bytes : Bytes) (b : UInt8) :
    ofBigEndian (bytes ++ [b]) = ofBigEndian bytes * 256 + b.toNat := by
  simp [ofBigEndian]

theorem ofBigEndian_bigEndian (width n : Nat) (h : n < Nat.pow 256 width) :
    ofBigEndian (bigEndian width n) = n := by
  induction width generalizing n with
  | zero =>
    rw [Nat.pow] at h
    simp [bigEndian, ofBigEndian]
    omega
  | succ width ih =>
    have hd : n / 256 < Nat.pow 256 width := by
      change n < Nat.pow 256 width * 256 at h
      exact Nat.div_lt_of_lt_mul (by omega)
    rw [bigEndian, ofBigEndian_append_singleton, ih _ hd]
    simp
    omega

end Idl.Wire
