import Idl.Proofs.Order
import Idl.Proofs.Text.Utf8

/-!
# Texts in the order of their bytes

Texts are compared by their code points. The first byte of a character says how many bytes it has,
more for the larger code points, and the bytes after it carry its digits from the highest to the
lowest. So the bytes of the texts compare as the texts do.
-/

set_option autoImplicit false

namespace Idl

theorem orderNats_eq_lt {m n : Nat} : orderNats m n = .lt ↔ m < n := by
  unfold orderNats
  split_ifs <;> simp_all

theorem orderInts_eq_lt {m n : Int} : orderInts m n = .lt ↔ m < n := by
  unfold orderInts
  split_ifs <;> simp_all

namespace Text

theorem byte_cons_lt {m n : Nat} (hm : m < 256) (hn : n < 256) (x y : List UInt8) :
    UInt8.ofNat m :: x < UInt8.ofNat n :: y ↔ m < n ∨ m = n ∧ x < y := by
  rw [List.cons_lt_cons_iff, UInt8.lt_iff_toNat_lt, ← UInt8.toNat_inj, byte_toNat m hm,
    byte_toNat n hn]

theorem encode_append_lt {c d : Char} (h : c.toNat < d.toNat) (x y : List UInt8) :
    String.utf8EncodeChar c ++ x < String.utf8EncodeChar d ++ y := by
  have bound : d.val.toNat < 0x110000 := by
    rcases d.valid with low | high <;> omega
  have twice (v : Nat) : v / 4096 = v / 64 / 64 := by omega
  have thrice (v : Nat) : v / 262144 = v / 64 / 64 / 64 := by omega
  change c.val.toNat < d.val.toNat at h
  unfold String.utf8EncodeChar
  dsimp only
  split_ifs <;>
    simp (disch := omega) only [List.cons_append, List.nil_append, byte_cons_lt, twice, thrice] <;>
    omega

theorem flatMap_encode_lt (cs ds : List Char)
    (h : orderLists (fun c d => orderNats c.toNat d.toNat) cs ds = .lt) :
    cs.flatMap String.utf8EncodeChar < ds.flatMap String.utf8EncodeChar := by
  induction cs generalizing ds with
  | nil =>
    cases ds with
    | nil => cases h
    | cons d ds =>
      have some_byte : (d :: ds).flatMap String.utf8EncodeChar ≠ [] := by simp
      obtain ⟨b, bs, bytes⟩ := List.exists_cons_of_ne_nil some_byte
      rw [List.flatMap_nil, bytes]
      exact List.nil_lt_cons b bs
  | cons c cs ih =>
    cases ds with
    | nil => cases h
    | cons d ds =>
      rw [orderLists, Ordering.then_eq_lt] at h
      rw [List.flatMap_cons, List.flatMap_cons]
      rcases h with first | ⟨first, later⟩
      · exact encode_append_lt (orderNats_eq_lt.mp first) _ _
      · obtain rfl := Char.toNat_inj.mp (TotalOrder.nats.lawful.eq_of_compare first)
        exact List.append_left_lt (ih ds later)

/-- Texts are ordered as their bytes are. -/
theorem orderTexts_eq_lt (s t : String) : orderTexts s t = .lt ↔ utf8 s < utf8 t := by
  have forward {s t : String} (h : orderTexts s t = .lt) : utf8 s < utf8 t :=
    flatMap_encode_lt _ _ h
  refine ⟨forward, fun less => ?_⟩
  cases h : orderTexts s t with
  | lt => rfl
  | eq =>
    obtain rfl : s = t := Std.LawfulEqCmp.eq_of_compare h
    exact absurd less (List.lt_irrefl _)
  | gt => exact absurd less (List.lt_asymm (forward (Std.OrientedCmp.lt_of_gt h)))

end Text

end Idl
