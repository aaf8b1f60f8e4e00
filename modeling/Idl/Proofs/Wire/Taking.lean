import Mathlib.Data.List.Induction
import Idl.Proofs.Text.Recoding
import Idl.Proofs.Wire.Framing
import Idl.Proofs.Wire.Leftovers

/-!
# What a decoder takes

Where a decoder succeeds, the bytes that it took have a form that depends on the value it returns.
This is the other direction of reading back what was written: no bytes but those of the form are
taken for the value. For the header of a message the two directions meet, so that its form is
exactly what is accepted.
-/

set_option autoImplicit false

namespace Idl.Wire

variable {α β : Type}

/-- Wherever the decoder comes to an end, the bytes that it took have the form of its value. -/
def Takes (d : Decoder α) (form : α → Bytes → Prop) : Prop :=
  ∀ bytes a rest, d bytes = .ok a rest → ∃ front, bytes = front ++ rest ∧ form a front

namespace Takes

variable {form : α → Bytes → Prop} {next : β → Bytes → Prop}

theorem pure {a : α} (h : form a []) : Takes (Pure.pure a) form := by
  intro bytes b rest done
  cases done
  exact ⟨[], rfl, h⟩

theorem throw (fault : Fault) : Takes (throw fault : Decoder α) form := by
  intro bytes a rest done
  cases done

theorem throw_bind (fault : Fault) (f : α → Decoder β) :
    Takes (MonadExcept.throw fault >>= f) next := by
  intro bytes b rest done
  cases done

theorem bind {d : Decoder α} {f : α → Decoder β} (first : Takes d form)
    (second : ∀ a front, form a front → Takes (f a) fun b back => next b (front ++ back)) :
    Takes (d >>= f) next := by
  intro bytes b rest done
  obtain ⟨a, between, here, later⟩ := ok_of_bind done
  obtain ⟨front, rfl, hfront⟩ := first bytes a between here
  obtain ⟨back, rfl, hback⟩ := second a front hfront between b rest later
  exact ⟨front ++ back, (List.append_assoc front back rest).symm, hback⟩

theorem bind_pure {d : Decoder α} {f : α → β} (first : Takes d form)
    (made : ∀ a front, form a front → next (f a) front) :
    Takes (d >>= fun a => Pure.pure (f a)) next := by
  apply first.bind
  intro a front h
  apply Takes.pure
  rw [List.append_nil]
  exact made a front h

theorem map {d : Decoder α} {f : α → β} (first : Takes d form)
    (made : ∀ a front, form a front → next (f a) front) : Takes (f <$> d) next := by
  rw [map_eq_pure_bind]
  exact first.bind_pure made

theorem imp {d : Decoder α} {form' : α → Bytes → Prop} (h : Takes d form)
    (weaker : ∀ a front, form a front → form' a front) : Takes d form' := by
  intro bytes a rest done
  obtain ⟨front, split, taken⟩ := h bytes a rest done
  exact ⟨front, split, weaker a front taken⟩

end Takes

theorem ofBigEndian_lt (bytes : Bytes) : ofBigEndian bytes < Nat.pow 256 bytes.length := by
  induction bytes using List.reverseRecOn with
  | nil => decide
  | append_singleton bytes b ih =>
    have := b.toNat_lt
    rw [ofBigEndian_append_singleton, List.length_append]
    change _ < Nat.pow 256 bytes.length * 256
    omega

theorem bigEndian_ofBigEndian (bytes : Bytes) :
    bigEndian bytes.length (ofBigEndian bytes) = bytes := by
  induction bytes using List.reverseRecOn with
  | nil => rfl
  | append_singleton bytes b ih =>
    have low := b.toNat_lt
    have high : (ofBigEndian bytes * 256 + b.toNat) / 256 = ofBigEndian bytes := by omega
    have last : UInt8.ofNat (ofBigEndian bytes * 256 + b.toNat) = b := by
      rw [← UInt8.toNat_inj, UInt8.toNat_ofNat']
      omega
    rw [ofBigEndian_append_singleton, List.length_append]
    change bigEndian bytes.length _ ++ [_] = _
    rw [high, ih, last]

theorem take_takes (n : Nat) :
    Takes (Decoder.take n) fun bytes front => front = bytes ∧ bytes.length = n := by
  intro bytes a rest done
  unfold Decoder.take at done
  dsimp only at done
  split at done
  case isTrue enough =>
    cases done
    exact ⟨bytes.take n, (List.take_append_drop n bytes).symm, rfl, enough⟩
  case isFalse => cases done

theorem word_takes (width : Nat) :
    Takes (Decoder.word width) fun n front => n < Nat.pow 256 width ∧
      front = bigEndian width n := by
  apply (take_takes width).bind_pure
  rintro bytes _ ⟨rfl, rfl⟩
  exact ⟨ofBigEndian_lt _, (bigEndian_ofBigEndian _).symm⟩

theorem tag_takes :
    Takes (Decoder.word 1) fun n front => ∃ b : UInt8, n = b.toNat ∧ front = [b] := by
  apply (word_takes 1).imp
  rintro n _ ⟨small, rfl⟩
  exact ⟨UInt8.ofNat n, (UInt8.toNat_ofNat_of_lt' small).symm, rfl⟩

theorem bool_takes :
    Takes Decoder.bool fun b front => ∃ mark : UInt8, front = [mark] ∧ b = decide (mark ≠ 0) := by
  apply tag_takes.bind_pure
  rintro _ _ ⟨mark, rfl, rfl⟩
  exact ⟨mark, rfl, by simp [← UInt8.toNat_inj]⟩

theorem byte_takes : Takes Decoder.byte fun n front => front = bigEndian 1 n.toUInt8.toNat := by
  apply (word_takes 1).bind_pure
  rintro n _ ⟨small, rfl⟩
  rw [UInt8.toUInt8_toInt8, UInt8.toNat_ofNat_of_lt' small]

theorem i16_takes : Takes Decoder.i16 fun n front => front = bigEndian 2 n.toUInt16.toNat := by
  apply (word_takes 2).bind_pure
  rintro n _ ⟨small, rfl⟩
  rw [UInt16.toUInt16_toInt16, UInt16.toNat_ofNat_of_lt' small]

theorem i32_takes : Takes Decoder.i32 fun n front => front = bigEndian 4 n.toUInt32.toNat := by
  apply (word_takes 4).bind_pure
  rintro n _ ⟨small, rfl⟩
  rw [UInt32.toUInt32_toInt32, UInt32.toNat_ofNat_of_lt' small]

theorem i64_takes : Takes Decoder.i64 fun n front => front = bigEndian 8 n.toUInt64.toNat := by
  apply (word_takes 8).bind_pure
  rintro n _ ⟨small, rfl⟩
  rw [UInt64.toUInt64_toInt64, UInt64.toNat_ofNat_of_lt' small]

theorem double_takes : Takes Decoder.double fun d front => front = bigEndian 8 d.bits.toNat := by
  apply (word_takes 8).bind_pure
  rintro n _ ⟨small, rfl⟩
  rw [UInt64.toNat_ofNat_of_lt' small]

theorem Kind.tag_of_ofTag? {t : UInt8} {k : Kind} (h : ofTag? t = some k) : t = k.tag := by
  unfold ofTag? at h
  split at h <;> cases h <;> exact UInt8.toNat_inj.mp ‹_›

theorem MessageKind.tag_of_ofTag? {t : UInt8} {k : MessageKind} (h : ofTag? t = some k) :
    t = k.tag := by
  unfold ofTag? at h
  split at h <;> cases h <;> exact UInt8.toNat_inj.mp ‹_›

theorem kind_takes : Takes Decoder.kind fun k front => front = [k.tag] := by
  apply tag_takes.bind
  rintro _ _ ⟨t, rfl, rfl⟩
  dsimp only
  rw [UInt8.ofNat_toNat]
  cases found : Kind.ofTag? t with
  | none => exact .throw _
  | some k => exact .pure (by rw [Kind.tag_of_ofTag? found]; rfl)

theorem size_takes (what : Sized) :
    Takes (Decoder.size what) fun n front => n < 0x80000000 ∧ front = bigEndian 4 n := by
  apply i32_takes.bind
  rintro n _ rfl
  by_cases negative : n.toInt < 0
  · rw [if_pos negative]
    exact .throw _
  · have plain : n.toUInt32.toNat = n.toInt.toNat :=
      Int32.toNat_toUInt32_of_le (Int32.le_iff_toInt_le.mpr (by simpa using negative))
    have small := n.toInt_lt
    rw [if_neg negative, plain]
    exact .pure ⟨by omega, by rw [List.append_nil]⟩

theorem string_takes : Takes Decoder.string fun s front =>
    (Text.utf8 s).length < 0x80000000 ∧
      front = bigEndian 4 (Text.utf8 s).length ++ Text.utf8 s := by
  apply (size_takes .string).bind
  rintro n _ ⟨small, rfl⟩
  apply (take_takes n).bind
  rintro _ bytes ⟨rfl, rfl⟩
  cases decoded : Text.ofUtf8 bytes with
  | error fault => exact .throw _
  | ok s =>
    obtain rfl := (Text.ofUtf8_eq_ok_iff bytes s).mp decoded
    exact .pure ⟨small, by rw [List.append_nil]⟩

theorem field_takes : Takes Decoder.field fun header front =>
    match header with
    | none => front = [Kind.stop.tag]
    | some header => header.kind ≠ .stop ∧
        front = header.kind.tag :: bigEndian 2 header.id.toUInt16.toNat := by
  apply kind_takes.bind
  rintro k _ rfl
  by_cases stop : k = .stop
  · rw [if_pos stop, stop]
    exact .pure rfl
  · rw [if_neg stop]
    apply i16_takes.bind_pure
    rintro id _ rfl
    exact ⟨stop, rfl⟩

theorem items_takes (what : Sized) : Takes (Decoder.items what) fun header front =>
    header.2 < 0x80000000 ∧ front = header.1.tag :: bigEndian 4 header.2 := by
  apply kind_takes.bind
  rintro k _ rfl
  apply (size_takes what).bind_pure
  rintro n _ ⟨small, rfl⟩
  exact ⟨small, rfl⟩

theorem entries_takes : Takes Decoder.entries fun header front =>
    header.2.2 < 0x80000000 ∧
      front = header.1.tag :: header.2.1.tag :: bigEndian 4 header.2.2 := by
  apply kind_takes.bind
  rintro k _ rfl
  apply kind_takes.bind
  rintro v _ rfl
  apply (size_takes .map).bind_pure
  rintro n _ ⟨small, rfl⟩
  exact ⟨small, rfl⟩

theorem message_takes : Takes Decoder.message fun header front =>
    (Text.utf8 header.name).length < 0x80000000 ∧ ∃ spare, front = header.encode spare := by
  apply (word_takes 4).bind
  rintro word _ ⟨-, rfl⟩
  by_cases version : word / 0x10000 = 0x8001
  · rw [if_neg (not_not.mpr version), bigEndian_version version]
    dsimp only
    cases found : MessageKind.ofTag? (UInt8.ofNat word) with
    | none => exact .throw _
    | some kind =>
      rw [MessageKind.tag_of_ofTag? found]
      apply string_takes.bind
      rintro name _ ⟨short, rfl⟩
      apply i32_takes.bind_pure
      rintro seqId _ rfl
      refine ⟨short, UInt8.ofNat (word / 256), ?_⟩
      simp only [MessageHeader.encode, List.append_assoc]
  · rw [if_pos version]
    exact .throw_bind _ _

theorem message_run_ok_iff (header : MessageHeader) (written : Bytes) :
    (Operation.message header).run written = (.ok (), written ++ header.encode 0) ↔
      (Text.utf8 header.name).length ≤ 0x7FFFFFFF := by
  constructor
  · intro run
    by_contra long
    obtain ⟨fault, failed⟩ := ((Operation.message header).run_fails_iff written).mpr
      ((Operation.message header).fails_iff.mpr ⟨_, rfl, Nat.lt_of_not_le long⟩)
    rw [run] at failed
    cases failed
  · intro short
    unfold Operation.run Operation.emission
    dsimp only
    rw [emission_message header short]

/-- A header is read from exactly the bytes of its form, and what is left is what follows them.
It is written in this form with zero for the byte that is of no account, if its name is not too
long. -/
theorem message_header_exact (header : MessageHeader) (bytes rest written : Bytes) :
    (Decoder.message bytes = .ok header rest ↔ (Text.utf8 header.name).length ≤ 0x7FFFFFFF ∧
      ∃ spare : UInt8, bytes = header.encode spare ++ rest) ∧
    ((Operation.message header).run written = (.ok (), written ++ header.encode 0) ↔
      (Text.utf8 header.name).length ≤ 0x7FFFFFFF) := by
  refine ⟨⟨?_, ?_⟩, message_run_ok_iff header written⟩
  · intro read
    obtain ⟨front, rfl, short, spare, rfl⟩ := message_takes bytes header rest read
    exact ⟨Nat.le_of_lt_succ short, spare, rfl⟩
  · rintro ⟨short, spare, rfl⟩
    exact message_reads header spare short rest

end Idl.Wire
