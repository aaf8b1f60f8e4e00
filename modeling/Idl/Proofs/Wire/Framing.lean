import Idl.Proofs.Outcome
import Idl.Proofs.Wire.Skip

/-!
# Reading while the bytes arrive

A decoder that does not run out of bytes has made up its mind: whatever follows later, it returns
the same value or the same fault, and leaves what it left before with the new bytes behind it.
Decoders keep this when they are put together. The loop over the fields of a struct may use more
rounds when there are more bytes, so that two decoders are compared, and not one with itself.

A decoder of this sort that takes some bytes exactly runs out of bytes on every beginning of them.
-/

set_option autoImplicit false

namespace Idl.Wire

variable {α β : Type}

/-- The outcome is that more bytes are needed. -/
def RunsOut : EStateM.Result Fault Bytes α → Prop
  | .ok _ _ => False
  | .error fault _ => fault.category = .unexpectedEof

def followedBy (suffix : Bytes) : EStateM.Result Fault Bytes α → EStateM.Result Fault Bytes α
  | .ok a rest => .ok a (rest ++ suffix)
  | .error fault rest => .error fault (rest ++ suffix)

/-- What `d` makes of some bytes, `e` makes of them with any others behind, unless `d` runs out. -/
def Persists (d e : Decoder α) : Prop :=
  ∀ bytes suffix, ¬ RunsOut (d bytes) → e (bytes ++ suffix) = followedBy suffix (d bytes)

abbrev Stable (d : Decoder α) : Prop :=
  Persists d d

namespace Persists

theorem pure (a : α) : Stable (Pure.pure a : Decoder α) :=
  fun _ _ _ => rfl

theorem throw (fault : Fault) : Stable (throw fault : Decoder α) :=
  fun _ _ _ => rfl

theorem bind {d e : Decoder α} {f g : α → Decoder β} (first : Persists d e)
    (next : ∀ a, Persists (f a) (g a)) : Persists (d >>= f) (e >>= g) := by
  intro bytes suffix enough
  have front := first bytes suffix
  cases h : d bytes with
  | ok a rest =>
    rw [h] at front
    rw [bind_of_ok h] at enough ⊢
    rw [bind_of_ok (front id)]
    exact next a rest suffix enough
  | error fault rest =>
    rw [h] at front
    rw [bind_of_error h] at enough ⊢
    exact bind_of_error (front enough)

theorem map {d e : Decoder α} (first : Persists d e) (f : α → β) :
    Persists (f <$> d) (f <$> e) := by
  rw [map_eq_pure_bind, map_eq_pure_bind]
  exact first.bind fun a => .pure (f a)

theorem ite {d e d' e' : Decoder α} (c : Prop) [Decidable c] (yes : Persists d e)
    (no : Persists d' e') : Persists (if c then d else d') (if c then e else e') := by
  by_cases h : c
  · rwa [if_pos h, if_pos h]
  · rwa [if_neg h, if_neg h]

end Persists

theorem take_stable (n : Nat) : Stable (Decoder.take n) := by
  intro bytes suffix enough
  unfold Decoder.take at *
  dsimp only at *
  by_cases long : n ≤ bytes.length
  · have front : (bytes.take n).length = n := List.length_take_of_le long
    rw [List.take_append_of_le_length long, List.drop_append_of_le_length long, if_pos front,
      if_pos front]
    rfl
  · have short : (bytes.take n).length ≠ n := by
      rw [List.length_take]
      omega
    rw [if_neg short] at enough
    exact absurd rfl enough

theorem word_stable (width : Nat) : Stable (Decoder.word width) :=
  (take_stable width).bind fun _ => .pure _

theorem bool_stable : Stable Decoder.bool :=
  (word_stable 1).bind fun _ => .pure _

theorem byte_stable : Stable Decoder.byte :=
  (word_stable 1).bind fun _ => .pure _

theorem i16_stable : Stable Decoder.i16 :=
  (word_stable 2).bind fun _ => .pure _

theorem i32_stable : Stable Decoder.i32 :=
  (word_stable 4).bind fun _ => .pure _

theorem i64_stable : Stable Decoder.i64 :=
  (word_stable 8).bind fun _ => .pure _

theorem double_stable : Stable Decoder.double :=
  (word_stable 8).bind fun _ => .pure _

theorem kind_stable : Stable Decoder.kind := by
  apply (word_stable 1).bind
  intro tag
  dsimp only
  cases Kind.ofTag? (UInt8.ofNat tag) with
  | some k => exact .pure k
  | none => exact .throw _

theorem size_stable (what : Sized) : Stable (Decoder.size what) := by
  apply i32_stable.bind
  intro n
  exact .ite _ (.throw _) (.pure _)

theorem string_stable : Stable Decoder.string := by
  apply (size_stable .string).bind
  intro n
  apply (take_stable n).bind
  intro bytes
  cases Text.ofUtf8 bytes with
  | ok s => exact .pure s
  | error fault => exact .throw _

theorem field_stable : Stable Decoder.field := by
  apply kind_stable.bind
  intro k
  exact .ite _ (.pure _) (i16_stable.bind fun _ => .pure _)

theorem items_stable (what : Sized) : Stable (Decoder.items what) :=
  kind_stable.bind fun _ => (size_stable what).bind fun _ => .pure _

theorem entries_stable : Stable Decoder.entries :=
  kind_stable.bind fun _ => kind_stable.bind fun _ => (size_stable .map).bind fun _ => .pure _

theorem message_stable : Stable Decoder.message := by
  apply (word_stable 4).bind
  intro word
  dsimp only
  cases MessageKind.ofTag? (UInt8.ofNat word) with
  | none => exact .ite _ ((Persists.throw _).bind fun _ => .throw _) (.throw _)
  | some kind =>
    have named : Stable (do
        let name ← Decoder.string
        return (⟨name, kind, ← Decoder.i32⟩ : MessageHeader)) :=
      string_stable.bind fun _ => i32_stable.bind fun _ => .pure _
    exact .ite _ ((Persists.throw _).bind fun _ => named) named

theorem times_stable {d : Decoder Unit} (stable : Stable d) (n : Nat) :
    Stable (Decoder.times n d) := by
  induction n with
  | zero => exact .pure ()
  | succ n ih => exact stable.bind fun _ => ih

section Fields

variable {step : FieldHeader → α → Decoder α}

def fieldLoop (step : FieldHeader → α → Decoder α) (budget : Nat) (a : α) : Decoder α :=
  fun bytes =>
  (foldFieldsWithin step budget a bytes).result

theorem fieldLoop_succ (step : FieldHeader → α → Decoder α) (budget : Nat) (a : α) :
    fieldLoop step (budget + 1) a = (Decoder.field >>= fun
      | none => pure a
      | some header => step header a >>= fieldLoop step budget) := by
  funext bytes
  rw [fieldLoop, foldFieldsWithin]
  cases first : Decoder.field bytes with
  | error fault rest => exact (bind_of_error first).symm
  | ok header rest =>
    rw [bind_of_ok first]
    cases header with
    | none => rfl
    | some header =>
      dsimp only
      cases value : step header a rest with
      | error fault left => exact (bind_of_error value).symm
      | ok b left =>
        rw [bind_of_ok value]
        rfl

theorem fieldLoop_persists (stable : ∀ header a, Stable (step header a)) (fewer more : Nat)
    (le : fewer ≤ more) (a : α) : Persists (fieldLoop step fewer a) (fieldLoop step more a) := by
  induction fewer generalizing more a with
  | zero =>
    intro bytes suffix enough
    exact absurd rfl enough
  | succ fewer ih =>
    obtain ⟨more, rfl⟩ := Nat.exists_eq_add_of_le' le
    rw [fieldLoop_succ, ← Nat.add_assoc, fieldLoop_succ]
    apply field_stable.bind
    intro header
    cases header with
    | none => exact .pure a
    | some header =>
      apply (stable header a).bind
      intro b
      exact ih (more + fewer) (by omega) b

theorem foldFields_stable (stable : ∀ header a, Stable (step header a)) (a : α) :
    Stable (fun bytes => (foldFields step a bytes).result) := by
  intro bytes suffix enough
  have longer : bytes.length ≤ (bytes ++ suffix).length := by
    rw [List.length_append]
    omega
  exact fieldLoop_persists stable _ _ longer a bytes suffix enough

end Fields

theorem skipWithin_stable (depth : Nat) (kind : Kind) : Stable (skipWithin depth kind) := by
  induction depth generalizing kind with
  | zero => exact .throw .tooDeep
  | succ depth ih =>
    cases kind with
    | stop => exact .throw _
    | void => exact .throw _
    | bool => exact bool_stable.map _
    | byte => exact byte_stable.map _
    | double => exact double_stable.map _
    | i16 => exact i16_stable.map _
    | i32 => exact i32_stable.map _
    | i64 => exact i64_stable.map _
    | string => exact string_stable.map _
    | struct => exact foldFields_stable (fun header _ => ih header.kind) ()
    | list => exact (items_stable .list).bind fun header => times_stable (ih header.1) header.2
    | set => exact (items_stable .set).bind fun header => times_stable (ih header.1) header.2
    | map =>
      apply entries_stable.bind
      intro header
      exact times_stable ((ih header.1).bind fun _ => ih header.2.1) header.2.2

theorem skip_stable (kind : Kind) : Stable (skip kind) :=
  skipWithin_stable maxDepth kind

theorem Persists.reads {d : Decoder α} (stable : Stable d) {bytes : Bytes} {a : α}
    (whole : d bytes = .ok a []) : Reads d bytes a := by
  intro rest
  have settled := stable bytes rest
  rw [whole] at settled
  exact settled id

/-- On every beginning of bytes that it takes in full, a stable decoder asks for more. -/
theorem Persists.runsOut {d : Decoder α} (stable : Stable d) {bytes front : Bytes} {a : α}
    (whole : d bytes = .ok a []) (begins : front <+: bytes) (proper : front ≠ bytes) :
    ∃ fault left, d front = .error fault left ∧ fault.category = .unexpectedEof := by
  obtain ⟨back, rfl⟩ := begins
  have settled := stable front back
  rw [whole] at settled
  cases h : d front with
  | ok b rest =>
    rw [h] at settled
    have left : [] = rest ++ back := congrArg endState (settled id)
    have none : back = [] := (List.append_eq_nil_iff.mp left.symm).2
    rw [none, List.append_nil] at proper
    exact absurd rfl proper
  | error fault rest =>
    rw [h] at settled
    by_cases out : fault.category = .unexpectedEof
    · exact ⟨fault, rest, rfl, out⟩
    · cases settled out

end Idl.Wire
