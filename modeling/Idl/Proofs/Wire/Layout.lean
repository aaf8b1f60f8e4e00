import Idl.Proofs.Wire.Framing

/-!
# Kinds that are laid out alike

Some kinds take the same bytes as others: a bool is one byte, a double is a word of eight, and a set
stands on the wire as a list does. Where a value can be skipped under one of two such kinds it can
be skipped under the other, to the same end. A skip that may go deeper passes over whatever a
shallower one does.
-/

set_option autoImplicit false

namespace Idl.Wire

variable {α β γ δ : Type}

/-- One kind for all that are laid out alike. -/
def Kind.layout : Kind → Kind
  | .bool => .byte
  | .double => .i64
  | .set => .list
  | k => k

/-- Wherever `d` comes to an end, `e` does too, with a value that goes with the one of `d`. -/
def Tracks (related : α → β → Prop) (d : Decoder α) (e : Decoder β) : Prop :=
  ∀ bytes a rest, d bytes = .ok a rest → ∃ b, related a b ∧ e bytes = .ok b rest

abbrev EndsWith (d : Decoder α) (e : Decoder β) : Prop :=
  Tracks (fun _ _ => True) d e

namespace Tracks

variable {related : α → β → Prop} {next : γ → δ → Prop}

theorem refl (d : Decoder α) : Tracks Eq d d :=
  fun _ a _ done => ⟨a, rfl, done⟩

theorem same (d : Decoder α) : EndsWith d d :=
  fun _ a _ done => ⟨a, trivial, done⟩

theorem trans {d : Decoder α} {e : Decoder β} {f : Decoder γ} (first : EndsWith d e)
    (second : EndsWith e f) : EndsWith d f := by
  intro bytes a rest done
  obtain ⟨b, -, he⟩ := first bytes a rest done
  exact second bytes b rest he

theorem pure {a : α} {b : β} (h : related a b) :
    Tracks related (Pure.pure a : Decoder α) (Pure.pure b) := by
  intro bytes a' rest done
  cases done
  exact ⟨b, h, rfl⟩

theorem throw (fault : Fault) (e : Decoder β) : Tracks related (throw fault : Decoder α) e := by
  intro bytes a rest done
  cases done

theorem bind {d : Decoder α} {e : Decoder β} {f : α → Decoder γ} {g : β → Decoder δ}
    (first : Tracks related d e) (second : ∀ a b, related a b → Tracks next (f a) (g b)) :
    Tracks next (d >>= f) (e >>= g) := by
  intro bytes c rest done
  obtain ⟨a, between, hd, hf⟩ := ok_of_bind done
  obtain ⟨b, hab, he⟩ := first bytes a between hd
  obtain ⟨c', hc, hg⟩ := second a b hab between c rest hf
  exact ⟨c', hc, (bind_of_ok he).trans hg⟩

theorem pure_left {d : Decoder α} {e : Decoder β} (h : EndsWith d e) (f : α → γ) :
    EndsWith (d >>= fun a => Pure.pure (f a)) e := by
  intro bytes c rest done
  obtain ⟨a, between, hd, hf⟩ := ok_of_bind done
  cases hf
  exact h bytes a rest hd

theorem pure_right {d : Decoder α} {e : Decoder β} (h : EndsWith d e) (f : β → γ) :
    EndsWith d (e >>= fun b => Pure.pure (f b)) := by
  intro bytes a rest done
  obtain ⟨b, -, he⟩ := h bytes a rest done
  exact ⟨f b, trivial, bind_of_ok he⟩

theorem map {d : Decoder α} {e : Decoder β} {f : α → γ} {g : β → δ} (first : Tracks related d e)
    (second : ∀ a b, related a b → next (f a) (g b)) : Tracks next (f <$> d) (g <$> e) := by
  rw [map_eq_pure_bind, map_eq_pure_bind]
  exact first.bind fun a b h => .pure (second a b h)

theorem times {d e : Decoder Unit} (item : EndsWith d e) (n : Nat) :
    EndsWith (Decoder.times n d) (Decoder.times n e) := by
  induction n with
  | zero => exact .pure trivial
  | succ n ih => exact item.bind fun _ _ _ => ih

theorem foldFields {step : FieldHeader → α → Decoder α} {step' : FieldHeader → β → Decoder β}
    (each : ∀ header a b, related a b → Tracks related (step header a) (step' header b))
    {a : α} {b : β} (start : related a b) :
    Tracks related (fun bytes => (Wire.foldFields step a bytes).result)
      (fun bytes => (Wire.foldFields step' b bytes).result) := by
  have loop (budget : Nat) : ∀ a b, related a b →
      Tracks related (fieldLoop step budget a) (fieldLoop step' budget b) := by
    induction budget with
    | zero =>
      intro a b _ bytes c rest done
      cases done
    | succ budget ih =>
      intro a b h
      rw [fieldLoop_succ, fieldLoop_succ]
      apply (refl Decoder.field).bind
      rintro header _ rfl
      cases header with
      | none => exact .pure h
      | some header => exact (each header a b h).bind ih
  intro bytes
  exact loop bytes.length a b start bytes

end Tracks

theorem size_tracks (what what' : Sized) : Tracks Eq (Decoder.size what) (Decoder.size what') := by
  apply (Tracks.refl Decoder.i32).bind
  rintro n _ rfl
  by_cases negative : n.toInt < 0
  · rw [if_pos negative, if_pos negative]
    exact .throw _ _
  · rw [if_neg negative, if_neg negative]
    exact .pure rfl

theorem items_tracks (what what' : Sized) :
    Tracks Eq (Decoder.items what) (Decoder.items what') := by
  apply (Tracks.refl Decoder.kind).bind
  rintro k _ rfl
  apply (size_tracks what what').bind
  rintro n _ rfl
  exact .pure rfl

theorem word_endsWith (width : Nat) (f : Nat → α) (g : Nat → β) :
    EndsWith (discard (Decoder.word width >>= fun n => pure (f n)))
      (discard (Decoder.word width >>= fun n => pure (g n))) := by
  have words : EndsWith (Decoder.word width >>= fun n => pure (f n))
      (Decoder.word width >>= fun n => pure (g n)) :=
    (Tracks.refl (Decoder.word width)).bind fun _ _ _ => .pure trivial
  exact words.map fun _ _ _ => trivial

theorem sequence_endsWith (what what' : Sized) (item : Kind → Decoder Unit) :
    EndsWith (Decoder.items what >>= fun header => Decoder.times header.2 (item header.1))
      (Decoder.items what' >>= fun header => Decoder.times header.2 (item header.1)) := by
  apply (items_tracks what what').bind
  rintro header _ rfl
  exact Tracks.times (.same _) header.2

theorem skipWithin_layout (depth : Nat) (k : Kind) :
    EndsWith (skipWithin depth k) (skipWithin depth k.layout) ∧
      EndsWith (skipWithin depth k.layout) (skipWithin depth k) := by
  cases depth with
  | zero => exact ⟨.throw _ _, .throw _ _⟩
  | succ depth =>
    cases k with
    | bool => exact ⟨word_endsWith 1 _ _, word_endsWith 1 _ _⟩
    | double => exact ⟨word_endsWith 8 _ _, word_endsWith 8 _ _⟩
    | set => exact ⟨sequence_endsWith _ _ _, sequence_endsWith _ _ _⟩
    | _ => exact ⟨.same _, .same _⟩

/-- A value that is skipped under one kind is skipped under every kind laid out alike. -/
theorem skipWithin_alike {j k : Kind} (alike : j.layout = k.layout) (depth : Nat) :
    EndsWith (skipWithin depth j) (skipWithin depth k) := by
  have down := (skipWithin_layout depth j).1
  rw [alike] at down
  exact down.trans (skipWithin_layout depth k).2

theorem skipWithin_deeper (fewer more : Nat) (le : fewer ≤ more) (k : Kind) :
    EndsWith (skipWithin fewer k) (skipWithin more k) := by
  induction fewer generalizing more k with
  | zero => exact .throw _ _
  | succ fewer ih =>
    obtain ⟨more, rfl⟩ := Nat.exists_eq_add_of_le' le
    have inner := ih (more + fewer) (by omega)
    cases k with
    | struct => exact Tracks.foldFields (fun header _ _ _ => inner header.kind) trivial
    | list =>
      apply (Tracks.refl (Decoder.items .list)).bind
      rintro header _ rfl
      exact (inner header.1).times header.2
    | set =>
      apply (Tracks.refl (Decoder.items .set)).bind
      rintro header _ rfl
      exact (inner header.1).times header.2
    | map =>
      apply (Tracks.refl Decoder.entries).bind
      rintro header _ rfl
      have entry := (inner header.1).bind fun _ _ _ => inner header.2.1
      exact entry.times header.2.2
    | _ => exact .same _

/-- How deep a skip may go has no bearing on where it ends. -/
theorem skipWithin_end {m n : Nat} {k : Kind} {bytes rest rest' : Bytes}
    (first : skipWithin m k bytes = .ok () rest) (second : skipWithin n k bytes = .ok () rest') :
    rest = rest' := by
  obtain ⟨_, -, first⟩ := skipWithin_deeper m (max m n) (Nat.le_max_left m n) k bytes () rest first
  obtain ⟨_, -, second⟩ :=
    skipWithin_deeper n (max m n) (Nat.le_max_right m n) k bytes () rest' second
  rw [first] at second
  cases second
  rfl

end Idl.Wire
