import Idl.Proofs.Wire.Layout
import Idl.Tutorial.Shapes
import Idl.Value.Codec

/-!
# Where values end

A record can be read by its fields, and it can be skipped by the kinds on the wire. Both walk over
the same bytes, but a container is read by the shape that is declared for its items, and skipped by
the kind that it announces for them. If a container with something in it announces a kind that is
laid out otherwise than the declared one, the two walks part there and can end at different bytes.
Where every announcement on the way is laid out as declared, they end at the same byte.
-/

set_option autoImplicit false

namespace Idl

open Wire

/-- The kind that a container announces for what is in it, beside the one that is declared. -/
structure Announcement where
  declared : Kind
  announced : Kind
  deriving DecidableEq

/-- What is announced takes the same bytes as what is declared. -/
def Announcement.Fits (a : Announcement) : Prop :=
  a.announced.layout = a.declared.layout

instance (a : Announcement) : Decidable a.Fits :=
  inferInstanceAs (Decidable (_ = _))

def noting (as : List Announcement) (d : Decoder (List Announcement)) :
    Decoder (List Announcement) := do
  return as ++ (← d)

def announcedIn (item : Decoder (List Announcement)) : Nat → Decoder (List Announcement)
  | 0 => return []
  | n + 1 => do
    let first ← item
    noting first (announcedIn item n)

/-- What a container announces, and all that is announced in it. An empty one holds nothing that its
announcements could be about. -/
def announcedBy (as : List Announcement) (item : Decoder (List Announcement)) :
    Nat → Decoder (List Announcement)
  | 0 => return []
  | n + 1 => noting as (announcedIn item (n + 1))

mutual

/-- What the containers announce that are met while a value is read. -/
def Shape.announced : Shape → Decoder (List Announcement)
  | .bool => do let _ ← Decoder.bool; return []
  | .byte => do let _ ← Decoder.byte; return []
  | .i16 => do let _ ← Decoder.i16; return []
  | .i32 => do let _ ← Decoder.i32; return []
  | .i64 => do let _ ← Decoder.i64; return []
  | .double => do let _ ← Decoder.double; return []
  | .string => do let _ ← Decoder.string; return []
  | .enum _ _ => do let _ ← Decoder.i32; return []
  | .list item => do
    let header ← Decoder.items .list
    announcedBy [⟨item.kind, header.1⟩] item.announced header.2
  | .set item => do
    let header ← Decoder.items .set
    announcedBy [⟨item.kind, header.1⟩] item.announced header.2
  | .map key value => do
    let header ← Decoder.entries
    announcedBy [⟨key.kind, header.1⟩, ⟨value.kind, header.2.1⟩]
      (do noting (← key.announced) value.announced) header.2.2
  | .record _ fields => fun bytes => (foldFields fields.collect [] bytes).result

def Fields.collect : Fields → FieldHeader → List Announcement → Decoder (List Announcement)
  | .nil, header, done => do
    skip header.kind
    return done
  | .cons field shape rest, header, done =>
    if header = ⟨shape.kind, field.id⟩ then noting done shape.announced
    else rest.collect header done

end

def Fields.announcements (fs : Fields) (bytes : Bytes) : List Announcement :=
  (foldFields fs.collect [] bytes).value

section Tracking

variable {α β : Type} {d : Decoder α} {item : Decoder (List Announcement)}

theorem noting_tracks (h : EndsWith d item) (as : List Announcement) :
    EndsWith d (noting as item) :=
  h.pure_right (as ++ ·)

theorem announcedIn_tracks (h : EndsWith d item) (add : β → α → β) (n : Nat) (done : β) :
    EndsWith (readItems d add n done) (announcedIn item n) := by
  induction n generalizing done with
  | zero => exact .pure trivial
  | succ n ih => exact h.bind fun a first _ => noting_tracks (ih (add done a)) first

theorem announcedBy_tracks (h : EndsWith d item) (add : β → α → β) (n : Nat) (done : β)
    (as : List Announcement) : EndsWith (readItems d add n done) (announcedBy as item n) := by
  cases n with
  | zero => exact .pure trivial
  | succ n => exact noting_tracks (announcedIn_tracks h add (n + 1) done) as

end Tracking

mutual

/-- Where a value can be read, its announcements are met on the way to the same end. -/
theorem Shape.announced_tracks : (s : Shape) → EndsWith s.read s.announced
  | .bool => (Tracks.same Decoder.bool).pure_right _
  | .byte => (Tracks.same Decoder.byte).pure_right _
  | .i16 => (Tracks.same Decoder.i16).pure_right _
  | .i32 => (Tracks.same Decoder.i32).pure_right _
  | .i64 => (Tracks.same Decoder.i64).pure_right _
  | .double => (Tracks.same Decoder.double).pure_right _
  | .string => (Tracks.same Decoder.string).pure_right _
  | .enum _ _ => (Tracks.same Decoder.i32).pure_right _
  | .list item => by
    apply (Tracks.refl (Decoder.items .list)).bind
    rintro ⟨k, n⟩ _ rfl
    exact (announcedBy_tracks item.announced_tracks _ n [] _).pure_left _
  | .set item => by
    apply (Tracks.refl (Decoder.items .set)).bind
    rintro ⟨k, n⟩ _ rfl
    exact announcedBy_tracks item.announced_tracks _ n [] _
  | .map key value => by
    apply (Tracks.refl Decoder.entries).bind
    rintro ⟨k, v, n⟩ _ rfl
    have entry : EndsWith (readPair key.read value.read)
        (do noting (← key.announced) value.announced) :=
      key.announced_tracks.bind fun _ first _ =>
        noting_tracks (value.announced_tracks.pure_left _) first
    exact announcedBy_tracks entry _ n [] _
  | .record _ fields =>
    Tracks.foldFields (fun header record done _ => fields.collect_tracks header record done) trivial

theorem Fields.collect_tracks : (fs : Fields) → (header : FieldHeader) → (record : fs.Val) →
    (done : List Announcement) → EndsWith (fs.readField header record) (fs.collect header done)
  | .nil, header, record, done =>
    ((Tracks.same (skip header.kind)).pure_left fun _ => record).pure_right fun _ => done
  | .cons field shape rest, header, (a, others), done => by
    rw [Fields.readField, Fields.collect]
    by_cases here : header = ⟨shape.kind, field.id⟩
    · rw [if_pos here, if_pos here]
      exact noting_tracks (shape.announced_tracks.pure_left _) done
    · rw [if_neg here, if_neg here]
      exact (rest.collect_tracks header others done).pure_left _

end

/-- If both come to an end and what was announced on the way fits, they end at the same byte. -/
def MeetAtEnd (d : Decoder (List Announcement)) (e : Decoder Unit) : Prop :=
  ∀ bytes as rest rest', d bytes = .ok as rest → e bytes = .ok () rest' → (∀ a ∈ as, a.Fits) →
    rest = rest'

section Meeting

variable {d : Decoder (List Announcement)} {e e' : Decoder Unit}

theorem noting_ok {as out : List Announcement} {bytes rest : Bytes}
    (done : noting as d bytes = .ok out rest) :
    ∃ more, out = as ++ more ∧ d bytes = .ok more rest := by
  obtain ⟨more, between, first, last⟩ := ok_of_bind done
  cases last
  exact ⟨more, rfl, first⟩

theorem meet_noting (h : MeetAtEnd d e) (as : List Announcement) : MeetAtEnd (noting as d) e := by
  intro bytes out rest rest' hd he fits
  obtain ⟨more, rfl, first⟩ := noting_ok hd
  exact h bytes more rest rest' first he fun a member => fits a (List.mem_append_right as member)

theorem meet_bind {f : List Announcement → Decoder (List Announcement)} (first : MeetAtEnd d e)
    (second : ∀ as, MeetAtEnd (f as) e')
    (keeps : ∀ as bytes out rest, f as bytes = .ok out rest → ∀ a ∈ as, a ∈ out) :
    MeetAtEnd (d >>= f) (e >>= fun _ => e') := by
  intro bytes out rest rest' hd he fits
  obtain ⟨as, between, hd, hf⟩ := ok_of_bind hd
  obtain ⟨_, between', he, he'⟩ := ok_of_bind he
  have same : between = between' := by
    apply first bytes as between between' hd he
    intro a member
    exact fits a (keeps as between out rest hf a member)
  rw [← same] at he'
  exact second as between out rest rest' hf he' fits

theorem noting_keeps {as out : List Announcement} {bytes rest : Bytes}
    (done : noting as d bytes = .ok out rest) : ∀ a ∈ as, a ∈ out := by
  obtain ⟨more, rfl, -⟩ := noting_ok done
  intro a member
  exact List.mem_append_left more member

theorem meet_announcedIn (h : MeetAtEnd d e) (n : Nat) :
    MeetAtEnd (announcedIn d n) (Decoder.times n e) := by
  induction n with
  | zero =>
    intro bytes as rest rest' hd he _
    cases hd
    cases he
    rfl
  | succ n ih => exact meet_bind h (meet_noting ih) fun _ _ _ _ => noting_keeps

theorem meet_announcedBy {as : List Announcement} (h : (∀ a ∈ as, a.Fits) → MeetAtEnd d e)
    (n : Nat) :
    MeetAtEnd (announcedBy as d n) (Decoder.times n e) := by
  intro bytes out rest rest' hd he fits
  cases n with
  | zero =>
    cases hd
    cases he
    rfl
  | succ n =>
    have inner := h fun a member => fits a (noting_keeps hd a member)
    exact meet_noting (meet_announcedIn inner (n + 1)) as bytes out rest rest' hd he fits

theorem meet_after {α : Type} {header : Decoder α} {f : α → Decoder (List Announcement)}
    {g : α → Decoder Unit} (h : ∀ a, MeetAtEnd (f a) (g a)) :
    MeetAtEnd (header >>= f) (header >>= g) := by
  intro bytes out rest rest' hd he fits
  obtain ⟨a, between, first, hf⟩ := ok_of_bind hd
  rw [bind_of_ok first] at he
  exact h a between out rest rest' hf he fits

theorem meet_of_endsWith (h : MeetAtEnd d e) (tracks : EndsWith e' e) : MeetAtEnd d e' := by
  intro bytes as rest rest' hd he fits
  obtain ⟨_, -, he⟩ := tracks bytes () rest' he
  exact h bytes as rest rest' hd he fits

end Meeting

def Shape.Meets (s : Shape) : Prop :=
  ∀ depth, MeetAtEnd s.announced (skipWithin depth s.kind)

theorem Shape.Meets.alike {s : Shape} (h : s.Meets) {k : Kind} (alike : k.layout = s.kind.layout)
    (depth : Nat) : MeetAtEnd s.announced (skipWithin depth k) :=
  meet_of_endsWith (h depth) (skipWithin_alike alike depth)

theorem meets_of_levels {s : Shape}
    (h : ∀ depth, MeetAtEnd s.announced (skipWithin (depth + 1) s.kind)) : s.Meets := by
  intro depth
  cases depth with
  | zero =>
    intro bytes as rest rest' _ skipped
    cases skipped
  | succ depth => exact h depth

theorem meet_scalar {α : Type} (d : Decoder α) :
    MeetAtEnd (do let _ ← d; return []) (discard d) := by
  intro bytes as rest rest' read skipped _
  change EStateM.map _ d bytes = _ at skipped
  obtain ⟨a, between, first, last⟩ := ok_of_bind read
  rw [EStateM.map, first] at skipped
  cases last
  cases skipped
  rfl

theorem meet_sequence (what : Sized) {item : Shape} (ih : item.Meets) (depth : Nat) :
    MeetAtEnd
      (do
        let header ← Decoder.items what
        announcedBy [⟨item.kind, header.1⟩] item.announced header.2)
      (do
        let (k, n) ← Decoder.items what
        Decoder.times n (skipWithin depth k)) := by
  apply meet_after
  intro header
  apply meet_announcedBy
  intro fits
  exact ih.alike (fits _ List.mem_cons_self) depth

theorem meet_entries {key value : Shape} (hk : key.Meets) (hv : value.Meets) (depth : Nat) :
    MeetAtEnd (Shape.map key value).announced (skipWithin (depth + 1) .map) := by
  apply meet_after
  intro header
  apply meet_announcedBy
  intro fits
  have first := hk.alike (fits _ List.mem_cons_self) depth
  have second := hv.alike (fits _ (List.mem_cons_of_mem _ List.mem_cons_self)) depth
  exact meet_bind first (meet_noting second) fun _ _ _ _ => noting_keeps

def Fields.Meet : Fields → Prop
  | .nil => True
  | .cons _ shape rest => shape.Meets ∧ rest.Meet

theorem Fields.collect_keeps : (fs : Fields) → (header : FieldHeader) →
    (done : List Announcement) → (bytes : Bytes) → (out : List Announcement) → (left : Bytes) →
    fs.collect header done bytes = .ok out left → ∀ a ∈ done, a ∈ out
  | .nil, _, _, _, _, _, h => by
    obtain ⟨_, _, -, last⟩ := ok_of_bind h
    cases last
    exact fun a member => member
  | .cons field shape rest, header, done, bytes, out, left, h => by
    rw [Fields.collect] at h
    by_cases here : header = ⟨shape.kind, field.id⟩
    · rw [if_pos here] at h
      exact noting_keeps h
    · rw [if_neg here] at h
      exact rest.collect_keeps header done bytes out left h

theorem Fields.collect_meets : (fs : Fields) → fs.Meet → (header : FieldHeader) →
    (done : List Announcement) → (depth : Nat) →
    MeetAtEnd (fs.collect header done) (skipWithin depth header.kind)
  | .nil, _, header, done, depth => by
    intro bytes out rest rest' read skipped _
    obtain ⟨_, between, first, last⟩ := ok_of_bind read
    cases last
    exact skipWithin_end first skipped
  | .cons field shape rest, ⟨ih, ihs⟩, header, done, depth => by
    rw [Fields.collect]
    by_cases here : header = ⟨shape.kind, field.id⟩
    · rw [if_pos here, here]
      exact meet_noting (ih depth) done
    · rw [if_neg here]
      exact rest.collect_meets ihs header done depth

theorem Fields.loop_keeps (fs : Fields) (budget : Nat) (done : List Announcement) (bytes : Bytes)
    (out : List Announcement) (rest : Bytes)
    (h : fieldLoop fs.collect budget done bytes = .ok out rest) : ∀ a ∈ done, a ∈ out := by
  induction budget generalizing done bytes with
  | zero => cases h
  | succ budget ih =>
    rw [fieldLoop_succ] at h
    obtain ⟨header, between, -, h⟩ := ok_of_bind h
    cases header with
    | none =>
      cases h
      exact fun a member => member
    | some header =>
      obtain ⟨more, after, step, h⟩ := ok_of_bind h
      intro a member
      exact ih more after h a (fs.collect_keeps header done between more after step a member)

theorem Fields.loop_meets (fs : Fields) (ih : fs.Meet) (depth budget : Nat)
    (done : List Announcement) :
    MeetAtEnd (fieldLoop fs.collect budget done)
      (fieldLoop (fun header _ => skipWithin depth header.kind) budget ()) := by
  induction budget generalizing done with
  | zero =>
    intro bytes out rest rest' read
    cases read
  | succ budget loop =>
    rw [fieldLoop_succ, fieldLoop_succ]
    apply meet_after
    intro header
    cases header with
    | none =>
      intro bytes out rest rest' read skipped _
      cases read
      cases skipped
      rfl
    | some header =>
      exact meet_bind (fs.collect_meets ih header done depth) loop (fs.loop_keeps budget)

theorem Fields.meet_struct (fs : Fields) (ih : fs.Meet) (depth : Nat) :
    MeetAtEnd (fun bytes => (foldFields fs.collect [] bytes).result)
      (skipWithin (depth + 1) .struct) := by
  intro bytes
  exact fs.loop_meets ih depth bytes.length [] bytes

mutual

/-- Every shape is read and skipped to the same end, if what is announced on the way fits. -/
theorem Shape.meets : (s : Shape) → s.Meets
  | .bool => meets_of_levels fun _ => meet_scalar Decoder.bool
  | .byte => meets_of_levels fun _ => meet_scalar Decoder.byte
  | .i16 => meets_of_levels fun _ => meet_scalar Decoder.i16
  | .i32 => meets_of_levels fun _ => meet_scalar Decoder.i32
  | .i64 => meets_of_levels fun _ => meet_scalar Decoder.i64
  | .double => meets_of_levels fun _ => meet_scalar Decoder.double
  | .string => meets_of_levels fun _ => meet_scalar Decoder.string
  | .enum _ _ => meets_of_levels fun _ => meet_scalar Decoder.i32
  | .list item => meets_of_levels (meet_sequence .list item.meets)
  | .set item => meets_of_levels (meet_sequence .set item.meets)
  | .map key value => meets_of_levels (meet_entries key.meets value.meets)
  | .record _ fields => meets_of_levels (fields.meet_struct fields.meet)

theorem Fields.meet : (fs : Fields) → fs.Meet
  | .nil => trivial
  | .cons _ shape rest => ⟨shape.meets, rest.meet⟩

end

theorem Wire.Progress.value_of_ok {α : Type} {p : Progress α} {a : α} {rest : Bytes}
    (done : p.result = .ok a rest) : p.value = a := by
  unfold Progress.result at done
  split at done
  · cases done
    rfl
  · cases done

/-- A record that can both be read and be skipped is read and skipped to the same end, provided that
each container met on the way that holds something announces a kind laid out as the declared one. -/
theorem Fields.readNew_ends_as_skip (fs : Fields) (bytes : Bytes) (record : fs.Val)
    (rest rest' : Bytes) (read : fs.readNew bytes = .ok record rest)
    (skipped : skip .struct bytes = .ok () rest')
    (fits : ∀ a ∈ fs.announcements bytes, a.Fits) : rest = rest' := by
  obtain ⟨as, -, met⟩ :=
    Tracks.foldFields (fun header record done _ => fs.collect_tracks header record done)
      (trivial : (fun _ _ => True) fs.absent []) bytes record rest read
  have found : fs.announcements bytes = as := Progress.value_of_ok met
  rw [found] at fits
  exact fs.meet_struct fs.meet 63 bytes as rest rest' met skipped fits

namespace Tutorial

def relabelled : Bytes :=
  [13, 0, 4, 6, 15, 0, 0, 0, 1, 0, 7, 10, 0, 0, 0, 1, 0, 0, 0, 0, 0, 0, 0, 0,
   15, 0, 5, 1, 0, 0, 0, 0, 3, 0, 99, 5, 0, 8]

theorem readNew_ends_as_skip_relabelled :
    containersFields.announcements relabelled = [⟨.i16, .i16⟩, ⟨.set, .list⟩, ⟨.double, .i64⟩] ∧
    ∃ record rest rest', containersFields.readNew relabelled = .ok record rest ∧
      skip .struct relabelled = .ok () rest' ∧ rest = rest' :=
  ⟨rfl, _, [8], [8], rfl, rfl,
    Fields.readNew_ends_as_skip containersFields relabelled _ [8] [8] rfl rfl (by decide)⟩

def mislabelled : Bytes :=
  [15, 0, 1, 6, 0, 0, 0, 1, 0, 0, 0, 0, 0]

/-- Both walks come to an end, the skip two bytes before the reading. -/
theorem mislabelled_parts :
    (∃ record, containersFields.readNew mislabelled = .ok record []) ∧
      skip .struct mislabelled = .ok () [0, 0] :=
  ⟨⟨_, rfl⟩, rfl⟩

end Tutorial

end Idl
