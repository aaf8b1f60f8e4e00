import Mathlib.Data.List.Forall2
import Idl.Proofs.Order
import Idl.Proofs.Wire.Skip
import Idl.Value.Codec

/-!
# Trees that encode values

A tree encodes a value of a shape when its items do, in their order for a list, in any order and
with repetitions for a set, and with later entries replacing earlier ones for a map. A struct
encodes a record when each place of the record holds the value of the last record with its id and
kind; other records may stand between, if they are not too deep to be skipped. Reading a
well-formed tree gives the value that it encodes.
-/

set_option autoImplicit false

namespace Idl

open Wire Wire.Tree

def Fields.headers : Fields → List FieldHeader
  | .nil => []
  | .cons field shape rest => ⟨shape.kind, field.id⟩ :: rest.headers

mutual

/-- No two fields of a record have the same id and kind. -/
def Shape.Distinct : Shape → Prop
  | .list item => item.Distinct
  | .set item => item.Distinct
  | .map key value => key.Distinct ∧ value.Distinct
  | .record _ fields => fields.Distinct
  | _ => True

def Fields.Distinct : Fields → Prop
  | .nil => True
  | .cons field shape rest =>
    ⟨shape.kind, field.id⟩ ∉ rest.headers ∧ shape.Distinct ∧ rest.Distinct

end

def IsLastValue {α : Type} (encodes : α → Tree → Prop) (header : FieldHeader)
    (rs : List Record) : Option α → Prop
  | none => ∀ r ∈ rs, r.header ≠ header
  | some a => ∃ before r after, rs = before ++ r :: after ∧ r.header = header ∧ encodes a r.2 ∧
      ∀ later ∈ after, later.header ≠ header

mutual

def Shape.Encodes : (s : Shape) → s.Val → Tree → Prop
  | .bool, b, t => ∃ mark, t = .scalar (.bool mark) ∧ b = decide (mark ≠ 0)
  | .byte, n, t => t = .scalar (.byte n)
  | .i16, n, t => t = .scalar (.i16 n)
  | .i32, n, t => t = .scalar (.i32 n)
  | .i64, n, t => t = .scalar (.i64 n)
  | .double, d, t => t = .scalar (.double d)
  | .string, s, t => t = .scalar (.string s)
  | .enum _ _, n, t => t = .scalar (.i32 n)
  | .list item, as, t => ∃ kind ts, t = .list kind ts ∧ List.Forall₂ item.Encodes as ts
  | .set item, as, t => ∃ kind ts given, t = .set kind ts ∧
      List.Forall₂ item.Encodes given ts ∧ Ascending item.order as ∧ ∀ a, a ∈ as ↔ a ∈ given
  | .map key value, es, t => ∃ kind kind' ts given, t = .map kind kind' ts ∧
      List.Forall₂ (fun e p => key.Encodes e.1 p.1 ∧ value.Encodes e.2 p.2) given ts ∧
      Ascending key.order (es.map Prod.fst) ∧ ∀ k v, (k, v) ∈ es ↔ IsLastEntry given k v
  | .record _ fields, record, t => ∃ rs : List Record, t = .struct rs ∧
      (∀ r ∈ rs, fields.Types r ∧ (r.header ∉ fields.headers → r.2.depth ≤ 64)) ∧
      fields.Holds record rs

def Fields.Types : Fields → Record → Prop
  | .nil, _ => True
  | .cons field shape rest, r =>
    (r.header = ⟨shape.kind, field.id⟩ → ∃ a, shape.Encodes a r.2) ∧ rest.Types r

def Fields.Holds : (fs : Fields) → fs.Val → List Record → Prop
  | .nil, _, _ => True
  | .cons field shape rest, (a, others), rs =>
    IsLastValue shape.Encodes ⟨shape.kind, field.id⟩ rs a ∧ rest.Holds others rs

end

/-- The record can be read: it carries a value of the field that it matches, and if it matches
none it can be skipped. -/
structure Fields.Admits (fs : Fields) (r : Record) : Prop where
  wellFormed : r.2.WellFormed
  types : fs.Types r
  shallow : r.header ∉ fs.headers → r.2.depth ≤ 64

section LastValues

variable {α : Type} {encodes : α → Tree → Prop} {header : FieldHeader} {rs : List Record}

theorem isLastValue_append_match {r : Record} {a : α} (h : r.header = header)
    (ha : encodes a r.2) : IsLastValue encodes header (rs ++ [r]) (some a) :=
  ⟨rs, r, [], rfl, h, ha, by simp⟩

theorem isLastValue_append_other {r : Record} {a : Option α} (hr : r.header ≠ header)
    (h : IsLastValue encodes header rs a) : IsLastValue encodes header (rs ++ [r]) a := by
  cases a with
  | none =>
    intro s hs
    rcases List.mem_append.mp hs with hs | hs
    · exact h s hs
    · rw [List.mem_singleton.mp hs]
      exact hr
  | some a =>
    obtain ⟨before, s, after, rfl, hs, ha, later⟩ := h
    refine ⟨before, s, after ++ [r], by simp, hs, ha, fun u hu => ?_⟩
    rcases List.mem_append.mp hu with hu | hu
    · exact later u hu
    · rw [List.mem_singleton.mp hu]
      exact hr

end LastValues

theorem Fields.holds_absent (fs : Fields) : fs.Holds fs.absent [] := by
  cases fs with
  | nil => trivial
  | cons field shape rest => exact ⟨by simp [IsLastValue], rest.holds_absent⟩

theorem Fields.holds_append_other : (fs : Fields) → (record : fs.Val) → (rs : List Record) →
    (r : Record) → r.header ∉ fs.headers → fs.Holds record rs → fs.Holds record (rs ++ [r])
  | .nil, _, _, _, _, _ => trivial
  | .cons _ _ rest, (_, others), rs, r, hr, h =>
    ⟨isLastValue_append_other (fun he => hr (he ▸ List.mem_cons_self)) h.1,
      rest.holds_append_other others rs r (fun hm => hr (List.mem_cons_of_mem _ hm)) h.2⟩

theorem readItems_reads {α β γ : Type} {item : Decoder α} {bytes : γ → Bytes} {as : List α}
    {xs : List γ} (h : List.Forall₂ (fun a x => Reads item (bytes x) a) as xs) (add : β → α → β)
    (done : β) :
    Reads (readItems item add xs.length done) (xs.flatMap bytes) (as.foldl add done) := by
  induction h generalizing done with
  | nil => exact Reads.pure done
  | cons head _ ih => exact head.bind (ih (add done _))

section Containers

variable {γ : Type} {xs : List γ}

theorem list_reads {item : Shape} {bytes : γ → Bytes} {as : List item.Val} (kind : Kind)
    (size : xs.length ≤ 0x7FFFFFFF)
    (h : List.Forall₂ (fun a x => Reads item.read (bytes x) a) as xs) :
    Reads (Shape.list item).read (kind.tag :: bigEndian 4 xs.length ++ xs.flatMap bytes) as := by
  have items := readItems_reads h (fun done a => a :: done) []
  rw [List.foldl_flip_cons_eq_append', List.append_nil] at items
  apply (items_reads .list kind _ (Nat.lt_succ_of_le size)).bind
  apply items.bind_nil
  rw [List.reverse_reverse]

theorem set_reads {item : Shape} {bytes : γ → Bytes} {given : List item.Val} (kind : Kind)
    (size : xs.length ≤ 0x7FFFFFFF)
    (h : List.Forall₂ (fun a x => Reads item.read (bytes x) a) given xs) :
    Reads (Shape.set item).read (kind.tag :: bigEndian 4 xs.length ++ xs.flatMap bytes)
      (ascending item.order given) :=
  (items_reads .set kind _ (Nat.lt_succ_of_le size)).bind (readItems_reads h _ [])

theorem map_reads {key value : Shape} {first second : γ → Bytes}
    {given : List (key.Val × value.Val)} (kind kind' : Kind) (size : xs.length ≤ 0x7FFFFFFF)
    (h : List.Forall₂ (fun e x => Reads key.read (first x) e.1 ∧ Reads value.read (second x) e.2)
      given xs) :
    Reads (Shape.map key value).read
      (kind.tag :: kind'.tag :: bigEndian 4 xs.length ++ xs.flatMap fun x => first x ++ second x)
      (entries key.order given) := by
  have pairs : List.Forall₂ (fun e x => Reads (readPair key.read value.read)
      (first x ++ second x) e) given xs :=
    h.imp fun _ _ both => both.1.bind (both.2.bind_nil rfl)
  exact (entries_reads kind kind' _ (Nat.lt_succ_of_le size)).bind (readItems_reads pairs _ [])

end Containers

def Shape.ReadsBack (s : Shape) : Prop :=
  ∀ (a : s.Val) (t : Tree), t.WellFormed → s.Encodes a t → Reads s.read t.encode a

theorem items_readBack (item : Shape) (ih : item.ReadsBack) (as : List item.Val) (ts : List Tree)
    (wf : ∀ t ∈ ts, t.WellFormed) (h : List.Forall₂ item.Encodes as ts) :
    List.Forall₂ (fun a t => Reads item.read t.encode a) as ts := by
  induction h with
  | nil => exact .nil
  | cons head _ tail =>
    exact .cons (ih _ _ (wf _ List.mem_cons_self) head)
      (tail fun t ht => wf t (List.mem_cons_of_mem _ ht))

theorem list_readsBack (item : Shape) (ih : item.ReadsBack) : (Shape.list item).ReadsBack := by
  rintro as _ wf ⟨kind, ts, rfl, h⟩
  cases wf with
  | list size kinds wf =>
    rw [encode, encodeItems_eq]
    exact list_reads kind size (items_readBack item ih as ts wf h)

theorem set_readsBack (item : Shape) (ih : item.ReadsBack) : (Shape.set item).ReadsBack := by
  rintro as _ wf ⟨kind, ts, given, rfl, h, asc, same⟩
  cases wf with
  | set size kinds wf =>
    rw [encode, encodeItems_eq, ← ascending_eq item.order given as asc same]
    exact set_reads kind size (items_readBack item ih given ts wf h)

theorem map_readsBack (key value : Shape) (hk : key.ReadsBack) (hv : value.ReadsBack) :
    (Shape.map key value).ReadsBack := by
  rintro es _ wf ⟨kind, kind', ts, given, rfl, h, asc, same⟩
  cases wf with
  | map size kinds keys values =>
    have pairs : List.Forall₂ (fun e p => Reads key.read p.1.encode e.1 ∧
        Reads value.read p.2.encode e.2) given ts := by
      clear size kinds same
      induction h with
      | nil => exact .nil
      | cons head _ tail =>
        have first := hk _ _ (keys _ List.mem_cons_self) head.1
        have second := hv _ _ (values _ List.mem_cons_self) head.2
        exact .cons ⟨first, second⟩
          (tail (fun e he => keys e (List.mem_cons_of_mem _ he))
            fun e he => values e (List.mem_cons_of_mem _ he))
    rw [encode, encodeEntries_eq, ← entries_eq key.order given es asc same]
    exact map_reads kind kind' size pairs

def Fields.ReadBack : Fields → Prop
  | .nil => True
  | .cons _ shape rest => shape.ReadsBack ∧ rest.ReadBack

theorem Fields.readField_record : (fs : Fields) → fs.Distinct → fs.ReadBack → (r : Record) →
    fs.Admits r → (done : List Record) → (record : fs.Val) → fs.Holds record done →
    ∃ next, Reads (fs.readField r.header record) r.2.encode next ∧ fs.Holds next (done ++ [r])
  | .nil, _, _, r, hr, done, record, h => by
    have skipped := (skip_passes r.2 hr.wellFormed maxDepth).reads (hr.shallow (by simp [headers]))
    exact ⟨record, skipped.bind_nil rfl, trivial⟩
  | .cons field shape rest, ⟨absent, _, distinct⟩, ⟨ih, ihs⟩, r, hr, done, (a, others), h => by
    by_cases hm : r.header = ⟨shape.kind, field.id⟩
    · obtain ⟨b, hb⟩ := hr.types.1 hm
      have hread := ih b r.2 hr.wellFormed hb
      refine ⟨(some b, others), ?_, isLastValue_append_match hm hb,
        rest.holds_append_other others done r (hm ▸ absent) h.2⟩
      rw [readField, if_pos hm]
      exact hread.bind_nil rfl
    · have hrest : rest.Admits r := ⟨hr.wellFormed, hr.types.2, fun hn =>
        hr.shallow fun hmem => (List.mem_cons.mp hmem).elim hm hn⟩
      obtain ⟨next, hread, hnext⟩ :=
        rest.readField_record distinct ihs r hrest done others h.2
      refine ⟨(a, next), ?_, isLastValue_append_other hm h.1, hnext⟩
      rw [readField, if_neg hm]
      exact hread.bind_nil rfl

/-- Reading a struct gives a record that holds the last value of each field. -/
theorem Fields.readNew_struct (fs : Fields) (distinct : fs.Distinct) (ih : fs.ReadBack)
    (rs : List Record) (h : ∀ r ∈ rs, fs.Admits r) :
    ∃ record, fs.Holds record rs ∧ Reads fs.readNew (Tree.struct rs).encode record :=
  foldFields_records fs.readField rs (fun done record => fs.Holds record done)
    (fun done r record hr hd => fs.readField_record distinct ih r (h r hr) done record hd)
    fs.absent fs.holds_absent

theorem last_unique {α : Type} {p : α → Prop} {x y : α} {before before' after after' : List α}
    (h : before ++ x :: after = before' ++ y :: after') (hx : p x) (hy : p y)
    (later : ∀ z ∈ after, ¬ p z) (later' : ∀ z ∈ after', ¬ p z) : x = y := by
  rcases List.append_eq_append_iff.mp h with ⟨mid, -, hm⟩ | ⟨mid, -, hm⟩
  · cases mid with
    | nil => exact (List.cons.inj hm).1
    | cons z mid =>
      have hmem : y ∈ after := (List.cons.inj hm).2 ▸ List.mem_append_right mid List.mem_cons_self
      exact absurd hy (later y hmem)
  · cases mid with
    | nil => exact (List.cons.inj hm).1.symm
    | cons z mid =>
      have hmem : x ∈ after' := (List.cons.inj hm).2 ▸ List.mem_append_right mid List.mem_cons_self
      exact absurd hx (later' x hmem)

theorem isLastValue_unique {s : Shape} (ih : s.ReadsBack) {header : FieldHeader}
    {rs : List Record} (wf : ∀ r ∈ rs, r.2.WellFormed) {a b : Option s.Val}
    (ha : IsLastValue s.Encodes header rs a) (hb : IsLastValue s.Encodes header rs b) : a = b := by
  cases a with
  | none =>
    cases b with
    | none => rfl
    | some b =>
      obtain ⟨before, r, after, rfl, hr, -, -⟩ := hb
      exact absurd hr (ha r (List.mem_append_right before List.mem_cons_self))
  | some a =>
    obtain ⟨before, r, after, rfl, hr, hra, later⟩ := ha
    have hmem := List.mem_append_right before (List.mem_cons_self : r ∈ r :: after)
    cases b with
    | none => exact absurd hr (hb r hmem)
    | some b =>
      obtain ⟨before', r', after', hrs, hr', hrb, later'⟩ := hb
      obtain rfl : r = r' := last_unique hrs hr hr' later later'
      exact congrArg some ((ih a r.2 (wf r hmem) hra).unique (ih b r.2 (wf r hmem) hrb))

theorem Fields.holds_unique : (fs : Fields) → fs.ReadBack → (rs : List Record) →
    (∀ r ∈ rs, r.2.WellFormed) → (x y : fs.Val) → fs.Holds x rs → fs.Holds y rs → x = y
  | .nil, _, _, _, _, _, _, _ => rfl
  | .cons _ _ rest, ⟨ih, ihs⟩, rs, wf, (_, x), (_, y), hx, hy =>
    Prod.ext (isLastValue_unique ih wf hx.1 hy.1) (rest.holds_unique ihs rs wf x y hx.2 hy.2)

theorem record_readsBack (name : String) (fields : Fields) (distinct : fields.Distinct)
    (ih : fields.ReadBack) : (Shape.record name fields).ReadsBack := by
  rintro record _ wf ⟨rs, rfl, hrs, holds⟩
  cases wf with
  | struct wf =>
    obtain ⟨found, hf, hread⟩ := fields.readNew_struct distinct ih rs fun r hr =>
      ⟨wf r hr, (hrs r hr).1, (hrs r hr).2⟩
    rw [fields.holds_unique ih rs wf record found holds hf]
    exact hread

mutual

/-- A well-formed tree is read as the value that it encodes. -/
theorem Shape.readsBack : (s : Shape) → s.Distinct → s.ReadsBack
  | .bool, _ => by
    rintro _ _ _ ⟨mark, rfl, rfl⟩
    exact bool_reads mark
  | .byte, _ => fun n _ _ h => h ▸ byte_reads n
  | .i16, _ => fun n _ _ h => h ▸ i16_reads n
  | .i32, _ => fun n _ _ h => h ▸ i32_reads n
  | .i64, _ => fun n _ _ h => h ▸ i64_reads n
  | .double, _ => fun d _ _ h => h ▸ double_reads d
  | .string, _ => by
    rintro s _ wf rfl
    cases wf with
    | scalar size => exact string_reads s (Nat.lt_succ_of_le size)
  | .enum _ _, _ => fun n _ _ h => h ▸ i32_reads n
  | .list item, h => list_readsBack item (item.readsBack h)
  | .set item, h => set_readsBack item (item.readsBack h)
  | .map key value, h => map_readsBack key value (key.readsBack h.1) (value.readsBack h.2)
  | .record name fields, h => record_readsBack name fields h (fields.readBack h)

theorem Fields.readBack : (fs : Fields) → fs.Distinct → fs.ReadBack
  | .nil, _ => trivial
  | .cons _ shape rest, h => ⟨shape.readsBack h.2.1, rest.readBack h.2.2⟩

end

end Idl
