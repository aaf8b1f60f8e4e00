import Idl.Proofs.Value.Encoding
import Idl.Proofs.Wire.Parsed

/-!
# The value of a tree

Reading a value is the same as finding the tree behind the bytes and taking the value of the tree.
A shape accepts the trees that are built as it says, with sizes that fit their words; a record that
no field matches is accepted if it can be skipped. The kinds that containers announce are of no
account. The bytes that a shape reads are exactly those of the trees that it accepts, and what it
reads is the value of the tree: the items of a list in their order, the set and the map that the
items of a set and the entries of a map build one by one, and for a record what its fields are
assigned last.
-/

set_option autoImplicit false

namespace Idl

open Wire Wire.Tree

namespace Wire.Tree

def items : Tree → List Tree
  | .list _ ts | .set _ ts => ts
  | _ => []

def entries : Tree → List (Tree × Tree)
  | .map _ _ es => es
  | _ => []

def records : Tree → List Record
  | .struct rs => rs
  | _ => []

end Wire.Tree

mutual

/-- The value that a tree stands for. -/
def Shape.value : (s : Shape) → Tree → s.Val
  | .bool, t => match t with | .scalar (.bool mark) => decide (mark ≠ 0) | _ => false
  | .byte, t => match t with | .scalar (.byte n) => n | _ => (0 : Int8)
  | .i16, t => match t with | .scalar (.i16 n) => n | _ => (0 : Int16)
  | .i32, t => match t with | .scalar (.i32 n) => n | _ => (0 : Int32)
  | .i64, t => match t with | .scalar (.i64 n) => n | _ => (0 : Int64)
  | .double, t => match t with | .scalar (.double d) => d | _ => Double.zero
  | .string, t => match t with | .scalar (.string s) => s | _ => ""
  | .enum _ _, t => match t with | .scalar (.i32 n) => n | _ => (0 : Int32)
  | .list item, t => t.items.map item.value
  | .set item, t => ascending item.order (t.items.map item.value)
  | .map key value, t =>
    Idl.entries key.order (t.entries.map fun e => (key.value e.1, value.value e.2))
  | .record _ fields, t => t.records.foldl fields.assign fields.absent

def Fields.assign : (fs : Fields) → fs.Val → Record → fs.Val
  | .nil, record, _ => record
  | .cons field shape rest, (a, others), r =>
    if r.header = ⟨shape.kind, field.id⟩ then (some (shape.value r.2), others)
    else (a, rest.assign others r)

end

mutual

/-- The tree is built as the shape says, and every size fits its word. -/
def Shape.Accepts : Shape → Tree → Prop
  | .bool, t => ∃ mark, t = .scalar (.bool mark)
  | .byte, t => ∃ n, t = .scalar (.byte n)
  | .i16, t => ∃ n, t = .scalar (.i16 n)
  | .i32, t => ∃ n, t = .scalar (.i32 n)
  | .i64, t => ∃ n, t = .scalar (.i64 n)
  | .double, t => ∃ d, t = .scalar (.double d)
  | .string, t => ∃ s, t = .scalar (.string s) ∧ (Text.utf8 s).length ≤ 0x7FFFFFFF
  | .enum _ _, t => ∃ n, t = .scalar (.i32 n)
  | .list item, t => ∃ kind ts, t = .list kind ts ∧ ts.length ≤ 0x7FFFFFFF ∧
      ∀ u ∈ ts, item.Accepts u
  | .set item, t => ∃ kind ts, t = .set kind ts ∧ ts.length ≤ 0x7FFFFFFF ∧
      ∀ u ∈ ts, item.Accepts u
  | .map key value, t => ∃ kind kind' es, t = .map kind kind' es ∧ es.length ≤ 0x7FFFFFFF ∧
      ∀ e ∈ es, key.Accepts e.1 ∧ value.Accepts e.2
  | .record _ fields, t => ∃ rs, t = .struct rs ∧ ∀ r ∈ rs, fields.AcceptsRecord r

def Fields.AcceptsRecord : Fields → Record → Prop
  | .nil, r => r.2.WellFormed ∧ r.2.depth ≤ 64
  | .cons field shape rest, r =>
    if r.header = ⟨shape.kind, field.id⟩ then shape.Accepts r.2 else rest.AcceptsRecord r

end

theorem Shape.Accepts.kind_eq {s : Shape} {t : Tree} (h : s.Accepts t) : t.kind = s.kind := by
  cases s with
  | bool | byte | i16 | i32 | i64 | double | enum =>
    obtain ⟨_, rfl⟩ := h
    rfl
  | string | record =>
    obtain ⟨_, rfl, _⟩ := h
    rfl
  | list | set =>
    obtain ⟨_, _, rfl, _⟩ := h
    rfl
  | map =>
    obtain ⟨_, _, _, rfl, _⟩ := h
    rfl

theorem reads_each {s : Shape} {ts : List Tree}
    (each : ∀ t ∈ ts, Reads s.read t.encode (s.value t)) :
    List.Forall₂ (fun a t => Reads s.read t.encode a) (ts.map s.value) ts :=
  List.forall₂_map_left_iff.mpr (List.forall₂_same.mpr each)

mutual

theorem Shape.reads_value : (s : Shape) → (t : Tree) → s.Accepts t →
    Reads s.read t.encode (s.value t)
  | .bool, _, ⟨mark, rfl⟩ => bool_reads mark
  | .byte, _, ⟨n, rfl⟩ => byte_reads n
  | .i16, _, ⟨n, rfl⟩ => i16_reads n
  | .i32, _, ⟨n, rfl⟩ => i32_reads n
  | .i64, _, ⟨n, rfl⟩ => i64_reads n
  | .double, _, ⟨d, rfl⟩ => double_reads d
  | .string, _, ⟨s, rfl, short⟩ => string_reads s (Nat.lt_succ_of_le short)
  | .enum _ _, _, ⟨n, rfl⟩ => i32_reads n
  | .list item, _, ⟨kind, ts, rfl, size, each⟩ => by
    rw [encode, encodeItems_eq]
    exact list_reads kind size (reads_each fun t ht => item.reads_value t (each t ht))
  | .set item, _, ⟨kind, ts, rfl, size, each⟩ => by
    rw [encode, encodeItems_eq]
    exact set_reads kind size (reads_each fun t ht => item.reads_value t (each t ht))
  | .map key value, _, ⟨kind, kind', es, rfl, size, each⟩ => by
    rw [encode, encodeEntries_eq]
    apply map_reads kind kind' size
    refine List.forall₂_map_left_iff.mpr (List.forall₂_same.mpr fun e he => ?_)
    exact ⟨key.reads_value e.1 (each e he).1, value.reads_value e.2 (each e he).2⟩
  | .record _ fields, _, ⟨rs, rfl, each⟩ => by
    obtain ⟨record, rfl, reads⟩ := foldFields_records fields.readField rs
      (fun done record => record = done.foldl fields.assign fields.absent)
      (fun done r record hr hd => ⟨fields.assign record r,
        fields.reads_assign r (each r hr) record, by rw [List.foldl_append, hd]; rfl⟩)
      fields.absent rfl
    exact reads

theorem Fields.reads_assign : (fs : Fields) → (r : Record) → fs.AcceptsRecord r →
    (record : fs.Val) → Reads (fs.readField r.header record) r.2.encode (fs.assign record r)
  | .nil, r, h, record => ((skip_passes r.2 h.1 maxDepth).reads h.2).bind_nil rfl
  | .cons field shape rest, r, h, (a, others) => by
    rw [Fields.AcceptsRecord] at h
    rw [Fields.readField, Fields.assign]
    by_cases here : r.header = ⟨shape.kind, field.id⟩
    · rw [if_pos here] at h ⊢
      rw [if_pos here]
      exact (shape.reads_value r.2 h).bind_nil rfl
    · rw [if_neg here] at h ⊢
      rw [if_neg here]
      exact (rest.reads_assign r h others).bind_nil rfl

end

theorem readItems_takes {α β γ : Type} {item : Decoder α} {good : γ → Prop} {bytes : γ → Bytes}
    {value : γ → α} (each : Takes item fun a front => ∃ x, good x ∧ a = value x ∧ front = bytes x)
    (add : β → α → β) (n : Nat) (done : β) :
    Takes (readItems item add n done) fun b front => ∃ xs : List γ, xs.length = n ∧
      (∀ x ∈ xs, good x) ∧ b = (xs.map value).foldl add done ∧ front = xs.flatMap bytes := by
  induction n generalizing done with
  | zero => exact .pure ⟨[], rfl, by simp, rfl, rfl⟩
  | succ n ih =>
    apply each.bind
    rintro _ _ ⟨x, hx, rfl, rfl⟩
    apply (ih (add done (value x))).imp
    rintro _ _ ⟨xs, rfl, hxs, rfl, rfl⟩
    exact ⟨x :: xs, rfl, List.forall_mem_cons.mpr ⟨hx, hxs⟩, rfl, rfl⟩

mutual

theorem Shape.read_takes : (s : Shape) →
    Takes s.read fun a front => ∃ t, s.Accepts t ∧ a = s.value t ∧ front = t.encode
  | .bool => bool_takes.imp fun _ _ ⟨mark, bytes, made⟩ =>
      ⟨.scalar (.bool mark), ⟨mark, rfl⟩, made, bytes⟩
  | .byte => byte_takes.imp fun n _ h => ⟨.scalar (.byte n), ⟨n, rfl⟩, rfl, h⟩
  | .i16 => i16_takes.imp fun n _ h => ⟨.scalar (.i16 n), ⟨n, rfl⟩, rfl, h⟩
  | .i32 => i32_takes.imp fun n _ h => ⟨.scalar (.i32 n), ⟨n, rfl⟩, rfl, h⟩
  | .i64 => i64_takes.imp fun n _ h => ⟨.scalar (.i64 n), ⟨n, rfl⟩, rfl, h⟩
  | .double => double_takes.imp fun d _ h => ⟨.scalar (.double d), ⟨d, rfl⟩, rfl, h⟩
  | .string => string_takes.imp fun s _ ⟨short, h⟩ =>
      ⟨.scalar (.string s), ⟨s, rfl, Nat.le_of_lt_succ short⟩, rfl, h⟩
  | .enum _ _ => i32_takes.imp fun n _ h => ⟨.scalar (.i32 n), ⟨n, rfl⟩, rfl, h⟩
  | .list item => by
    apply (items_takes .list).bind
    rintro ⟨kind, n⟩ _ ⟨small, rfl⟩
    apply (readItems_takes item.read_takes _ n []).bind_pure
    rintro _ _ ⟨ts, rfl, each, rfl, rfl⟩
    refine ⟨.list kind ts, ⟨kind, ts, rfl, Nat.le_of_lt_succ small, each⟩, ?_, ?_⟩
    · rw [List.foldl_flip_cons_eq_append', List.append_nil, List.reverse_reverse]
      rfl
    · rw [encode, encodeItems_eq]
  | .set item => by
    apply (items_takes .set).bind
    rintro ⟨kind, n⟩ _ ⟨small, rfl⟩
    apply (readItems_takes item.read_takes _ n []).imp
    rintro _ _ ⟨ts, rfl, each, rfl, rfl⟩
    refine ⟨.set kind ts, ⟨kind, ts, rfl, Nat.le_of_lt_succ small, each⟩, rfl, ?_⟩
    rw [encode, encodeItems_eq]
  | .map key value => by
    have entry : Takes (readPair key.read value.read) fun a front => ∃ e : Tree × Tree,
        (key.Accepts e.1 ∧ value.Accepts e.2) ∧ a = (key.value e.1, value.value e.2) ∧
          front = e.1.encode ++ e.2.encode := by
      apply key.read_takes.bind
      rintro _ _ ⟨k, hk, rfl, rfl⟩
      apply value.read_takes.bind_pure
      rintro _ _ ⟨v, hv, rfl, rfl⟩
      exact ⟨(k, v), ⟨hk, hv⟩, rfl, rfl⟩
    apply entries_takes.bind
    rintro ⟨kind, kind', n⟩ _ ⟨small, rfl⟩
    apply (readItems_takes entry _ n []).imp
    rintro _ _ ⟨es, rfl, each, rfl, rfl⟩
    refine ⟨.map kind kind' es, ⟨kind, kind', es, rfl, Nat.le_of_lt_succ small, each⟩, rfl, ?_⟩
    rw [encode, encodeEntries_eq]
  | .record _ fields => by
    apply (foldFields_takes fields.AcceptsRecord fields.assign fields.readField_takes
      fields.absent).imp
    rintro _ _ ⟨rs, each, rfl, rfl⟩
    exact ⟨.struct rs, ⟨rs, rfl, each⟩, rfl, rfl⟩

theorem Fields.readField_takes : (fs : Fields) → (header : FieldHeader) → (record : fs.Val) →
    Takes (fs.readField header record) fun b front => ∃ t : Tree, t.kind = header.kind ∧
      fs.AcceptsRecord (header.id, t) ∧ b = fs.assign record (header.id, t) ∧ front = t.encode
  | .nil, header, record => by
    apply (skipWithin_takes maxDepth header.kind).bind_pure
    rintro _ _ ⟨t, ht, rfl⟩
    exact ⟨t, ht.kind_eq, ⟨ht.wellFormed, ht.shallow⟩, rfl, rfl⟩
  | .cons field shape rest, header, (a, others) => by
    have known {t : Tree} (kind : t.kind = header.kind) :
        Record.header (header.id, t) = header := by
      rw [Record.header, kind]
    simp only [Fields.readField, Fields.AcceptsRecord, Fields.assign]
    by_cases here : header = ⟨shape.kind, field.id⟩
    · rw [if_pos here]
      apply shape.read_takes.bind_pure
      rintro _ _ ⟨t, ht, rfl, rfl⟩
      have kind : t.kind = header.kind := by rw [ht.kind_eq, here]
      refine ⟨t, kind, ?_, ?_, rfl⟩
      · rwa [known kind, if_pos here]
      · rw [known kind, if_pos here]
    · rw [if_neg here]
      apply (rest.readField_takes header others).bind_pure
      rintro _ _ ⟨t, kind, ht, rfl, rfl⟩
      refine ⟨t, kind, ?_, ?_, rfl⟩
      · rwa [known kind, if_neg here]
      · rw [known kind, if_neg here]

end

/-- A shape reads exactly the trees that it accepts, each as its value. -/
theorem Shape.read_eq_ok_iff (s : Shape) (bytes : Bytes) (a : s.Val) (rest : Bytes) :
    s.read bytes = .ok a rest ↔
      ∃ t, s.Accepts t ∧ a = s.value t ∧ bytes = t.encode ++ rest := by
  constructor
  · intro read
    obtain ⟨_, rfl, t, ht, made, rfl⟩ := s.read_takes bytes a rest read
    exact ⟨t, ht, made, rfl⟩
  · rintro ⟨t, ht, rfl, rfl⟩
    exact s.reads_value t ht rest

end Idl
