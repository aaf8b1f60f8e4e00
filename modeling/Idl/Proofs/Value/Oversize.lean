import Idl.Proofs.Wire.Reading
import Idl.Tutorial.Shapes
import Idl.Value.Codec

/-!
# Counts that are cut to a word

Texts, lists, sets and maps are written behind their sizes. Writing a value fails at the first size
that is refused, and at nothing else. The size of a text is compared with the largest size as it is,
but the number of items of a container is cut to thirty-two bits before it is compared. So a
container with too many items is refused only if what is left of their number is still too large;
otherwise it is written, and its header announces fewer items than stand behind it.
-/

set_option autoImplicit false

namespace Idl

open Wire

structure Counted where
  what : Sized
  header : Bytes
  parts : List Bytes

namespace Counted

def bytes (c : Counted) : Bytes :=
  c.header ++ c.parts.flatten

/-- The number of parts as it is compared and written. That of items or entries is cut. -/
def carried (c : Counted) : Nat :=
  match c.what with
  | .string => c.parts.length
  | .list | .set | .map => c.parts.length % 0x100000000

def refusal? (c : Counted) : Option Fault :=
  if c.carried ≤ 0x7FFFFFFF then none
  else if c.carried ≤ 0xFFFFFFFF then some (.oversize c.what c.carried)
  else some .overlong

theorem refusal?_eq_none_iff (c : Counted) : c.refusal? = none ↔ c.carried ≤ 0x7FFFFFFF := by
  unfold refusal?
  by_cases small : c.carried ≤ 0x7FFFFFFF
  · simp [small]
  · by_cases word : c.carried ≤ 0xFFFFFFFF <;> simp [small, word]

theorem length_large_iff (c : Counted) (small : c.carried ≤ 0x7FFFFFFF) :
    0x7FFFFFFF < c.parts.length ↔ c.what ≠ .string ∧ 0x100000000 ≤ c.parts.length := by
  unfold carried at small
  cases shape : c.what with
  | string =>
    simp only [shape] at small
    simp [small]
  | list | set | map =>
    simp only [shape] at small
    simp only [ne_eq, reduceCtorEq, not_false_eq_true, true_and]
    omega

theorem carried_ne_length_iff (c : Counted) (small : c.carried ≤ 0x7FFFFFFF) :
    c.carried ≠ c.parts.length ↔ 0x7FFFFFFF < c.parts.length := by
  have least : c.carried = c.parts.length ∨ c.carried = c.parts.length % 0x100000000 := by
    unfold carried
    cases c.what <;> simp
  omega

end Counted

def announced : Sized → Decoder Nat
  | .string => Decoder.size .string
  | .list => Prod.snd <$> Decoder.items .list
  | .set => Prod.snd <$> Decoder.items .set
  | .map => (·.2.2) <$> Decoder.entries

namespace Counted

/-- The header and all parts stand in the bytes, and the header announces the number carried. -/
structure StandsIn (bytes : Bytes) (c : Counted) : Prop where
  within : c.bytes <:+: bytes
  announces : Reads (announced c.what) c.header c.carried

theorem StandsIn.widen {front bytes : Bytes} {c : Counted} (h : c.StandsIn front)
    (wider : front <:+: bytes) : c.StandsIn bytes :=
  ⟨h.within.trans wider, h.announces⟩

def text (s : String) : Counted :=
  ⟨.string, bigEndian 4 (Text.utf8 s).length, (Text.utf8 s).map fun b => [b]⟩

def container {α : Type} (what : Sized) (header : Emission) (write : α → Emission)
    (inner : α → List Counted) (as : List α) : List Counted :=
  ⟨what, header.bytes, as.map fun a => (write a).bytes⟩ :: as.flatMap inner

end Counted

open Counted

mutual

/-- The texts, lists, sets and maps in a value, at every level and in the order of their headers. -/
def Shape.counted : (s : Shape) → s.Val → List Counted
  | .bool, _ | .byte, _ | .i16, _ | .i32, _ | .i64, _ | .double, _ | .enum _ _, _ => []
  | .string, s => [text s]
  | .list item, as =>
    container .list (Emission.items .list item.kind (headerCount as)) item.write item.counted as
  | .set item, as =>
    container .set (Emission.items .set item.kind (headerCount as)) item.write item.counted as
  | .map key value, es =>
    container .map (Emission.entries key.kind value.kind (headerCount es))
      (fun e => key.write e.1 ++ value.write e.2)
      (fun e => key.counted e.1 ++ value.counted e.2) es
  | .record _ fields, record => fields.counted record

def Fields.counted : (fs : Fields) → fs.Val → List Counted
  | .nil, _ => []
  | .cons _ shape rest, (a, others) =>
    (match a with
     | none => []
     | some b => shape.counted b) ++ rest.counted others

end

theorem append_fault (e f : Emission) : (e ++ f).fault = e.fault.or f.fault := by
  change (e.andThen f).fault = _
  unfold Emission.andThen
  cases found : e.fault with
  | none => rfl
  | some fault => exact found

theorem append_fault_eq_none_iff (e f : Emission) :
    (e ++ f).fault = none ↔ e.fault = none ∧ f.fault = none := by
  rw [append_fault, Option.or_eq_none_iff]

theorem all_fault {α : Type} (write : α → Emission) (as : List α) :
    (Emission.all (as.map write)).fault = as.findSome? fun a => (write a).fault := by
  induction as with
  | nil => rfl
  | cons a rest ih =>
    rw [List.map_cons, Emission.all, append_fault, ih, List.findSome?_cons]
    cases (write a).fault <;> rfl

theorem findSome?_flatMap {α β γ : Type} (f : β → Option γ) (g : α → List β) (as : List α) :
    (as.flatMap g).findSome? f = as.findSome? fun a => (g a).findSome? f := by
  induction as with
  | nil => rfl
  | cons a rest ih =>
    rw [List.flatMap_cons, List.findSome?_append, ih, List.findSome?_cons]
    cases (g a).findSome? f <;> rfl

theorem size_fault (what : Sized) (n : Nat) : (Emission.size what n).fault =
    if n ≤ 0x7FFFFFFF then none else some (.oversize what n) := by
  unfold Emission.size
  by_cases small : n ≤ 0x7FFFFFFF
  · rw [if_pos small, if_pos (Nat.lt_succ_of_le small)]
  · rw [if_neg small, if_neg (by omega)]

theorem le_of_size_fault {what : Sized} {n : Nat} (h : (Emission.size what n).fault = none) :
    n ≤ 0x7FFFFFFF := by
  rw [size_fault] at h
  exact Decidable.byContradiction fun large => by simp [large] at h

theorem items_fault (what : Sized) (k : Kind) (n : Nat) :
    (Emission.items what k n).fault = (Emission.size what n).fault := by
  rw [Emission.items, append_fault]
  rfl

theorem entries_fault (k v : Kind) (n : Nat) :
    (Emission.entries k v n).fault = (Emission.size .map n).fault := by
  rw [Emission.entries, append_fault]
  rfl

theorem text_carried (s : String) : (text s).carried = (Text.utf8 s).length :=
  List.length_map _

theorem text_fault (s : String) : (Emission.string s).fault = (text s).refusal? := by
  unfold Emission.string refusal?
  dsimp only
  rw [text_carried]
  by_cases word : (Text.utf8 s).length < 0x100000000
  · rw [if_pos word, append_fault, Option.or_none, size_fault, if_pos (by omega : _ ≤ 0xFFFFFFFF)]
    rfl
  · rw [if_neg word, if_neg (by omega), if_neg (by omega)]

theorem carried_eq_headerCount {α : Type} {what : Sized} (container : what ≠ .string)
    (header : Bytes) (f : α → Bytes) (as : List α) :
    carried ⟨what, header, as.map f⟩ = headerCount as := by
  unfold carried headerCount
  cases what with
  | string => exact absurd rfl container
  | list | set | map => simp only [List.length_map]

theorem container_fault {α : Type} {what : Sized} (sort : what ≠ .string) (header : Emission)
    (write : α → Emission) (inner : α → List Counted) (as : List α)
    (size : header.fault = (Emission.size what (headerCount as)).fault)
    (items : ∀ a, (write a).fault = (inner a).findSome? refusal?) :
    (header ++ Emission.all (as.map write)).fault =
      (container what header write inner as).findSome? refusal? := by
  have word : headerCount as ≤ 0xFFFFFFFF := by
    unfold headerCount
    omega
  have first : header.fault =
      refusal? ⟨what, header.bytes, as.map fun a => (write a).bytes⟩ := by
    rw [size, size_fault, refusal?, carried_eq_headerCount sort, if_pos word]
  rw [append_fault, all_fault, container, List.findSome?_cons, findSome?_flatMap, ← first]
  simp only [items]
  cases header.fault <;> rfl

mutual

/-- Writing a value fails at the first of its sizes that is refused. -/
theorem Shape.write_fault : (s : Shape) → (a : s.Val) →
    (s.write a).fault = (s.counted a).findSome? refusal?
  | .bool, _ | .byte, _ | .i16, _ | .i32, _ | .i64, _ | .double, _ | .enum _ _, _ => rfl
  | .string, s => by
    rw [Shape.write, Shape.counted, text_fault, List.findSome?_singleton]
  | .list item, as =>
    container_fault (by decide) _ item.write item.counted as (items_fault ..) item.write_fault
  | .set item, as =>
    container_fault (by decide) _ item.write item.counted as (items_fault ..) item.write_fault
  | .map key value, es =>
    container_fault (by decide) _ _ _ es (entries_fault ..) fun e => by
      rw [append_fault, List.findSome?_append, key.write_fault e.1, value.write_fault e.2]
  | .record _ fields, record => by
    rw [Shape.write, Shape.counted, append_fault, fields.writeFields_fault record]
    exact Option.or_none

theorem Fields.writeFields_fault : (fs : Fields) → (record : fs.Val) →
    (fs.writeFields record).fault = (fs.counted record).findSome? refusal?
  | .nil, _ => rfl
  | .cons _ _ rest, (none, others) => rest.writeFields_fault others
  | .cons field shape rest, (some b, others) => by
    rw [Fields.writeFields, Fields.counted, append_fault, append_fault, shape.write_fault b,
      rest.writeFields_fault others, List.findSome?_append]
    rfl

end

theorem Fields.write_fault (fs : Fields) (record : fs.Val) :
    (fs.write record).fault = (fs.counted record).findSome? refusal? := by
  rw [Fields.write, append_fault, fs.writeFields_fault record]
  exact Option.or_none

theorem text_stands {s : String} (written : (Emission.string s).fault = none) :
    (text s).StandsIn (Emission.string s).bytes := by
  have small : (Text.utf8 s).length ≤ 0x7FFFFFFF := by
    rw [← text_carried, ← refusal?_eq_none_iff, ← text_fault]
    exact written
  have parts : (text s).parts.flatten = Text.utf8 s := by
    simp [text, ← List.flatMap_def]
  rw [emission_string s small]
  constructor
  · rw [Counted.bytes, parts]
    exact List.infix_rfl
  · rw [text_carried]
    exact size_reads .string _ (Nat.lt_succ_of_le small)

theorem items_announce {what : Sized} {k : Kind} {n : Nat}
    (written : (Emission.items what k n).fault = none) :
    Reads (Prod.snd <$> Decoder.items what) (Emission.items what k n).bytes n := by
  have small := le_of_size_fault ((items_fault what k n).symm.trans written)
  rw [Emission.items, emission_size what n small]
  exact (items_reads what k n (Nat.lt_succ_of_le small)).map Prod.snd

theorem entries_announce {k v : Kind} {n : Nat}
    (written : (Emission.entries k v n).fault = none) :
    Reads ((·.2.2) <$> Decoder.entries) (Emission.entries k v n).bytes n := by
  have small := le_of_size_fault ((entries_fault k v n).symm.trans written)
  rw [Emission.entries, emission_size .map n small]
  exact (entries_reads k v n (Nat.lt_succ_of_le small)).map (·.2.2)

theorem all_bytes {α : Type} (write : α → Emission) (as : List α)
    (written : ∀ a ∈ as, (write a).fault = none) :
    (Emission.all (as.map write)).bytes = (as.map fun a => (write a).bytes).flatten := by
  have whole : ∀ a ∈ as, write a = ⟨(write a).bytes, none⟩ := by
    intro a ha
    rw [← written a ha]
  rw [emission_all as whole, List.flatMap_def]

theorem container_stands {α : Type} {what : Sized} (sort : what ≠ .string) {header : Emission}
    {write : α → Emission} {inner : α → List Counted} {as : List α}
    (announce : header.fault = none → Reads (announced what) header.bytes (headerCount as))
    (items : ∀ a, (write a).fault = none → ∀ c ∈ inner a, c.StandsIn (write a).bytes)
    (written : (header ++ Emission.all (as.map write)).fault = none) :
    ∀ c ∈ container what header write inner as,
      c.StandsIn (header ++ Emission.all (as.map write)).bytes := by
  obtain ⟨begun, finished⟩ := (append_fault_eq_none_iff ..).mp written
  rw [all_fault, List.findSome?_eq_none_iff] at finished
  rw [emission_append begun, all_bytes write as finished]
  intro c hc
  rcases List.mem_cons.mp hc with rfl | inside
  · refine ⟨List.infix_rfl, ?_⟩
    rw [carried_eq_headerCount sort]
    exact announce begun
  · obtain ⟨a, ha, hca⟩ := List.mem_flatMap.mp inside
    have part : (write a).bytes ∈ as.map fun a => (write a).bytes :=
      List.mem_map_of_mem ha
    apply (items a (finished a ha) c hca).widen
    exact (List.infix_of_mem_flatten part).trans (List.suffix_append ..).isInfix

theorem stands_left {e f : Emission} {c : Counted} (written : (e ++ f).fault = none)
    (front : e.fault = none → c.StandsIn e.bytes) : c.StandsIn (e ++ f).bytes := by
  have begun := ((append_fault_eq_none_iff e f).mp written).1
  rw [emission_append begun]
  exact (front begun).widen (List.prefix_append ..).isInfix

theorem stands_right {e f : Emission} {c : Counted} (written : (e ++ f).fault = none)
    (back : f.fault = none → c.StandsIn f.bytes) : c.StandsIn (e ++ f).bytes := by
  obtain ⟨begun, finished⟩ := (append_fault_eq_none_iff e f).mp written
  rw [emission_append begun]
  exact (back finished).widen (List.suffix_append ..).isInfix

mutual

theorem Shape.counted_stands : (s : Shape) → (a : s.Val) → (s.write a).fault = none →
    ∀ c ∈ s.counted a, c.StandsIn (s.write a).bytes
  | .bool, _, _ | .byte, _, _ | .i16, _, _ | .i32, _, _ | .i64, _, _ | .double, _, _
  | .enum _ _, _, _ => nofun
  | .string, s, written => by
    intro c hc
    obtain rfl := List.mem_singleton.mp hc
    exact text_stands written
  | .list item, _, written =>
    container_stands (by decide) items_announce item.counted_stands written
  | .set item, _, written =>
    container_stands (by decide) items_announce item.counted_stands written
  | .map key value, _, written => by
    refine container_stands (by decide) entries_announce ?_ written
    intro e entry c hc
    rcases List.mem_append.mp hc with ofKey | ofValue
    · exact stands_left entry fun done => key.counted_stands e.1 done c ofKey
    · exact stands_right entry fun done => value.counted_stands e.2 done c ofValue
  | .record _ fields, record, written =>
    fun c hc => stands_left written fun done => fields.counted_stands record done c hc

theorem Fields.counted_stands : (fs : Fields) → (record : fs.Val) →
    (fs.writeFields record).fault = none →
    ∀ c ∈ fs.counted record, c.StandsIn (fs.writeFields record).bytes
  | .nil, _, _ => nofun
  | .cons _ _ rest, (none, others), written => rest.counted_stands others written
  | .cons field shape rest, (some b, others), written => by
    intro c hc
    rcases List.mem_append.mp hc with here | later
    · apply stands_left written
      exact fun present => stands_right present fun done => shape.counted_stands b done c here
    · exact stands_right written fun done => rest.counted_stands others done c later

end

/-- A record is written unless one of its sizes is refused. Each of its texts and containers then
stands behind a header that announces the number carried. So a record with a container that is too
large is written exactly if no size is refused and the items of some container do not fit a word;
its header announces what is left of their number. -/
theorem Fields.write_cuts_counts (fs : Fields) (record : fs.Val) :
    (fs.write record).fault = (fs.counted record).findSome? refusal? ∧
    ((fs.write record).fault = none → ∀ c ∈ fs.counted record,
      c.StandsIn (fs.write record).bytes ∧
      (c.carried ≠ c.parts.length ↔ 0x7FFFFFFF < c.parts.length)) ∧
    ((fs.write record).fault = none ∧ (∃ c ∈ fs.counted record, 0x7FFFFFFF < c.parts.length) ↔
      (∀ c ∈ fs.counted record, c.carried ≤ 0x7FFFFFFF) ∧
      ∃ c ∈ fs.counted record, c.what ≠ .string ∧ 0x100000000 ≤ c.parts.length) := by
  have accepted : (fs.write record).fault = none ↔
      ∀ c ∈ fs.counted record, c.carried ≤ 0x7FFFFFFF := by
    simp only [fs.write_fault, List.findSome?_eq_none_iff, refusal?_eq_none_iff]
  refine ⟨fs.write_fault record, fun written c hc => ⟨?_, ?_⟩, ?_⟩
  · exact stands_left written fun done => fs.counted_stands record done c hc
  · exact c.carried_ne_length_iff (accepted.mp written c hc)
  · rw [accepted]
    refine and_congr_right fun small => exists_congr fun c => and_congr_right fun hc => ?_
    exact c.length_large_iff (small c hc)

end Idl

namespace Idl.Tutorial

open Wire Counted

def crowd (n : Nat) : containersFields.Val :=
  (some (List.replicate n (0 : Int32)), containersFields.absent.2)

def zeros (n : Nat) : Counted :=
  ⟨.list, (Emission.items .list .i32 (headerCount (List.replicate n (0 : Int32)))).bytes,
    (List.replicate n (0 : Int32)).map fun a => (Shape.i32.write a).bytes⟩

theorem zeros_length (n : Nat) : (zeros n).parts.length = n := by
  rw [zeros, List.length_map, List.length_replicate]

theorem zeros_carried (n : Nat) : (zeros n).carried = n % 0x100000000 := by
  rw [zeros, carried_eq_headerCount (by decide), headerCount, List.length_replicate]

theorem crowd_counted (n : Nat) : containersFields.counted (crowd n) = [zeros n] := by
  have plain : (List.replicate n (0 : Int32)).flatMap Shape.i32.counted = [] :=
    List.flatMap_eq_nil_iff.mpr fun _ _ => rfl
  change container .list _ Shape.i32.write Shape.i32.counted (List.replicate n 0) ++ [] = _
  rw [List.append_nil, container, plain]
  rfl

theorem zeros_mem (n : Nat) : zeros n ∈ containersFields.counted (crowd n) := by
  rw [crowd_counted]
  exact List.mem_singleton_self _

-- The length stays a variable up to here, so that no list of that length is ever computed.
theorem crowd_accepted {n : Nat} (small : n % 0x100000000 ≤ 0x7FFFFFFF) :
    (containersFields.write (crowd n)).fault = none := by
  rw [Fields.write_fault, crowd_counted, List.findSome?_singleton, refusal?_eq_none_iff,
    zeros_carried]
  exact small

theorem write_cuts_counts_crowd : (containersFields.write (crowd 0x100000000)).fault = none ∧
    (zeros 0x100000000).parts.length = 0x100000000 ∧ (zeros 0x100000000).carried = 0 ∧
    (zeros 0x100000000).StandsIn (containersFields.write (crowd 0x100000000)).bytes := by
  have written : (containersFields.write (crowd 0x100000000)).fault = none :=
    crowd_accepted (by decide)
  refine ⟨written, zeros_length _, zeros_carried _, ?_⟩
  exact ((containersFields.write_cuts_counts (crowd 0x100000000)).2.1 written _ (zeros_mem _)).1

/-- Neither is a record with a container that is too large always refused, nor does every header
that is written announce the number of parts behind it. -/
theorem crowd_written :
    (¬ ∀ record : containersFields.Val,
      (∃ c ∈ containersFields.counted record, c.what ≠ .string ∧ 0x7FFFFFFF < c.parts.length) →
        (containersFields.write record).fault ≠ none) ∧
    ¬ ∀ record : containersFields.Val, (containersFields.write record).fault = none →
      ∀ c ∈ containersFields.counted record, Reads (announced c.what) c.header c.parts.length := by
  have written : (containersFields.write (crowd 0x100000000)).fault = none :=
    crowd_accepted (by decide)
  constructor
  · intro refused
    have large : 0x7FFFFFFF < (zeros 0x100000000).parts.length := by
      rw [zeros_length]
      decide
    exact refused (crowd 0x100000000) ⟨_, zeros_mem _, nofun, large⟩ written
  · intro faithful
    have stands : (zeros 0x100000000).StandsIn (containersFields.write (crowd 0x100000000)).bytes :=
      stands_left written fun done => containersFields.counted_stands _ done _ (zeros_mem _)
    have same := stands.announces.unique (faithful (crowd 0x100000000) written _ (zeros_mem _))
    rw [zeros_carried, zeros_length] at same
    exact absurd same (by decide)

end Idl.Tutorial
