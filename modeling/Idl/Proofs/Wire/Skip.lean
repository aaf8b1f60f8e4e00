import Idl.Proofs.Wire.Records
import Idl.Wire.Skip

/-!
# Skipping well-formed values

Skipping takes exactly the bytes of a well-formed value that is not too deep, and refuses one
that is deeper. Both come from one induction: a decoder passes some bytes under a condition if
it takes them when the condition holds and finds them too deep when it does not.
-/

set_option autoImplicit false

namespace Idl.Wire

open Wire.Tree

/-- The decoder takes exactly `bytes` if the condition holds, and else finds them too deep. -/
structure Passes (d : Decoder Unit) (bytes : Bytes) (condition : Prop) : Prop where
  reads : condition → Reads d bytes ()
  fails : ¬ condition → Fails d bytes .tooDeep

namespace Passes

variable {d e : Decoder Unit} {front back : Bytes} {p q : Prop}

theorem congr (h : Passes d front p) (hpq : p ↔ q) : Passes d front q :=
  ⟨fun hq => h.reads (hpq.mpr hq), fun hq => h.fails (mt hpq.mp hq)⟩

theorem of_eq (he : Passes e back p) (h : ∀ rest, d (front ++ rest) = e (back ++ rest)) :
    Passes d front p where
  reads := fun hp rest => (h rest).trans (he.reads hp rest)
  fails := fun hp rest => (he.fails hp rest).imp fun _ => (h rest).trans

theorem nothing : Passes (pure ()) [] True :=
  ⟨fun _ => Reads.pure (), fun h => absurd trivial h⟩

theorem bind (hd : Passes d front p) (he : Passes e back q) :
    Passes (d >>= fun _ => e) (front ++ back) (p ∧ q) where
  reads := fun h => (hd.reads h.1).bind (he.reads h.2)
  fails := by
    intro h
    by_cases hp : p
    · exact (hd.reads hp).fails_bind (he.fails fun hq => h ⟨hp, hq⟩)
    · exact (hd.fails hp).bind _ back

theorem after {α : Type} {h : Decoder α} {f : α → Decoder Unit} {a : α} (hh : Reads h front a)
    (hf : Passes (f a) back p) : Passes (h >>= f) (front ++ back) p :=
  ⟨fun hp => hh.bind (hf.reads hp), fun hp => hh.fails_bind (hf.fails hp)⟩

end Passes

theorem skip_scalar (s : Scalar) (h : s.WellFormed) (budget : Nat) :
    Reads (skipWithin (budget + 1) s.kind) s.encode () := by
  cases s with
  | bool mark => exact (bool_reads mark).map _
  | byte n => exact (byte_reads n).map _
  | i16 n => exact (i16_reads n).map _
  | i32 n => exact (i32_reads n).map _
  | i64 n => exact (i64_reads n).map _
  | double d => exact (double_reads d).map _
  | string s => exact (string_reads s (Nat.lt_succ_of_le h)).map _

theorem times_passes {α : Type} (d : Decoder Unit) (bytes : α → Bytes) (condition : α → Prop)
    (xs : List α) (h : ∀ x ∈ xs, Passes d (bytes x) (condition x)) :
    Passes (Decoder.times xs.length d) (xs.flatMap bytes) (∀ x ∈ xs, condition x) := by
  induction xs with
  | nil => exact Passes.nothing.congr (by simp)
  | cons x xs ih =>
    have head := h x List.mem_cons_self
    have tail := ih fun y hy => h y (List.mem_cons_of_mem _ hy)
    exact (head.bind tail).congr (by rw [List.forall_mem_cons])

theorem skip_items (budget : Nat) (item : Kind) (items : List Tree)
    (kinds : ∀ t ∈ items, t.kind = item)
    (h : ∀ t ∈ items, Passes (skipWithin budget t.kind) t.encode (t.depth ≤ budget)) :
    Passes (Decoder.times items.length (skipWithin budget item)) (encodeItems items)
      (depthItems items ≤ budget) := by
  rw [encodeItems_eq, depthItems_le]
  apply times_passes
  intro t ht
  rw [← kinds t ht]
  exact h t ht

theorem skip_entries (budget : Nat) (key value : Kind) (entries : List (Tree × Tree))
    (kinds : ∀ e ∈ entries, e.1.kind = key ∧ e.2.kind = value)
    (hk : ∀ e ∈ entries, Passes (skipWithin budget e.1.kind) e.1.encode (e.1.depth ≤ budget))
    (hv : ∀ e ∈ entries, Passes (skipWithin budget e.2.kind) e.2.encode (e.2.depth ≤ budget)) :
    Passes
      (Decoder.times entries.length do
        skipWithin budget key
        skipWithin budget value)
      (encodeEntries entries) (depthEntries entries ≤ budget) := by
  rw [encodeEntries_eq, depthEntries_le]
  apply times_passes
  intro e he
  rw [← (kinds e he).1, ← (kinds e he).2]
  exact (hk e he).bind (hv e he)

theorem skip_records (budget : Nat) (rs : List Record)
    (h : ∀ r ∈ rs, Passes (skipWithin budget r.2.kind) r.2.encode (r.2.depth ≤ budget))
    (fields : Nat) (hlen : rs.length < fields) :
    Passes
      (fun bytes => (foldFieldsWithin (fun header _ => skipWithin budget header.kind) fields ()
        bytes).result)
      (encodeRecords rs ++ [Kind.stop.tag]) (depthRecords rs ≤ budget) := by
  induction rs generalizing fields with
  | nil =>
    obtain ⟨fields, rfl⟩ := Nat.exists_eq_succ_of_ne_zero (Nat.ne_of_gt hlen)
    refine ⟨fun _ rest => ?_, fun h => absurd (Nat.zero_le budget) h⟩
    exact congrArg Progress.result (fold_stop _ fields () rest)
  | cons r rs ih =>
    obtain ⟨fields, rfl⟩ := Nat.exists_eq_succ_of_ne_zero (Nat.ne_of_gt (Nat.zero_lt_of_lt hlen))
    have head := h r List.mem_cons_self
    have tail := ih (fun r hr => h r (List.mem_cons_of_mem _ hr)) fields
      (Nat.lt_of_succ_lt_succ hlen)
    refine ((head.bind tail).of_eq fun rest => ?_).congr Nat.max_le.symm
    rw [List.append_assoc, fold_record_result]
    simp only [List.append_assoc]
    rfl

theorem skip_levels (t : Tree) (inner : Nat) (deep : t.depth = inner + 1)
    (h : ∀ budget, Passes (skipWithin (budget + 1) t.kind) t.encode (inner ≤ budget))
    (budget : Nat) : Passes (skipWithin budget t.kind) t.encode (t.depth ≤ budget) := by
  rw [deep]
  cases budget with
  | zero =>
    exact ⟨fun hd => absurd hd (Nat.not_succ_le_zero inner), fun _ rest => ⟨t.encode ++ rest, rfl⟩⟩
  | succ budget => exact (h budget).congr Nat.succ_le_succ_iff.symm

theorem skip_passes (t : Tree) (h : t.WellFormed) (budget : Nat) :
    Passes (skipWithin budget t.kind) t.encode (t.depth ≤ budget) := by
  induction h generalizing budget with
  | @scalar value h =>
    apply skip_levels (.scalar value) 0 rfl
    intro budget
    exact ⟨fun _ => skip_scalar value h budget, fun hd => absurd (Nat.zero_le budget) hd⟩
  | @struct records h ih =>
    apply skip_levels (.struct records) (depthRecords records) rfl
    intro budget
    have body := fun fields hlen =>
      skip_records budget records (fun r hr => ih r hr budget) fields hlen
    -- Each record takes a byte, so that the budget of fields is never what ends the loop.
    have enough : ∀ rest, records.length < ((Tree.struct records).encode ++ rest).length := by
      intro rest
      have := length_encodeRecords records ([Kind.stop.tag] ++ rest)
      simp only [encode, List.length_append, List.length_cons] at *
      omega
    exact ⟨fun hd rest => (body _ (enough rest)).reads hd rest,
      fun hd rest => (body _ (enough rest)).fails hd rest⟩
  | @list item items size kinds h ih =>
    apply skip_levels (.list item items) (depthItems items) rfl
    intro budget
    have body := skip_items budget item items kinds fun t ht => ih t ht budget
    exact Passes.after (items_reads .list item _ (Nat.lt_succ_of_le size)) body
  | @set item items size kinds h ih =>
    apply skip_levels (.set item items) (depthItems items) rfl
    intro budget
    have body := skip_items budget item items kinds fun t ht => ih t ht budget
    exact Passes.after (items_reads .set item _ (Nat.lt_succ_of_le size)) body
  | @map key value entries size kinds keys values ihk ihv =>
    apply skip_levels (.map key value entries) (depthEntries entries) rfl
    intro budget
    have body := skip_entries budget key value entries kinds (fun e he => ihk e he budget)
      fun e he => ihv e he budget
    exact Passes.after (entries_reads key value _ (Nat.lt_succ_of_le size)) body

/-- A well-formed value at most sixty-four deep is skipped exactly; a deeper one is refused. -/
theorem skip_encode (t : Tree) (h : t.WellFormed) (rest : Bytes) :
    (t.depth ≤ 64 → skip t.kind (t.encode ++ rest) = .ok () rest) ∧
    (64 < t.depth → ∃ fault left, skip t.kind (t.encode ++ rest) = .error fault left ∧
      fault.category = .depthLimit) := by
  have hp := skip_passes t h maxDepth
  constructor
  · intro hd
    exact hp.reads hd rest
  · intro hd
    obtain ⟨left, hl⟩ := hp.fails (Nat.not_le_of_gt hd) rest
    exact ⟨.tooDeep, left, hl, rfl⟩

def nestedLists : Nat → Tree
  | 0 => .scalar (.bool 1)
  | n + 1 => .list (nestedLists n).kind [nestedLists n]

theorem nestedLists_wellFormed (n : Nat) : (nestedLists n).WellFormed := by
  induction n with
  | zero => exact .scalar trivial
  | succ n ih => exact .list (by simp) (by simp) (by simpa using ih)

theorem nestedLists_depth (n : Nat) : (nestedLists n).depth = n + 1 := by
  induction n with
  | zero => rfl
  | succ n ih => simp [nestedLists, depth, depthItems, ih]

theorem skip_encode_nestedLists :
    skip .list ((nestedLists 63).encode ++ [7]) = .ok () [7] ∧
    ∃ fault left, skip .list ((nestedLists 64).encode ++ [7]) = .error fault left ∧
      fault.category = .depthLimit :=
  ⟨(skip_encode (nestedLists 63) (nestedLists_wellFormed 63) [7]).1
      (Nat.le_of_eq (nestedLists_depth 63)),
    (skip_encode (nestedLists 64) (nestedLists_wellFormed 64) [7]).2
      (Nat.le_of_eq (nestedLists_depth 64).symm)⟩

end Idl.Wire
