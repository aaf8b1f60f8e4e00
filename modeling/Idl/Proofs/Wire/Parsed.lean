import Idl.Proofs.Wire.Taking

/-!
# The trees behind what was skipped

Bytes can be skipped only if they are those of a well-formed tree that is not too deep. So a skip
passes over nothing but whole values, and takes at least as many bytes as the values that are
announced to it.
-/

set_option autoImplicit false

namespace Idl.Wire

open Wire.Tree

variable {α γ : Type}

theorem times_takes {d : Decoder Unit} {good : γ → Prop} {bytes : γ → Bytes}
    (each : Takes d fun _ front => ∃ x, good x ∧ front = bytes x) (n : Nat) :
    Takes (Decoder.times n d) fun _ front =>
      ∃ xs : List γ, xs.length = n ∧ (∀ x ∈ xs, good x) ∧ front = xs.flatMap bytes := by
  induction n with
  | zero => exact .pure ⟨[], rfl, by simp, rfl⟩
  | succ n ih =>
    apply each.bind
    rintro _ _ ⟨x, hx, rfl⟩
    apply ih.imp
    rintro _ _ ⟨xs, rfl, hxs, rfl⟩
    exact ⟨x :: xs, rfl, List.forall_mem_cons.mpr ⟨hx, hxs⟩, rfl⟩

theorem foldFields_takes {step : FieldHeader → α → Decoder α} (good : Record → Prop)
    (apply : α → Record → α)
    (each : ∀ header a, Takes (step header a) fun b front => ∃ t : Tree, t.kind = header.kind ∧
      good (header.id, t) ∧ b = apply a (header.id, t) ∧ front = t.encode) (a : α) :
    Takes (fun bytes => (foldFields step a bytes).result) fun b front => ∃ rs : List Record,
      (∀ r ∈ rs, good r) ∧ b = rs.foldl apply a ∧ front = (Tree.struct rs).encode := by
  have loop (budget : Nat) (a : α) : Takes (fieldLoop step budget a) fun b front =>
      ∃ rs : List Record, (∀ r ∈ rs, good r) ∧ b = rs.foldl apply a ∧
        front = (Tree.struct rs).encode := by
    induction budget generalizing a with
    | zero =>
      intro bytes b rest done
      cases done
    | succ budget ih =>
      rw [fieldLoop_succ]
      apply field_takes.bind
      intro header front hfront
      cases header with
      | none =>
        obtain rfl := hfront
        exact .pure ⟨[], by simp, rfl, rfl⟩
      | some header =>
        obtain ⟨-, rfl⟩ := hfront
        apply (each header a).bind
        rintro b _ ⟨t, kind, ht, rfl, rfl⟩
        apply (ih _).imp
        rintro c _ ⟨rs, hrs, rfl, rfl⟩
        refine ⟨(header.id, t) :: rs, List.forall_mem_cons.mpr ⟨ht, hrs⟩, rfl, ?_⟩
        simp [encode, encodeRecords, kind]
  intro bytes
  exact loop bytes.length a bytes

/-- The tree can be skipped within some depth as a value of some kind. -/
structure Tree.Skippable (depth : Nat) (kind : Kind) (t : Tree) : Prop where
  kind_eq : t.kind = kind
  wellFormed : t.WellFormed
  shallow : t.depth ≤ depth

abbrev TakesTree (depth : Nat) (kind : Kind) (d : Decoder Unit) : Prop :=
  Takes d fun _ front => ∃ t : Tree, t.Skippable depth kind ∧ front = t.encode

theorem skippable_scalar (depth : Nat) (s : Scalar) (h : s.WellFormed) :
    (Tree.scalar s).Skippable (depth + 1) s.kind :=
  ⟨rfl, .scalar h, Nat.succ_le_succ (Nat.zero_le depth)⟩

theorem skip_scalar_takes {d : Decoder α} (depth : Nat) (kind : Kind)
    (h : Takes d fun _ front => ∃ s : Scalar, s.kind = kind ∧ s.WellFormed ∧ front = s.encode) :
    TakesTree (depth + 1) kind (discard d) := by
  apply h.map
  rintro _ _ ⟨s, rfl, wellFormed, rfl⟩
  exact ⟨.scalar s, skippable_scalar depth s wellFormed, rfl⟩

theorem skip_items_takes (what : Sized) (depth : Nat)
    (ih : ∀ kind, TakesTree depth kind (skipWithin depth kind)) :
    Takes
      (do
        let (item, n) ← Decoder.items what
        Decoder.times n (skipWithin depth item))
      fun _ front => ∃ item ts, ts.length ≤ 0x7FFFFFFF ∧ (∀ t ∈ ts, t.Skippable depth item) ∧
        front = item.tag :: bigEndian 4 ts.length ++ encodeItems ts := by
  apply (items_takes what).bind
  rintro ⟨item, n⟩ _ ⟨small, rfl⟩
  apply (times_takes (ih item) n).imp
  rintro _ _ ⟨ts, rfl, hts, rfl⟩
  exact ⟨item, ts, Nat.le_of_lt_succ small, hts, by rw [encodeItems_eq]⟩

theorem skip_entries_takes (depth : Nat)
    (ih : ∀ kind, TakesTree depth kind (skipWithin depth kind)) :
    TakesTree (depth + 1) .map (skipWithin (depth + 1) .map) := by
  apply entries_takes.bind
  rintro ⟨key, value, n⟩ _ ⟨small, rfl⟩
  have entry : Takes (do skipWithin depth key; skipWithin depth value) fun _ front =>
      ∃ e : Tree × Tree, (e.1.Skippable depth key ∧ e.2.Skippable depth value) ∧
        front = e.1.encode ++ e.2.encode := by
    apply (ih key).bind
    rintro _ _ ⟨k, hk, rfl⟩
    apply (ih value).imp
    rintro _ _ ⟨v, hv, rfl⟩
    exact ⟨(k, v), ⟨hk, hv⟩, rfl⟩
  apply (times_takes entry n).imp
  rintro _ _ ⟨es, rfl, hes, rfl⟩
  refine ⟨.map key value es, ⟨rfl, .map (Nat.le_of_lt_succ small)
    (fun e he => ⟨(hes e he).1.kind_eq, (hes e he).2.kind_eq⟩)
    (fun e he => (hes e he).1.wellFormed) (fun e he => (hes e he).2.wellFormed), ?_⟩, ?_⟩
  · exact Nat.succ_le_succ ((depthEntries_le es depth).mpr fun e he =>
      ⟨(hes e he).1.shallow, (hes e he).2.shallow⟩)
  · rw [encode, encodeEntries_eq]

theorem depthRecords_le (rs : List Record) (n : Nat) :
    depthRecords rs ≤ n ↔ ∀ r ∈ rs, r.2.depth ≤ n := by
  induction rs with
  | nil => simp [depthRecords]
  | cons r rest ih => rw [depthRecords, Nat.max_le, ih, List.forall_mem_cons]

theorem skip_records_takes (depth : Nat)
    (ih : ∀ kind, TakesTree depth kind (skipWithin depth kind)) :
    TakesTree (depth + 1) .struct (skipWithin (depth + 1) .struct) := by
  have each (header : FieldHeader) (_ : Unit) : Takes (skipWithin depth header.kind)
      fun b front => ∃ t : Tree, t.kind = header.kind ∧ (t.WellFormed ∧ t.depth ≤ depth) ∧
        b = () ∧ front = t.encode := by
    apply (ih header.kind).imp
    rintro _ _ ⟨t, ht, rfl⟩
    exact ⟨t, ht.kind_eq, ⟨ht.wellFormed, ht.shallow⟩, rfl, rfl⟩
  apply (foldFields_takes (fun r => r.2.WellFormed ∧ r.2.depth ≤ depth) (fun _ _ => ()) each ()).imp
  rintro _ _ ⟨rs, hrs, -, rfl⟩
  refine ⟨.struct rs, ⟨rfl, .struct fun r hr => (hrs r hr).1, ?_⟩, rfl⟩
  exact Nat.succ_le_succ ((depthRecords_le rs depth).mpr fun r hr => (hrs r hr).2)

/-- What is skipped is the encoding of a well-formed tree of the kind, not deeper than allowed. -/
theorem skipWithin_takes (depth : Nat) (kind : Kind) :
    TakesTree depth kind (skipWithin depth kind) := by
  induction depth generalizing kind with
  | zero => exact .throw _
  | succ depth ih =>
    cases kind with
    | stop | void => exact .throw _
    | bool =>
      apply skip_scalar_takes depth
      apply bool_takes.imp
      rintro _ _ ⟨mark, rfl, -⟩
      exact ⟨.bool mark, rfl, trivial, rfl⟩
    | byte =>
      exact skip_scalar_takes depth _ (byte_takes.imp fun n _ h => ⟨.byte n, rfl, trivial, h⟩)
    | i16 => exact skip_scalar_takes depth _ (i16_takes.imp fun n _ h => ⟨.i16 n, rfl, trivial, h⟩)
    | i32 => exact skip_scalar_takes depth _ (i32_takes.imp fun n _ h => ⟨.i32 n, rfl, trivial, h⟩)
    | i64 => exact skip_scalar_takes depth _ (i64_takes.imp fun n _ h => ⟨.i64 n, rfl, trivial, h⟩)
    | double =>
      exact skip_scalar_takes depth _ (double_takes.imp fun d _ h => ⟨.double d, rfl, trivial, h⟩)
    | string =>
      apply skip_scalar_takes depth
      apply string_takes.imp
      rintro s _ ⟨short, rfl⟩
      exact ⟨.string s, rfl, Nat.le_of_lt_succ short, rfl⟩
    | struct => exact skip_records_takes depth ih
    | map => exact skip_entries_takes depth ih
    | list =>
      apply (skip_items_takes .list depth ih).imp
      rintro _ _ ⟨item, ts, size, hts, rfl⟩
      refine ⟨.list item ts, ⟨rfl, .list size (fun t ht => (hts t ht).kind_eq)
        fun t ht => (hts t ht).wellFormed, ?_⟩, rfl⟩
      exact Nat.succ_le_succ ((depthItems_le ts depth).mpr fun t ht => (hts t ht).shallow)
    | set =>
      apply (skip_items_takes .set depth ih).imp
      rintro _ _ ⟨item, ts, size, hts, rfl⟩
      refine ⟨.set item ts, ⟨rfl, .set size (fun t ht => (hts t ht).kind_eq)
        fun t ht => (hts t ht).wellFormed, ?_⟩, rfl⟩
      exact Nat.succ_le_succ ((depthItems_le ts depth).mpr fun t ht => (hts t ht).shallow)

end Idl.Wire
