import Idl.Proofs.Wire.Reading
import Idl.Wire.Operation

/-!
# What a failed operation leaves

An operation fails only if a size does not fit a signed word. The size of a text is checked before
anything is appended, so that a text that is too long leaves no bytes. The headers of messages and
of containers are appended up to the size before it is checked: if one of them fails, its beginning
stays in the output.
-/

set_option autoImplicit false

namespace Idl.Wire

/-- The emission checks a size first, and appends nothing if it is too large. -/
structure Emission.Checks (e : Emission) (n : Nat) : Prop where
  written : n ≤ 0x7FFFFFFF → e.fault = none
  refused : 0x7FFFFFFF < n → e.fault ≠ none ∧ e.bytes = []

namespace Emission.Checks

theorem size (what : Sized) (n : Nat) : (Emission.size what n).Checks n where
  written := by
    intro small
    rw [emission_size what n small]
  refused := by
    intro large
    rw [Emission.size, if_neg (by omega)]
    exact ⟨by simp, rfl⟩

theorem append {e f : Emission} {n : Nat} (h : e.Checks n) (never : f.fault = none) :
    (e ++ f).Checks n where
  written := by
    intro small
    rw [emission_append (h.written small)]
    exact never
  refused := by
    intro large
    obtain ⟨failed, nothing⟩ := h.refused large
    obtain ⟨fault, found⟩ := Option.ne_none_iff_exists'.mp failed
    have stopped : e ++ f = e := by
      change e.andThen f = e
      rw [Emission.andThen, found]
    rw [stopped]
    exact ⟨failed, nothing⟩

theorem string (s : String) : (Emission.string s).Checks (Text.utf8 s).length := by
  unfold Emission.string
  dsimp only
  by_cases word : (Text.utf8 s).length < 0x100000000
  · rw [if_pos word]
    exact (size .string _).append rfl
  · rw [if_neg word]
    exact ⟨fun small => absurd small (by omega), fun _ => ⟨by simp, rfl⟩⟩

end Emission.Checks

namespace Operation

def size? : Operation → Option Nat
  | .message header => some (Text.utf8 header.name).length
  | .list _ size | .set _ size | .map _ _ size => some size.toNat
  | .string s => some (Text.utf8 s).length
  | _ => none

/-- What the operation appends before its size. -/
def head : Operation → Bytes
  | .message header => [0x80, 0x01, 0, header.kind.tag]
  | .list item _ | .set item _ => [item.tag]
  | .map key value _ => [key.tag, value.tag]
  | _ => []

theorem emission_unsized (op : Operation) (unsized : op.size? = none) :
    op.emission.fault = none := by
  cases op <;> first | rfl | cases unsized

/-- The emission of an operation with a size is its head and then an emission that checks the
size. -/
theorem emission_sized (op : Operation) (n : Nat) (sized : op.size? = some n) :
    ∃ body : Emission, op.emission = ⟨op.head ++ body.bytes, body.fault⟩ ∧ body.Checks n := by
  cases op with
  | message header =>
    cases sized
    refine ⟨Emission.string header.name ++ Emission.i32 header.seqId, ?_,
      (Emission.Checks.string header.name).append rfl⟩
    change ⟨bigEndian 4 (Emission.messageWord header.kind), none⟩ ++ Emission.string header.name ++
      Emission.i32 header.seqId = _
    rw [bigEndian_messageWord]
    cases Emission.string header.name with
    | mk bytes fault =>
      cases fault with
      | none => exact congrArg (Emission.mk · none) (List.append_assoc _ _ _)
      | some fault => rfl
  | list item size =>
    cases sized
    exact ⟨_, rfl, .size .list size.toNat⟩
  | set item size =>
    cases sized
    exact ⟨_, rfl, .size .set size.toNat⟩
  | map key value size =>
    cases sized
    exact ⟨_, rfl, .size .map size.toNat⟩
  | string s =>
    cases sized
    exact ⟨_, rfl, .string s⟩
  | _ => cases sized

theorem fails_iff (op : Operation) :
    op.emission.fault ≠ none ↔ ∃ n ∈ op.size?, 0x7FFFFFFF < n := by
  cases sized : op.size? with
  | none => simp [emission_unsized op sized]
  | some n =>
    obtain ⟨body, split, checks⟩ := emission_sized op n sized
    rw [split]
    by_cases small : n ≤ 0x7FFFFFFF
    · simp [checks.written small, small]
    · simp [checks.refused (Nat.lt_of_not_le small), Nat.lt_of_not_le small]

theorem bytes_of_fails (op : Operation) (failed : op.emission.fault ≠ none) :
    op.emission.bytes = op.head := by
  obtain ⟨n, sized, large⟩ := (fails_iff op).mp failed
  obtain ⟨body, split, checks⟩ := emission_sized op n sized
  rw [split, (checks.refused large).2, List.append_nil]

theorem head_eq_nil_iff (op : Operation) (n : Nat) (sized : op.size? = some n) :
    op.head = [] ↔ ∃ s, op = .string s := by
  cases op with
  | message | list | set | map | string => simp [head]
  | _ => cases sized

theorem run_fails_iff (op : Operation) (written : Bytes) :
    (∃ fault, (op.run written).1 = .error fault) ↔ op.emission.fault ≠ none := by
  unfold run
  cases op.emission.fault <;> simp

/-- An operation fails exactly if its size does not fit a signed word. The output then keeps the
head of the operation, so that it is what it was before only if the operation is a text. -/
theorem failed_leaves_head (op : Operation) (written : Bytes) :
    ((∃ fault, (op.run written).1 = .error fault) ↔ ∃ n ∈ op.size?, 0x7FFFFFFF < n) ∧
    ∀ fault after, op.run written = (.error fault, after) →
      after = written ++ op.head ∧ (after = written ↔ ∃ s, op = .string s) := by
  refine ⟨(op.run_fails_iff written).trans op.fails_iff, ?_⟩
  intro fault after failed
  have faulty := (op.run_fails_iff written).mp ⟨fault, congrArg Prod.fst failed⟩
  obtain ⟨n, sized, -⟩ := op.fails_iff.mp faulty
  have left : after = written ++ op.head := by
    rw [← op.bytes_of_fails faulty]
    exact (congrArg Prod.snd failed).symm
  refine ⟨left, ?_⟩
  rw [left, List.append_right_eq_self, op.head_eq_nil_iff n sized]

theorem failed_leaves_head_map :
    ∃ fault after, (Operation.map .i32 .string 0x80000000).run [7] = (.error fault, after) ∧
      after = [7] ++ [8, 11] ∧ ¬ (after = [7]) := by
  obtain ⟨left, same⟩ :=
    (failed_leaves_head (.map .i32 .string 0x80000000) [7]).2 _ [7, 8, 11] rfl
  exact ⟨_, _, rfl, left, fun kept => by simpa using same.mp kept⟩

/-- The kind of the items of a list stays in an output that could not take their number. -/
theorem list_header_left_behind :
    ¬ ∀ (op : Operation) (written after : Bytes) (fault : Fault),
      op.run written = (.error fault, after) → after = written := by
  intro unchanged
  have same := unchanged (.list .i32 0x80000000) [] [8] (.oversize .list 0x80000000) rfl
  cases same

end Operation

end Idl.Wire
