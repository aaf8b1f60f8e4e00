import Mathlib.Data.Finset.Card
import Mathlib.Data.List.Dedup
import Idl.Proofs.Order

/-!
# One order for all doubles

Doubles are compared by a key, told apart by their bits and counted by their bits. The key runs
through the negative patterns backwards and then through the positive ones, and no two patterns
have the same key. So the comparison is a total order on all patterns, the payloads of NaN and both
zeros included, and what is told apart by it is told apart by the bits.
-/

set_option autoImplicit false

namespace Idl

theorem eraseDups_nodup {α : Type} [DecidableEq α] (items : List α) : items.eraseDups.Nodup := by
  -- What follows the first item is filtered, so the induction is on the length.
  induction size : items.length using Nat.strong_induction_on generalizing items with
  | _ n ih =>
    cases items with
    | nil => simp
    | cons a rest =>
      have shorter : (rest.filter fun b => !b == a).length < n := by
        have kept := List.length_filter_le (fun b => !b == a) rest
        rw [List.length_cons] at size
        omega
      rw [List.eraseDups_cons, List.nodup_cons]
      refine ⟨?_, ih _ shorter _ rfl⟩
      simp [List.mem_eraseDups]

namespace Double

theorem order_total : TotalOrder order :=
  .on .ints key key_injective

instance : Std.TransCmp order := order_total.trans

instance : Std.LawfulEqCmp order := order_total.lawful

theorem order_eq_iff (a b : Double) : a.order b = .eq ↔ a.bits = b.bits := by
  rw [Std.LawfulEqCmp.compare_eq_iff_eq]
  cases a
  cases b
  simp

theorem order_lt_iff_key (a b : Double) : a.order b = .lt ↔ a.key < b.key := by
  unfold order orderInts
  by_cases less : a.key < b.key
  · simp [less]
  · by_cases same : a.key = b.key <;> simp [less, same]

theorem isLE_order_iff (a b : Double) : (a.order b).isLE ↔ a.key ≤ b.key := by
  have swapped : (a.order b).isLE ↔ ¬ b.order a = .lt := by
    rw [@Std.OrientedCmp.eq_swap _ order _ a b]
    cases b.order a <;> simp
  rw [swapped, order_lt_iff_key]
  omega

/-- Negative patterns come first, and among them the larger magnitude; positive patterns follow, and
among them the smaller magnitude comes first. -/
theorem order_lt_iff (a b : Double) : a.order b = .lt ↔
    (a.isNegative ∧ ¬ b.isNegative) ∨
    (¬ a.isNegative ∧ ¬ b.isNegative ∧ a.magnitude < b.magnitude) ∨
      (a.isNegative ∧ b.isNegative ∧ b.magnitude < a.magnitude) := by
  rw [order_lt_iff_key]
  unfold key
  by_cases ha : a.isNegative <;> by_cases hb : b.isNegative <;> simp only [ha, hb] <;>
    simp <;> omega

theorem sorted_perm (ds : List Double) : (sorted ds).Perm ds :=
  List.mergeSort_perm ds _

theorem sorted_ascends (ds : List Double) :
    (sorted ds).Pairwise fun a b => (a.order b).isLE := by
  have trans : ∀ a b c : Double, decide (a.key ≤ b.key) = true → decide (b.key ≤ c.key) = true →
      decide (a.key ≤ c.key) = true := by
    intro a b c hab hbc
    simp only [decide_eq_true_eq] at *
    omega
  have total : ∀ a b : Double, (decide (a.key ≤ b.key) || decide (b.key ≤ a.key)) = true := by
    intro a b
    simp only [Bool.or_eq_true, decide_eq_true_eq]
    omega
  apply (List.pairwise_mergeSort trans total ds).imp
  intro a b upto
  exact (isLE_order_iff a b).mpr (of_decide_eq_true upto)

theorem toSet_eq_dedup (ds : List Double) : toSet ds = (sorted ds).dedup := by
  apply ascending_eq
  · have distinct := (sorted ds).nodup_dedup
    have pairs := (sorted_ascends ds).sublist (List.dedup_sublist (sorted ds))
    apply (pairs.and distinct).imp
    rintro a b ⟨upto, different⟩
    have unequal : a.key ≠ b.key := fun same => different (key_injective a b same)
    rw [isLE_order_iff] at upto
    rw [order_lt_iff_key]
    omega
  · intro d
    rw [List.mem_dedup, (sorted_perm ds).mem_iff]

theorem patterns_eq_card (ds : List Double) : patterns ds = (ds.map bits).toFinset.card := by
  have members : (ds.map bits).eraseDups.toFinset = (ds.map bits).toFinset := by
    ext b
    simp [List.mem_eraseDups]
  rw [patterns, ← members, List.toFinset_card_of_nodup (eraseDups_nodup _)]

theorem toSet_length (ds : List Double) : (toSet ds).length = patterns ds := by
  have distinct : ((toSet ds).map bits).Nodup := by
    apply (ascending_nodup order ds).map
    intro a b same
    exact (order_total.lawful.eq_of_compare ((order_eq_iff a b).mpr same))
  have members : ((toSet ds).map bits).toFinset = (ds.map bits).toFinset := by
    ext b
    simp [toSet, mem_ascending]
  rw [patterns_eq_card, ← members, List.toFinset_card_of_nodup distinct, List.length_map]

theorem max?_eq_none_iff (ds : List Double) : max? ds = none ↔ ds = [] := by
  cases ds with
  | nil => simp [max?]
  | cons d ds =>
    unfold max?
    cases max? ds <;> simp

theorem max?_isTop (ds : List Double) (top : Double) (found : max? ds = some top) :
    top ∈ ds ∧ ∀ d ∈ ds, d.key ≤ top.key := by
  induction ds generalizing top with
  | nil => cases found
  | cons d ds ih =>
    rw [max?] at found
    cases later : max? ds with
    | none =>
      rw [later] at found
      cases found
      simp [(max?_eq_none_iff ds).mp later]
    | some best =>
      obtain ⟨member, above⟩ := ih best later
      rw [later] at found
      simp only [Option.some.injEq] at found
      by_cases less : best.key < d.key
      · rw [if_pos less] at found
        subst found
        refine ⟨List.mem_cons_self, List.forall_mem_cons.mpr ⟨Int.le_refl _, ?_⟩⟩
        intro e he
        have := above e he
        omega
      · rw [if_neg less] at found
        subst found
        exact ⟨List.mem_cons_of_mem d member, List.forall_mem_cons.mpr ⟨by omega, above⟩⟩

theorem getLast?_sorted (ds : List Double) (top : Double) (last : (sorted ds).getLast? = some top) :
    top ∈ ds ∧ ∀ d ∈ ds, d.key ≤ top.key := by
  obtain ⟨before, split⟩ := List.getLast?_eq_some_iff.mp last
  have ascends := sorted_ascends ds
  rw [split, List.pairwise_append] at ascends
  have member : ∀ d, d ∈ ds ↔ d ∈ before ++ [top] := by
    intro d
    rw [← split, (sorted_perm ds).mem_iff]
  refine ⟨(member top).mpr (by simp), ?_⟩
  intro d inside
  rcases List.mem_append.mp ((member d).mp inside) with earlier | final
  · exact (isLE_order_iff d top).mp (ascends.2.2 d earlier top (by simp))
  · rw [List.mem_singleton.mp final]

theorem max?_eq_getLast? (ds : List Double) : max? ds = (sorted ds).getLast? := by
  cases found : max? ds with
  | none =>
    rw [(max?_eq_none_iff ds).mp found]
    simp [sorted]
  | some top =>
    cases last : (sorted ds).getLast? with
    | none =>
      have empty : sorted ds = [] := List.getLast?_eq_none_iff.mp last
      have none : ds = [] := by
        have perm := sorted_perm ds
        rw [empty] at perm
        exact List.nil_perm.mp perm
      rw [none] at found
      cases found
    | some final =>
      obtain ⟨member, above⟩ := max?_isTop ds top found
      obtain ⟨member', above'⟩ := getLast?_sorted ds final last
      have same : top.key = final.key := Int.le_antisymm (above' top member) (above final member')
      rw [key_injective top final same]

/-- On all patterns the comparison is a total order that calls equal exactly what has the same bits;
it goes from the negative patterns, by falling magnitude, to the positive ones, by rising magnitude.
So the set made of some doubles is strictly ascending, is their sorted list without repeats, and has
as many members as there are patterns; and the greatest of them is the last of their sorted list. -/
theorem order_agrees_with_bits :
    ((∀ a b : Double, a.order b = .eq ↔ a.bits = b.bits) ∧
      (∀ a b : Double, a.order b = (b.order a).swap) ∧
      (∀ a b : Double, (a.order b).isLE ∧ (b.order a).isLE ↔ a.bits = b.bits) ∧
      (∀ a b c : Double, (a.order b).isLE → (b.order c).isLE → (a.order c).isLE) ∧
      (∀ a b : Double, (a.order b).isLE ∨ (b.order a).isLE) ∧
      ∀ a b : Double, a.order b = .lt ↔ (a.isNegative ∧ ¬ b.isNegative) ∨
        (¬ a.isNegative ∧ ¬ b.isNegative ∧ a.magnitude < b.magnitude) ∨
        (a.isNegative ∧ b.isNegative ∧ b.magnitude < a.magnitude)) ∧
    ∀ ds : List Double,
      (sorted ds).Perm ds ∧ ((sorted ds).Pairwise fun a b => (a.order b).isLE) ∧
      Ascending order (toSet ds) ∧ toSet ds = (sorted ds).dedup ∧
      (toSet ds).length = patterns ds ∧ patterns ds = (ds.map bits).toFinset.card ∧
      max? ds = (sorted ds).getLast? := by
  refine ⟨⟨order_eq_iff, fun _ _ => Std.OrientedCmp.eq_swap, ?_,
    fun _ _ _ => Std.TransCmp.isLE_trans, ?_, order_lt_iff⟩, ?_⟩
  · intro a b
    rw [← order_eq_iff, isLE_order_iff, isLE_order_iff, Std.LawfulEqCmp.compare_eq_iff_eq]
    constructor
    · rintro ⟨upto, downto⟩
      exact key_injective a b (by omega)
    · rintro rfl
      omega
  · intro a b
    rw [isLE_order_iff, isLE_order_iff]
    omega
  · intro ds
    exact ⟨sorted_perm ds, sorted_ascends ds, ascending_ascends order ds, toSet_eq_dedup ds,
      toSet_length ds, patterns_eq_card ds, max?_eq_getLast? ds⟩

def specials : List Double :=
  [⟨0x7FF8000000000001⟩, ⟨0x8000000000000000⟩, ⟨0x7FF8000000000002⟩, ⟨0⟩, ⟨0xFFF8000000000001⟩, ⟨0⟩]

theorem order_agrees_with_bits_specials :
    (order ⟨0xFFF8000000000001⟩ ⟨0x8000000000000000⟩).isLE ∧ (order ⟨0x8000000000000000⟩ ⟨0⟩).isLE ∧
    (order ⟨0xFFF8000000000001⟩ ⟨0⟩).isLE ∧ patterns specials = 5 ∧ (toSet specials).length = 5 ∧
    Ascending order (toSet specials) ∧ (sorted specials).getLast? = some ⟨0x7FF8000000000002⟩ := by
  obtain ⟨⟨-, -, -, trans, -⟩, sets⟩ := order_agrees_with_bits
  obtain ⟨-, -, ascends, -, size, -, top⟩ := sets specials
  have first : (order ⟨0xFFF8000000000001⟩ ⟨0x8000000000000000⟩).isLE := by decide
  have second : (order ⟨0x8000000000000000⟩ ⟨0⟩).isLE := by decide
  have count : patterns specials = 5 := by decide
  refine ⟨first, second, trans _ _ _ first second, count, size.trans count, ascends, ?_⟩
  rw [← top]
  decide

end Double

end Idl
