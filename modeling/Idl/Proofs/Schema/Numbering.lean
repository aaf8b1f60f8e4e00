import Idl.Schema.Decl

/-!
# The numbers of enum constants

The constants of an enum are numbered by a counter that goes from one to the next: a constant
without a number of its own takes what the counter shows, and one with a number restarts it. So the
number at a place can be told without the counter, from the nearest constant up to that place that
has a number of its own.
-/

set_option autoImplicit false

namespace Idl.EnumDecl

def given? (d : EnumDecl) (i : Nat) : Option Int32 :=
  d.values[i]?.bind (·.2)

def number? (d : EnumDecl) (i : Nat) : Option Int32 :=
  d.numbered[i]?.map (·.2)

theorem numberFrom_names (next : Int32) (values : List (String × Option Int32)) :
    (numberFrom next values).map (·.1) = values.map (·.1) := by
  induction values generalizing next with
  | nil => rfl
  | cons c rest ih =>
    rw [numberFrom, List.map_cons, List.map_cons, ih]

theorem numberFrom_name (next : Int32) (values : List (String × Option Int32)) (i : Nat) :
    (numberFrom next values)[i]?.map (·.1) = values[i]?.map (·.1) := by
  rw [← List.getElem?_map, numberFrom_names, List.getElem?_map]

theorem numberFrom_unnumbered (next : Int32) (values : List (String × Option Int32)) (i : Nat)
    (inside : i < values.length) (free : ∀ k ≤ i, values[k]?.bind (·.2) = none) :
    (numberFrom next values)[i]?.map (·.2) = some (next + Int32.ofNat i) := by
  induction values generalizing next i with
  | nil => cases inside
  | cons c rest ih =>
    have first : c.2 = none := by simpa using free 0 (by omega)
    rw [numberFrom]
    cases i with
    | zero => simp [first]
    | succ i =>
      have later : ∀ k ≤ i, rest[k]?.bind (·.2) = none := by
        intro k hk
        simpa using free (k + 1) (by omega)
      have counted := ih (next + 1) i (by simpa using inside) later
      rw [List.getElem?_cons_succ, first, Option.getD_none, counted, Int32.add_assoc,
        Int32.add_comm 1, Int32.ofNat_add]
      rfl

theorem numberFrom_numbered (next v : Int32) (values : List (String × Option Int32)) (i j : Nat)
    (inside : i < values.length) (before : j ≤ i) (given : values[j]?.bind (·.2) = some v)
    (free : ∀ k, j < k → k ≤ i → values[k]?.bind (·.2) = none) :
    (numberFrom next values)[i]?.map (·.2) = some (v + Int32.ofNat (i - j)) := by
  induction values generalizing next i j with
  | nil => cases inside
  | cons c rest ih =>
    rw [numberFrom]
    cases j with
    | zero =>
      have first : c.2 = some v := by simpa using given
      cases i with
      | zero => simp [first]
      | succ i =>
        have later : ∀ k ≤ i, rest[k]?.bind (·.2) = none := by
          intro k hk
          simpa using free (k + 1) (by omega) (by omega)
        have counted := numberFrom_unnumbered (v + 1) rest i (by simpa using inside) later
        rw [List.getElem?_cons_succ, first, Option.getD_some, counted, Int32.add_assoc,
          Int32.add_comm 1, Nat.sub_zero, Int32.ofNat_add]
        rfl
    | succ j =>
      cases i with
      | zero => omega
      | succ i =>
        have later : ∀ k, j < k → k ≤ i → rest[k]?.bind (·.2) = none := by
          intro k hj hi
          simpa using free (k + 1) (by omega) (by omega)
        have counted := ih (c.2.getD next + 1) i j (by simpa using inside) (by omega)
          (by simpa using given) later
        rw [List.getElem?_cons_succ, counted, Nat.add_sub_add_right]

theorem ofInt_add_natCast (v : Int32) (k : Nat) :
    Int32.ofInt (v.toInt + k) = v + Int32.ofNat k := by
  rw [Int32.ofInt_add, Int32.ofInt_toInt, Int32.ofInt_eq_ofNat]

theorem value?_eq_some_iff (d : EnumDecl) (name : String) (v : Int32) :
    d.value? name = some v ↔ ∃ i, d.values[i]?.map (·.1) = some name ∧
      (∀ k < i, d.values[k]?.map (·.1) ≠ some name) ∧ d.number? i = some v := by
  have name_at : ∀ i : Nat, d.numbered[i]?.map (·.1) = d.values[i]?.map (·.1) :=
    numberFrom_name 0 d.values
  simp only [← name_at]
  unfold value? number?
  rw [Option.map_eq_some_iff]
  constructor
  · rintro ⟨c, found, rfl⟩
    obtain ⟨named, i, inside, rfl, first⟩ := List.find?_eq_some_iff_getElem.mp found
    refine ⟨i, ?_, ?_, ?_⟩
    · simpa [inside] using named
    · intro k hk
      simpa [Nat.lt_trans hk inside] using first k hk
    · simp [inside]
  · rintro ⟨i, named, first, numbered⟩
    obtain ⟨c, here, rfl⟩ := Option.map_eq_some_iff.mp numbered
    obtain ⟨inside, rfl⟩ := List.getElem?_eq_some_iff.mp here
    refine ⟨_, List.find?_eq_some_iff_getElem.mpr ⟨?_, i, inside, rfl, ?_⟩, rfl⟩
    · simpa [inside] using named
    · intro k hk
      simpa [Nat.lt_trans hk inside] using first k hk

theorem value?_eq_none_iff (d : EnumDecl) (name : String) :
    d.value? name = none ↔ ∀ c ∈ d.values, c.1 ≠ name := by
  have names : ∀ c : String, c ∈ d.numbered.map (·.1) ↔ c ∈ d.values.map (·.1) := by
    intro c
    rw [numbered, numberFrom_names]
  unfold value?
  rw [Option.map_eq_none_iff, List.find?_eq_none]
  constructor
  · intro unfound c member same
    obtain ⟨e, inside, named⟩ := List.mem_map.mp ((names c.1).mpr (List.mem_map_of_mem member))
    exact unfound e inside (by simpa using named.trans same)
  · intro unnamed e inside same
    obtain ⟨c, member, named⟩ := List.mem_map.mp ((names e.1).mp (List.mem_map_of_mem inside))
    exact unnamed c member (named.trans (by simpa using same))

/-- The constants keep their names and their order. The number at a place is the one given there,
else that of the nearest constant before it with a number of its own and as many more as it is away,
else the place itself; sums that leave the range of the signed words of thirty-two bits come in
again at its other end. A name stands for the number of the first constant that has it. -/
theorem numbered_by_place (d : EnumDecl) :
    d.numbered.map (·.1) = d.values.map (·.1) ∧
    (∀ i v, d.given? i = some v → d.number? i = some v) ∧
    (∀ i j v, j < i → i < d.values.length → d.given? j = some v →
      (∀ k, j < k → k ≤ i → d.given? k = none) →
      d.number? i = some (Int32.ofInt (v.toInt + (i - j : Nat)))) ∧
    (∀ i, i < d.values.length → (∀ k ≤ i, d.given? k = none) →
      d.number? i = some (Int32.ofInt i)) ∧
    ∀ name,
      (∀ v, d.value? name = some v ↔ ∃ i, d.values[i]?.map (·.1) = some name ∧
        (∀ k < i, d.values[k]?.map (·.1) ≠ some name) ∧ d.number? i = some v) ∧
      (d.value? name = none ↔ ∀ c ∈ d.values, c.1 ≠ name) := by
  refine ⟨numberFrom_names 0 d.values, ?_, ?_, ?_, fun name =>
    ⟨d.value?_eq_some_iff name, d.value?_eq_none_iff name⟩⟩
  · intro i v given
    obtain ⟨c, here, -⟩ := Option.bind_eq_some_iff.mp given
    have inside : i < d.values.length := (List.getElem?_eq_some_iff.mp here).1
    have counted := numberFrom_numbered 0 v d.values i i inside (Nat.le_refl i) given
      (fun k after upto => by omega)
    rw [Nat.sub_self] at counted
    exact counted.trans (congrArg some (Int32.add_zero v))
  · intro i j v before inside given free
    rw [ofInt_add_natCast]
    exact numberFrom_numbered 0 v d.values i j inside (by omega) given free
  · intro i inside free
    have counted := numberFrom_unnumbered 0 d.values i inside free
    rw [Int32.zero_add] at counted
    rw [Int32.ofInt_eq_ofNat]
    exact counted

def signals : EnumDecl where
  name := "Signals"
  values := [("IDLE", none), ("BUSY", none), ("FULL", some 2147483646), ("LAST", none),
    ("OVER", none), ("LOW", some (-5)), ("LAST", none)]

theorem numbered_by_place_signals :
    signals.given? 5 = some (-5) ∧ signals.number? 5 = some (-5) ∧
    signals.given? 2 = some 2147483646 ∧ signals.number? 4 = some (-2147483648) ∧
    signals.given? 0 = none ∧ signals.number? 1 = some 1 ∧
    signals.value? "LAST" = some 2147483647 ∧ signals.value? "NONE" = none := by
  obtain ⟨-, own, follows, unnumbered, lookup⟩ := numbered_by_place signals
  have full : ∀ k, 2 < k → k ≤ 4 → signals.given? k = none := by
    intro k after upto
    obtain rfl | rfl : k = 3 ∨ k = 4 := by omega
    · rfl
    · rfl
  have start : ∀ k ≤ 1, signals.given? k = none := by
    intro k upto
    obtain rfl | rfl : k = 0 ∨ k = 1 := by omega
    · rfl
    · rfl
  have earlier : ∀ k < 3, signals.values[k]?.map (·.1) ≠ some "LAST" := by decide
  refine ⟨rfl, own 5 (-5) rfl, rfl, ?_, rfl, unnumbered 1 (by decide) start, ?_, ?_⟩
  · exact follows 4 2 2147483646 (by decide) (by decide) rfl full
  · exact ((lookup "LAST").1 2147483647).mpr ⟨3, rfl, earlier, rfl⟩
  · exact (lookup "NONE").2.mpr (by decide)

end Idl.EnumDecl
