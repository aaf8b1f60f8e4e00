import Mathlib.Data.List.Nodup
import Mathlib.Data.List.Perm.Subperm
import Idl.Proofs.Outcome
import Idl.Proofs.Schema.WellFormed
import Idl.Schema.Check

/-!
# Services that extend one another

Where service names are distinct, a name leads to one service only. The walk up from a service
then finds its lineage exactly when the lineage repeats no name, and the budget of one step per
service is never used up.
-/

set_option autoImplicit false

namespace Idl.Schema

variable {s : Schema}

theorem service?_eq_some_iff (distinct : (s.services.map (·.name)).Nodup) {name : String}
    {d : ServiceDecl} : s.service? name = some d ↔ d ∈ s.services ∧ d.name = name := by
  constructor
  · intro h
    exact ⟨List.mem_reverse.mp (List.mem_of_find?_eq_some h), by simpa using List.find?_some h⟩
  · rintro ⟨hd, rfl⟩
    cases h : s.service? d.name with
    | none =>
      have absent := List.find?_eq_none.mp h d (List.mem_reverse.mpr hd)
      simp at absent
    | some found =>
      have hf : found ∈ s.services := List.mem_reverse.mp (List.mem_of_find?_eq_some h)
      have same : found.name = d.name := by simpa using List.find?_some h
      rw [List.inj_on_of_nodup_map distinct hf hd same]

theorem parentOf_eq_none_iff {d : ServiceDecl} :
    s.parentOf d = .ok none ↔ d.parent = none := by
  unfold parentOf
  split
  case h_1 top => simp [top]
  case h_2 name names =>
    split <;> simp [names]

theorem parentOf_eq_some_iff (distinct : (s.services.map (·.name)).Nodup)
    {d parent : ServiceDecl} :
    s.parentOf d = .ok (some parent) ↔ d.parent = some parent.name ∧ parent ∈ s.services := by
  unfold parentOf
  split
  case h_1 top => simp [top]
  case h_2 name names =>
    rw [names]
    split
    case h_1 found h =>
      obtain ⟨hf, rfl⟩ := (service?_eq_some_iff distinct).mp h
      constructor
      · intro he
        cases he
        exact ⟨rfl, hf⟩
      · rintro ⟨same, hp⟩
        rw [List.inj_on_of_nodup_map distinct hf hp (Option.some.inj same)]
    case h_2 h =>
      refine ⟨nofun, fun ⟨same, hp⟩ => ?_⟩
      rw [Option.some.inj same, (service?_eq_some_iff distinct).mpr ⟨hp, rfl⟩] at h
      cases h

theorem lineage_root_iff {d : ServiceDecl} (top : d.parent = none) {above : List ServiceDecl} :
    s.Lineage d above ↔ above = [] := by
  constructor
  · intro h
    cases h with
    | root _ => rfl
    | child names _ _ =>
      rw [top] at names
      cases names
  · rintro rfl
    exact .root top

theorem lineage_child_iff (distinct : (s.services.map (·.name)).Nodup) {d parent : ServiceDecl}
    (names : d.parent = some parent.name) (declared : parent ∈ s.services)
    {above : List ServiceDecl} :
    s.Lineage d above ↔ ∃ rest, above = parent :: rest ∧ s.Lineage parent rest := by
  constructor
  · intro h
    cases h with
    | root top =>
      rw [top] at names
      cases names
    | @child _ other rest names' declared' up =>
      have same : other.name = parent.name := Option.some.inj (names'.symm.trans names)
      obtain rfl := List.inj_on_of_nodup_map distinct declared' declared same
      exact ⟨rest, rfl, up⟩
  · rintro ⟨rest, rfl, up⟩
    exact .child names declared up

structure IsWay (s : Schema) (path : List String) : Prop where
  nodup : path.Nodup
  known : ∀ name ∈ path, name ∈ s.services.map (·.name)

namespace IsWay

variable {path : List String}

theorem length_le (way : s.IsWay path) : path.length ≤ s.services.length := by
  have h := (way.nodup.subperm way.known).length_le
  rwa [List.length_map] at h

theorem extend (way : s.IsWay path) {parent : ServiceDecl} (declared : parent ∈ s.services)
    (fresh : parent.name ∉ path) : s.IsWay (path ++ [parent.name]) where
  nodup := by
    simpa [List.nodup_append] using ⟨way.nodup, fun name h => ne_of_mem_of_not_mem h fresh⟩
  known := by
    intro name h
    rcases List.mem_append.mp h with h | h
    · exact way.known name h
    · rw [List.mem_singleton.mp h]
      exact List.mem_map_of_mem declared

end IsWay

theorem not_lineage_of_error (distinct : (s.services.map (·.name)).Nodup) {d : ServiceDecl}
    {e : SchemaError} (missing : s.parentOf d = .error e) (above : List ServiceDecl) :
    ¬ s.Lineage d above := by
  intro h
  cases h with
  | root top =>
    rw [parentOf_eq_none_iff.mpr top] at missing
    cases missing
  | child names declared _ =>
    rw [(parentOf_eq_some_iff distinct).mpr ⟨names, declared⟩] at missing
    cases missing

theorem Lineage.exists_parentOf (distinct : (s.services.map (·.name)).Nodup) {d : ServiceDecl}
    {above : List ServiceDecl} (lineage : s.Lineage d above) :
    ∃ parent, s.parentOf d = .ok parent := by
  cases found : s.parentOf d with
  | ok parent => exact ⟨parent, rfl⟩
  | error e => exact absurd lineage (not_lineage_of_error distinct found above)

theorem ancestorsFrom_eq_ok_iff (distinct : (s.services.map (·.name)).Nodup) (fuel : Nat)
    (path : List String) (d : ServiceDecl) (above : List ServiceDecl) (way : s.IsWay path)
    (enough : s.services.length < fuel + path.length) :
    s.ancestorsFrom fuel path d = .ok above ↔
      s.Lineage d above ∧ (path ++ above.map (·.name)).Nodup := by
  induction fuel generalizing path d above with
  | zero =>
    have := way.length_le
    omega
  | succ fuel ih =>
    rw [ancestorsFrom]
    cases hp : s.parentOf d with
    | error e =>
      have none := not_lineage_of_error distinct hp above
      exact ⟨nofun, fun h => absurd h.1 none⟩
    | ok found =>
      cases found with
      | none =>
        rw [lineage_root_iff (parentOf_eq_none_iff.mp hp)]
        constructor
        · intro h
          cases h
          exact ⟨rfl, by simpa using way.nodup⟩
        · rintro ⟨rfl, -⟩
          rfl
      | some parent =>
        obtain ⟨names, declared⟩ := (parentOf_eq_some_iff distinct).mp hp
        rw [lineage_child_iff distinct names declared]
        change (if path.contains parent.name then _ else _) = _ ↔ _
        split
        case isTrue repeated =>
          refine ⟨nofun, ?_⟩
          rintro ⟨⟨rest, rfl, -⟩, once⟩
          have disjoint := (List.nodup_append.mp once).2.2
          exact absurd rfl (disjoint parent.name (by simpa using repeated) parent.name (by simp))
        case isFalse fresh =>
          have longer := way.extend declared (by simpa using fresh)
          have up := fun rest => ih (path ++ [parent.name]) parent rest longer (by simp; omega)
          simp only [List.append_assoc, List.singleton_append] at up
          rw [bind_eq_ok_iff]
          constructor
          · rintro ⟨rest, h, he⟩
            cases he
            obtain ⟨lineage, once⟩ := (up rest).mp h
            exact ⟨⟨rest, rfl, lineage⟩, once⟩
          · rintro ⟨⟨rest, rfl, lineage⟩, once⟩
            exact ⟨rest, (up rest).mpr ⟨lineage, once⟩, rfl⟩

theorem ancestors_eq_ok_iff (distinct : (s.services.map (·.name)).Nodup) {d : ServiceDecl}
    (hd : d ∈ s.services) {above : List ServiceDecl} :
    s.ancestors d = .ok above ↔ s.Lineage d above ∧ ((d :: above).map (·.name)).Nodup := by
  have start : s.IsWay [d.name] := ⟨List.nodup_singleton _, by simpa using ⟨d, hd, rfl⟩⟩
  exact ancestorsFrom_eq_ok_iff distinct _ _ d above start (by simp)

end Idl.Schema
