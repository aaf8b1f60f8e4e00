import Idl.Proofs.Schema.Lineage
import Mathlib.Data.List.Chain

/-!
# The way up from a service

Following the names of parents from a service comes to an end at a service that extends none, gets
lost at a name that is not declared, or goes round in a circle. The check of a service tells which:
it keeps the names on its way, and gives up as soon as one of them comes again. The comparison of
methods after it goes the same way and keeps nothing, so that it would go round for ever where the
check had not found an end before.
-/

set_option autoImplicit false

namespace Idl.Schema

variable {s : Schema} {d : ServiceDecl}

/-- Where so many steps up lead from a service. Nothing is remembered on the way. -/
def follow (s : Schema) (d : ServiceDecl) : Nat → Option ServiceDecl
  | 0 => some d
  | i + 1 => (s.follow d i).bind fun e => e.parent.bind s.service?

/-- The way up comes to a service for a second time. -/
def Revisits (s : Schema) (d : ServiceDecl) : Prop :=
  ∃ i j e, i < j ∧ s.follow d i = some e ∧ s.follow d j = some e

def Lost (s : Schema) (d : ServiceDecl) (name : String) : Prop :=
  ∃ i e, s.follow d i = some e ∧ e.parent = some name ∧ s.service? name = none

theorem bind_service?_eq_some_iff {e parent : ServiceDecl} :
    e.parent.bind s.service? = some parent ↔ s.parentOf e = .ok (some parent) := by
  unfold parentOf
  cases e.parent with
  | none => simp
  | some name =>
    rw [Option.bind_some]
    cases found : s.service? name with
    | none => simp [found]
    | some p => simp [found]

theorem parentOf_eq_error_iff {e : ServiceDecl} {err : SchemaError} :
    s.parentOf e = .error err ↔
      ∃ name, e.parent = some name ∧ s.service? name = none ∧ err = .notFound .service name := by
  unfold parentOf
  cases e.parent with
  | none => simp
  | some name =>
    cases found : s.service? name with
    | none => simp [found, eq_comm]
    | some p => simp [found]

theorem follow_up {e parent : ServiceDecl} {i : Nat} (here : s.follow d i = some e)
    (up : s.parentOf e = .ok (some parent)) : s.follow d (i + 1) = some parent := by
  rw [follow, here, Option.bind_some]
  exact bind_service?_eq_some_iff.mpr up

theorem mem_of_follow (distinct : (s.services.map (·.name)).Nodup) (declared : d ∈ s.services)
    {i : Nat} {e : ServiceDecl} (here : s.follow d i = some e) : e ∈ s.services := by
  cases i with
  | zero =>
    cases here
    exact declared
  | succ i =>
    obtain ⟨child, -, up⟩ := Option.bind_eq_some_iff.mp here
    exact ((parentOf_eq_some_iff distinct).mp (bind_service?_eq_some_iff.mp up)).2

theorem follow_none_of_le {i j : Nat} (ended : s.follow d i = none) (later : i ≤ j) :
    s.follow d j = none := by
  induction later with
  | refl => exact ended
  | step _ ih => rw [follow, ih, Option.bind_none]

theorem follow_add {i j : Nat} (same : s.follow d i = s.follow d j) (k : Nat) :
    s.follow d (i + k) = s.follow d (j + k) := by
  induction k with
  | zero => exact same
  | succ k ih => rw [← Nat.add_assoc, ← Nat.add_assoc, follow, follow, ih]

theorem Revisits.follow_ne_none (revisits : s.Revisits d) (k : Nat) : s.follow d k ≠ none := by
  obtain ⟨i, j, e, before, here, again⟩ := revisits
  induction k using Nat.strongRecOn with
  | ind k ih =>
    by_cases early : k ≤ j
    · intro ended
      rw [follow_none_of_le ended early] at again
      cases again
    · -- What is beyond the second visit is what was beyond the first.
      obtain ⟨m, rfl⟩ := Nat.exists_eq_add_of_le (Nat.le_of_not_le early)
      rw [← follow_add (here.trans again.symm) m]
      exact ih (i + m) (by omega)

theorem Lost.follow_succ {name : String} {i : Nat} {e : ServiceDecl} (here : s.follow d i = some e)
    (names : e.parent = some name) (missing : s.service? name = none) :
    s.follow d (i + 1) = none := by
  rw [follow, here, Option.bind_some, names, Option.bind_some, missing]

theorem Revisits.not_lost (revisits : s.Revisits d) (name : String) : ¬ s.Lost d name := by
  rintro ⟨i, e, here, names, missing⟩
  exact revisits.follow_ne_none (i + 1) (Lost.follow_succ here names missing)

theorem Lost.unique {name name' : String} (lost : s.Lost d name) (lost' : s.Lost d name') :
    name = name' := by
  obtain ⟨i, e, here, names, missing⟩ := lost
  obtain ⟨j, e', here', names', missing'⟩ := lost'
  have ended := Lost.follow_succ here names missing
  have ended' := Lost.follow_succ here' names' missing'
  have same : i = j := by
    rcases Nat.lt_trichotomy i j with less | same | more
    · rw [follow_none_of_le ended less] at here'
      cases here'
    · exact same
    · rw [follow_none_of_le ended' more] at here
      cases here
  subst same
  cases here.symm.trans here'
  exact Option.some.inj (names.symm.trans names')

theorem follow_shift {parent : ServiceDecl} (up : s.parentOf d = .ok (some parent)) (i : Nat) :
    s.follow d (i + 1) = s.follow parent i := by
  induction i with
  | zero => exact follow_up rfl up
  | succ i ih => rw [follow, ih, follow]

/-- A lineage lists what one comes to, step by step. -/
theorem Lineage.follow_eq (distinct : (s.services.map (·.name)).Nodup) {above : List ServiceDecl}
    (lineage : s.Lineage d above) (i : Nat) : s.follow d i = (d :: above)[i]? := by
  induction lineage generalizing i with
  | @root d top =>
    cases i with
    | zero => rfl
    | succ i =>
      have ended : s.follow d 1 = none := by
        rw [follow, follow, Option.bind_some, top, Option.bind_none]
      rw [follow_none_of_le ended (Nat.le_add_left 1 i), List.getElem?_cons_succ, List.getElem?_nil]
  | child names declared _ ih =>
    cases i with
    | zero => rfl
    | succ i =>
      rw [follow_shift ((parentOf_eq_some_iff distinct).mpr ⟨names, declared⟩), ih,
        List.getElem?_cons_succ]

theorem Lineage.of_mem {above : List ServiceDecl} (lineage : s.Lineage d above) {e : ServiceDecl}
    (member : e ∈ d :: above) : ∃ rest, s.Lineage e rest := by
  induction lineage with
  | root top =>
    rw [List.mem_singleton.mp member]
    exact ⟨[], .root top⟩
  | child names declared up ih =>
    rcases List.mem_cons.mp member with rfl | later
    · exact ⟨_, .child names declared up⟩
    · exact ih later

theorem Lineage.not_revisits (distinct : (s.services.map (·.name)).Nodup) {above : List ServiceDecl}
    (lineage : s.Lineage d above) : ¬ s.Revisits d := by
  intro revisits
  have ended : s.follow d (above.length + 1) = none := by
    rw [lineage.follow_eq distinct, List.getElem?_eq_none (by simp)]
  exact revisits.follow_ne_none _ ended

theorem Lineage.not_lost (distinct : (s.services.map (·.name)).Nodup) {above : List ServiceDecl}
    (lineage : s.Lineage d above) (name : String) : ¬ s.Lost d name := by
  rintro ⟨i, e, here, names, missing⟩
  rw [lineage.follow_eq distinct] at here
  obtain ⟨rest, up⟩ := lineage.of_mem (List.mem_of_getElem? here)
  exact not_lineage_of_error distinct (parentOf_eq_error_iff.mpr ⟨name, names, missing, rfl⟩)
    rest up

inductive Climb (s : Schema) (d : ServiceDecl) : List String → ServiceDecl → Prop
  | start : Climb s d [d.name] d
  | up {path : List String} {e parent : ServiceDecl} : Climb s d path e →
      s.parentOf e = .ok (some parent) → Climb s d (path ++ [parent.name]) parent

/-- A way up from a service that repeats a name at its end and none before. -/
structure ClosesOn (s : Schema) (d : ServiceDecl) (path : List String) : Prop where
  starts : path.head? = some d.name
  climbs : path.IsChain fun child parent => ∃ e ∈ s.services, e.name = child ∧
    e.parent = some parent
  closes : ∃ front last, path = front ++ [last] ∧ front.Nodup ∧ last ∈ front

namespace Climb

variable {path : List String} {e : ServiceDecl}

theorem follow (climb : s.Climb d path e) : ∃ i, path.length = i + 1 ∧ s.follow d i = some e := by
  induction climb with
  | start => exact ⟨0, rfl, rfl⟩
  | up _ up ih =>
    obtain ⟨i, steps, here⟩ := ih
    exact ⟨i + 1, by simp [steps], follow_up here up⟩

theorem of_mem (climb : s.Climb d path e) {name : String} (member : name ∈ path) :
    ∃ i < path.length, ∃ e', s.follow d i = some e' ∧ e'.name = name := by
  induction climb with
  | start => exact ⟨0, by simp, d, rfl, (List.mem_singleton.mp member).symm⟩
  | @up path e parent before up ih =>
    rcases List.mem_append.mp member with early | last
    · obtain ⟨i, inside, e', here, named⟩ := ih early
      exact ⟨i, by simp; omega, e', here, named⟩
    · obtain ⟨i, steps, here⟩ := (before.up up).follow
      exact ⟨i, by omega, parent, here, (List.mem_singleton.mp last).symm⟩

theorem head?_eq (climb : s.Climb d path e) : path.head? = some d.name := by
  induction climb with
  | start => rfl
  | up _ _ ih => simp [ih]

theorem getLast?_eq (climb : s.Climb d path e) : path.getLast? = some e.name := by
  cases climb with
  | start => rfl
  | up => simp

theorem mem_services (distinct : (s.services.map (·.name)).Nodup) (declared : d ∈ s.services)
    (climb : s.Climb d path e) : e ∈ s.services := by
  cases climb with
  | start => exact declared
  | up _ up => exact ((parentOf_eq_some_iff distinct).mp up).2

theorem isChain (distinct : (s.services.map (·.name)).Nodup) (declared : d ∈ s.services)
    (climb : s.Climb d path e) :
    path.IsChain fun child parent => ∃ e ∈ s.services, e.name = child ∧ e.parent = some parent := by
  induction climb with
  | start => exact .singleton _
  | up before up ih =>
    rw [List.isChain_append]
    refine ⟨ih, .singleton _, ?_⟩
    intro child last parent next
    rw [before.getLast?_eq] at last
    cases last
    cases next
    exact ⟨_, before.mem_services distinct declared, rfl, ((parentOf_eq_some_iff distinct).mp up).1⟩

end Climb

theorem ancestorsFrom_eq_error {fuel : Nat} {path : List String} {e : ServiceDecl}
    {err : SchemaError} (failed : s.ancestorsFrom fuel path e = .error err) :
    s.parentOf e = .error err ∨ ∃ parent, s.parentOf e = .ok (some parent) ∧
      (parent.name ∈ path ∧ err = .circular (path ++ [parent.name]) ∨
        parent.name ∉ path ∧ ∃ fuel', fuel = fuel' + 1 ∧
          s.ancestorsFrom fuel' (path ++ [parent.name]) parent = .error err) := by
  rw [ancestorsFrom.eq_def] at failed
  dsimp only at failed
  cases up : s.parentOf e with
  | error err' =>
    rw [up] at failed
    cases failed
    exact .inl rfl
  | ok found =>
    rw [up] at failed
    cases found with
    | none => cases failed
    | some parent =>
      refine .inr ⟨parent, rfl, ?_⟩
      change (if path.contains parent.name then _ else _) = _ at failed
      split at failed
      case isTrue repeated =>
        cases failed
        exact .inl ⟨List.contains_iff_mem.mp repeated, rfl⟩
      case isFalse fresh =>
        refine .inr ⟨fun member => fresh (List.contains_iff_mem.mpr member), ?_⟩
        cases fuel with
        | zero => cases failed
        | succ fuel =>
          refine ⟨fuel, rfl, ?_⟩
          cases rest : s.ancestorsFrom fuel (path ++ [parent.name]) parent with
          | error err' =>
            simp only [rest] at failed
            exact failed
          | ok above =>
            simp only [rest] at failed
            cases failed

theorem Climb.lost {path : List String} {e : ServiceDecl} {err : SchemaError}
    (climb : s.Climb d path e) (missing : s.parentOf e = .error err) :
    ∃ name, err = .notFound .service name ∧ s.Lost d name := by
  obtain ⟨name, names, undeclared, rfl⟩ := parentOf_eq_error_iff.mp missing
  obtain ⟨i, -, here⟩ := climb.follow
  exact ⟨name, rfl, i, e, here, names, undeclared⟩

theorem Climb.closes (distinct : (s.services.map (·.name)).Nodup) (declared : d ∈ s.services)
    {path : List String} {e parent : ServiceDecl} (climb : s.Climb d path e) (fresh : path.Nodup)
    (up : s.parentOf e = .ok (some parent)) (met : parent.name ∈ path) :
    s.ClosesOn d (path ++ [parent.name]) ∧ s.Revisits d := by
  have longer := climb.up up
  refine ⟨⟨longer.head?_eq, longer.isChain distinct declared, path, parent.name, rfl, fresh, met⟩,
    ?_⟩
  obtain ⟨i, early, first, here, named⟩ := climb.of_mem met
  obtain ⟨j, steps, again⟩ := longer.follow
  have same : first = parent := List.inj_on_of_nodup_map distinct
    (mem_of_follow distinct declared here) (mem_of_follow distinct declared again) named
  rw [same] at here
  rw [List.length_append] at steps
  exact ⟨i, j, parent, by simp at steps; omega, here, again⟩

/-- A failure of the walk tells where the way up leads. -/
theorem ancestorsFrom_failed (distinct : (s.services.map (·.name)).Nodup)
    (declared : d ∈ s.services) {fuel : Nat} {path : List String} {e : ServiceDecl}
    {err : SchemaError} (climb : s.Climb d path e)
    (fresh : path.Nodup) (failed : s.ancestorsFrom fuel path e = .error err) :
    (∃ name, err = .notFound .service name ∧ s.Lost d name) ∨
      ∃ found, err = .circular found ∧ s.ClosesOn d found ∧ s.Revisits d := by
  -- Each step adds a name to the way from `d`, and as long as the walk goes on none is there twice.
  induction fuel using Nat.strongRecOn generalizing path e with
  | ind fuel ih =>
    rcases ancestorsFrom_eq_error failed with missing | ⟨parent, up, ⟨met, rfl⟩ | ⟨unmet, rest⟩⟩
    · exact .inl (climb.lost missing)
    · exact .inr ⟨_, rfl, climb.closes distinct declared fresh up met⟩
    · obtain ⟨fuel', rfl, failed'⟩ := rest
      have longer : (path ++ [parent.name]).Nodup := by
        simpa [List.nodup_append] using ⟨fresh, fun name h => ne_of_mem_of_not_mem h unmet⟩
      exact ih fuel' (Nat.lt_succ_self fuel') (climb.up up) longer failed'

/-- The walk has one of three ends. -/
theorem ancestors_cases (distinct : (s.services.map (·.name)).Nodup) (declared : d ∈ s.services) :
    (∃ above, s.ancestors d = .ok above ∧ s.Lineage d above ∧ ((d :: above).map (·.name)).Nodup) ∨
      (∃ name, s.ancestors d = .error (.notFound .service name) ∧ s.Lost d name) ∨
      ∃ path, s.ancestors d = .error (.circular path) ∧ s.ClosesOn d path ∧ s.Revisits d := by
  cases walked : s.ancestors d with
  | ok above => exact .inl ⟨above, rfl, (ancestors_eq_ok_iff distinct declared).mp walked⟩
  | error err =>
    rcases ancestorsFrom_failed distinct declared .start (List.nodup_singleton _) walked with
      ⟨name, rfl, lost⟩ | ⟨path, rfl, closes, revisits⟩
    · exact .inr (.inl ⟨name, rfl, lost⟩)
    · exact .inr (.inr ⟨path, rfl, closes, revisits⟩)

theorem ancestors_circular_iff (distinct : (s.services.map (·.name)).Nodup)
    (declared : d ∈ s.services) :
    (∃ path, s.ancestors d = .error (.circular path)) ↔ s.Revisits d := by
  rcases ancestors_cases distinct declared with
    ⟨above, walked, lineage, -⟩ | ⟨name, walked, lost⟩ | ⟨path, walked, -, revisits⟩
  · exact iff_of_false (by simp [walked]) (lineage.not_revisits distinct)
  · exact iff_of_false (by simp [walked]) fun revisits => revisits.not_lost name lost
  · exact iff_of_true ⟨path, walked⟩ revisits

theorem closesOn_of_circular (distinct : (s.services.map (·.name)).Nodup)
    (declared : d ∈ s.services) {path : List String}
    (circular : s.ancestors d = .error (.circular path)) : s.ClosesOn d path := by
  rcases ancestors_cases distinct declared with
    ⟨above, walked, -, -⟩ | ⟨name, walked, -⟩ | ⟨path', walked, closes, -⟩
  · cases circular.symm.trans walked
  · cases circular.symm.trans walked
  · cases circular.symm.trans walked
    exact closes

theorem ancestors_notFound_iff (distinct : (s.services.map (·.name)).Nodup)
    (declared : d ∈ s.services) {name : String} :
    s.ancestors d = .error (.notFound .service name) ↔ s.Lost d name := by
  rcases ancestors_cases distinct declared with
    ⟨above, walked, lineage, -⟩ | ⟨name', walked, lost⟩ | ⟨path, walked, -, revisits⟩
  · exact iff_of_false (by simp [walked]) (lineage.not_lost distinct name)
  · rw [walked]
    constructor
    · intro same
      cases same
      exact lost
    · intro lost'
      rw [lost.unique lost']
  · exact iff_of_false (by simp [walked]) (revisits.not_lost name)

theorem ancestorsFrom_eq_of_enough (distinct : (s.services.map (·.name)).Nodup) {fuel fuel' : Nat}
    {path : List String} {e : ServiceDecl} (way : s.IsWay path)
    (enough : s.services.length < fuel + path.length)
    (enough' : s.services.length < fuel' + path.length) :
    s.ancestorsFrom fuel path e = s.ancestorsFrom fuel' path e := by
  have short := way.length_le
  induction fuel generalizing fuel' path e with
  | zero => omega
  | succ fuel ih =>
    obtain ⟨fuel', rfl⟩ := Nat.exists_eq_succ_of_ne_zero (show fuel' ≠ 0 by omega)
    rw [ancestorsFrom, ancestorsFrom]
    cases up : s.parentOf e with
    | error err => rfl
    | ok found =>
      cases found with
      | none => rfl
      | some parent =>
        by_cases met : path.contains parent.name
        · simp only [ok_bind, met, if_true]
        · have longer := way.extend ((parentOf_eq_some_iff distinct).mp up).2 (by simpa using met)
          have rest : s.ancestorsFrom fuel (path ++ [parent.name]) parent =
              s.ancestorsFrom fuel' (path ++ [parent.name]) parent :=
            ih longer (by simp; omega) (by simp; omega) longer.length_le
          simp only [ok_bind, met, rest]

/-- The walk through the methods of a service and of all above it: the functions of a service are
looked at, and then those of its parent. `seen` are the methods met so far, and `visited` the
services whose functions are looked at. There are rules for walks that end, and none for those that
do not. -/
inductive MethodWalk (s : Schema) (service : String) :
    List (String × String) → ServiceDecl → List ServiceDecl → Except SchemaError Unit → Prop
  | clash {seen : List (String × String)} {owner : ServiceDecl} {err : SchemaError} :
      checkMethodsFrom service seen (methodSources [owner]) = .error err →
      MethodWalk s service seen owner [owner] (.error err)
  | lost {seen : List (String × String)} {owner : ServiceDecl} {err : SchemaError} :
      checkMethodsFrom service seen (methodSources [owner]) = .ok () →
        s.parentOf owner = .error err →
      MethodWalk s service seen owner [owner] (.error err)
  | root {seen : List (String × String)} {owner : ServiceDecl} :
      checkMethodsFrom service seen (methodSources [owner]) = .ok () → s.parentOf owner = .ok none →
      MethodWalk s service seen owner [owner] (.ok ())
  | up {seen : List (String × String)} {owner parent : ServiceDecl} {visited : List ServiceDecl}
      {outcome : Except SchemaError Unit} :
      checkMethodsFrom service seen (methodSources [owner]) = .ok () →
      s.parentOf owner = .ok (some parent) →
      MethodWalk s service ((methodSources [owner]).reverse ++ seen) parent visited outcome →
      MethodWalk s service seen owner (owner :: visited) outcome

theorem MethodWalk.unique {service : String} {seen : List (String × String)}
    {visited visited' : List ServiceDecl} {outcome outcome' : Except SchemaError Unit}
    (walk : s.MethodWalk service seen d visited outcome)
    (walk' : s.MethodWalk service seen d visited' outcome') :
    visited = visited' ∧ outcome = outcome' := by
  induction walk generalizing visited' outcome' with
  | clash clash => cases walk' <;> simp_all
  | lost fine missing => cases walk' <;> simp_all
  | root fine top => cases walk' <;> simp_all
  | up fine up _ ih =>
    cases walk' with
    | clash clash => simp_all
    | lost _ missing => simp_all
    | root _ top => simp_all
    | up _ up' rest =>
      cases up.symm.trans up'
      obtain ⟨rfl, rfl⟩ := ih rest
      exact ⟨rfl, rfl⟩

theorem checkMethodsFrom_append (service : String) (seen sources more : List (String × String)) :
    checkMethodsFrom service seen (sources ++ more) =
      (checkMethodsFrom service seen sources >>= fun _ =>
        checkMethodsFrom service (sources.reverse ++ seen) more) := by
  induction sources generalizing seen with
  | nil => rfl
  | cons source rest ih =>
    rw [List.cons_append, checkMethodsFrom, checkMethodsFrom]
    split
    · rfl
    · rw [ih, List.reverse_cons, List.append_assoc, List.singleton_append]

theorem collision_of_checkMethodsFrom {service : String} {seen sources : List (String × String)}
    {err : SchemaError} (failed : checkMethodsFrom service seen sources = .error err) :
    ∃ first second method, err = .collision service first second method := by
  induction sources generalizing seen with
  | nil => cases failed
  | cons source rest ih =>
    rw [checkMethodsFrom] at failed
    split at failed
    · cases failed
      exact ⟨_, _, _, rfl⟩
    · exact ih failed

/-- Where there is a lineage, the walk goes through it from the service on, and comes to what the
check finds. It stops before the end only at a method that it has met. -/
theorem Lineage.methodWalk (distinct : (s.services.map (·.name)).Nodup) (service : String)
    {above : List ServiceDecl} (lineage : s.Lineage d above) (seen : List (String × String)) :
    ∃ visited, s.MethodWalk service seen d visited
        (checkMethodsFrom service seen (methodSources (d :: above))) ∧
      visited <+: d :: above ∧ (visited = d :: above ∨ ∃ first second method,
        checkMethodsFrom service seen (methodSources (d :: above)) =
          .error (.collision service first second method)) := by
  induction lineage generalizing seen with
  | @root d top =>
    refine ⟨[d], ?_, List.prefix_rfl, .inl rfl⟩
    cases found : checkMethodsFrom service seen (methodSources [d]) with
    | error err => exact .clash found
    | ok _ => exact .root found (parentOf_eq_none_iff.mpr top)
  | @child d parent above names declared _ ih =>
    have split : methodSources (d :: parent :: above) =
        methodSources [d] ++ methodSources (parent :: above) := by
      simp [methodSources]
    rw [split, checkMethodsFrom_append]
    cases found : checkMethodsFrom service seen (methodSources [d]) with
    | error err =>
      refine ⟨[d], .clash found, ⟨parent :: above, rfl⟩, .inr ?_⟩
      obtain ⟨first, second, method, rfl⟩ := collision_of_checkMethodsFrom found
      exact ⟨first, second, method, rfl⟩
    | ok _ =>
      obtain ⟨visited, walk, within, whole⟩ := ih ((methodSources [d]).reverse ++ seen)
      have up := (parentOf_eq_some_iff distinct).mpr ⟨names, declared⟩
      refine ⟨d :: visited, .up found up walk, List.cons_prefix_cons.mpr ⟨rfl, within⟩, ?_⟩
      exact whole.imp_left (congrArg (d :: ·))

/-- The check of a service follows the names of its parents, and ends whatever budget it has from
one step for each service on. It tells a circle by a way that closes on itself, and a name that is
not declared by the name. Otherwise it has come to each service above once, and so does the walk
through the methods, which is bound to end and stops early only at two methods of one name. -/
theorem inheritance_outcomes (s : Schema) (distinct : (s.services.map (·.name)).Nodup)
    (d : ServiceDecl) (declared : d ∈ s.services) :
    (∀ fuel, s.services.length ≤ fuel → s.ancestorsFrom fuel [d.name] d = s.ancestors d) ∧
      (∀ err, s.ancestors d = .error err → s.checkService d = .error err) ∧
      ((∃ path, s.ancestors d = .error (.circular path)) ↔ s.Revisits d) ∧
      (∀ path, s.ancestors d = .error (.circular path) → s.ClosesOn d path) ∧
      (∀ name, s.ancestors d = .error (.notFound .service name) ↔ s.Lost d name) ∧
      (¬ s.Revisits d → (∀ name, ¬ s.Lost d name) → ∃ above visited, s.ancestors d = .ok above ∧
        ((d :: above).map (·.name)).Nodup ∧ (∀ i, s.follow d i = (d :: above)[i]?) ∧
        (∀ walked outcome, s.MethodWalk d.name [] d walked outcome ↔ walked = visited ∧
          outcome = checkMethodsFrom d.name [] (methodSources (d :: above))) ∧
        visited <+: d :: above ∧ (visited = d :: above ∨ ∃ first second method,
          checkMethodsFrom d.name [] (methodSources (d :: above)) =
            .error (.collision d.name first second method))) := by
  have start : s.IsWay [d.name] := ⟨List.nodup_singleton _, by simpa using ⟨d, declared, rfl⟩⟩
  refine ⟨?_, ?_, ancestors_circular_iff distinct declared,
    fun _ => closesOn_of_circular distinct declared,
    fun _ => ancestors_notFound_iff distinct declared, ?_⟩
  · intro fuel enough
    exact ancestorsFrom_eq_of_enough distinct start (by simp; omega) (by simp)
  · intro err failed
    rw [checkService, failed]
    rfl
  · intro straight found
    rcases ancestors_cases distinct declared with
      ⟨above, walked, lineage, once⟩ | ⟨name, -, lost⟩ | ⟨path, -, -, revisits⟩
    · obtain ⟨visited, walk, within, whole⟩ := lineage.methodWalk distinct d.name []
      refine ⟨above, visited, walked, once, lineage.follow_eq distinct,
        fun other outcome => ?_, within, whole⟩
      constructor
      · intro walk'
        exact walk'.unique walk
      · rintro ⟨rfl, rfl⟩
        exact walk
    · exact absurd lost (found name)
    · exact absurd revisits straight

def inlet : ServiceDecl :=
  { name := "Inlet", parent := some "East" }

def orphan : ServiceDecl :=
  { name := "Orphan", parent := some "Gone" }

def bottom : ServiceDecl :=
  { name := "Bottom", parent := some "Middle" }

def middle : ServiceDecl :=
  { name := "Middle", parent := some "Top", functions := [{ name := "ring", returns := .void }] }

def top : ServiceDecl :=
  { name := "Top", functions := [{ name := "chime", returns := .void }] }

def stairs : Schema where
  name := "stairs"
  services := [inlet, { name := "East", parent := some "West" },
    { name := "West", parent := some "East" }, orphan, bottom, middle, top]

theorem inheritance_outcomes_stairs : (stairs.services.map (·.name)).Nodup ∧
    stairs.ClosesOn inlet ["Inlet", "East", "West", "East"] ∧ stairs.Revisits inlet ∧
      stairs.Lost orphan "Gone" ∧ (∀ i, stairs.follow bottom i = [bottom, middle, top][i]?) ∧
      stairs.MethodWalk "Bottom" [] bottom [bottom, middle, top] (.ok ()) := by
  have distinct : (stairs.services.map (·.name)).Nodup := by decide
  obtain ⟨-, -, circular, closes, -, -⟩ :=
    inheritance_outcomes stairs distinct inlet (by simp [stairs])
  obtain ⟨-, -, -, -, lost, -⟩ := inheritance_outcomes stairs distinct orphan (by simp [stairs])
  obtain ⟨-, -, straight, -, found, once⟩ :=
    inheritance_outcomes stairs distinct bottom (by simp [stairs])
  have round : stairs.ancestors inlet =
      .error (.circular ["Inlet", "East", "West", "East"]) := by cbv
  have gone : stairs.ancestors orphan = .error (.notFound .service "Gone") := by cbv
  have ended : stairs.ancestors bottom = .ok [middle, top] := by cbv
  have apart : checkMethodsFrom "Bottom" [] (methodSources [bottom, middle, top]) = .ok () := by
    decide +kernel
  refine ⟨distinct, closes _ round, circular.mp ⟨_, round⟩, (lost "Gone").mp gone, ?_⟩
  have forward : ¬ stairs.Revisits bottom := by
    intro revisits
    obtain ⟨path, failed⟩ := straight.mpr revisits
    cases ended.symm.trans failed
  have declared : ∀ name, ¬ stairs.Lost bottom name := by
    intro name astray
    cases ended.symm.trans ((found name).mpr astray)
  obtain ⟨above, visited, walked, -, steps, walks, -, whole⟩ := once forward declared
  cases ended.symm.trans walked
  refine ⟨steps, (walks _ _).mpr ⟨?_, apart.symm⟩⟩
  rcases whole with whole | ⟨first, second, method, clash⟩
  · exact whole.symm
  · cases apart.symm.trans clash

end Idl.Schema
