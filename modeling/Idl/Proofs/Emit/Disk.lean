import Idl.Emit.Disk
import Idl.Proofs.Outcome

/-!
# What a change of a disk leaves alone

A disk is looked at through its marks: at the end of a list of names stands a file with its
contents, a directory, or nothing. A change made in one place shows only at the names that pass
through it. Routes are followed by the marks of directories alone, so a change that keeps every
directory leads each route to where it led before.
-/

set_option autoImplicit false

namespace Idl.Emit

inductive Mark where
  | file (contents : String)
  | directory
  deriving DecidableEq

def Mark.contents? : Mark → Option String
  | .file contents => some contents
  | .directory => none

def Node.mark? : List String → Node → Option Mark
  | [], .file contents => some (.file contents)
  | _ :: _, .file _ => none
  | [], .directory _ => some .directory
  | name :: names, .directory es => (es.find? name).bind (Node.mark? names)

namespace Entries

def mark? (names : List String) (es : Entries) : Option Mark :=
  (Node.directory es).mark? names

theorem mark?_cons (name : String) (names : List String) (es : Entries) :
    es.mark? (name :: names) = (es.find? name).bind (Node.mark? names) := rfl

theorem file?_eq (names : List String) (es : Entries) :
    es.file? names = (es.mark? names).bind Mark.contents? := by
  induction names generalizing es with
  | nil => rfl
  | cons name names ih =>
    rw [file?, mark?_cons]
    cases es.find? name with
    | none => rfl
    | some node =>
      cases node with
      | file contents => cases names <;> rfl
      | directory inner => exact ih inner

theorem put_of_find? {name : String} {node : Node} {es : Entries}
    (there : es.find? name = some node) : es.put name node = es := by
  induction es with
  | empty => cases there
  | file n contents rest ih => grind [put, add, find?]
  | directory n inner rest _ ih => grind [put, add, find?]

theorem mark?_congr {es es' : Entries} {name : String}
    (same : ∀ other, name ≠ other → es.find? other = es'.find? other) {names : List String}
    (elsewhere : ¬ [name] <+: names) : es.mark? names = es'.mark? names := by
  cases names with
  | nil => rfl
  | cons other rest =>
    have apart : name ≠ other := by
      rintro rfl
      exact elsewhere ⟨rest, rfl⟩
    rw [mark?_cons, same other apart, mark?_cons]

end Entries

namespace Place

/-- Whether the directories above a place hold it under the names that lead down. -/
def Rests : Entries → List (String × Entries) → Prop
  | _, [] => True
  | here, (name, outer) :: above => outer.find? name = some (.directory here) ∧ Rests outer above

structure Within (d : Disk) (p : Place) : Prop where
  rests : Rests p.here p.above
  disk_eq : p.disk = d

theorem names_cons (here outer : Entries) (name : String) (above : List (String × Entries)) :
    (⟨here, (name, outer) :: above⟩ : Place).names = (⟨outer, above⟩ : Place).names ++ [name] := by
  simp [names]

theorem holding_cons (here outer es : Entries) (name : String) (above : List (String × Entries)) :
    (⟨here, (name, outer) :: above⟩ : Place).holding es =
      (⟨outer, above⟩ : Place).holding (outer.put name (.directory es)) := rfl

theorem disk_cons {here outer : Entries} {name : String} {above : List (String × Entries)}
    (rests : Rests here ((name, outer) :: above)) :
    (⟨here, (name, outer) :: above⟩ : Place).disk = (⟨outer, above⟩ : Place).disk := by
  calc (⟨here, (name, outer) :: above⟩ : Place).disk
      = (⟨outer, above⟩ : Place).holding (outer.put name (.directory here)) := rfl
    _ = (⟨outer, above⟩ : Place).disk := by rw [Entries.put_of_find? rests.1]; rfl

theorem mark?_holding (p : Place) (es : Entries) (names : List String) :
    (p.holding es).mark? (p.names ++ names) = es.mark? names := by
  obtain ⟨here, above⟩ := p
  induction above generalizing here es names with
  | nil => rfl
  | cons step above ih =>
    obtain ⟨name, outer⟩ := step
    rw [names_cons, holding_cons, List.append_assoc, ih, List.singleton_append,
      Entries.mark?_cons, Entries.find?_put, if_pos rfl]
    rfl

theorem Within.mark? {d : Disk} {p : Place} (within : p.Within d) (names : List String) :
    d.mark? (p.names ++ names) = p.here.mark? names := by
  rw [← within.disk_eq]
  exact mark?_holding p p.here names

theorem Within.up {d : Disk} {p : Place} (within : p.Within d) : p.up.Within d := by
  obtain ⟨here, above⟩ := p
  cases above with
  | nil => exact within
  | cons step above =>
    obtain ⟨name, outer⟩ := step
    exact ⟨within.rests.2, (disk_cons within.rests).symm.trans within.disk_eq⟩

theorem mark?_change {d : Disk} {p : Place} (within : p.Within d) {name : String} {es : Entries}
    (same : ∀ other, name ≠ other → es.find? other = p.here.find? other) {names : List String}
    (elsewhere : ¬ p.names ++ [name] <+: names) :
    (p.holding es).mark? names = d.mark? names := by
  obtain ⟨here, above⟩ := p
  induction above generalizing here name es with
  | nil =>
    rw [← within.disk_eq]
    exact Entries.mark?_congr same elsewhere
  | cons step above ih =>
    obtain ⟨outerName, outer⟩ := step
    by_cases below : (⟨here, (outerName, outer) :: above⟩ : Place).names <+: names
    · obtain ⟨rest, rfl⟩ := below
      rw [mark?_holding, within.mark?]
      exact Entries.mark?_congr same fun there =>
        elsewhere ((List.prefix_append_right_inj _).mpr there)
    · -- The place itself is one name of the directory above it, and the names do not pass it.
      rw [names_cons] at below
      rw [holding_cons]
      exact ih outer within.up (fun other apart => by rw [Entries.find?_put, if_neg apart]) below

def Bare (node : Option Node) : Prop :=
  ∀ name rest, node.bind (Node.mark? (name :: rest)) = none

theorem bare_none : Bare none := fun _ _ => rfl

theorem bare_file (contents : String) : Bare (some (.file contents)) := fun _ _ => rfl

theorem bare_empty : Bare (some (.directory .empty)) := fun _ _ => rfl

theorem bare_of_no_directory {node : Option Node} (none : ∀ inner, node ≠ some (.directory inner)) :
    Bare node ∧ node.bind (Node.mark? []) ≠ some .directory := by
  cases node with
  | none => exact ⟨bare_none, by simp⟩
  | some node =>
    cases node with
    | file contents => exact ⟨bare_file contents, by simp [Node.mark?]⟩
    | directory inner => exact absurd rfl (none inner)

theorem mark?_change_bare {d : Disk} {p : Place} (within : p.Within d) {name : String}
    {es : Entries} (same : ∀ other, name ≠ other → es.find? other = p.here.find? other)
    (old : Bare (p.here.find? name)) (new : Bare (es.find? name)) (names : List String) :
    (p.holding es).mark? names =
      if names = p.names ++ [name] then (es.find? name).bind (Node.mark? [])
      else d.mark? names := by
  by_cases through : p.names ++ [name] <+: names
  · obtain ⟨rest, rfl⟩ := through
    rw [List.append_assoc, mark?_holding, within.mark?, List.singleton_append,
      Entries.mark?_cons, Entries.mark?_cons]
    cases rest with
    | nil => rw [if_pos rfl]
    | cons next rest =>
      rw [if_neg (by simp), old, new]
  · have apart : names ≠ p.names ++ [name] := by
      rintro rfl
      exact through List.prefix_rfl
    rw [if_neg apart, mark?_change within same through]

theorem mark?_put_bare {d : Disk} {p : Place} (within : p.Within d) {name : String} {node : Node}
    (old : Bare (p.here.find? name)) (new : Bare (some node)) (names : List String) :
    (p.holding (p.here.put name node)).mark? names =
      if names = p.names ++ [name] then node.mark? [] else d.mark? names := by
  have found : (p.here.put name node).find? name = some node := by
    rw [Entries.find?_put, if_pos rfl]
  rw [mark?_change_bare within (fun other apart => by rw [Entries.find?_put, if_neg apart]) old
    (found ▸ new), found]
  rfl

theorem within_top (d : Disk) : (⟨d, []⟩ : Place).Within d :=
  ⟨trivial, rfl⟩

theorem names_up (p : Place) : p.up.names = p.names.dropLast := by
  obtain ⟨here, above⟩ := p
  cases above with
  | nil => rfl
  | cons step above => simp [Place.up, names]

theorem enter_eq_ok_iff {name : String} {p q : Place} :
    p.enter name = .ok q ↔ name.utf8ByteSize ≤ 255 ∧
      ∃ inner, p.here.find? name = some (.directory inner) ∧
        q = ⟨inner, (name, p.here) :: p.above⟩ := by
  unfold enter
  by_cases long : name.utf8ByteSize > 255
  · simp [long, Nat.not_le.mpr long, throw, throwThe, MonadExceptOf.throw]
  · have short : name.utf8ByteSize ≤ 255 := by omega
    cases p.here.find? name with
    | none => simp [long, throw, throwThe, MonadExceptOf.throw]
    | some node =>
      cases node with
      | file contents => simp [long, throw, throwThe, MonadExceptOf.throw]
      | directory inner => simp [long, short, pure, Except.pure, eq_comm]

theorem enter_missing {name : String} {p : Place} (missing : p.enter name = .error .missing) :
    p.here.find? name = none := by
  unfold enter at missing
  split at missing
  · cases missing
  · split at missing
    · cases missing
    · cases missing
    · assumption

theorem Within.enter {d : Disk} {p q : Place} (within : p.Within d) {name : String}
    (entered : p.enter name = .ok q) : q.Within d ∧ q.names = p.names ++ [name] := by
  obtain ⟨-, inner, found, rfl⟩ := enter_eq_ok_iff.mp entered
  have rests : Rests inner ((name, p.here) :: p.above) := ⟨found, within.rests⟩
  exact ⟨⟨rests, (disk_cons rests).trans within.disk_eq⟩, names_cons ..⟩

theorem Within.enter_iff {d : Disk} {p : Place} (within : p.Within d) (name : String) :
    (∃ q, p.enter name = .ok q) ↔
      name.utf8ByteSize ≤ 255 ∧ d.mark? (p.names ++ [name]) = some .directory := by
  rw [within.mark?, Entries.mark?_cons]
  constructor
  · rintro ⟨q, entered⟩
    obtain ⟨short, inner, found, -⟩ := enter_eq_ok_iff.mp entered
    exact ⟨short, by rw [found]; rfl⟩
  · rintro ⟨short, marked⟩
    obtain ⟨node, found, isDirectory⟩ := Option.bind_eq_some_iff.mp marked
    cases node with
    | file contents => cases isDirectory
    | directory inner => exact ⟨_, enter_eq_ok_iff.mpr ⟨short, inner, found, rfl⟩⟩

/-- A route that can be followed can be followed on every disk that has at least the same
directories, and leads to the same names. -/
theorem Within.follow {d d' : Disk}
    (kept : ∀ names, d.mark? names = some .directory → d'.mark? names = some .directory)
    {parts : List String} {p p' q : Place} (within : p.Within d) (within' : p'.Within d')
    (same : p'.names = p.names) (followed : p.follow parts = .ok q) :
    q.Within d ∧ ∃ q', p'.follow parts = .ok q' ∧ q'.Within d' ∧ q'.names = q.names := by
  induction parts generalizing p p' with
  | nil =>
    cases followed
    exact ⟨within, p', rfl, within', same⟩
  | cons part parts ih =>
    unfold Place.follow at followed ⊢
    by_cases name : isName part
    · rw [if_pos name] at followed ⊢
      obtain ⟨inner, entered, rest⟩ := bind_eq_ok_iff.mp followed
      obtain ⟨short, marked⟩ := (within.enter_iff part).mp ⟨inner, entered⟩
      obtain ⟨inner', entered'⟩ :=
        (within'.enter_iff part).mpr ⟨short, by rw [same]; exact kept _ marked⟩
      obtain ⟨innerWithin, innerNames⟩ := within.enter entered
      obtain ⟨innerWithin', innerNames'⟩ := within'.enter entered'
      rw [entered']
      exact ih innerWithin innerWithin' (by rw [innerNames', innerNames, same]) rest
    · rw [if_neg name] at followed ⊢
      by_cases moving : moves part
      · rw [if_pos moving] at followed ⊢
        exact ih within.up within'.up (by rw [names_up, names_up, same]) followed
      · rw [if_neg moving] at followed ⊢
        exact ih within within' same followed

end Place

namespace Disk

def location? (d : Disk) (r : Route) : Option (List String) :=
  (d.target? r).map fun (p, name) => p.names ++ [name]

theorem target?_eq_some_iff {d : Disk} {r : Route} {p : Place} {name : String} :
    d.target? r = some (p, name) ↔ ∃ up, r = name :: up ∧
      (r.fits && isName name && name.utf8ByteSize ≤ 255) = true ∧ d.locate up = .ok p := by
  constructor
  · intro found
    unfold target? at found
    split at found
    · cases found
    · rename_i last up
      split at found
      · rename_i proper
        cases reached : d.locate up with
        | error obstacle =>
          rw [reached] at found
          cases found
        | ok place =>
          rw [reached] at found
          cases found
          exact ⟨up, rfl, proper, reached⟩
      · cases found
  · rintro ⟨up, rfl, proper, reached⟩
    unfold target?
    dsimp only
    rw [if_pos proper, reached]
    rfl

theorem locate_within {d : Disk} {r : Route} {p : Place} (located : d.locate r = .ok p) :
    p.Within d :=
  (Place.Within.follow (fun _ there => there) (Place.within_top d) (Place.within_top d) rfl
    located).1

theorem target?_within {d : Disk} {r : Route} {p : Place} {name : String}
    (found : d.target? r = some (p, name)) : p.Within d := by
  obtain ⟨up, -, -, located⟩ := target?_eq_some_iff.mp found
  exact locate_within located

theorem location?_eq {d : Disk} {r : Route} {p : Place} {name : String}
    (found : d.target? r = some (p, name)) : d.location? r = some (p.names ++ [name]) := by
  rw [location?, found]
  rfl

theorem location?_of_kept {d d' : Disk}
    (kept : ∀ names, d.mark? names = some .directory → d'.mark? names = some .directory)
    {r : Route} {names : List String} (located : d.location? r = some names) :
    d'.location? r = some names := by
  obtain ⟨⟨p, name⟩, found, rfl⟩ := Option.map_eq_some_iff.mp located
  obtain ⟨up, rfl, proper, reached⟩ := target?_eq_some_iff.mp found
  obtain ⟨-, p', reached', -, sameNames⟩ :=
    Place.Within.follow kept (Place.within_top d) (Place.within_top d') rfl reached
  rw [location?_eq (target?_eq_some_iff.mpr ⟨up, rfl, proper, reached'⟩), sameNames]

theorem read?_eq (d : Disk) (r : Route) :
    d.read? r = (d.location? r).bind fun names => d.file? names := by
  cases found : d.target? r with
  | none => simp [read?, location?, found]
  | some target =>
    obtain ⟨p, name⟩ := target
    have opened : d.read? r = p.here.file? [name] := by
      rw [read?, found]
      rfl
    rw [opened, location?_eq found, Option.bind_some, Entries.file?_eq, Entries.file?_eq,
      (target?_within found).mark?]

theorem mark?_remove (m : Medium) (d : Disk) (r : Route) (names : List String) :
    (d.remove m r).mark? names =
      if d.location? r = some names ∧ d.mark? names ≠ some .directory ∧ m.fixed names = false
      then none else d.mark? names := by
  cases found : d.target? r with
  | none => simp [remove, location?, found]
  | some target =>
    obtain ⟨p, name⟩ := target
    have marked : d.mark? (p.names ++ [name]) = (p.here.find? name).bind (Node.mark? []) :=
      (target?_within found).mark? [name]
    rw [location?_eq found, remove, found]
    dsimp only
    cases there : p.here.find? name with
    | none => grind
    | some node =>
      cases node with
      | directory inner => grind [Node.mark?]
      | file contents =>
        have erased (other : String) (apart : name ≠ other) :
            (p.here.erase name).find? other = p.here.find? other := by
          rw [Entries.find?_erase, if_neg apart]
        have gone : (p.here.erase name).find? name = none := by
          rw [Entries.find?_erase, if_pos rfl]
        dsimp only
        by_cases fixed : m.fixed (p.names ++ [name])
        · rw [if_pos fixed]
          grind
        · rw [if_neg fixed, Place.mark?_change_bare (target?_within found) erased
            (there ▸ Place.bare_file contents) (gone ▸ Place.bare_none), gone]
          grind [Node.mark?]

theorem directory_remove (m : Medium) (d : Disk) (r : Route) (names : List String) :
    (d.remove m r).mark? names = some .directory ↔ d.mark? names = some .directory := by
  rw [mark?_remove]
  split <;> simp_all

theorem location?_remove (m : Medium) (d : Disk) (r : Route) :
    (d.remove m r).location? = d.location? := by
  ext other names
  exact ⟨location?_of_kept fun names => (directory_remove m d r names).mp,
    location?_of_kept fun names => (directory_remove m d r names).mpr⟩

theorem mark?_removeAll (m : Medium) (d : Disk) (routes : List Route) (names : List String) :
    (routes.foldl (remove m) d).mark? names =
      if names ∈ routes.filterMap d.location? ∧ d.mark? names ≠ some .directory ∧
          m.fixed names = false
      then none else d.mark? names := by
  induction routes generalizing d with
  | nil => simp
  | cons r routes ih =>
    rw [List.foldl_cons, ih, location?_remove, mark?_remove]
    grind

theorem location?_removeAll (m : Medium) (d : Disk) (routes : List Route) :
    Disk.location? (routes.foldl (remove m) d) = d.location? := by
  induction routes generalizing d with
  | nil => rfl
  | cons r routes ih => rw [List.foldl_cons, ih, location?_remove]

/-- Every directory of the first disk is one of the second, and every file of the first a file of
the second, though its contents may differ. -/
structure Keeps (d d' : Disk) : Prop where
  directory : ∀ names, d.mark? names = some .directory → d'.mark? names = some .directory
  file : ∀ names contents, d.mark? names = some (.file contents) →
    ∃ contents', d'.mark? names = some (.file contents')

theorem Keeps.trans {d d' d'' : Disk} (first : d.Keeps d') (second : d'.Keeps d'') :
    d.Keeps d'' := by
  constructor
  · intro names there
    exact second.directory names (first.directory names there)
  · intro names contents there
    obtain ⟨contents', there'⟩ := first.file names contents there
    exact second.file names contents' there'

theorem Keeps.read? {d d' : Disk} (keeps : d.Keeps d') {r : Route} (readable : (d.read? r).isSome) :
    (d'.read? r).isSome := by
  rw [read?_eq] at readable ⊢
  obtain ⟨contents, read⟩ := Option.isSome_iff_exists.mp readable
  obtain ⟨names, located, there⟩ := Option.bind_eq_some_iff.mp read
  rw [location?_of_kept keeps.directory located, Option.bind_some]
  rw [Entries.file?_eq] at there ⊢
  obtain ⟨mark, marked, isFile⟩ := Option.bind_eq_some_iff.mp there
  cases mark with
  | directory => cases isFile
  | file old =>
    obtain ⟨contents', marked'⟩ := keeps.file names old marked
    rw [marked']
    rfl

theorem makeDirectory_cases {d d' : Disk} {r : Route} (made : d.makeDirectory r = .ok d') :
    d' = d ∨ ∃ (p : Place) (part : String), p.Within d ∧ p.here.find? part = none ∧
      d' = p.holding (p.here.put part (.directory .empty)) := by
  unfold makeDirectory at made
  by_cases fits : r.fits
  · simp only [fits, Bool.not_true, Bool.false_eq_true, if_false] at made
    split at made
    · cases made
      exact .inl rfl
    · rename_i part up _
      obtain ⟨p, reached, rest⟩ := bind_eq_ok_iff.mp made
      split at rest
      · cases rest
        exact .inl rfl
      · split at rest
        · cases rest
          exact .inl rfl
        · rename_i missing
          cases rest
          exact .inr ⟨p, part, locate_within reached, Place.enter_missing missing, rfl⟩
        · cases rest
  · simp [fits, throw, throwThe, MonadExceptOf.throw, bind, Except.bind] at made

/-- Directories may come, but none goes, and every file stays as it is. -/
structure Grows (d d' : Disk) : Prop where
  directory : ∀ names, d.mark? names = some .directory → d'.mark? names = some .directory
  file : ∀ names, d'.file? names = d.file? names

theorem Grows.refl (d : Disk) : d.Grows d :=
  ⟨fun _ there => there, fun _ => rfl⟩

theorem Grows.trans {d d' d'' : Disk} (first : d.Grows d') (second : d'.Grows d'') :
    d.Grows d'' :=
  ⟨fun names there => second.directory names (first.directory names there),
    fun names => (second.file names).trans (first.file names)⟩

theorem mark?_eq_file_iff {d : Disk} {names : List String} {contents : String} :
    d.mark? names = some (.file contents) ↔ d.file? names = some contents := by
  rw [Entries.file?_eq]
  cases d.mark? names with
  | none => simp
  | some mark => cases mark <;> simp [Mark.contents?]

theorem Grows.keeps {d d' : Disk} (grows : d.Grows d') : d.Keeps d' where
  directory := grows.directory
  file names contents there :=
    ⟨contents, mark?_eq_file_iff.mpr ((grows.file names).trans (mark?_eq_file_iff.mp there))⟩

theorem makeDirectory_grows {d d' : Disk} {r : Route} (made : d.makeDirectory r = .ok d') :
    d.Grows d' := by
  obtain rfl | ⟨p, part, within, missing, rfl⟩ := makeDirectory_cases made
  · exact Grows.refl _
  · have put := Place.mark?_put_bare within (missing ▸ Place.bare_none) Place.bare_empty
    have unmarked : d.mark? (p.names ++ [part]) = none := by
      rw [within.mark?, Entries.mark?_cons, missing]
      rfl
    constructor
    · grind
    · intro names
      rw [Entries.file?_eq, Entries.file?_eq, put]
      split
      · rename_i here
        rw [here, unmarked]
        rfl
      · rfl

theorem makeUpwards_cons (r : Route) (parents : List Route) (d : Disk) :
    makeUpwards (r :: parents) d =
      match d.makeDirectory r with
      | .ok made => .ok () made
      | .error .blocked => .error .io d
      | .error .missing =>
        match makeUpwards parents d with
        | .error e between => .error e between
        | .ok _ between =>
          match between.makeDirectory r with
          | .ok made => .ok () made
          | .error _ => .error .io between := by
  rw [makeUpwards, get_bind]
  cases d.makeDirectory r with
  | ok made => rfl
  | error obstacle =>
    cases obstacle with
    | blocked => rfl
    | missing =>
      cases above : makeUpwards parents d with
      | error e between => exact bind_of_error above
      | ok _ between =>
        refine (bind_of_ok above).trans ?_
        rw [get_bind]
        dsimp only
        cases between.makeDirectory r <;> rfl

/-- Making directories touches no file, even where it fails half-way. -/
theorem makeUpwards_grows (routes : List Route) (d : Disk) :
    d.Grows (endState (makeUpwards routes d)) := by
  induction routes generalizing d with
  | nil => exact Grows.refl d
  | cons r parents ih =>
    rw [makeUpwards_cons]
    cases first : d.makeDirectory r with
    | ok made => exact makeDirectory_grows first
    | error obstacle =>
      cases obstacle with
      | blocked => exact Grows.refl d
      | missing =>
        have above := ih d
        dsimp only
        cases outcome : makeUpwards parents d with
        | error e between =>
          rw [outcome] at above
          exact above
        | ok _ between =>
          rw [outcome] at above
          dsimp only
          cases second : between.makeDirectory r with
          | error obstacle => exact above
          | ok made => exact above.trans (makeDirectory_grows second)

/-- One disk is the other with a text put where a route leads. -/
structure Puts (d : Disk) (r : Route) (text : String) (there : List String) (d' : Disk) : Prop where
  keeps : d.Keeps d'
  located : d'.location? r = some there
  files : ∀ names, d'.file? names = if names = there then some text else d.file? names

theorem Grows.puts {d between d' : Disk} {r : Route} {text : String} {there : List String}
    (grows : d.Grows between) (puts : between.Puts r text there d') : d.Puts r text there d' where
  keeps := grows.keeps.trans puts.keeps
  located := puts.located
  files names := by rw [puts.files, grows.file]

theorem Puts.read? {d d' : Disk} {r : Route} {text : String} {there : List String}
    (puts : d.Puts r text there d') : d'.read? r = some text := by
  rw [read?_eq, puts.located, Option.bind_some, puts.files, if_pos rfl]

theorem puts_file {d : Disk} {r : Route} {p : Place} {name : String}
    (found : d.target? r = some (p, name))
    (noDirectory : ∀ inner, p.here.find? name ≠ some (.directory inner)) (text : String) :
    d.Puts r text (p.names ++ [name]) (p.holding (p.here.put name (.file text))) := by
  have within := target?_within found
  obtain ⟨bare, noMark⟩ := Place.bare_of_no_directory noDirectory
  have unmarked : d.mark? (p.names ++ [name]) ≠ some .directory := by
    rw [within.mark?, Entries.mark?_cons]
    exact noMark
  have put := Place.mark?_put_bare within bare (Place.bare_file text)
  have keeps : d.Keeps (p.holding (p.here.put name (.file text))) := by
    constructor
    · intro names there
      have elsewhere : names ≠ p.names ++ [name] := by
        rintro rfl
        exact unmarked there
      rw [put, if_neg elsewhere, there]
    · intro names old there
      by_cases here : names = p.names ++ [name]
      · exact ⟨text, by rw [put, if_pos here]; rfl⟩
      · exact ⟨old, by rw [put, if_neg here, there]⟩
  refine ⟨keeps, location?_of_kept keeps.directory (location?_eq found), fun names => ?_⟩
  rw [Entries.file?_eq, put]
  split
  · rfl
  · rw [Entries.file?_eq]

theorem writeFile_eq {d : Disk} {r : Route} {p : Place} {name : String}
    (found : d.target? r = some (p, name))
    (noDirectory : ∀ inner, p.here.find? name ≠ some (.directory inner)) (m : Medium)
    (contents : String) :
    writeFile m r contents d =
      match m.fault? d (p.names ++ [name]) contents with
      | none => .ok () (p.holding (p.here.put name (.file contents)))
      | some .refused => .error .io d
      | some (.cut length) =>
        .error .io (p.holding (p.here.put name (.file (firstPart length contents)))) := by
  rw [writeFile, get_bind, found]
  dsimp only
  generalize m.fault? d (p.names ++ [name]) contents = fault
  cases held : p.here.find? name with
  | none => rcases fault with _ | _ | _ <;> rfl
  | some node =>
    cases node with
    | directory inner => exact absurd held (noDirectory inner)
    | file old => rcases fault with _ | _ | _ <;> rfl

/-- A file that is written stands where its route leads. One that is not stays as it was, or the
medium has cut it. -/
theorem writeFile_cases (m : Medium) (r : Route) (contents : String) (d : Disk) :
    (∃ there d', writeFile m r contents d = .ok () d' ∧ d.Puts r contents there d') ∨
      writeFile m r contents d = .error .io d ∨
      ∃ there length d', m.fault? d there contents = some (.cut length) ∧
        writeFile m r contents d = .error .io d' ∧
        d.Puts r (firstPart length contents) there d' := by
  cases found : d.target? r with
  | none =>
    rw [writeFile, get_bind, found]
    exact .inr (.inl rfl)
  | some target =>
    obtain ⟨p, name⟩ := target
    by_cases blocked : ∃ inner, p.here.find? name = some (.directory inner)
    · obtain ⟨inner, held⟩ := blocked
      rw [writeFile, get_bind, found]
      dsimp only
      rw [held]
      exact .inr (.inl rfl)
    · have noDirectory := not_exists.mp blocked
      have puts := puts_file found noDirectory
      rw [writeFile_eq found noDirectory]
      cases fault : m.fault? d (p.names ++ [name]) contents with
      | none => exact .inl ⟨_, _, rfl, puts contents⟩
      | some kind =>
        cases kind with
        | refused => exact .inr (.inl rfl)
        | cut length => exact .inr (.inr ⟨_, length, _, fault, rfl, puts _⟩)

theorem write_eq (m : Medium) (r : Route) (contents : String) (d : Disk) :
    write m r contents d =
      match makeUpwards r.parents d with
      | .error e between => .error e between
      | .ok _ between => writeFile m r contents between := by
  rw [write]
  cases above : makeUpwards r.parents d with
  | error e between => exact bind_of_error above
  | ok _ between => exact bind_of_ok above

theorem write_ok {m : Medium} {r : Route} {contents : String} {d d' : Disk}
    (written : write m r contents d = .ok () d') : ∃ there, d.Puts r contents there d' := by
  have above := makeUpwards_grows r.parents d
  rw [write_eq] at written
  split at written
  · cases written
  · rename_i between outcome
    rw [outcome] at above
    obtain ⟨there, after, done, puts⟩ | failed | ⟨_, _, _, -, failed, -⟩ :=
      writeFile_cases m r contents between
    · rw [done] at written
      cases written
      exact ⟨there, above.puts puts⟩
    · rw [failed] at written
      cases written
    · rw [failed] at written
      cases written

/-- A write that fails touches no file, unless the medium gives out in the middle of its own. -/
theorem write_error {m : Medium} {r : Route} {contents : String} {d d' : Disk} {e : EmitError}
    (failed : write m r contents d = .error e d') :
    d.Grows d' ∨ ∃ between there length, m.fault? between there contents = some (.cut length) ∧
      d.Puts r (firstPart length contents) there d' := by
  have above := makeUpwards_grows r.parents d
  rw [write_eq] at failed
  split at failed
  · rename_i outcome
    cases failed
    rw [outcome] at above
    exact .inl above
  · rename_i between outcome
    rw [outcome] at above
    obtain ⟨_, _, done, -⟩ | refused | ⟨there, length, after, fault, cut, puts⟩ :=
      writeFile_cases m r contents between
    · rw [done] at failed
      cases failed
    · rw [refused] at failed
      cases failed
      exact .inl above
    · rw [cut] at failed
      cases failed
      exact .inr ⟨between, there, length, fault, above.puts puts⟩

end Disk

end Idl.Emit
