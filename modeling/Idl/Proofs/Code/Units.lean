import Idl.Proofs.Code.Generation
import Idl.Proofs.Code.Writing
import Idl.Proofs.Schema.Ident

/-!
# Units and their files

A pass that succeeds gives the same units in the same order for every schema: the types, the
constants, each service under its name in snake case, and the unit that declares the others. The
check compares the services by the names that they are declared with, so two of them can share a
path, and one of them can take the path of the types or of the constants. Where no path occurs twice
and none leads into another directory, every unit can be read back once all are written.
-/

set_option autoImplicit false

namespace Idl

namespace Emit

theorem ok_of_within {σ α : Type} {entity : Entity} {name : String} {step : Step σ α} {s s' : σ}
    {a : α} (done : within entity name step s = .ok a s') : step s = .ok a s' := by
  unfold within at done
  cases outcome : step s with
  | ok b between =>
    rw [outcome] at done
    exact done
  | error e between =>
    rw [outcome] at done
    cases done

theorem Emitter.ok_of_units {σ : Type} {e : Emitter σ} {schema : Schema} {s : σ}
    {units : List OutputUnit} (ended : e.units s schema = .ok units) :
    (∀ d ∈ schema.constants, ∃ before after, e.constant schema d before = .ok () after) ∧
      (∀ d ∈ schema.structs, ∃ before after, e.struct schema d before = .ok () after) ∧
      ∀ d ∈ schema.services, ∃ before after, e.service schema d before = .ok () after := by
  have ran : ∃ s', e.run schema s = .ok units s' := by
    unfold Emitter.units at ended
    cases outcome : e.run schema s with
    | ok given s' =>
      rw [outcome] at ended
      cases ended
      exact ⟨s', rfl⟩
    | error reason s' =>
      rw [outcome] at ended
      cases ended
  obtain ⟨s', ran⟩ := ran
  obtain ⟨_, _, -, afterStart⟩ := ok_of_bind ran
  obtain ⟨_, _, -, afterTypedefs⟩ := ok_of_bind afterStart
  obtain ⟨_, _, -, afterEnums⟩ := ok_of_bind afterTypedefs
  obtain ⟨_, _, constants, afterConstants⟩ := ok_of_bind afterEnums
  obtain ⟨_, _, structs, afterStructs⟩ := ok_of_bind afterConstants
  obtain ⟨_, _, services, -⟩ := ok_of_bind afterStructs
  refine ⟨?_, ?_, ?_⟩
  · intro d member
    obtain ⟨before, after, done⟩ := ok_of_forM constants d member
    exact ⟨before, after, ok_of_within done⟩
  · intro d member
    obtain ⟨before, after, done⟩ := ok_of_forM structs d member
    exact ⟨before, after, ok_of_within done⟩
  · intro d member
    obtain ⟨before, after, done⟩ := ok_of_forM services d member
    exact ⟨before, after, ok_of_within done⟩

end Emit

namespace Code

open Emit

variable {s : Schema} {o : Options} {units : List OutputUnit}

theorem answer_of_toTypes {d : Draft Unit} {before after : State}
    (done : toTypes d before = .ok () after) : (d before.types.counter).answer = .ok () := by
  unfold toTypes Page.draft at done
  dsimp only at done
  cases answer : (d before.types.counter).answer with
  | ok _ => rfl
  | error e =>
    rw [answer] at done
    cases done

theorem answer_of_toConstants {d : Draft Unit} {before after : State}
    (done : toConstants d before = .ok () after) :
    (d before.constants.counter).answer = .ok () := by
  unfold toConstants Page.draft at done
  dsimp only at done
  cases answer : (d before.constants.counter).answer with
  | ok _ => rfl
  | error e =>
    rw [answer] at done
    cases done

theorem page_of_addService {d : ServiceDecl} {before after : State}
    (done : addService o s d before = .ok () after) : ∃ page, servicePage o s d = .ok page := by
  unfold addService at done
  cases written : servicePage o s d with
  | ok page => exact ⟨page, rfl⟩
  | error e =>
    rw [written] at done
    cases done

theorem generate_ok (generated : generate o s = .ok units) :
    (∀ d ∈ s.structs, structVerdict s d = .ok ()) ∧
      ∃ (page : ServiceDecl → Page) (modules : String),
        (∀ d ∈ s.services, servicePage o s d = .ok (page d)) ∧
        units = ⟨"types.rs", (typesPage o s).text⟩ :: ⟨"constants.rs", (constantsPage o s).text⟩ ::
          (s.services.map (fun d => ⟨Ident.field d.name ++ ".rs", (page d).text⟩) ++
            [⟨"mod.rs", modules⟩]) := by
  obtain ⟨constants, structs, services⟩ := Emitter.ok_of_units generated
  have constantLines : ∀ d ∈ s.constants, ∃ line, constLine s d = .ok line := by
    intro d member
    obtain ⟨before, after, done⟩ := constants d member
    rw [← verdict_eq_ok_iff, ← constCode_answer]
    exact answer_of_toConstants done
  have verdicts : ∀ d ∈ s.structs, structVerdict s d = .ok () := by
    intro d member
    obtain ⟨before, after, done⟩ := structs d member
    rw [← structCode_answer s o]
    exact answer_of_toTypes done
  have pageOf : ∀ d ∈ s.services, ∃ page, servicePage o s d = .ok page := by
    intro d member
    obtain ⟨before, after, done⟩ := services d member
    exact page_of_addService done
  have : Nonempty Page := ⟨{}⟩
  choose! page pages using pageOf
  have given := generate_eq o constantLines verdicts pages
  rw [generated] at given
  have listed := Except.ok.inj given
  rw [State.units, List.map_map] at listed
  exact ⟨verdicts, page, _, pages, listed⟩

def unitNames (services : List String) : List String :=
  "types" :: "constants" :: (services.map Ident.field ++ ["mod"])

theorem generate_paths (generated : generate o s = .ok units) :
    units.map (·.path) = (unitNames (s.services.map (·.name))).map (· ++ ".rs") := by
  obtain ⟨-, page, modules, -, rfl⟩ := generate_ok generated
  simp [unitNames, Function.comp_def]

theorem unitNames_nodup_iff (services : List String) :
    (unitNames services).Nodup ↔ (services.map Ident.field).Nodup ∧
      ∀ name ∈ services, Ident.snake name ≠ "types" ∧ Ident.snake name ≠ "constants" := by
  have types (name : String) : Ident.field name = "types" ↔ Ident.snake name = "types" :=
    Ident.field_eq_plain_iff (by decide) (by decide) (by decide)
  have constants (name : String) :
      Ident.field name = "constants" ↔ Ident.snake name = "constants" :=
    Ident.field_eq_plain_iff (by decide) (by decide) (by decide)
  have modules (name : String) : Ident.field name ≠ "mod" := by
    rw [Ident.field, Ne, Ident.escape_eq_plain_iff (by decide) (by decide)]
    exact fun both => absurd both.2 (by decide)
  simp only [unitNames, List.nodup_cons, List.nodup_append, List.mem_cons, List.mem_append,
    List.mem_map, List.not_mem_nil, or_false]
  grind

theorem generate_paths_nodup_iff (generated : generate o s = .ok units) :
    (units.map (·.path)).Nodup ↔ (unitNames (s.services.map (·.name))).Nodup := by
  rw [generate_paths generated]
  exact List.nodup_map_iff fun a b same => by simpa using same

end Code

namespace Emit

/-- The last of some units that has a path. -/
def latest? (units : List OutputUnit) (path : String) : Option OutputUnit :=
  units.reverse.find? (·.path = path)

theorem latest?_eq_none_iff {units : List OutputUnit} {path : String} :
    latest? units path = none ↔ ∀ u ∈ units, u.path ≠ path := by
  simp [latest?]

theorem of_latest? {units : List OutputUnit} {path : String} {u : OutputUnit}
    (found : latest? units path = some u) : u ∈ units ∧ u.path = path := by
  have named := List.find?_some found
  exact ⟨List.mem_reverse.mp (List.mem_of_find?_eq_some found), by simpa using named⟩

theorem latest?_cons (first : OutputUnit) (rest : List OutputUnit) (path : String) :
    latest? (first :: rest) path =
      (latest? rest path).or (if first.path = path then some first else none) := by
  simp [latest?, List.find?_append, List.find?_singleton]

theorem latest?_of_nodup {units : List OutputUnit} (distinct : (units.map (·.path)).Nodup) :
    ∀ u ∈ units, latest? units u.path = some u := by
  induction units with
  | nil => intro u member; cases member
  | cons first rest ih =>
    rw [List.map_cons, List.nodup_cons] at distinct
    intro u member
    rw [latest?_cons]
    rcases List.mem_cons.mp member with rfl | member
    · have alone : latest? rest u.path = none := by
        rw [latest?_eq_none_iff]
        exact fun v later same => distinct.1 (List.mem_map.mpr ⟨v, later, same⟩)
      simp [alone]
    · simp [ih distinct.2 u member]

theorem Route.ofText_eq {path : String} (flat : '/' ∉ path.toList) :
    Route.ofText path = [path] := by
  have parts (start cs : List Char) (absent : '/' ∉ cs) :
      Route.partsFrom start cs = [String.ofList (start.reverse ++ cs)] := by
    induction cs generalizing start with
    | nil => simp [Route.partsFrom]
    | cons c cs ih =>
      rw [List.mem_cons, not_or] at absent
      simp [Route.partsFrom, Ne.symm absent.1, ih (c :: start) absent.2]
  simp [Route.ofText, parts [] path.toList flat]

theorem Disk.getLast?_of_location? {d : Disk} {r : Route} {names : List String}
    (located : d.location? r = some names) : names.getLast? = r.head? := by
  obtain ⟨⟨p, name⟩, found, rfl⟩ := Option.map_eq_some_iff.mp located
  obtain ⟨up, rfl, -, -⟩ := Disk.target?_eq_some_iff.mp found
  simp

namespace Directory

theorem head?_below (s : Directory) {path : String} (flat : '/' ∉ path.toList) :
    (s.below path).head? = some path := by
  have relative : Route.isAbsolute [path] = false := rfl
  rw [below, Route.ofText_eq flat]
  unfold Route.join
  rw [relative, if_neg Bool.false_ne_true]
  split <;> rfl

theorem read?_written {u : OutputUnit} {s s' : Directory} (written : sink.write u s = .ok () s') :
    s'.read? u.path = some u.contents := by
  obtain ⟨disk, there, puts, rfl⟩ := write_ok written
  exact puts.read?

theorem read?_of_write {u : OutputUnit} {s s' : Directory} (written : sink.write u s = .ok () s')
    (flat : '/' ∉ u.path.toList) {path contents : String} (flatPath : '/' ∉ path.toList)
    (apart : u.path ≠ path) (before : s.read? path = some contents) :
    s'.read? path = some contents := by
  obtain ⟨disk, there, puts, rfl⟩ := write_ok written
  rw [read?, Disk.read?_eq] at before
  obtain ⟨names, located, held⟩ := Option.bind_eq_some_iff.mp before
  have kept := Disk.location?_of_kept puts.keeps.directory located
  have elsewhere : names ≠ there := by
    intro here
    have ends := Disk.getLast?_of_location? kept
    rw [here, Disk.getLast?_of_location? puts.located, head?_below s flat,
      head?_below s flatPath] at ends
    exact apart (Option.some.inj ends)
  change disk.read? (s.below path) = some contents
  rw [Disk.read?_eq, kept, Option.bind_some, puts.files, if_neg elsewhere, held]

theorem read?_of_writes {units : List OutputUnit} {s s' : Directory}
    (written : units.forM sink.write s = .ok () s') (flat : ∀ u ∈ units, '/' ∉ u.path.toList)
    {path contents : String} (flatPath : '/' ∉ path.toList)
    (apart : ∀ u ∈ units, u.path ≠ path) (before : s.read? path = some contents) :
    s'.read? path = some contents := by
  induction units generalizing s with
  | nil =>
    cases written
    exact before
  | cons u rest ih =>
    obtain ⟨_, between, first, others⟩ := ok_of_bind written
    simp only [List.forall_mem_cons] at flat apart
    exact ih others flat.2 apart.2 (read?_of_write first flat.1 flatPath apart.1 before)

/-- Once some units are written, each of their paths holds the last of them that has it. -/
theorem read?_writes {units : List OutputUnit} {s s' : Directory}
    (written : units.forM sink.write s = .ok () s') (flat : ∀ u ∈ units, '/' ∉ u.path.toList) :
    ∀ u ∈ units, s'.read? u.path = (latest? units u.path).map (·.contents) := by
  induction units generalizing s with
  | nil => intro u member; cases member
  | cons first rest ih =>
    obtain ⟨_, between, here, others⟩ := ok_of_bind written
    simp only [List.forall_mem_cons] at flat
    intro u member
    rw [latest?_cons]
    cases later : latest? rest u.path with
    | some v =>
      obtain ⟨inRest, same⟩ := of_latest? later
      have held := ih others flat.2 v inRest
      rwa [same, later] at held
    | none =>
      have apart := latest?_eq_none_iff.mp later
      rcases List.mem_cons.mp member with rfl | member
      · rw [read?_of_writes others flat.2 flat.1 apart (read?_written here)]
        simp
      · exact absurd rfl (apart u member)

end Directory

end Emit

namespace Code

open Emit

variable {s : Schema} {o : Options} {units : List OutputUnit}

theorem generate_paths_flat (generated : generate o s = .ok units)
    (flat : ∀ d ∈ s.services, '/' ∉ d.name.toList) : ∀ u ∈ units, '/' ∉ u.path.toList := by
  have names : ∀ name ∈ unitNames (s.services.map (·.name)), '/' ∉ name.toList := by
    simp only [unitNames, List.forall_mem_cons, List.forall_mem_append, List.forall_mem_map]
    refine ⟨by decide, by decide, ?_, by decide, by simp⟩
    intro d member
    exact Ident.slash_not_mem_field (flat d member)
  intro u member
  have path : u.path ∈ units.map (·.path) := List.mem_map.mpr ⟨u, member, rfl⟩
  rw [generate_paths generated] at path
  obtain ⟨name, named, same⟩ := List.mem_map.mp path
  rw [← same]
  simp [names name named]

theorem read?_writeTo (generated : generate o s = .ok units)
    (flat : ∀ d ∈ s.services, '/' ∉ d.name.toList) {root : Route} {disk disk' : Disk} {count : Nat}
    (written : writeTo o s root disk = (.ok count, disk')) :
    ∀ u ∈ units, disk'.read? (root.join (Route.ofText u.path)) =
      (latest? units u.path).map (·.contents) := by
  rw [writeTo_eq, generated] at written
  dsimp only at written
  cases writing : Directory.sink.writeAll s.name units { disk, root } with
  | error e after =>
    rw [writing] at written
    cases written
  | ok _ after =>
    rw [writing] at written
    cases written
    obtain ⟨_, begun, beginning, rest⟩ := ok_of_bind writing
    obtain ⟨_, ready, writes, finishing⟩ := ok_of_bind rest
    cases finishing
    have sameRoot := (Directory.writeAll_alike s.name units { disk, root }).root
    rw [writing] at sameRoot
    intro u member
    have held := Directory.read?_writes writes (generate_paths_flat generated flat) u member
    rw [Directory.read?, Directory.below] at held
    rwa [show after.root = root from sameRoot] at held

/-- The paths of the units differ exactly if different services have different names in snake case
and none of those is the name of the types or of the constants. With no slash in the name of a
service, a path holds in the end the last unit that has it, so that every unit can be read back if
the paths differ. -/
theorem units_apart_iff (s : Schema) (accepted : s.check = .ok ()) (o : Options)
    (units : List OutputUnit) (generated : generate o s = .ok units) :
    ((units.map (·.path)).Nodup ↔ Ident.Separates Ident.field (s.services.map (·.name)) ∧
        ∀ d ∈ s.services, Ident.snake d.name ≠ "types" ∧ Ident.snake d.name ≠ "constants") ∧
      ((∀ d ∈ s.services, '/' ∉ d.name.toList) →
        ∀ root disk count disk', writeTo o s root disk = (.ok count, disk') → ∀ u ∈ units,
          disk'.read? (root.join (Route.ofText u.path)) =
            (latest? units u.path).map (·.contents) ∧
          ((units.map (·.path)).Nodup →
            disk'.read? (root.join (Route.ofText u.path)) = some u.contents)) := by
  have distinct := (Schema.wellFormed_of_check accepted).serviceNames
  constructor
  · rw [generate_paths_nodup_iff generated, unitNames_nodup_iff, Ident.separates_iff distinct,
      List.forall_mem_map]
  · intro flat root disk count disk' written u member
    have held := read?_writeTo generated flat written u member
    refine ⟨held, fun apart => ?_⟩
    rw [held, latest?_of_nodup apart u member]
    rfl

def shelves : Schema where
  name := "shelves"
  services := [{ name := "mod" }, { name := "TypeStore" }]

theorem generate_shelves : ∃ types constants first second modules,
    generate {} shelves = .ok [⟨"types.rs", types⟩, ⟨"constants.rs", constants⟩,
      ⟨"r#mod.rs", first⟩, ⟨"type_store.rs", second⟩, ⟨"mod.rs", modules⟩] :=
  ⟨_, _, _, _, _, rfl⟩

theorem units_apart_shelves : shelves.check = .ok () ∧
    ∃ units, generate {} shelves = .ok units ∧ (units.map (·.path)).Nodup ∧
      ∀ root disk count disk', writeTo {} shelves root disk = (.ok count, disk') → ∀ u ∈ units,
        disk'.read? (root.join (Route.ofText u.path)) = some u.contents := by
  obtain ⟨types, constants, first, second, modules, generated⟩ := generate_shelves
  have accepted : shelves.check = .ok () := by decide +kernel
  obtain ⟨paths, files⟩ := units_apart_iff shelves accepted {} _ generated
  have separate : Ident.Separates Ident.field (shelves.services.map (·.name)) := by
    unfold Ident.Separates
    decide +kernel
  have distinct := paths.mpr ⟨separate, by decide +kernel⟩
  refine ⟨accepted, _, generated, distinct, ?_⟩
  intro root disk count disk' written u member
  exact (files (by decide +kernel) root disk count disk' written u member).2 distinct

def crowded : Schema where
  name := "crowded"
  services := [{ name := "Shop" }, { name := "shop" }, { name := "types" }]

theorem generate_crowded : ∃ types constants first second third modules,
    generate {} crowded = .ok [⟨"types.rs", types⟩, ⟨"constants.rs", constants⟩, ⟨"shop.rs", first⟩,
      ⟨"shop.rs", second⟩, ⟨"types.rs", third⟩, ⟨"mod.rs", modules⟩] :=
  ⟨_, _, _, _, _, _, rfl⟩

/-- The types and the first of the two shops are replaced by later units. -/
theorem crowded_overwrites : crowded.check = .ok () ∧
    ∃ units, generate {} crowded = .ok units ∧ ¬ (units.map (·.path)).Nodup ∧
      latest? units "types.rs" = units[4]? ∧ latest? units "shop.rs" = units[3]? := by
  obtain ⟨types, constants, first, second, third, modules, generated⟩ := generate_crowded
  exact ⟨by decide +kernel, _, generated, by simp, rfl, rfl⟩

end Code

end Idl
