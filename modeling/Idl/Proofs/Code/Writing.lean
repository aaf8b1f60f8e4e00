import Idl.Code.Writing
import Idl.Proofs.Emit.Directory
import Mathlib.Data.List.Basic

/-!
# What a failed writing takes from a disk

Units are written one after another, each over the file that stands in its place, and what that file
held before is not kept anywhere. When a unit cannot be written, those before it are removed again.
So a writing that fails takes with it every file that it had already replaced. A unit at which the
medium gives out is not noted before it is whole: what was written of it stays behind.
-/

set_option autoImplicit false

namespace Idl.Emit

def Sink.taken {σ : Type} (k : Sink σ) : List OutputUnit → σ → List OutputUnit
  | [], _ => []
  | u :: rest, s =>
    match k.write u s with
    | .ok _ s' => u :: k.taken rest s'
    | .error _ _ => []

def overlaid (puts : List (List String × String)) (d : Disk) (names : List String) :
    Option String :=
  (puts.reverse.lookup names).or (d.file? names)

theorem overlaid_nil (d : Disk) (names : List String) : overlaid [] d names = d.file? names := rfl

theorem overlaid_concat (puts : List (List String × String)) (there : List String) (text : String)
    (d : Disk) (names : List String) :
    overlaid (puts ++ [(there, text)]) d names =
      if names = there then some text else overlaid puts d names := by
  rw [overlaid, List.reverse_concat, List.lookup_cons]
  by_cases here : names = there
  · rw [if_pos here, beq_iff_eq.mpr here]
    rfl
  · rw [if_neg here, beq_eq_false_iff_ne.mpr here]
    rfl

theorem overlaid_of_not_mem {puts : List (List String × String)} {names : List String}
    (elsewhere : names ∉ puts.map (·.1)) (d : Disk) : overlaid puts d names = d.file? names := by
  have none : puts.reverse.lookup names = none := by
    rw [List.lookup_eq_none_iff]
    intro put member
    rw [bne_iff_ne]
    rintro rfl
    exact elsewhere (List.mem_map.mpr ⟨put, List.mem_reverse.mp member, rfl⟩)
  rw [overlaid, none, Option.none_or]

namespace Directory

def landing? (s : Directory) (u : OutputUnit) : Option (List String × String) :=
  (s.location? u.path).map fun names => (names, u.contents)

/-- How far a sink has come from where it started: it remembers some units, and the files are those
of the start with these units put over them and then, maybe, a part of one more. -/
structure Laid (start : Directory) (units : List OutputUnit)
    (stub : Option (List String × String)) (s : Directory) : Prop where
  alike : start.Alike s
  noted : s.written = units.map (·.path)
  placed : ∀ u ∈ units, (s.location? u.path).isSome
  files : ∀ names, s.disk.file? names =
    overlaid (units.filterMap s.landing? ++ stub.toList) start.disk names

variable {start s : Directory} {units : List OutputUnit}

theorem Laid.landings {stub : Option (List String × String)} (laid : start.Laid units stub s)
    {disk : Disk} (written : List String)
    (kept : ∀ names, s.disk.mark? names = some .directory → disk.mark? names = some .directory) :
    (∀ u ∈ units, (({ s with disk, written } : Directory).location? u.path).isSome) ∧
      units.filterMap ({ s with disk, written } : Directory).landing? =
        units.filterMap s.landing? := by
  have same : ∀ u ∈ units,
      ({ s with disk, written } : Directory).location? u.path = s.location? u.path := by
    intro u member
    obtain ⟨names, located⟩ := Option.isSome_iff_exists.mp (laid.placed u member)
    rw [located]
    exact Disk.location?_of_kept kept located
  constructor
  · intro u member
    rw [same u member]
    exact laid.placed u member
  · apply List.filterMap_congr
    intro u member
    rw [landing?, same u member, landing?]

theorem Laid.grown (laid : start.Laid units none s) {disk : Disk} (grows : s.disk.Grows disk) :
    start.Laid units none { s with disk } := by
  obtain ⟨placed, landings⟩ := laid.landings s.written grows.directory
  refine ⟨⟨laid.alike.root, laid.alike.medium⟩, laid.noted, placed, fun names => ?_⟩
  rw [landings, ← laid.files, ← grows.file]

theorem Laid.write (laid : start.Laid units none s) {u : OutputUnit} {s' : Directory}
    (written : sink.write u s = .ok () s') : start.Laid (units ++ [u]) none s' := by
  obtain ⟨disk, there, puts, rfl⟩ := write_ok written
  obtain ⟨placed, landings⟩ := laid.landings (s.written ++ [u.path]) puts.keeps.directory
  have located : ({ s with disk, written := s.written ++ [u.path] } : Directory).location? u.path =
      some there := puts.located
  refine ⟨⟨laid.alike.root, laid.alike.medium⟩, by simp [laid.noted], ?_, fun names => ?_⟩
  · rw [List.forall_mem_append, List.forall_mem_singleton, located]
    exact ⟨placed, rfl⟩
  · have landed : ({ s with disk, written := s.written ++ [u.path] } : Directory).landing? u =
        some (there, u.contents) := by rw [landing?, located]; rfl
    have before := laid.files names
    simp only [Option.toList_none, List.append_nil] at before ⊢
    rw [List.filterMap_append, List.filterMap_cons_some landed, List.filterMap_nil, landings,
      overlaid_concat, ← before]
    exact puts.files names

/-- What a medium that gives out at a unit leaves of it. -/
def Cut (s : Directory) (u : OutputUnit) (put : List String × String) : Prop :=
  s.location? u.path = some put.1 ∧ ∃ d length,
    s.medium.fault? d put.1 u.contents = some (.cut length) ∧ put.2 = firstPart length u.contents

theorem Laid.cut (laid : start.Laid units none s) {u : OutputUnit} {e : EmitError} {s' : Directory}
    (failed : sink.write u s = .error e s') :
    ∃ stub, start.Laid units stub s' ∧ ∀ put ∈ stub, s'.Cut u put := by
  rw [write_eq] at failed
  cases outcome : Disk.write s.medium (s.below u.path) u.contents s.disk with
  | ok _ disk =>
    rw [outcome] at failed
    cases failed
  | error reason disk =>
    rw [outcome] at failed
    cases failed
    obtain grows | ⟨between, there, length, fault, puts⟩ := Disk.write_error outcome
    · exact ⟨none, laid.grown grows, by simp⟩
    · obtain ⟨placed, landings⟩ := laid.landings s.written puts.keeps.directory
      refine ⟨some (there, firstPart length u.contents), ?_, ?_⟩
      · refine ⟨⟨laid.alike.root, laid.alike.medium⟩, laid.noted, placed, fun names => ?_⟩
        have before := laid.files names
        simp only [Option.toList_none, List.append_nil] at before
        rw [landings, Option.toList_some, overlaid_concat, ← before]
        exact puts.files names
      · rintro _ ⟨⟩
        exact ⟨puts.located, between, length, fault, rfl⟩

theorem Laid.writes (laid : start.Laid units none s) (more : List OutputUnit) :
    ∃ stub, start.Laid (units ++ sink.taken more s) stub (endState (more.forM sink.write s)) ∧
      ∀ put ∈ stub, ∃ u rest, more = sink.taken more s ++ u :: rest ∧
        (endState (more.forM sink.write s)).Cut u put := by
  induction more generalizing s units with
  | nil =>
    refine ⟨none, ?_, by simp⟩
    rw [Sink.taken, List.append_nil]
    exact laid
  | cons u more ih =>
    rw [endState_writes_cons, Sink.taken]
    cases outcome : sink.write u s with
    | ok _ between =>
      obtain ⟨stub, all, cut⟩ := ih (laid.write outcome)
      rw [List.append_assoc, List.singleton_append] at all
      refine ⟨stub, all, fun put member => ?_⟩
      obtain ⟨v, rest, parts, left⟩ := cut put member
      exact ⟨v, rest, congrArg (u :: ·) parts, left⟩
    | error e between =>
      obtain ⟨stub, all, cut⟩ := laid.cut outcome
      refine ⟨stub, by simpa using all, fun put member => ?_⟩
      exact ⟨u, more, rfl, cut put member⟩

def takes (s : Directory) (schema : String) (units : List OutputUnit) : List OutputUnit :=
  match sink.begin schema s with
  | .ok _ begun => sink.taken units begun
  | .error _ _ => []

theorem writeAll_laid (fresh : s.written = []) (schema : String) (units : List OutputUnit) :
    ∃ stub, s.Laid (s.takes schema units) stub (endState (sink.writeAll schema units s)) ∧
      ∀ put ∈ stub, ∃ u rest, units = s.takes schema units ++ u :: rest ∧
        (endState (sink.writeAll schema units s)).Cut u put := by
  have start : s.Laid [] none s := ⟨⟨rfl, rfl⟩, fresh, by simp, fun _ => rfl⟩
  rw [endState_writeAll, takes]
  cases beginning : sink.begin schema s with
  | ok _ begun =>
    obtain ⟨disk, grows, rfl⟩ := begin_ok beginning
    have begun := start.grown grows
    rw [fresh] at begun
    exact begun.writes units
  | error e begun =>
    have grows := Disk.makeUpwards_grows (s.root :: s.root.parents) s.disk
    rw [begin_eq] at beginning
    cases made : Disk.makeDirectories s.root s.disk with
    | ok _ disk =>
      rw [made] at beginning
      cases beginning
    | error reason disk =>
      rw [made] at beginning
      rw [show Disk.makeUpwards (s.root :: s.root.parents) s.disk = .error reason disk from made]
        at grows
      cases beginning
      exact ⟨none, start.grown grows, by simp⟩

theorem location?_abort (s : Directory) : (sink.abort s).location? = s.location? := by
  funext path
  change Disk.location? (sink.abort s).disk (s.below path) = s.disk.location? (s.below path)
  rw [abort_disk, Disk.location?_removeAll]

/-- What a new sink that fails to write some units leaves once it has discarded them. -/
theorem writeAll_discarded {disk : Disk} {root : Route} {m : Medium} {schema : String}
    {units : List OutputUnit} {e : EmitError} {s : Directory}
    (failed : sink.writeAll schema units { disk, root, medium := m } = .error e s) :
    let taken := ({ disk, root, medium := m } : Directory).takes schema units
    let place := fun u : OutputUnit =>
      (sink.abort s).disk.location? (root.join (Route.ofText u.path))
    ∃ stub : Option (List String × String),
      (∀ names text, stub = some (names, text) → ∃ u rest d length,
        units = taken ++ u :: rest ∧ place u = some names ∧
          m.fault? d names u.contents = some (.cut length) ∧
          text = firstPart length u.contents) ∧
      ∀ names, (sink.abort s).disk.file? names =
        if names ∈ taken.filterMap place ∧ m.fixed names = false then none
        else overlaid (taken.filterMap (fun u => (place u).map (·, u.contents)) ++ stub.toList)
          disk names := by
  intro taken place
  obtain ⟨stub, laid, cut⟩ := writeAll_laid (s := { disk, root, medium := m }) rfl schema units
  rw [failed] at laid cut
  dsimp only [endState] at laid cut
  have sameRoot : s.root = root := laid.alike.root
  have sameMedium : s.medium = m := laid.alike.medium
  have placed (u : OutputUnit) : place u = s.location? u.path := by
    rw [← location?_abort, location?, below]
    exact congrArg (fun r => (sink.abort s).disk.location? (Route.join r _)) sameRoot.symm
  have places : s.places = taken.filterMap place := by
    rw [Directory.places, laid.noted, List.filterMap_map]
    exact List.filterMap_congr fun u _ => (placed u).symm
  refine ⟨stub, ?_, fun names => ?_⟩
  · intro names text left
    obtain ⟨u, rest, parts, located, d, length, fault, kept⟩ := cut _ left
    rw [sameMedium] at fault
    exact ⟨u, rest, d, length, parts, (placed u).trans located, fault, kept⟩
  · rw [file?_abort, places, sameMedium, laid.files]
    simp only [placed]
    rfl

theorem unchanged_iff {disk disk' : Disk} {m : Medium} {taken : List OutputUnit}
    {place : OutputUnit → Option (List String)} (loose : ∀ names, m.fixed names = false)
    (files : ∀ names, disk'.file? names =
      if names ∈ taken.filterMap place ∧ m.fixed names = false then none
      else overlaid (taken.filterMap (fun u => (place u).map (·, u.contents)) ++ [])
        disk names) :
    (∀ names, disk'.file? names = disk.file? names) ↔
      ∀ names ∈ taken.filterMap place, disk.file? names = none := by
  constructor
  · intro same names here
    rw [← same, files, if_pos ⟨here, loose names⟩]
  · intro absent names
    by_cases here : names ∈ taken.filterMap place
    · rw [files, if_pos ⟨here, loose names⟩, absent names here]
    · have elsewhere : names ∉
          (taken.filterMap fun u => (place u).map (·, u.contents)).map (·.1) := by
        simpa using here
      rw [files, if_neg fun both => here both.1, List.append_nil, overlaid_of_not_mem elsewhere]

end Directory

end Idl.Emit

namespace Idl.Code

open Emit

/-- The units that are written of a schema before its writing ends, well or badly. -/
def writtenUnits (o : Options) (schema : Schema) (root : Route) (disk : Disk) (m : Medium := {}) :
    List OutputUnit :=
  match generate o schema with
  | .ok units => ({ disk, root, medium := m } : Directory).takes schema.name units
  | .error _ => []

theorem writeTo_eq (o : Options) (schema : Schema) (root : Route) (disk : Disk) (m : Medium) :
    writeTo o schema root disk m =
      match generate o schema with
      | .error e => (.error e, disk)
      | .ok units =>
        match Directory.sink.writeAll schema.name units { disk, root, medium := m } with
        | .ok _ s => (.ok units.length, s.disk)
        | .error e s => (.error e, (Directory.sink.abort s).disk) := by
  have pass := Pass.into_eq ⟨State, emitter o, {}, schema⟩ Directory.sink
    { disk, root, medium := m }
  have units : Pass.units ⟨State, emitter o, {}, schema⟩ = generate o schema := rfl
  have written : writeTo o schema root disk m =
      ((Pass.into ⟨State, emitter o, {}, schema⟩ Directory.sink { disk, root, medium := m }).1,
        (Pass.into ⟨State, emitter o, {}, schema⟩ Directory.sink
          { disk, root, medium := m }).2.disk) := rfl
  rw [written, pass, units]
  cases generate o schema with
  | error e => rfl
  | ok units =>
    dsimp only
    cases Directory.sink.writeAll schema.name units { disk, root, medium := m } <;> rfl

def Reliable (m : Medium) : Prop :=
  (∀ d names contents, m.fault? d names contents = none) ∧ ∀ names, m.fixed names = false

/-- A writing that fails leaves every file as it was, except where it had come. The places of the
units that were written are empty, unless the medium does not let go of them, in which case they
hold what was written. Of the unit that failed a part stands if the medium gave out in the middle of
it. So on a medium that never fails nothing has changed exactly if no file stood where a unit had
been written. -/
theorem failed_writing_loses_replaced (o : Options) (schema : Schema) (root : Route)
    (disk disk' : Disk) (m : Medium) {e : EmitError}
    (failed : writeTo o schema root disk m = (.error e, disk')) :
    let units := writtenUnits o schema root disk m
    let place := fun u : OutputUnit => disk'.location? (root.join (Route.ofText u.path))
    let places := units.filterMap place
    ∃ stub : Option (List String × String),
      (∀ names text, stub = some (names, text) → ∃ u rest d length,
        generate o schema = .ok (units ++ u :: rest) ∧ place u = some names ∧
          m.fault? d names u.contents = some (.cut length) ∧
          text = firstPart length u.contents) ∧
      (∀ names, disk'.file? names =
        if names ∈ places ∧ m.fixed names = false then none
        else overlaid (units.filterMap (fun u => (place u).map (·, u.contents)) ++ stub.toList)
          disk names) ∧
      (Reliable m → ((∀ names, disk'.file? names = disk.file? names) ↔
        ∀ names ∈ places, disk.file? names = none)) := by
  intro units place places
  rw [writeTo_eq] at failed
  simp only [places, units, writtenUnits]
  cases generated : generate o schema with
  | error reason =>
    rw [generated] at failed
    cases failed
    exact ⟨none, by simp, fun names => by simp [overlaid_nil], fun _ => by simp⟩
  | ok all =>
    rw [generated] at failed
    dsimp only at failed
    cases writing : Directory.sink.writeAll schema.name all { disk, root, medium := m } with
    | ok _ s =>
      rw [writing] at failed
      cases failed
    | error reason s =>
      rw [writing] at failed
      cases failed
      obtain ⟨stub, cut, files⟩ := Directory.writeAll_discarded writing
      refine ⟨stub, fun names text kept => ?_, files, fun reliable => ?_⟩
      · obtain ⟨u, rest, d, length, parts, left⟩ := cut names text kept
        exact ⟨u, rest, d, length, congrArg Except.ok parts, left⟩
      · have whole : stub = none := by
          cases stub with
          | none => rfl
          | some put =>
            obtain ⟨u, -, d, length, -, -, fault, -⟩ := cut put.1 put.2 rfl
            rw [reliable.1] at fault
            cases fault
        rw [whole] at files
        exact Directory.unchanged_iff reliable.2 files

def usurper : Schema where
  name := "kept"
  services := [{ name := "types.rs/x" }]

def mine : Disk := .file "types.rs" "mine" .empty

theorem generate_usurper : ∃ types constants service modules, generate {} usurper =
    .ok [⟨"types.rs", types⟩, ⟨"constants.rs", constants⟩, ⟨"types.rs/x.rs", service⟩,
      ⟨"mod.rs", modules⟩] :=
  ⟨_, _, _, _, rfl⟩

def halfWritten (types constants : String) : Directory where
  disk := .file "types.rs" types (.file "constants.rs" constants .empty)
  root := []
  written := ["types.rs", "constants.rs"]

theorem write_top {path : String} (relative : (Route.ofText path).isAbsolute = false)
    (contents : String) (d : Disk) (written : List String) :
    Directory.sink.write ⟨path, contents⟩ { disk := d, root := [], written } =
      match Disk.write {} (Route.ofText path) contents d with
      | .ok _ disk => .ok () { disk, root := [], written := written ++ [path] }
      | .error e disk => .error e { disk, root := [], written } := by
  have below : ({ disk := d, root := [], written } : Directory).below path = Route.ofText path := by
    simp [Directory.below, Route.join, relative]
  have wrote := Directory.write_eq ⟨path, contents⟩ { disk := d, root := [], written }
  rw [below] at wrote
  exact wrote

theorem write_types (types : String) :
    Directory.sink.write ⟨"types.rs", types⟩ { disk := mine, root := [] } =
      .ok () { disk := .file "types.rs" types .empty, root := [], written := ["types.rs"] } :=
  write_top rfl types mine []

theorem write_constants (types constants : String) :
    Directory.sink.write ⟨"constants.rs", constants⟩
        { disk := .file "types.rs" types .empty, root := [], written := ["types.rs"] } =
      .ok () (halfWritten types constants) :=
  write_top rfl constants (.file "types.rs" types .empty) ["types.rs"]

theorem write_service (types constants service : String) :
    Directory.sink.write ⟨"types.rs/x.rs", service⟩ (halfWritten types constants) =
      .error .io (halfWritten types constants) :=
  write_top rfl service (halfWritten types constants).disk ["types.rs", "constants.rs"]

theorem begin_mine (schema : String) :
    Directory.sink.begin schema { disk := mine, root := [] } =
      .ok () { disk := mine, root := [] } :=
  rfl

theorem writeTo_mine : writeTo {} usurper [] mine = (.error .io, .empty) := by
  obtain ⟨types, constants, service, modules, generated⟩ := generate_usurper
  have writes : [⟨"types.rs", types⟩, ⟨"constants.rs", constants⟩, ⟨"types.rs/x.rs", service⟩,
      ⟨"mod.rs", modules⟩].forM Directory.sink.write { disk := mine, root := [] } =
        .error .io (halfWritten types constants) :=
    (bind_of_ok (write_types types)).trans ((bind_of_ok (write_constants types constants)).trans
      (bind_of_error (write_service types constants service)))
  have failed : Directory.sink.writeAll "kept" [⟨"types.rs", types⟩, ⟨"constants.rs", constants⟩,
      ⟨"types.rs/x.rs", service⟩, ⟨"mod.rs", modules⟩] { disk := mine, root := [] } =
        .error .io (halfWritten types constants) :=
    (bind_of_ok (begin_mine "kept")).trans (bind_of_error writes)
  have discarded : Directory.sink.abort (halfWritten types constants) =
      { disk := .empty, root := [] } := rfl
  rw [writeTo_eq, generated]
  dsimp only
  rw [show usurper.name = "kept" from rfl, failed]
  exact congrArg (fun s => (Except.error EmitError.io, Directory.disk s)) discarded

theorem writtenUnits_mine :
    (writtenUnits {} usurper [] mine).map (·.path) = ["types.rs", "constants.rs"] := by
  obtain ⟨types, constants, service, modules, generated⟩ := generate_usurper
  simp [writtenUnits, generated, Directory.takes, begin_mine, Sink.taken, write_types,
    write_constants, write_service]

/-- A file that was there does not survive a writing that fails after it was replaced. -/
theorem replaced_types_lost :
    (writeTo {} usurper [] mine).1 = .error .io ∧ mine.file? ["types.rs"] = some "mine" ∧
      (writeTo {} usurper [] mine).2.file? ["types.rs"] = none := by
  rw [writeTo_mine]
  exact ⟨rfl, rfl, rfl⟩

theorem failed_writing_loses_types : writeTo {} usurper [] mine = (.error .io, .empty) ∧
    Reliable {} ∧ ¬ ∀ names, Entries.empty.file? names = mine.file? names := by
  have reliable : Reliable {} := ⟨fun _ _ _ => rfl, fun _ => rfl⟩
  obtain ⟨stub, -, -, unchanged⟩ :=
    failed_writing_loses_replaced {} usurper [] mine .empty {} writeTo_mine
  have place : ["types.rs"] ∈ (writtenUnits {} usurper [] mine).filterMap fun u =>
      Disk.location? .empty (Route.join [] (Route.ofText u.path)) := by
    have paths : ((writtenUnits {} usurper [] mine).map (·.path)).filterMap (fun path =>
        Disk.location? .empty (Route.join [] (Route.ofText path))) =
          [["types.rs"], ["constants.rs"]] := by
      rw [writtenUnits_mine]
      rfl
    rw [List.filterMap_map] at paths
    exact paths ▸ List.mem_cons_self
  refine ⟨writeTo_mine, reliable, fun same => ?_⟩
  have absent := (unchanged reliable).mp same ["types.rs"] place
  cases absent

def short : Medium where
  fault? _ _ _ := some (.cut 3)

example : (writeTo {} { name := "kept" } [] .empty short).1 = .error .io ∧
    (writeTo {} { name := "kept" } [] .empty short).2 = .file "types.rs" "// " .empty := by
  decide +kernel

end Idl.Code
