import Idl.Emit.Directory
import Idl.Emit.Trace
import Idl.Proofs.Emit.Disk
import Idl.Proofs.Emit.Passes

/-!
# What a failed pass takes from a directory

The sink forgets what it wrote when the next pass begins, or when it discards, but not when a pass
is finished. A pass that fails while it generates never begins; it is discarded all the same, and
what is removed then are the files of the pass before it, if that one succeeded. Nothing else is
touched, so such a pass leaves every file as it was exactly when no files were published by the
pass before it.
-/

set_option autoImplicit false

namespace Idl.Emit

theorem endState_writes_cons {σ : Type} (k : Sink σ) (u : OutputUnit) (rest : List OutputUnit)
    (s : σ) :
    endState ((u :: rest).forM k.write s) =
      match k.write u s with
      | .ok _ between => endState (rest.forM k.write between)
      | .error _ between => between := by
  cases first : k.write u s with
  | ok _ between => exact congrArg endState (bind_of_ok first)
  | error e between => exact congrArg endState (bind_of_error first)

namespace Directory

def location? (s : Directory) (path : String) : Option (List String) :=
  s.disk.location? (s.below path)

/-- Whether every path that the sink remembers can be read. -/
def Holds (s : Directory) : Prop :=
  ∀ path ∈ s.written, (s.read? path).isSome

theorem onDisk_modify (step : Step Disk Unit) (change : Directory → Directory) (s : Directory) :
    (onDisk step >>= fun _ => modify change) s =
      match step s.disk with
      | .ok _ disk => .ok () (change { s with disk })
      | .error e disk => .error e { s with disk } := by
  cases outcome : step s.disk with
  | ok _ disk =>
    have done : onDisk step s = .ok () { s with disk } := by rw [onDisk, outcome]
    exact bind_of_ok done
  | error e disk =>
    have done : onDisk step s = .error e { s with disk } := by rw [onDisk, outcome]
    exact bind_of_error done

theorem begin_eq (schema : String) (s : Directory) :
    sink.begin schema s =
      match Disk.makeDirectories s.root s.disk with
      | .ok _ disk => .ok () { s with disk, written := [] }
      | .error e disk => .error e { s with disk } :=
  onDisk_modify (Disk.makeDirectories s.root) (fun s => { s with written := [] }) s

theorem write_eq (u : OutputUnit) (s : Directory) :
    sink.write u s =
      match Disk.write s.medium (s.below u.path) u.contents s.disk with
      | .ok _ disk => .ok () { s with disk, written := s.written ++ [u.path] }
      | .error e disk => .error e { s with disk } :=
  onDisk_modify (Disk.write s.medium (s.below u.path) u.contents)
    (fun s => { s with written := s.written ++ [u.path] }) s

theorem endState_writeAll (schema : String) (units : List OutputUnit) (s : Directory) :
    endState (sink.writeAll schema units s) =
      match sink.begin schema s with
      | .ok _ begun => endState (units.forM sink.write begun)
      | .error _ begun => begun := by
  cases beginning : sink.begin schema s with
  | error e begun => exact congrArg endState (bind_of_error beginning)
  | ok _ begun =>
    have rest : sink.writeAll schema units s =
        (units.forM sink.write >>= fun _ => sink.finish) begun := bind_of_ok beginning
    rw [rest]
    dsimp only
    cases writing : units.forM sink.write begun with
    | ok _ written => exact congrArg endState (bind_of_ok writing)
    | error e written => exact congrArg endState (bind_of_error writing)

structure Alike (s s' : Directory) : Prop where
  root : s'.root = s.root
  medium : s'.medium = s.medium

theorem writes_alike (units : List OutputUnit) (s : Directory) :
    s.Alike (endState (units.forM sink.write s)) := by
  induction units generalizing s with
  | nil => exact ⟨rfl, rfl⟩
  | cons u rest ih =>
    rw [endState_writes_cons, write_eq]
    cases Disk.write s.medium (s.below u.path) u.contents s.disk with
    | error e disk => exact ⟨rfl, rfl⟩
    | ok _ disk =>
      have others := ih { s with disk, written := s.written ++ [u.path] }
      exact ⟨others.root, others.medium⟩

theorem writeAll_alike (schema : String) (units : List OutputUnit) (s : Directory) :
    s.Alike (endState (sink.writeAll schema units s)) := by
  rw [endState_writeAll, begin_eq]
  cases Disk.makeDirectories s.root s.disk with
  | error e disk => exact ⟨rfl, rfl⟩
  | ok _ disk =>
    have others := writes_alike units { s with disk, written := [] }
    exact ⟨others.root, others.medium⟩

theorem begin_ok {schema : String} {s s' : Directory} (begun : sink.begin schema s = .ok () s') :
    ∃ disk, s.disk.Grows disk ∧ s' = { s with disk, written := [] } := by
  have grows := Disk.makeUpwards_grows (s.root :: s.root.parents) s.disk
  rw [begin_eq] at begun
  cases made : Disk.makeDirectories s.root s.disk with
  | error e disk =>
    rw [made] at begun
    cases begun
  | ok _ disk =>
    rw [made] at begun
    rw [show Disk.makeUpwards (s.root :: s.root.parents) s.disk = .ok () disk from made] at grows
    cases begun
    exact ⟨disk, grows, rfl⟩

theorem write_ok {u : OutputUnit} {s s' : Directory} (written : sink.write u s = .ok () s') :
    ∃ disk there, s.disk.Puts (s.below u.path) u.contents there disk ∧
      s' = { s with disk, written := s.written ++ [u.path] } := by
  rw [write_eq] at written
  cases outcome : Disk.write s.medium (s.below u.path) u.contents s.disk with
  | error e disk =>
    rw [outcome] at written
    cases written
  | ok _ disk =>
    rw [outcome] at written
    cases written
    obtain ⟨there, puts⟩ := Disk.write_ok outcome
    exact ⟨disk, there, puts, rfl⟩

/-- One write: its path is remembered, and every path remembered can be read if that was so
before. -/
theorem write_holds {u : OutputUnit} {s s' : Directory} (written : sink.write u s = .ok () s')
    (holds : s.Holds) : s'.written = s.written ++ [u.path] ∧ s'.Holds := by
  obtain ⟨disk, there, puts, rfl⟩ := write_ok written
  refine ⟨rfl, fun path remembered => ?_⟩
  obtain old | new := List.mem_append.mp remembered
  · exact puts.keeps.read? (holds path old)
  · cases List.mem_singleton.mp new
    exact Option.isSome_iff_exists.mpr ⟨_, puts.read?⟩

theorem writes_hold {units : List OutputUnit} {s s' : Directory}
    (written : units.forM sink.write s = .ok () s') (holds : s.Holds) :
    s'.written = s.written ++ units.map (·.path) ∧ s'.Holds := by
  induction units generalizing s with
  | nil =>
    cases written
    exact ⟨by simp, holds⟩
  | cons u rest ih =>
    obtain ⟨_, between, first, others⟩ := ok_of_bind written
    obtain ⟨noted, firstHolds⟩ := write_holds first holds
    obtain ⟨notedAll, allHold⟩ := ih others firstHolds
    exact ⟨by simp [notedAll, noted], allHold⟩

theorem writeAll_holds {schema : String} {units : List OutputUnit} {s s' : Directory}
    (written : sink.writeAll schema units s = .ok () s') :
    s'.written = units.map (·.path) ∧ s'.Holds := by
  obtain ⟨_, begun, beginning, rest⟩ := ok_of_bind written
  obtain ⟨_, ready, writing, finishing⟩ := ok_of_bind rest
  cases finishing
  obtain ⟨disk, -, rfl⟩ := begin_ok beginning
  have none : ({ s with disk, written := [] } : Directory).Holds := by simp [Holds]
  simpa using writes_hold writing none

theorem abort_disk (s : Directory) :
    (sink.abort s).disk = (s.written.map s.below).foldl (Disk.remove s.medium) s.disk := by
  rw [List.foldl_map]
  rfl

/-- Where the files stand that the sink remembers to have written. -/
def places (s : Directory) : List (List String) :=
  s.written.filterMap s.location?

theorem file?_abort (s : Directory) (names : List String) :
    (sink.abort s).disk.file? names =
      if names ∈ s.places ∧ s.medium.fixed names = false then none else s.disk.file? names := by
  have locations : (s.written.map s.below).filterMap s.disk.location? = s.places := by
    rw [List.filterMap_map]
    rfl
  rw [abort_disk, Entries.file?_eq, Entries.file?_eq, Disk.mark?_removeAll, locations]
  by_cases isDirectory : s.disk.mark? names = some .directory
  · -- A directory is no file, before and after.
    simp [isDirectory, Mark.contents?]
  · by_cases gone : names ∈ s.places ∧ s.medium.fixed names = false
    · rw [if_pos ⟨gone.1, isDirectory, gone.2⟩, if_pos gone, Option.bind_none]
    · rw [if_neg fun all => gone ⟨all.1, all.2.2⟩, if_neg gone]

theorem abort_keeps_iff {s : Directory} (loose : ∀ names, s.medium.fixed names = false)
    (holds : s.Holds) :
    (∀ names, (sink.abort s).disk.file? names = s.disk.file? names) ↔ s.written = [] := by
  constructor
  · intro kept
    apply List.eq_nil_iff_forall_not_mem.mpr
    intro path remembered
    obtain ⟨contents, read⟩ := Option.isSome_iff_exists.mp (holds path remembered)
    rw [read?, Disk.read?_eq] at read
    obtain ⟨names, located, there⟩ := Option.bind_eq_some_iff.mp read
    have lost : names ∈ s.places := List.mem_filterMap.mpr ⟨path, remembered, located⟩
    have gone := kept names
    rw [file?_abort, if_pos ⟨lost, loose names⟩, there] at gone
    cases gone
  · intro forgotten names
    have nowhere : names ∉ s.places := by simp [places, forgotten]
    rw [file?_abort, if_neg fun lost => nowhere lost.1]

end Directory

def Pass.published (p : Pass) (count : Emitted Nat) : List OutputUnit :=
  match count, p.units with
  | .ok _, .ok units => units
  | _, _ => []

/-- The units of the last of some passes, if it succeeded. -/
def lastPublished (passes : List Pass) (counts : List (Emitted Nat)) : List OutputUnit :=
  (passes.zip counts).getLast?.elim [] fun (p, count) => p.published count

theorem Directory.abort_written (s : Directory) : (sink.abort s).written = [] := rfl

/-- One pass into a directory: the sink remembers the files of the pass if it succeeded, and no
files otherwise. -/
theorem Pass.into_directory (p : Pass) (s : Directory) :
    (p.into Directory.sink s).2.written =
        (p.published (p.into Directory.sink s).1).map (·.path) ∧
      (p.into Directory.sink s).2.Holds := by
  rw [Pass.into_eq]
  cases generated : p.units with
  | error e => simp [Pass.published, Directory.Holds, Directory.abort_written]
  | ok units =>
    dsimp only
    cases written : Directory.sink.writeAll p.schema.name units s with
    | error e s' => simp [Pass.published, Directory.Holds, Directory.abort_written]
    | ok _ s' =>
      obtain ⟨noted, holds⟩ := Directory.writeAll_holds written
      exact ⟨by simp [Pass.published, generated, noted], holds⟩

theorem Pass.into_medium (p : Pass) (s : Directory) :
    (p.into Directory.sink s).2.medium = s.medium := by
  rw [Pass.into_eq]
  cases p.units with
  | error e => rfl
  | ok units =>
    have kept := (Directory.writeAll_alike p.schema.name units s).medium
    dsimp only
    cases written : Directory.sink.writeAll p.schema.name units s with
    | error e s' => rwa [written] at kept
    | ok _ s' => rwa [written] at kept

theorem elim_getLast?_cons {α : Type 1} {β : Type} (a : α) (rest : List α) (start : β) (f : α → β) :
    (a :: rest).getLast?.elim start f = rest.getLast?.elim (f a) f := by
  rw [List.getLast?_cons]
  cases rest.getLast? <;> rfl

/-- A history of passes: the sink remembers the files of the last pass if it succeeded. What it
remembers at the start counts only if there is no pass. -/
theorem history_directory (passes : List Pass) (s : Directory) (start : List OutputUnit)
    (noted : s.written = start.map (·.path)) (holds : s.Holds) :
    let (counts, after) := inOrder (fun p => p.into Directory.sink) passes s
    after.written = ((passes.zip counts).getLast?.elim start fun (p, count) =>
        p.published count).map (·.path) ∧
      after.Holds := by
  induction passes generalizing s start with
  | nil => exact ⟨noted, holds⟩
  | cons p rest ih =>
    obtain ⟨stepNoted, stepHolds⟩ := p.into_directory s
    obtain ⟨restNoted, restHolds⟩ := ih _ _ stepNoted stepHolds
    refine ⟨restNoted.trans (congrArg (List.map _) ?_), restHolds⟩
    rw [List.zip_cons_cons, elim_getLast?_cons]

/-- What passes return and leave behind that go one after another into a new sink. -/
def intoDirectory (disk : Disk) (root : Route) (passes : List Pass) :
    List (Emitted Nat) × Directory :=
  inOrder (fun p => p.into Directory.sink) passes { disk, root }

theorem intoDirectory_medium (disk : Disk) (root : Route) (passes : List Pass) :
    (intoDirectory disk root passes).2.medium = {} := by
  have kept (s : Directory) :
      (inOrder (fun p => p.into Directory.sink) passes s).2.medium = s.medium := by
    induction passes generalizing s with
    | nil => rfl
    | cons p rest ih => exact (ih _).trans (p.into_medium s)
  exact kept _

theorem intoDirectory_written (disk : Disk) (root : Route) (passes : List Pass) :
    (intoDirectory disk root passes).2.written =
        (lastPublished passes (intoDirectory disk root passes).1).map (·.path) ∧
      (intoDirectory disk root passes).2.Holds :=
  history_directory passes { disk, root } [] rfl fun _ remembered =>
    absurd remembered List.not_mem_nil

/-- A pass that fails while it generates removes the files that the pass before it published, and
no other file. So it leaves every file as it was exactly if the pass before it published none. -/
theorem failed_generation_removes_last_published (disk : Disk) (root : Route) (passes : List Pass)
    (p : Pass) {e : EmitError} (failed : p.units = .error e) :
    let (counts, before) := intoDirectory disk root passes
    let (count, after) := p.into Directory.sink before
    let lost := (lastPublished passes counts).map (·.path)
    count = .error e ∧
      (∀ path ∈ lost, (before.read? path).isSome) ∧
      (∀ names, after.disk.file? names =
        if names ∈ lost.filterMap before.location? then none else before.disk.file? names) ∧
      ((∀ names, after.disk.file? names = before.disk.file? names) ↔
        lastPublished passes counts = []) := by
  obtain ⟨remembered, holds⟩ := intoDirectory_written disk root passes
  have loose (names : List String) :
      (intoDirectory disk root passes).2.medium.fixed names = false := by
    rw [intoDirectory_medium]
  dsimp only
  rw [Pass.into_failed failed, ← remembered]
  refine ⟨rfl, holds, fun names => ?_, (Directory.abort_keeps_iff loose holds).trans ?_⟩
  · simp only [Directory.file?_abort, loose names, and_true]
    rfl
  · rw [remembered, List.map_eq_nil_iff]

def keptTrace : Pass := ⟨_, Trace.emitter none, [], { name := "kept" }⟩

def failingTrace : Pass := ⟨_, Trace.emitter (some "open failing"), [], { name := "failing" }⟩

def notes : Disk := .file "notes.txt" "mine" .empty

def tracedNotes : Directory where
  disk := .file "notes.txt" "mine" (.file "trace.txt" "open kept\nclose kept" .empty)
  root := []
  written := ["trace.txt"]

theorem keptTrace_units : keptTrace.units = .ok [⟨"trace.txt", "open kept\nclose kept"⟩] := by
  have joined : "\n".intercalate ["open kept", "close kept"] = "open kept\nclose kept" := by decide
  rw [← joined]
  rfl

theorem failingTrace_units :
    failingTrace.units = .error (.unsupported (.refused "open failing")) := rfl

theorem keptTrace_written : Directory.sink.writeAll keptTrace.schema.name
      [⟨"trace.txt", "open kept\nclose kept"⟩] { disk := notes, root := [] } =
    .ok () tracedNotes := by
  have begun : Directory.sink.begin "kept" { disk := notes, root := [] } =
      .ok () { disk := notes, root := [] } := rfl
  have written : Directory.sink.write ⟨"trace.txt", "open kept\nclose kept"⟩
      { disk := notes, root := [] } = .ok () tracedNotes := rfl
  have all : [⟨"trace.txt", "open kept\nclose kept"⟩].forM Directory.sink.write
      { disk := notes, root := [] } = .ok () tracedNotes := bind_of_ok written
  exact (bind_of_ok begun).trans (bind_of_ok all)

theorem keptTrace_into : intoDirectory notes [] [keptTrace] = ([.ok 1], tracedNotes) := by
  have pass : keptTrace.into Directory.sink { disk := notes, root := [] } =
      (.ok 1, tracedNotes) := by
    rw [Pass.into_eq, keptTrace_units]
    dsimp only
    rw [keptTrace_written]
    rfl
  simp only [intoDirectory, inOrder, pass]

theorem tracedNotes_abort : Directory.sink.abort tracedNotes = { disk := notes, root := [] } := rfl

/-- A published file does not survive a pass that fails before it has written anything. -/
theorem published_trace_lost :
    failingTrace.units = .error (.unsupported (.refused "open failing")) ∧
      (intoDirectory notes [] [keptTrace]).2.disk.file? ["trace.txt"] =
        some "open kept\nclose kept" ∧
      (failingTrace.into Directory.sink
        (intoDirectory notes [] [keptTrace]).2).2.disk.file? ["trace.txt"] = none := by
  rw [keptTrace_into, Pass.into_failed failingTrace_units, tracedNotes_abort]
  exact ⟨failingTrace_units, rfl, rfl⟩

theorem failed_generation_removes_trace :
    failingTrace.units = .error (.unsupported (.refused "open failing")) ∧
      ((intoDirectory notes [] [keptTrace]).2.read? "trace.txt").isSome ∧
      (failingTrace.into Directory.sink
        (intoDirectory notes [] [keptTrace]).2).2.disk.file? ["notes.txt"] = some "mine" ∧
      ¬ ∀ names, (failingTrace.into Directory.sink
        (intoDirectory notes [] [keptTrace]).2).2.disk.file? names =
          (intoDirectory notes [] [keptTrace]).2.disk.file? names := by
  have general :=
    failed_generation_removes_last_published notes [] [keptTrace] failingTrace failingTrace_units
  have published : lastPublished [keptTrace] [.ok 1] =
      [⟨"trace.txt", "open kept\nclose kept"⟩] := by
    simp [lastPublished, Pass.published, keptTrace_units]
  have places : ["trace.txt"].filterMap tracedNotes.location? = [["trace.txt"]] := rfl
  rw [keptTrace_into] at general ⊢
  dsimp only at general ⊢
  rw [published] at general
  obtain ⟨-, readable, removed, kept⟩ := general
  refine ⟨failingTrace_units, readable "trace.txt" (List.mem_singleton.mpr rfl), ?_,
    fun same => List.cons_ne_nil _ _ (kept.mp same)⟩
  rw [removed, List.map_singleton, places]
  rfl

end Idl.Emit
