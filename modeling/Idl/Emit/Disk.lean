import Idl.Emit.Emitter
import Idl.Emit.Route
import Idl.Order

/-!
# Files in directories

A disk is a tree of directories with files in them. A route is followed part by part: whatever
it passes has to be a directory that is there, also before a part that goes up again.
-/

set_option autoImplicit false

namespace Idl.Emit

inductive Entries where
  | empty
  | file (name contents : String) (rest : Entries)
  | directory (name : String) (inner rest : Entries)
  deriving DecidableEq

inductive Node where
  | file (contents : String)
  | directory (inner : Entries)
  deriving DecidableEq

namespace Entries

def find? (name : String) : Entries → Option Node
  | .empty => none
  | .file n contents rest => if n = name then some (.file contents) else rest.find? name
  | .directory n inner rest => if n = name then some (.directory inner) else rest.find? name

def add (name : String) (node : Node) (rest : Entries) : Entries :=
  match node with
  | .file contents => .file name contents rest
  | .directory inner => .directory name inner rest

def put (name : String) (node : Node) : Entries → Entries
  | .empty => add name node .empty
  | .file n contents rest =>
    if n = name then add name node rest else .file n contents (rest.put name node)
  | .directory n inner rest =>
    if n = name then add name node rest else .directory n inner (rest.put name node)

def erase (name : String) : Entries → Entries
  | .empty => .empty
  | .file n contents rest =>
    if n = name then rest.erase name else .file n contents (rest.erase name)
  | .directory n inner rest =>
    if n = name then rest.erase name else .directory n inner (rest.erase name)

def file? : List String → Entries → Option String
  | [], _ => none
  | name :: names, es =>
    match es.find? name with
    | some (.file contents) => if names.isEmpty then some contents else none
    | some (.directory inner) => inner.file? names
    | none => none

def files : Entries → List (List String × String)
  | .empty => []
  | .file name contents rest => ([name], contents) :: rest.files
  | .directory name inner rest =>
    inner.files.map (fun (names, contents) => (name :: names, contents)) ++ rest.files

theorem find?_put (name other : String) (node : Node) (es : Entries) :
    (es.put name node).find? other = if name = other then some node else es.find? other := by
  induction es with
  | empty => cases node <;> simp [put, add, find?]
  | file n contents rest ih => cases node <;> grind [put, add, find?]
  | directory n inner rest _ ih => cases node <;> grind [put, add, find?]

theorem find?_erase (name other : String) (es : Entries) :
    (es.erase name).find? other = if name = other then none else es.find? other := by
  induction es with
  | empty => simp [erase, find?]
  | file n contents rest ih => grind [erase, find?]
  | directory n inner rest _ ih => grind [erase, find?]

end Entries

inductive Obstacle where
  | missing
  | blocked
  deriving DecidableEq, Repr

/-- A directory on a disk: what it holds, and the directories above it by the names that lead
down, the nearest first. -/
structure Place where
  here : Entries
  above : List (String × Entries) := []

namespace Place

def up (p : Place) : Place :=
  match p.above with
  | [] => p
  | (_, outer) :: above => ⟨outer, above⟩

/-- Goes down into a directory. A name has at most 255 bytes. -/
def enter (name : String) (p : Place) : Except Obstacle Place :=
  if name.utf8ByteSize > 255 then throw .blocked
  else
    match p.here.find? name with
    | some (.directory inner) => return ⟨inner, (name, p.here) :: p.above⟩
    | some (.file _) => throw .blocked
    | none => throw .missing

def follow : List String → Place → Except Obstacle Place
  | [], p => return p
  | part :: parts, p =>
    if isName part then do follow parts (← p.enter part)
    else follow parts (if moves part then p.up else p)

def names (p : Place) : List String :=
  (p.above.map (·.1)).reverse

def disk (p : Place) : Entries :=
  p.above.foldl (fun inner (name, outer) => outer.put name (.directory inner)) p.here

def holding (p : Place) (es : Entries) : Entries :=
  ({ p with here := es } : Place).disk

end Place

abbrev Disk := Entries

/-- How a file fails to be written: it stays as it was, or holds so many characters of its text. -/
inductive Fault where
  | refused
  | cut (length : Nat)

/-- Where the medium of a disk fails: when some contents are written under some names, and when what
stands there is removed. -/
structure Medium where
  fault? : Disk → List String → String → Option Fault := fun _ _ _ => none
  fixed : List String → Bool := fun _ => false

def firstPart (length : Nat) (contents : String) : String :=
  String.ofList (contents.toList.take length)

namespace Disk

def locate (d : Disk) (r : Route) : Except Obstacle Place :=
  Place.follow r.reverse ⟨d, []⟩

def makeDirectory (d : Disk) (r : Route) : Except Obstacle Disk := do
  if !r.fits then throw .blocked
  match r.dropWhile (· = "") with
  | [] => return d
  | part :: up =>
    let p ← d.locate up
    if !isName part then return d
    match p.enter part with
    | .ok _ => return d
    | .error .missing => return p.holding (p.here.put part (.directory .empty))
    | .error .blocked => throw .blocked

/-- Makes the first of some directories, and the ones that follow in the list, each above the one
before it, as far as they are missing. -/
def makeUpwards : List Route → Step Disk Unit
  | [] => pure ()
  | r :: parents => do
    match (← get).makeDirectory r with
    | .ok d => set d
    | .error .blocked => throw .io
    | .error .missing =>
      makeUpwards parents
      match (← get).makeDirectory r with
      | .ok d => set d
      | .error _ => throw .io

def makeDirectories (r : Route) : Step Disk Unit :=
  makeUpwards (r :: r.parents)

def target? (d : Disk) (r : Route) : Option (Place × String) :=
  match r with
  | [] => none
  | name :: up =>
    if r.fits && isName name && name.utf8ByteSize ≤ 255 then
      (d.locate up).toOption.map fun p => (p, name)
    else none

/-- Writes a file into a directory that is there. Where the medium gives out in between, the file
stands with the part that it took. -/
def writeFile (m : Medium) (r : Route) (contents : String) : Step Disk Unit := do
  let d ← get
  match d.target? r with
  | none => throw .io
  | some (p, name) =>
    match p.here.find? name with
    | some (.directory _) => throw .io
    | _ =>
      match m.fault? d (p.names ++ [name]) contents with
      | none => set (p.holding (p.here.put name (.file contents)))
      | some .refused => throw .io
      | some (.cut length) =>
        set (p.holding (p.here.put name (.file (firstPart length contents))))
        throw .io

def write (m : Medium) (r : Route) (contents : String) : Step Disk Unit := do
  makeUpwards r.parents
  writeFile m r contents

def read? (d : Disk) (r : Route) : Option String := do
  let (p, name) ← d.target? r
  p.here.file? [name]

/-- Removes a file, if the medium lets it go; a directory stays. -/
def remove (m : Medium) (d : Disk) (r : Route) : Disk :=
  match d.target? r with
  | none => d
  | some (p, name) =>
    match p.here.find? name with
    | some (.file _) =>
      if m.fixed (p.names ++ [name]) then d else p.holding (p.here.erase name)
    | _ => d

def listing (d : Disk) (r : Route) : List (String × String) :=
  match d.locate r with
  | .ok p => entries orderTexts (p.here.files.map fun (names, contents) =>
      ("/".intercalate names, contents))
  | .error _ => []

end Disk

end Idl.Emit
