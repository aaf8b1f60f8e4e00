import Idl.Emit.Disk
import Idl.Emit.Sink

/-!
# The directory sink

Units become files below a root. When the sink is told to discard a pass it removes the files
that the pass wrote; directories stay.
-/

set_option autoImplicit false

namespace Idl.Emit

/-- The disk with its medium, the root below which units are written, and the paths of what this
pass wrote. -/
structure Directory where
  disk : Disk := .empty
  root : Route
  written : List String := []
  medium : Medium := {}

namespace Directory

def below (s : Directory) (path : String) : Route :=
  s.root.join (Route.ofText path)

def read? (s : Directory) (path : String) : Option String :=
  s.disk.read? (s.below path)

def onDisk {α : Type} (step : Step Disk α) : Step Directory α := fun s =>
  match step s.disk with
  | .ok a disk => .ok a { s with disk }
  | .error e disk => .error e { s with disk }

def sink : Sink Directory where
  begin _ := do
    onDisk (Disk.makeDirectories (← get).root)
    modify fun s => { s with written := [] }
  write u := do
    let s ← get
    onDisk (Disk.write s.medium (s.below u.path) u.contents)
    modify fun s => { s with written := s.written ++ [u.path] }
  finish := pure ()
  abort s :=
    { s with
      disk := s.written.foldl (fun d path => d.remove s.medium (s.below path)) s.disk
      written := [] }

def writtenPaths (s : Directory) : List String :=
  s.written.map fun path =>
    let r := Route.ofText path
    if r.isAbsolute then path else r.settled.text

end Directory

end Idl.Emit
