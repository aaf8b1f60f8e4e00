import Idl.Code.Emitter
import Idl.Emit.Directory

/-!
# Program text on a disk
-/

set_option autoImplicit false

namespace Idl.Code

open Emit

/-- Generates the units of a schema below `root`, and tells how many there are. -/
def writeTo (o : Options) (schema : Schema) (root : Route) (disk : Disk) (medium : Medium := {}) :
    Emitted Nat × Disk :=
  let (answer, _, target) := publish (emitter o) Directory.sink schema {} { disk, root, medium }
  (answer, target.disk)

end Idl.Code
