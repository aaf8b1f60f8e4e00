import Idl.Emit.Emitter

/-!
# A trace of a pass

An emitter that records what a pass hands to it, and that can be told to refuse one event.
-/

set_option autoImplicit false

namespace Idl.Emit.Trace

abbrev State := List String

def record (refuse : Option String) (event : String) : Step State Unit :=
  if refuse = some event then throw (.unsupported (.refused event))
  else modify (· ++ [event])

def emitter (refuse : Option String) : Emitter State where
  name := "trace"
  start schema := do
    set ([] : State)
    record refuse ("open " ++ schema.name)
  typedef _ d := record refuse ("typedef " ++ d.name)
  enum _ d := record refuse ("enum " ++ d.name)
  constant _ d := record refuse ("const " ++ d.name)
  struct _ d := record refuse ("struct " ++ d.name)
  service _ d := record refuse ("service " ++ d.name)
  close schema := do
    record refuse ("close " ++ schema.name)
    return [⟨"trace.txt", "\n".intercalate (← get)⟩]

end Idl.Emit.Trace
