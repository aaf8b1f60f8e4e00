/-!
# Routes through directories

A route is a path cut at its slashes, its last part first. An empty part and a part of one dot
stay where they are, a part of two dots goes up, and any other part is a name.
-/

set_option autoImplicit false

namespace Idl.Emit

abbrev Route := List String

def moves (part : String) : Bool :=
  part ≠ "" && part ≠ "."

def isName (part : String) : Bool :=
  moves part && part ≠ ".."

namespace Route

def partsFrom : List Char → List Char → List String
  | start, [] => [String.ofList start.reverse]
  | start, c :: cs =>
    if c = '/' then String.ofList start.reverse :: partsFrom [] cs else partsFrom (c :: start) cs

def ofText (text : String) : Route :=
  (partsFrom [] text.toList).reverse

def text (r : Route) : String :=
  "/".intercalate r.reverse

def isAbsolute (r : Route) : Bool :=
  r.length ≥ 2 && r.getLast? = some ""

def join (r s : Route) : Route :=
  if s.isAbsolute then s
  else
    match r with
    | "" :: up => s ++ up
    | _ => s ++ r

/-- Whether a disk takes the route: its text has less than 4096 bytes and no null character. -/
def fits (r : Route) : Bool :=
  r.text.utf8ByteSize < 4096 && r.all fun part => !part.toList.contains '\x00'

/-- The route and the routes above it, each ending with a part that moves. -/
def stages : Route → List Route
  | [] => []
  | part :: up => if moves part then (part :: up) :: stages up else stages up

def parents (r : Route) : List Route :=
  r.stages.tail

def settled (r : Route) : Route :=
  (r.reverse.dropWhile fun part => !moves part).reverse

end Route

end Idl.Emit
