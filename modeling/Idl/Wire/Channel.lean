import Idl.Wire.Input
import Idl.Wire.Output

/-!
# Channels

The bytes that a client has still to read, those it has written, and the sequence id of its next
call. Sequence ids wrap around.
-/

set_option autoImplicit false

namespace Idl.Wire

structure Channel where
  input : Bytes := []
  output : Bytes := []
  seqId : Int32 := 0

namespace Channel

def next (c : Channel) : Int32 × Channel :=
  (c.seqId, { c with seqId := c.seqId + 1 })

def write (c : Channel) (e : Emission) : Except Fault Unit × Channel :=
  (match e.fault with | none => .ok () | some fault => .error fault,
    { c with output := c.output ++ e.bytes })

def read {α : Type} (c : Channel) (d : Decoder α) : Except Fault α × Channel :=
  match d c.input with
  | .ok value rest => (.ok value, { c with input := rest })
  | .error fault rest => (.error fault, { c with input := rest })

end Channel

end Idl.Wire
