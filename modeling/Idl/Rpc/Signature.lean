import Idl.Value.Default
import Idl.Wire.Application

/-!
# Signatures

A function of a service: its name, the fields that carry its arguments, and how it replies. A
result is sent as a record in which at most one field is present: field 0 for the value, or the
field of a declared exception.
-/

set_option autoImplicit false

namespace Idl.Rpc

open Wire

inductive Reply where
  /-- One-way: no reply is sent. -/
  | never
  /-- Nothing is returned, but exceptions may be thrown. -/
  | empty (throws : Fields)
  | value (shape : Shape) (throws : Fields)

namespace Reply

@[reducible] def fields : Reply → Fields
  | .never => .nil
  | .empty throws => throws
  | .value shape throws => .cons { id := 0, name := "success" } shape throws

@[reducible] def Result : Reply → Type
  | .never => Unit
  | .empty throws => Option throws.One
  | .value shape throws => shape.Val ⊕ throws.One

def record : (r : Reply) → r.Result → r.fields.Val
  | .never, _ => ()
  | .empty throws, none => throws.absent
  | .empty throws, some x => throws.ofOne x
  | .value shape throws, result => (Reply.value shape throws).fields.ofOne result

/-- The result that a record carries. The value comes before exceptions, and these are in the
order of their declaration. -/
def result? : (r : Reply) → r.fields.Val → Option r.Result
  | .never, _ => some ()
  | .empty throws, record => some (throws.first? record)
  | .value shape throws, record => (Reply.value shape throws).fields.first? record

end Reply

structure Signature where
  name : String
  args : Fields := .nil
  reply : Reply

namespace Signature

def isOneway (g : Signature) : Bool :=
  match g.reply with
  | .never => true
  | _ => false

abbrev Args (g : Signature) : Type := g.args.Full

abbrev Result (g : Signature) : Type := g.reply.Result

end Signature

end Idl.Rpc
