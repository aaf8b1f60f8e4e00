import Idl.Rpc.Signature
import Idl.Value.Codec
import Idl.Wire.Channel

/-!
# Clients

A client sends the arguments of a call under the next sequence id and reads the result from the
reply. It tells replies apart by kind and by name. Sequence ids of replies are not looked at.
-/

set_option autoImplicit false

namespace Idl.Rpc

open Wire

namespace Signature

def request (g : Signature) (seqId : Int32) (args : g.Args) : Emission :=
  Emission.message (if g.isOneway then .oneway else .call) g.name seqId ++
    g.args.write (g.args.ofFull args)

def send (g : Signature) (args : g.Args) (c : Channel) : Except Fault Unit × Channel :=
  let (seqId, c) := c.next
  c.write (g.request seqId args)

def reject {α : Type} (kind : ApplicationKind) (text : String) :
    Decoder (Except ApplicationException α) := do
  skip .struct
  return .error ⟨kind, text⟩

def result (g : Signature) : Decoder (Except ApplicationException g.Result) := do
  let record ← g.reply.fields.readNew
  match g.reply.result? record with
  | some result => return .ok result
  | none => return .error ⟨.missingResult, g.name ++ " failed: unknown result"⟩

/-- Reads one message as the reply to a call. -/
def answer (g : Signature) : Decoder (Except ApplicationException g.Result) := do
  let header ← Decoder.message
  if header.kind = .exception then return .error (← ApplicationException.read)
  else if header.kind ≠ .reply then
    reject .invalidMessageType
      (g.name ++ " failed: unexpected " ++ header.kind.name ++ " message")
  else if header.name ≠ g.name then
    reject .wrongMethodName (g.name ++ " failed: reply is for " ++ header.name)
  else g.result

def receive (g : Signature) (c : Channel) : Except Failure g.Result × Channel :=
  match c.read g.answer with
  | (.error fault, c) => (.error (.protocol fault), c)
  | (.ok (.error exception), c) => (.error (.application exception), c)
  | (.ok (.ok result), c) => (.ok result, c)

def call (g : Signature) (args : g.Args) (c : Channel) :
    Except Failure (Option g.Result) × Channel :=
  match g.send args c with
  | (.error fault, c) => (.error (.protocol fault), c)
  | (.ok (), c) =>
    if g.isOneway then (.ok none, c)
    else
      match g.receive c with
      | (.error failure, c) => (.error failure, c)
      | (.ok result, c) => (.ok (some result), c)

end Signature

end Idl.Rpc
