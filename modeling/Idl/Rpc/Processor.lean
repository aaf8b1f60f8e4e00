import Idl.Rpc.Signature
import Idl.Value.Codec

/-!
# Processors

A processor reads a request, lets a handler run the function that it names, and writes the reply.
Functions are looked for in the service itself and then in those it extends. A handler changes
its state whether or not it fails, and a failure that no exception of the function declares ends
the processing without a reply.
-/

set_option autoImplicit false

namespace Idl.Rpc

open Wire

structure Interface where
  Function : Type
  signature : Function → Signature

abbrev Handler (i : Interface) (σ : Type) : Type :=
  (f : i.Function) → (i.signature f).Args → σ → Except Failure (i.signature f).Result × σ

structure Service (i : Interface) where
  name : String
  functions : List i.Function
  inherited : List i.Function := []

structure Processed (σ : Type) where
  outcome : Except Failure Bool
  rest : Bytes
  output : Bytes
  state : σ

namespace Service

variable {i : Interface} {σ : Type}

def methods (s : Service i) : List String :=
  s.functions.map fun f => (i.signature f).name

def find? (s : Service i) (name : String) : Option i.Function :=
  (s.functions ++ s.inherited).find? fun f => (i.signature f).name = name

end Service

namespace Handler

variable {i : Interface} {σ : Type}

def reply (e : Emission) (done : Bool) (rest : Bytes) (state : σ) : Processed σ where
  outcome := match e.fault with
    | none => .ok done
    | some fault => .error (.protocol fault)
  rest := rest
  output := e.bytes
  state := state

def response (g : Signature) (seqId : Int32) (result : g.Result) : Emission :=
  Emission.message .reply g.name seqId ++ g.reply.fields.write (g.reply.record result)

/-- Runs a function on the arguments that are read. Absent arguments have their defaults. -/
def run (h : Handler i σ) (f : i.Function) (seqId : Int32) (state : σ) (input : Bytes) :
    Processed σ :=
  let g := i.signature f
  match g.args.readNew input with
  | .error fault rest => ⟨.error (.protocol fault), rest, [], state⟩
  | .ok args rest =>
    match h f (g.args.complete args) state with
    | (.error failure, state) => ⟨.error failure, rest, [], state⟩
    | (.ok result, state) =>
      if g.isOneway then ⟨.ok true, rest, [], state⟩
      else reply (response g seqId result) true rest state

/-- Runs the function that a header names. Nothing is read when the service does not have it. -/
def dispatch (h : Handler i σ) (s : Service i) (header : MessageHeader) (state : σ)
    (input : Bytes) : Processed σ :=
  match s.find? header.name with
  | none => ⟨.ok false, input, [], state⟩
  | some f => h.run f header.seqId state input

def refusal (header : MessageHeader) : Emission :=
  Emission.message .exception header.name header.seqId ++
    ApplicationException.write
      ⟨.unknownMethod, "Function " ++ header.name ++ " not implemented."⟩

def refuse (header : MessageHeader) (state : σ) (input : Bytes) : Processed σ :=
  match skip .struct input with
  | .error fault rest => ⟨.error (.protocol fault), rest, [], state⟩
  | .ok () rest => reply (refusal header) false rest state

def process (h : Handler i σ) (s : Service i) (state : σ) (input : Bytes) : Processed σ :=
  match Decoder.message input with
  | .error fault rest => ⟨.error (.protocol fault), rest, [], state⟩
  | .ok header rest =>
    let p := h.dispatch s header state rest
    match p.outcome with
    | .ok false =>
      let refused := refuse header p.state p.rest
      { refused with output := p.output ++ refused.output }
    | _ => p

end Handler

end Idl.Rpc
