import Idl.Emit.Emitter

/-!
# Sinks

A sink receives the units of a pass once all of them are there. If the pass or the sink fails,
the sink is told to discard what it received.
-/

set_option autoImplicit false

namespace Idl.Emit

structure Sink (σ : Type) where
  begin : String → Step σ Unit
  write : OutputUnit → Step σ Unit
  finish : Step σ Unit
  abort : σ → σ

def Sink.writeAll {σ : Type} (k : Sink σ) (schema : String) (units : List OutputUnit) :
    Step σ Unit := do
  k.begin schema
  units.forM k.write
  k.finish

def publish {σ τ : Type} (e : Emitter σ) (k : Sink τ) (schema : Schema) (s : σ) (t : τ) :
    Emitted Nat × σ × τ :=
  match e.run schema s with
  | .error error s => (.error error, s, k.abort t)
  | .ok units s =>
    match k.writeAll schema.name units t with
    | .ok _ t => (.ok units.length, s, t)
    | .error error t => (.error error, s, k.abort t)

structure Memory where
  units : List OutputUnit := []
  pending : List OutputUnit := []
  aborted : Nat := 0

namespace Memory

def unit? (m : Memory) (path : String) : Option OutputUnit :=
  m.units.find? (·.path = path)

def sink : Sink Memory where
  begin _ := modify fun m => { m with pending := [] }
  write u := modify fun m => { m with pending := m.pending ++ [u] }
  finish := modify fun m => { m with units := m.units ++ m.pending, pending := [] }
  abort m := { m with pending := [], aborted := m.aborted + 1 }

end Memory

inductive SinkCall where
  | begin
  | write (n : Nat)
  | finish
  deriving DecidableEq, Repr

def SinkCall.display : SinkCall → String
  | .begin => "begin"
  | .write n => "write " ++ toString n
  | .finish => "finish"

def refuseCall {σ : Type} (c : SinkCall) : Step σ Unit :=
  throw (.generation ("sink failed at " ++ c.display))

def beside {σ : Type} (step : Step σ Unit) : Step (σ × Nat) Unit := fun (s, n) =>
  match step s with
  | .ok a s => .ok a (s, n)
  | .error e s => .error e (s, n)

/-- A sink that fails at one call, before the call has any effect. The state counts the writes. -/
def Sink.failingAt {σ : Type} (k : Sink σ) (c : SinkCall) : Sink (σ × Nat) where
  begin schema := if c = .begin then refuseCall c else beside (k.begin schema)
  write u := fun (s, n) =>
    if c = .write (n + 1) then refuseCall c (s, n + 1) else beside (k.write u) (s, n + 1)
  finish := if c = .finish then refuseCall c else beside k.finish
  abort := fun (s, n) => (k.abort s, n)

end Idl.Emit
