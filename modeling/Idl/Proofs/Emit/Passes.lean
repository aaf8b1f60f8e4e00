import Idl.Emit.Sink

/-!
# Histories of passes

A pass is an emitter in some state with the schema it is given. Passes into one sink follow each
other, and each of them finds the sink as the one before left it. A pass that fails while it
generates reaches the sink with nothing but the order to discard.
-/

set_option autoImplicit false

namespace Idl.Emit

structure Pass where
  σ : Type
  emitter : Emitter σ
  state : σ
  schema : Schema

namespace Pass

def units (p : Pass) : Emitted (List OutputUnit) :=
  p.emitter.units p.state p.schema

def into {τ : Type} (p : Pass) (k : Sink τ) (t : τ) : Emitted Nat × τ :=
  let (count, _, t) := publish p.emitter k p.schema p.state t
  (count, t)

theorem into_eq {τ : Type} (p : Pass) (k : Sink τ) (t : τ) :
    p.into k t =
      match p.units with
      | .error e => (.error e, k.abort t)
      | .ok units =>
        match k.writeAll p.schema.name units t with
        | .ok _ t => (.ok units.length, t)
        | .error e t => (.error e, k.abort t) := by
  unfold into publish units Emitter.units
  cases p.emitter.run p.schema p.state with
  | error e s => rfl
  | ok units s =>
    dsimp only
    cases k.writeAll p.schema.name units t <;> rfl

theorem into_failed {τ : Type} {p : Pass} {e : EmitError} (failed : p.units = .error e)
    (k : Sink τ) (t : τ) : p.into k t = (.error e, k.abort t) := by
  rw [into_eq, failed]

end Pass

def inOrder {α : Type 1} {τ : Type} (act : α → τ → Emitted Nat × τ) :
    List α → τ → List (Emitted Nat) × τ
  | [], t => ([], t)
  | a :: rest, t =>
    let (counts, after) := inOrder act rest (act a t).2
    ((act a t).1 :: counts, after)

end Idl.Emit
