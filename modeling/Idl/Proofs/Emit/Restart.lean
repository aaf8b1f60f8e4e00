import Idl.Code.Emitter
import Idl.Document.Emitter
import Idl.Proofs.Outcome

/-!
# Emitters that are used again

A pass that fails leaves its emitter half-way through a schema, with whatever it had collected up
to there. An emitter for which every start is a new one does not notice: after any history of
passes, each pass gives what it gives on an emitter that was never used.
-/

set_option autoImplicit false

namespace Idl.Emit

namespace Emitter

variable {σ : Type} {e : Emitter σ}

/-- Starting the emitter comes to the same whatever it holds. -/
def Restarts (e : Emitter σ) : Prop :=
  ∀ schema s s', e.start schema s = e.start schema s'

theorem run_of_restarts (restarts : e.Restarts) (schema : Schema) (s s' : σ) :
    e.run schema s = e.run schema s' :=
  bind_of_same (restarts schema s s')

/-- What passes give that follow one another on one emitter, each from the state in which the one
before left it, whether or not that one failed. -/
def passes (e : Emitter σ) : List Schema → σ → List (Emitted (List OutputUnit))
  | [], _ => []
  | schema :: rest, s => e.units s schema :: e.passes rest (endState (e.run schema s))

theorem passes_of_restarts (restarts : e.Restarts) (fresh : σ) (schemas : List Schema) (s : σ) :
    e.passes schemas s = schemas.map (e.units fresh) := by
  induction schemas generalizing s with
  | nil => rfl
  | cons schema rest ih =>
    have first : e.units s schema = e.units fresh schema := by
      unfold units
      rw [run_of_restarts restarts schema s fresh]
    rw [passes, first, ih, List.map_cons]

end Emitter

/-- Neither emitter carries anything from one pass into the next. Whatever it holds at first, each
pass of a history gives the units, or the error, that it gives on a new emitter. -/
theorem passes_as_fresh (o : Code.Options) (width : Nat) (schemas : List Schema) :
    (∀ s, (Code.emitter o).passes schemas s = schemas.map (Code.generate o)) ∧
      ∀ s, (Document.emitter width).passes schemas s = schemas.map (Document.generate width) := by
  have code : (Code.emitter o).Restarts := fun _ _ _ => rfl
  have document : (Document.emitter width).Restarts := fun _ _ _ => rfl
  constructor
  · intro s
    exact Emitter.passes_of_restarts code {} schemas s
  · intro s
    exact Emitter.passes_of_restarts document {} schemas s

end Idl.Emit
