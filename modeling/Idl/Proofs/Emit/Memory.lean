import Mathlib.Data.List.Forall2
import Idl.Proofs.Emit.Passes
import Idl.Proofs.Outcome

/-!
# What memory holds after a history of passes

A pass may fail while it generates, or at any one call of the sink, which then does not reach the
memory. Whatever the passes before it did, a pass that fails publishes nothing and counts as one
aborted pass, and a pass that succeeds publishes all of its units. So the units in memory after a
history are those of the successful passes, in order, and no unit is left pending that a later
call could publish.
-/

set_option autoImplicit false

namespace Idl.Emit

def SinkCall.isMade (units : Nat) : SinkCall → Bool
  | .begin | .finish => true
  | .write n => 1 ≤ n && n ≤ units

structure Attempt extends Pass where
  refused : Option SinkCall := none

namespace Attempt

def run (a : Attempt) (m : Memory) : Emitted Nat × Memory :=
  match a.refused with
  | none => a.into Memory.sink m
  | some c =>
    let (count, m, _) := a.into (Memory.sink.failingAt c) (m, 0)
    (count, m)

/-- The units of an attempt in which nothing fails. -/
def delivered? (a : Attempt) : Option (List OutputUnit) :=
  match a.units with
  | .error _ => none
  | .ok units => if a.refused.any (·.isMade units.length) then none else some units

end Attempt

namespace Memory

def publishing (m : Memory) (units : List OutputUnit) : Memory :=
  { m with units := m.units ++ units, pending := [] }

theorem writes_eq (units : List OutputUnit) (m : Memory) :
    units.forM sink.write m = .ok () { m with pending := m.pending ++ units } := by
  induction units generalizing m with
  | nil => simp [pure, EStateM.pure]
  | cons u rest ih =>
    calc (u :: rest).forM sink.write m
        = rest.forM sink.write { m with pending := m.pending ++ [u] } := rfl
      _ = .ok () { m with pending := m.pending ++ u :: rest } := by simp [ih]

theorem writeAll_eq (schema : String) (units : List OutputUnit) (m : Memory) :
    sink.writeAll schema units m = .ok () (m.publishing units) := by
  calc sink.writeAll schema units m
      = (units.forM sink.write >>= fun _ => sink.finish) { m with pending := [] } := rfl
    _ = sink.finish { m with pending := units } := bind_of_ok (writes_eq units _)
    _ = .ok () (m.publishing units) := rfl

section Refusal

variable (c : SinkCall)

theorem begin_allowed (schema : String) (m : Memory) (elsewhere : c ≠ .begin) :
    (sink.failingAt c).begin schema (m, 0) = .ok () ({ m with pending := [] }, 0) := by
  simp only [Sink.failingAt, elsewhere, if_false]
  rfl

theorem write_refused (u : OutputUnit) (m : Memory) (n : Nat) (here : c = .write (n + 1)) :
    ∃ e, (sink.failingAt c).write u (m, n) = .error e (m, n + 1) := by
  refine ⟨.generation ("sink failed at " ++ c.display), ?_⟩
  simp only [Sink.failingAt, here, if_true]
  rfl

theorem write_allowed (u : OutputUnit) (m : Memory) (n : Nat) (elsewhere : c ≠ .write (n + 1)) :
    (sink.failingAt c).write u (m, n) = .ok () ({ m with pending := m.pending ++ [u] }, n + 1) := by
  simp only [Sink.failingAt, elsewhere, if_false]
  rfl

theorem writes_allowed (units : List OutputUnit) (m : Memory) (n : Nat)
    (elsewhere : ∀ k, n < k → k ≤ n + units.length → c ≠ .write k) :
    units.forM (sink.failingAt c).write (m, n) =
      .ok () ({ m with pending := m.pending ++ units }, n + units.length) := by
  induction units generalizing m n with
  | nil => simp [pure, EStateM.pure]
  | cons u rest ih =>
    have first := write_allowed c u m n (elsewhere (n + 1) (by omega) (by simp))
    calc (u :: rest).forM (sink.failingAt c).write (m, n)
        = rest.forM (sink.failingAt c).write ({ m with pending := m.pending ++ [u] }, n + 1) :=
          bind_of_ok first
      _ = .ok () ({ m with pending := m.pending ++ u :: rest }, n + (u :: rest).length) := by
          rw [ih _ _ fun k later reached => elsewhere k (by omega) (by simp; omega)]
          simp [Nat.add_right_comm, Nat.add_assoc]

theorem writes_refused (units : List OutputUnit) (m : Memory) (n k : Nat) (later : n < k)
    (reached : k ≤ n + units.length) :
    ∃ e m' n', units.forM (sink.failingAt (.write k)).write (m, n) = .error e (m', n') ∧
      sink.abort m' = sink.abort m := by
  induction units generalizing m n with
  | nil =>
    simp only [List.length_nil] at reached
    omega
  | cons u rest ih =>
    simp only [List.length_cons] at reached
    by_cases here : k = n + 1
    · obtain ⟨e, refused⟩ := write_refused (.write k) u m n (by rw [here])
      exact ⟨e, m, n + 1, bind_of_error refused, rfl⟩
    · have first := write_allowed (.write k) u m n (by simpa using here)
      obtain ⟨e, m', n', refused, same⟩ :=
        ih { m with pending := m.pending ++ [u] } (n + 1) (by omega) (by omega)
      exact ⟨e, m', n', (bind_of_ok first).trans refused, same⟩

theorem writeAll_allowed {units : List OutputUnit} (unmade : c.isMade units.length = false)
    (schema : String) (m : Memory) :
    ∃ n, (sink.failingAt c).writeAll schema units (m, 0) = .ok () (m.publishing units, n) := by
  cases c with
  | begin => cases unmade
  | finish => cases unmade
  | write k =>
    have elsewhere : ∀ j, 0 < j → j ≤ 0 + units.length → SinkCall.write k ≠ .write j := by
      rintro j later reached same
      cases same
      simp [SinkCall.isMade] at unmade
      omega
    have written := writes_allowed (.write k) units { m with pending := [] } 0 elsewhere
    exact ⟨0 + units.length, (bind_of_ok (begin_allowed _ schema m (by simp))).trans
      (bind_of_ok written)⟩

theorem writeAll_refused {units : List OutputUnit} (made : c.isMade units.length = true)
    (schema : String) (m : Memory) :
    ∃ e m' n, (sink.failingAt c).writeAll schema units (m, 0) = .error e (m', n) ∧
      sink.abort m' = sink.abort m := by
  cases c with
  | begin => exact ⟨_, m, 0, rfl, rfl⟩
  | write k =>
    simp only [SinkCall.isMade, Bool.and_eq_true, decide_eq_true_eq] at made
    obtain ⟨e, m', n, refused, same⟩ :=
      writes_refused units { m with pending := [] } 0 k (by omega) (by omega)
    exact ⟨e, m', n, (bind_of_ok (begin_allowed _ schema m (by simp))).trans
      (bind_of_error refused), same⟩
  | finish =>
    have written := writes_allowed .finish units { m with pending := [] } 0 (by simp)
    exact ⟨_, _, _, (bind_of_ok (begin_allowed _ schema m (by simp))).trans
      (bind_of_ok written), rfl⟩

end Refusal

end Memory

namespace Attempt

theorem run_delivered {a : Attempt} {units : List OutputUnit} (done : a.delivered? = some units)
    (m : Memory) : a.run m = (.ok units.length, m.publishing units) := by
  unfold delivered? at done
  cases generated : a.units with
  | error e => simp [generated] at done
  | ok generatedUnits =>
    obtain ⟨unmade, rfl⟩ : a.refused.any (·.isMade generatedUnits.length) = false ∧
        generatedUnits = units := by simpa [generated] using done
    unfold run
    cases refusal : a.refused with
    | none => simp only [Pass.into_eq, generated, Memory.writeAll_eq]
    | some c =>
      have untouched : c.isMade generatedUnits.length = false := by simpa [refusal] using unmade
      obtain ⟨n, written⟩ := Memory.writeAll_allowed c untouched a.schema.name m
      simp only [Pass.into_eq, generated, written]

theorem run_failed {a : Attempt} (failed : a.delivered? = none) (m : Memory) :
    ∃ e, a.run m = (.error e, Memory.sink.abort m) := by
  unfold delivered? at failed
  unfold run
  cases generated : a.units with
  | error e =>
    refine ⟨e, ?_⟩
    cases a.refused <;> simp only [Pass.into_eq, generated, Sink.failingAt]
  | ok units =>
    obtain ⟨c, refusal, made⟩ : ∃ c, a.refused = some c ∧ c.isMade units.length = true := by
      simpa [generated, Option.any_eq_true] using failed
    obtain ⟨e, m', n, refused, same⟩ := Memory.writeAll_refused c made a.schema.name m
    refine ⟨e, ?_⟩
    simp only [refusal, Pass.into_eq, generated, refused]
    exact congrArg (Prod.mk _) same

/-- The units that a list of attempts publishes: all those of every attempt in which nothing
fails, in order. -/
def publishedBy (attempts : List Attempt) : List OutputUnit :=
  (attempts.filterMap delivered?).flatten

/-- What an attempt has to return. -/
def Returns (a : Attempt) (count : Emitted Nat) : Prop :=
  match a.delivered? with
  | some units => count = .ok units.length
  | none => ∃ e, count = .error e

theorem run_returns (a : Attempt) (m : Memory) : a.Returns (a.run m).1 := by
  unfold Returns
  cases done : a.delivered? with
  | some units => simp [run_delivered done]
  | none =>
    obtain ⟨e, failed⟩ := run_failed done m
    exact ⟨e, by rw [failed]⟩

/-- One step of a history: an attempt either publishes all of its units or only counts as aborted,
and leaves nothing pending. -/
theorem run_memory (a : Attempt) (m : Memory) :
    (a.run m).2 =
      ⟨m.units ++ publishedBy [a], [], m.aborted + if a.delivered?.isNone then 1 else 0⟩ := by
  cases done : a.delivered? with
  | some units => simp [run_delivered done, Memory.publishing, publishedBy, done]
  | none =>
    obtain ⟨e, failed⟩ := run_failed done m
    simp [failed, Memory.sink, publishedBy, done]

theorem publishedBy_cons (a : Attempt) (rest : List Attempt) :
    publishedBy (a :: rest) = publishedBy [a] ++ publishedBy rest := by
  cases done : a.delivered? <;> simp [publishedBy, done]

theorem history_memory (attempts : List Attempt) (m : Memory) :
    (inOrder run attempts m).2 =
      ⟨m.units ++ publishedBy attempts, if attempts.isEmpty then m.pending else [],
        m.aborted + attempts.countP (·.delivered?.isNone)⟩ := by
  induction attempts generalizing m with
  | nil => simp [inOrder, publishedBy]
  | cons a rest ih =>
    calc (inOrder run (a :: rest) m).2
        = (inOrder run rest (a.run m).2).2 := rfl
      _ = _ := by
        rw [ih, run_memory, publishedBy_cons a rest, List.countP_cons]
        simp [Nat.add_assoc, Nat.add_comm]

theorem history_returns (attempts : List Attempt) (m : Memory) :
    List.Forall₂ Returns attempts (inOrder run attempts m).1 := by
  induction attempts generalizing m with
  | nil => exact .nil
  | cons a rest ih => exact .cons (run_returns a m) (ih (a.run m).2)

/-- After any history of attempts, memory holds what it held and all units of exactly the attempts
in which nothing failed. To finish once more adds nothing of theirs: only where there was no
attempt does it publish what was pending before. -/
theorem memory_after_history (attempts : List Attempt) (m : Memory) :
    let (counts, after) := inOrder run attempts m
    after.units = m.units ++ publishedBy attempts ∧
      after.aborted = m.aborted + attempts.countP (·.delivered?.isNone) ∧
      List.Forall₂ Returns attempts counts ∧
      ∃ finished, Memory.sink.finish after = .ok () finished ∧
        finished.units = after.units ++ if attempts.isEmpty then m.pending else [] := by
  dsimp only
  rw [history_memory]
  exact ⟨rfl, rfl, history_returns attempts m, _, rfl, rfl⟩

end Attempt

end Idl.Emit
