import Idl.Proofs.Rpc.Processing
import Idl.Proofs.Tutorial.Sessions
import Idl.Proofs.Wire.Framing

/-!
# Arguments that handlers receive

A handler is given an argument for every field, whatever records a request has: the value of the
last record that matches the field, and where none does a value that stands in for it. A struct
that a request does have stays as it is, without its defaults.
-/

set_option autoImplicit false

namespace Idl

open Wire

def Fields.fill : (fs : Fields) → fs.Full → fs.Val → fs.Full
  | .nil, _, _ => ()
  | .cons _ _ rest, (standIn, standIns), (a, others) => (a.getD standIn, rest.fill standIns others)

theorem Fields.complete_eq_fill : (fs : Fields) → (record : fs.Val) →
    fs.complete record = fs.fill (fs.complete fs.absent) record
  | .nil, _ => rfl
  | .cons _ _ rest, (a, others) => by
    rw [absent, complete, complete, fill, ← rest.complete_eq_fill others, Option.getD_none]

namespace Tutorial

open Rpc Wire.Tree

def Function.standIns : (f : Function) → f.signature.Args
  | .getStruct => (0, ())
  | .ping => ()
  | .add => (0, 0, ())
  | .calculate => (0, (some 0, none, none, none, ()), ())
  | .reset => ()
  | .zip => ()
  | .sqrt => (⟨0⟩, ())
  | .new => (0, ())
  | .channelMut => (8, ())
  | .intoChannel => ()

theorem Function.complete_absent (f : Function) :
    f.signature.args.complete f.signature.args.absent = f.standIns := by
  cases f <;> rfl

/-- The handler is called once, with the last value that the records have for each argument, and
with what stands in for an argument that they do not have. -/
theorem handler_receives (s : Service interface) (hs : s ∈ services) (f : Function)
    (hf : f ∈ s.functions ++ s.inherited) {σ : Type} (h : Handler interface σ) (state : σ)
    (opening : Bytes) (header : MessageHeader) (opens : Decoder.message opening = .ok header [])
    (named : header.name = f.signature.name) (rs : List Record)
    (admits : ∀ r ∈ rs, f.signature.args.Admits r) (trailing : Bytes) :
    ∃ record, f.signature.args.Holds record rs ∧ ∀ log,
      let args := f.signature.args.fill f.standIns record
      (h.recording.process s (state, log)
        (opening ++ (encodeRecords rs ++ Kind.stop.tag :: trailing))).state =
          ((h f args state).2, log ++ [⟨f, args⟩]) := by
  have distinct := f.sound.args
  obtain ⟨record, holds, reads⟩ :=
    f.signature.args.readNew_struct distinct (Fields.readBack _ distinct) rs admits
  have found : s.find? header.name = some f := named ▸ (services_offer hs hf).found
  have filled : f.signature.args.complete record = f.signature.args.fill f.standIns record := by
    rw [Fields.complete_eq_fill, f.complete_absent]
  refine ⟨record, holds, fun log => ?_⟩
  rw [encode_struct, h.recording.process_eq_meet,
    s.demand_eq_call (message_stable.reads opens _) found (reads trailing),
    h.recording.meet_call_state, filled]
  rfl

def wideBatch : List Record := [(1, .scalar (.i64 3))]

theorem handler_receives_strayRecords :
    let log (s : Service interface) (name : String) (rs : List Record) :=
      (tally.handler.recording.process s (0, []) ((Emission.message .call name 5).bytes ++
        (encodeRecords rs ++ Kind.stop.tag :: [9]))).state.2
    log scientificCalculator "calculate" strayRecords =
      [⟨.calculate, (8, (some 0, none, none, none, ()), ())⟩] ∧
    log factory "channelMut" wideBatch = [⟨.channelMut, (8, ())⟩] := by
  intro log
  have readBack (f : Function) := Fields.readBack _ f.sound.args
  constructor
  · have types : ∀ r ∈ strayRecords, Function.calculate.signature.args.Types r := by
      simp [strayRecords, Fields.Types, Record.header, kind, Scalar.kind, Shape.kind, Shape.Encodes]
    have expected : Function.calculate.signature.args.Holds (some 8, none, ()) strayRecords :=
      ⟨⟨strayRecords.take 4, _, [], rfl, rfl, rfl, by simp⟩,
        show ∀ r ∈ strayRecords, _ by decide, trivial⟩
    have admits : ∀ r ∈ strayRecords, Function.calculate.signature.args.Admits r := fun r hr =>
      ⟨strayRecords_wellFormed r hr, types r hr, fun _ => strayRecords_shallow r hr⟩
    obtain ⟨record, holds, called⟩ := handler_receives scientificCalculator (by simp [services])
      .calculate (by decide) tally.handler 0 _ _
      (message_conveys .call "calculate" 5 (by decide)).whole rfl strayRecords admits [9]
    cases Fields.holds_unique _ (readBack .calculate) strayRecords strayRecords_wellFormed record _
      holds expected
    dsimp only [log]
    rw [called []]
    rfl
  · have wellFormed : ∀ r ∈ wideBatch, r.2.WellFormed := by
      simpa [wideBatch] using .scalar trivial
    have expected : Function.channelMut.signature.args.Holds (none, ()) wideBatch :=
      ⟨show ∀ r ∈ wideBatch, _ by decide, trivial⟩
    have admits : ∀ r ∈ wideBatch, Function.channelMut.signature.args.Admits r := by
      intro r hr
      refine ⟨wellFormed r hr, ⟨fun same => absurd same (expected.1 r hr), trivial⟩, fun _ => ?_⟩
      revert r
      decide
    obtain ⟨record, holds, called⟩ := handler_receives factory (by simp [services]) .channelMut
      (by decide) tally.handler 0 _ _ (message_conveys .call "channelMut" 5 (by decide)).whole rfl
      wideBatch admits [9]
    cases Fields.holds_unique _ (readBack .channelMut) wideBatch wellFormed record _ holds expected
    dsimp only [log]
    rw [called []]
    rfl

end Tutorial

end Idl
