import Idl.Proofs.Rpc.Processing
import Idl.Proofs.Tutorial.Sessions

/-!
# Processing any input of the tutorial services

The processors of the tutorial stay framed on every input: what they write is nothing or one whole
message, whatever the bytes are and whatever the handler does.
-/

set_option autoImplicit false

namespace Idl.Tutorial

open Rpc Wire

/-- Processing ends in exactly one of its four ways. The handler runs the calls that the input
asks for, of which there is at most one, and does not run otherwise. -/
theorem process_ends (s : Service interface) (hs : s ∈ services) {σ : Type}
    (h : Handler interface σ) (state : σ) (input : Bytes) (fits : h.AnswerFits s state input) :
    (∃! ending, Ends s input (h.process s state input) ending) ∧
    ∃ calls : List (Call interface), calls.length ≤ 1 ∧
      (∀ call, call ∈ calls ↔ s.Asks input call) ∧
      ∀ log, h.recording.process s (state, log) input =
        ⟨(h.process s state input).outcome, (h.process s state input).rest,
          (h.process s state input).output, (h.process s state input).state, log ++ calls⟩ := by
  have offers : ∀ f ∈ s.functions ++ s.inherited, s.Offers f := fun f hf => services_offer hs hf
  refine ⟨?_, (s.demand input).calls, ?_, s.mem_calls_iff offers input, ?_⟩
  · have portable : ∀ call, s.Asks input call → ∀ result,
        (h call.function call.args state).1 = .ok result →
        call.signature.reply.fields.Portable (call.signature.reply.record result) := by
      intro call asked result given
      exact ⟨fits.result call asked result given,
        Fields.canonical_of_plain _ call.function.reply_plain _⟩
    rw [h.process_eq_meet]
    obtain ⟨ending, ends⟩ := h.meet_ends s offers state input portable fits.refusal
    exact ⟨ending, ends, fun other ends' => ends_unique ends' ends⟩
  · cases s.demand input with
    | unreadable _ _ => exact Nat.zero_le 1
    | unknown _ _ => exact Nat.zero_le 1
    | call _ _ _ => exact Nat.le_refl 1
  · intro log
    rw [h.process_eq_meet, h.recording.process_eq_meet]
    exact h.meet_recording state log (s.demand input)

def division : Call interface :=
  ⟨.calculate, (1, (some 8, some 0, some 4, none, ()), ())⟩

def divisionInput : Bytes :=
  (division.request 5).bytes ++ [9]

theorem tally_result_fits (call : Call interface) (n : Nat) (result : call.signature.Result)
    (given : (tally.handler call.function call.args n).1 = .ok result) :
    call.signature.reply.fields.Fits (call.signature.reply.record result) := by
  obtain ⟨f, args⟩ := call
  cases given
  cases f <;> simp [tally, Reply.record, Fields.ofOne, Fields.absent, Fields.Fits, Shape.Fits]
  case getStruct => decide
  case calculate => decide

theorem division_portable : (tally.exchange division 0).1.Portable :=
  portable_of_fits _ (by decide)

theorem divisionInput_header : Decoder.message divisionInput =
    .ok ⟨"calculate", .call, 5⟩
      ((division.signature.args.write (division.signature.args.ofFull division.args)).bytes ++
        [9]) := by
  have sound := division.function.sound
  rw [divisionInput, request_parts division sound, List.append_assoc]
  exact (message_conveys .call "calculate" 5 sound.name).reads _

theorem division_asked : scientificCalculator.Asks divisionInput division := by
  have args := division.signature.args.write_conveys division.function.sound.args
    division_portable.args
  exact ⟨_, _, _, [9], divisionInput_header, ⟨by decide, rfl⟩, args.reads [9],
    (Fields.complete_ofFull _ division.args).symm⟩

theorem process_ends_division :
    Ends scientificCalculator divisionInput
      (tally.handler.process scientificCalculator 0 divisionInput) .answered ∧
    (tally.handler.recording.process scientificCalculator (0, []) divisionInput).state =
      (1, [division]) := by
  have fits : tally.handler.AnswerFits scientificCalculator 0 divisionInput := by
    refine ⟨fun call _ => tally_result_fits call 0, ?_⟩
    intro header rest left read _ _
    cases divisionInput_header.symm.trans read
    decide
  obtain ⟨⟨ending, ends, -⟩, calls, once, asked, recorded⟩ :=
    process_ends scientificCalculator (by simp [services]) tally.handler 0 divisionInput fits
  have run : tally.handler.process scientificCalculator 0 divisionInput = _ :=
    process_request tally scientificCalculator division 0 (by decide) division.function.sound
      division_portable 5 [9]
  constructor
  · have verdict := ends_verdict ends
    rw [run] at verdict
    cases ending with
    | failed | refused => cases verdict
    | answered => exact ends
    | silent =>
      obtain ⟨-, nothing, -⟩ := ends
      obtain ⟨body, message⟩ := response_header (tally.exchange division 0).1.signature
        (tally.exchange division 0).1.function.sound 5 (tally.exchange division 0).1.result
      rw [run] at nothing
      dsimp only at nothing
      rw [Exchange.reply_of_answered (by decide)] at nothing
      rw [nothing] at message
      cases message
  · have called : calls = [division] := by
      have member := (asked division).mpr division_asked
      have single := Nat.le_antisymm once (List.length_pos_of_mem member)
      obtain ⟨call, rfl⟩ := List.length_eq_one_iff.mp single
      rw [List.mem_singleton.mp member]
    rw [recorded, run, called]
    rfl

end Idl.Tutorial
