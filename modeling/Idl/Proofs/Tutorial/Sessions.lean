import Idl.Proofs.Rpc.Session
import Idl.Proofs.Tutorial.Records

/-!
# Sessions of the tutorial services

Every function of a tutorial service is found by its name, also one that the service inherits, and
no argument or result has a set or a map in it. So sessions keep in step as long as all sizes fit
their words.
-/

set_option autoImplicit false

namespace Idl.Tutorial

open Rpc Wire

theorem Function.mem_all (f : Function) : f ∈ Function.all := by
  cases f <;> decide

theorem Function.sound (f : Function) : f.signature.Sound where
  name := by cases f <;> decide
  args := by
    apply recordFields_distinct
    simp only [recordFields, List.mem_append]
    exact .inl (.inr (List.mem_map_of_mem f.mem_all))
  reply := by
    apply recordFields_distinct
    simp only [recordFields, List.mem_append]
    exact .inr (List.mem_map_of_mem f.mem_all)

theorem services_find? : ∀ s ∈ services, ∀ f ∈ s.functions ++ s.inherited,
    s.find? f.signature.name = some f := by
  decide

theorem services_offer {s : Service interface} (hs : s ∈ services) {f : Function}
    (hf : f ∈ s.functions ++ s.inherited) : s.Offers f :=
  ⟨services_find? s hs f hf, f.sound⟩

theorem Function.args_plain (f : Function) : f.signature.args.Plain := by
  cases f <;> simp [Fields.Plain, Shape.Plain]

theorem Function.reply_plain (f : Function) : f.signature.reply.fields.Plain := by
  cases f <;> simp [Fields.Plain, Shape.Plain]

theorem portable_of_fits (e : Exchange interface) (h : e.Fits) : e.Portable where
  args := ⟨h.1, Fields.canonical_of_plain _ e.function.args_plain _⟩
  result := ⟨h.2, Fields.canonical_of_plain _ e.function.reply_plain _⟩

/-- The results of a session are those of the functions, run once each and in the order of the
calls. Both streams are used up. The messages of a call, and its reply if there is one, have the
id of the first call plus the place of this one. -/
theorem session_answers (s : Service interface) (hs : s ∈ services) {σ : Type}
    (b : Behaviour interface σ) (calls : List (Call interface)) (seqId : Int32) (state : σ)
    (offered : ∀ call ∈ calls, call.function ∈ s.functions ++ s.inherited)
    (fits : ∀ e ∈ (b.exchanges calls state).1, e.Fits) :
    session b.handler s calls seqId state =
      { sent := List.replicate calls.length (.ok ())
        processed := List.replicate calls.length (.ok true)
        received := results (b.exchanges calls state).1
        client :=
          { input := []
            output := numbered Call.request calls seqId
            seqId := seqId + Int32.ofNat calls.length }
        server :=
          { input := []
            output := numbered Exchange.reply (b.exchanges calls state).1 seqId
            state := (b.exchanges calls state).2 } } ∧
    (session b.recording.handler s calls seqId (state, [])).server.state =
      ((b.exchanges calls state).2, calls) ∧
    (∀ call ∈ calls, ∀ id, ∃ body, Decoder.message (call.request id).bytes =
      .ok ⟨call.signature.name, call.kind, id⟩ body) ∧
    (∀ e ∈ (b.exchanges calls state).1, ∀ id,
      if e.signature.isOneway then (e.reply id).bytes = []
      else ∃ body, Decoder.message (e.reply id).bytes =
        .ok ⟨e.signature.name, .reply, id⟩ body) := by
  have offers : ∀ call ∈ calls, s.Offers call.function := by
    intro call hc
    exact services_offer hs (offered call hc)
  have portable : ∀ e ∈ (b.exchanges calls state).1, e.Portable := by
    intro e he
    exact portable_of_fits e (fits e he)
  have recorded := b.exchanges_recording calls state []
  refine ⟨session_eq b s calls seqId state offers portable, ?_, ?_, ?_⟩
  · rw [session_eq b.recording s calls seqId (state, []) offers (by rwa [recorded]), recorded]
    rfl
  · intro call _ id
    exact request_header call call.function.sound id
  · intro e _ id
    split
    case isTrue oneway => rw [Exchange.reply_of_oneway oneway, Emission.nothing]
    case isFalse answered =>
      rw [Exchange.reply_of_answered answered]
      exact response_header e.signature e.function.sound id e.result

def tally : Behaviour interface Nat
  | .getStruct, (key, _), n => (.inl (some key, some "é", ()), n + 1)
  | .ping, _, n => (none, n + 1)
  | .add, (a, b, _), n => (.inl (a + b), n + 1)
  | .calculate, (_, (_, _, op, _), _), n => (.inr (.inl (op, some "refused", ())), n + 1)
  | .reset, _, n => (none, n + 1)
  | .zip, _, n => ((), n + 1)
  | .sqrt, (d, _), n => (.inl d, n + 1)
  | .new, (seed, _), n => (.inl seed, n + 1)
  | .channelMut, (batch, _), n => (.inl batch, n + 1)
  | .intoChannel, _, n => ((), n + 1)

def someCalls : List (Call interface) :=
  [⟨.calculate, (1, (some 8, some 0, some 4, none, ()), ())⟩, ⟨.zip, ()⟩, ⟨.getStruct, (7, ())⟩,
    ⟨.sqrt, (⟨0x8000000000000000⟩, ())⟩]

theorem session_answers_someCalls :
    let run := session tally.handler scientificCalculator someCalls 0x7FFFFFFF 0
    run.processed = [.ok true, .ok true, .ok true, .ok true] ∧
    run.received = [⟨.calculate, .ok (.inr (.inl (some 4, some "refused", ())))⟩,
      ⟨.getStruct, .ok (.inl (some 7, some "é", ()))⟩, ⟨.sqrt, .ok (.inl ⟨0x8000000000000000⟩)⟩] ∧
    run.client.input = [] ∧ run.client.seqId = -0x7FFFFFFD ∧ run.server.input = [] ∧
    run.server.state = 4 := by
  intro run
  have law := session_answers scientificCalculator (by simp [services]) tally someCalls 0x7FFFFFFF 0
    (by decide) (by decide)
  have h : run = _ := law.1
  rw [h]
  exact ⟨rfl, rfl, rfl, rfl, rfl, rfl⟩

end Idl.Tutorial
