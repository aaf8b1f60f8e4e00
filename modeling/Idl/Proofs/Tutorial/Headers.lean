import Idl.Proofs.Outcome
import Idl.Proofs.Tutorial.Processing
import Idl.Tutorial.Handler

/-!
# What the headers of messages decide

A header has a kind, a name and a sequence id. A processor goes by the name alone: the kind of a
request does not keep it from answering, and the id only goes into the answer. A client goes by the
kind and the name: the id of a reply is not compared with the one that was sent. So a message that
is sent one-way is answered if it names a function that is not one-way, or none at all, and a reply
that comes late is taken for the answer to the call that waits.
-/

set_option autoImplicit false

namespace Idl.Rpc

open Wire

variable {i : Interface} {σ : Type}

theorem append_bytes_ne_nil {a : Emission} (some : a.bytes ≠ []) (b : Emission) :
    (a ++ b).bytes ≠ [] := by
  change (Emission.andThen a b).bytes ≠ []
  unfold Emission.andThen
  split
  · exact some
  · exact List.append_ne_nil_of_left_ne_nil some b.bytes

theorem message_bytes_ne_nil (k : MessageKind) (name : String) (seqId : Int32) (e : Emission) :
    (Emission.message k name seqId ++ e).bytes ≠ [] := by
  have word : (⟨bigEndian 4 (Emission.messageWord k), none⟩ : Emission).bytes ≠ [] := by
    cases k <;> decide
  exact append_bytes_ne_nil (append_bytes_ne_nil (append_bytes_ne_nil word _) _) e

namespace Handler

variable (h : Handler i σ)

/-- What follows a header with this name is answered: the service does not have the function, or it
has a function that is not one-way, and the handler comes to a result. -/
inductive Answers (s : Service i) (state : σ) (name : String) (body : Bytes) : Prop
  | refusal (unknown : ∀ f, ¬ s.Declares f name) {rest : Bytes}
      (skipped : skip .struct body = .ok () rest)
  | response (f : i.Function) (declared : s.Declares f name) (answered : ¬ (i.signature f).isOneway)
      {args : (i.signature f).args.Val} {rest : Bytes}
      (readArgs : (i.signature f).args.readNew body = .ok args rest)
      {result : (i.signature f).Result}
      (returned : (h f ((i.signature f).args.complete args) state).1 = .ok result)

theorem refuse_output_ne_nil_iff (header : MessageHeader) (state : σ) (body : Bytes) :
    (refuse header state body).output ≠ [] ↔ ∃ rest, skip .struct body = .ok () rest := by
  rw [refuse]
  cases skip .struct body with
  | error fault rest => simp
  | ok _ rest =>
    have written : (refusal header).bytes ≠ [] := message_bytes_ne_nil .exception _ _ _
    simpa [reply] using written

theorem meet_call_output_ne_nil_iff (state : σ) (seqId : Int32) (call : Call i) (rest : Bytes) :
    (h.meet state (.call seqId call rest)).output ≠ [] ↔ ¬ call.signature.isOneway ∧
      ∃ result, (h call.function call.args state).1 = .ok result := by
  rw [meet]
  cases h call.function call.args state with
  | mk outcome after =>
    cases outcome with
    | error failure => simp
    | ok result =>
      by_cases oneway : call.signature.isOneway
      · simp [oneway]
      · have written : (response call.signature seqId result).bytes ≠ [] :=
          message_bytes_ne_nil .reply _ _ _
        simpa [oneway, reply] using written

theorem process_output_ne_nil_iff (s : Service i)
    (offers : ∀ f ∈ s.functions ++ s.inherited, s.Offers f) (state : σ) {input : Bytes}
    {header : MessageHeader} {body : Bytes} (read : Decoder.message input = .ok header body) :
    (h.process s state input).output ≠ [] ↔ h.Answers s state header.name body := by
  have found := s.find?_eq_some_iff offers header.name
  rw [h.process_eq_meet, Service.demand, read]
  dsimp only
  cases hf : s.find? header.name with
  | none =>
    have unknown := (s.find?_eq_none_iff header.name).mp hf
    dsimp only [meet]
    rw [refuse_output_ne_nil_iff]
    constructor
    · rintro ⟨rest, skipped⟩
      exact .refusal unknown skipped
    · rintro (⟨-, skipped⟩ | ⟨f, declared⟩)
      · exact ⟨_, skipped⟩
      · exact absurd declared (unknown f)
  | some f =>
    dsimp only
    have only : ∀ g, s.Declares g header.name → g = f := by
      intro g declared
      exact Option.some.inj (((found g).mpr declared).symm.trans hf)
    have declared := (found f).mp hf
    cases readArgs : (i.signature f).args.readNew body with
    | error fault rest =>
      simp only [meet, ne_eq, not_true_eq_false, false_iff]
      rintro (⟨unknown, -⟩ | ⟨g, other, -, readOther⟩)
      · exact unknown f declared
      · obtain rfl := only g other
        cases readOther.symm.trans readArgs
    | ok args rest =>
      dsimp only
      rw [meet_call_output_ne_nil_iff]
      constructor
      · rintro ⟨answered, result, returned⟩
        exact .response f declared answered readArgs returned
      · rintro (⟨unknown, -⟩ | ⟨g, other, answered, readOther, returned⟩)
        · exact absurd declared (unknown f)
        · obtain rfl := only g other
          cases readOther.symm.trans readArgs
          exact ⟨answered, _, returned⟩

theorem process_of_kind (s : Service i) (state : σ) {input input' : Bytes} {header : MessageHeader}
    {body : Bytes} (read : Decoder.message input = .ok header body) {kind : MessageKind}
    (read' : Decoder.message input' = .ok { header with kind := kind } body) :
    h.process s state input' = h.process s state input := by
  rw [process, process, read, read']
  rfl

end Handler

namespace Signature

variable (g : Signature)

theorem result_eq_ok_iff {body rest : Bytes} {result : g.Result} :
    g.result body = .ok (.ok result) rest ↔ ∃ record,
      g.reply.fields.readNew body = .ok record rest ∧ g.reply.result? record = some result := by
  constructor
  · intro accepted
    obtain ⟨record, between, read, returned⟩ := ok_of_bind accepted
    cases found : g.reply.result? record with
    | none =>
      rw [found] at returned
      cases returned
    | some given =>
      rw [found] at returned
      cases returned
      exact ⟨record, read, found⟩
  · rintro ⟨record, read, found⟩
    apply (bind_of_ok read).trans
    rw [found]
    rfl

theorem reject_ne_ok {kind : ApplicationKind} {text : String} {body rest : Bytes}
    {result : g.Result} :
    (reject kind text : Decoder (Except ApplicationException g.Result)) body ≠
      .ok (.ok result) rest := by
  intro accepted
  obtain ⟨_, _, -, returned⟩ := ok_of_bind accepted
  cases returned

theorem answer_eq_ok_iff {input rest : Bytes} {result : g.Result} :
    g.answer input = .ok (.ok result) rest ↔ ∃ header body record,
      Decoder.message input = .ok header body ∧ header.kind = .reply ∧ header.name = g.name ∧
        g.reply.fields.readNew body = .ok record rest ∧ g.reply.result? record = some result := by
  constructor
  · intro accepted
    obtain ⟨header, body, read, accepted⟩ := ok_of_bind accepted
    split at accepted
    case isTrue =>
      obtain ⟨_, _, -, returned⟩ := ok_of_bind accepted
      cases returned
    case isFalse =>
      split at accepted
      case isTrue => exact absurd accepted g.reject_ne_ok
      case isFalse kind =>
        split at accepted
        case isTrue => exact absurd accepted g.reject_ne_ok
        case isFalse name =>
          obtain ⟨record, readRecord, found⟩ := g.result_eq_ok_iff.mp accepted
          exact ⟨header, body, record, read, not_not.mp kind, not_not.mp name, readRecord, found⟩
  · rintro ⟨header, body, record, read, kind, name, readRecord, found⟩
    apply (bind_of_ok read).trans
    rw [if_neg (by simp [kind]), if_neg (by simp [kind]), if_neg (by simp [name])]
    exact g.result_eq_ok_iff.mpr ⟨record, readRecord, found⟩

theorem answer_of_seqId {input input' : Bytes} {header : MessageHeader} {body : Bytes}
    (read : Decoder.message input = .ok header body) {seqId : Int32}
    (read' : Decoder.message input' = .ok { header with seqId := seqId } body) :
    g.answer input' = g.answer input := by
  have first : g.answer input = _ := bind_of_ok read
  exact (bind_of_ok read').trans first.symm

theorem receive_eq_ok_iff (c : Channel) (result : g.Result) :
    (g.receive c).1 = .ok result ↔ ∃ rest, g.answer c.input = .ok (.ok result) rest := by
  rw [receive, Channel.read]
  cases g.answer c.input with
  | error fault rest => simp
  | ok outcome rest => cases outcome <;> simp

theorem receive_of_seqId {c : Channel} {input' : Bytes} {header : MessageHeader} {body : Bytes}
    (read : Decoder.message c.input = .ok header body) {seqId : Int32}
    (read' : Decoder.message input' = .ok { header with seqId := seqId } body) :
    g.receive { c with input := input' } = g.receive c := by
  rw [receive, receive, Channel.read, Channel.read]
  dsimp only
  rw [g.answer_of_seqId read read']

end Signature

inductive Step (i : Interface) where
  | send (call : Call i)
  | receive (f : i.Function)

namespace Step

def isSend : Step i → Bool
  | .send _ => true
  | .receive _ => false

def run : Step i → Channel → Channel
  | .send call, c => (call.send c).2
  | .receive f, c => (await f c).2

theorem run_seqId (step : Step i) (c : Channel) :
    (step.run c).seqId = if step.isSend then c.seqId + 1 else c.seqId := by
  cases step with
  | send call => rfl
  | receive f =>
    change ((i.signature f).receive c).2.seqId = c.seqId
    rw [Signature.receive, Channel.read]
    cases (i.signature f).answer c.input with
    | error fault rest => rfl
    | ok outcome rest => cases outcome <;> rfl

end Step

def afterSteps (steps : List (Step i)) (c : Channel) : Channel :=
  steps.foldl (fun c step => step.run c) c

/-- Each call takes an id, and nothing else does. -/
theorem afterSteps_seqId (steps : List (Step i)) (c : Channel) :
    (afterSteps steps c).seqId = c.seqId + Int32.ofNat (steps.countP Step.isSend) := by
  induction steps generalizing c with
  | nil => simp [afterSteps]
  | cons step steps ih =>
    change (afterSteps steps (step.run c)).seqId = _
    rw [ih, step.run_seqId, List.countP_cons]
    by_cases sends : step.isSend
    · simp only [sends, if_true, ids_succ]
    · simp [sends]

end Idl.Rpc

namespace Idl.Tutorial

open Rpc Wire

/-- A request is left without an answer exactly if there is none to give, whatever its kind is: the
same request under any other kind is processed in the same way. -/
theorem silence_iff (s : Service interface) (hs : s ∈ services) {σ : Type}
    (h : Handler interface σ) (state : σ) (input : Bytes) (header : MessageHeader) (body : Bytes)
    (read : Decoder.message input = .ok header body) :
    ((h.process s state input).output = [] ↔ ¬ h.Answers s state header.name body) ∧
      ∀ kind input', Decoder.message input' = .ok { header with kind := kind } body →
        h.process s state input' = h.process s state input := by
  have offers : ∀ f ∈ s.functions ++ s.inherited, s.Offers f := fun f hf => services_offer hs hf
  constructor
  · rw [← h.process_output_ne_nil_iff s offers state read, not_not]
  · intro kind input' read'
    exact h.process_of_kind s state read read'

def bareMessage (kind : MessageKind) (name : String) (seqId : Int32) : Bytes :=
  (Emission.message kind name seqId).bytes ++ [0]

theorem bareMessage_header (kind : MessageKind) (name : String) (seqId : Int32)
    (small : (Text.utf8 name).length ≤ 0x7FFFFFFF) :
    Decoder.message (bareMessage kind name seqId) = .ok ⟨name, kind, seqId⟩ [0] :=
  (message_conveys kind name seqId small).reads [0]

theorem silence_iff_zip :
    Decoder.message (bareMessage .call "zip" 5) = .ok ⟨"zip", .call, 5⟩ [0] ∧
      (handler.process calculator {} (bareMessage .call "zip" 5)).output = [] := by
  have read := bareMessage_header .call "zip" 5 (by decide)
  refine ⟨read, (silence_iff calculator (by simp [services]) handler {} _ _ _ read).1.mpr ?_⟩
  rintro (⟨unknown, -⟩ | ⟨f, ⟨-, named⟩, answered, -⟩)
  · exact unknown .zip ⟨by decide, rfl⟩
  · cases f <;> first | exact absurd named (by decide) | exact answered rfl

/-- A function that is not one-way, and one that there is not, are answered though the request says
that no answer is wanted. -/
theorem oneway_answered :
    (Decoder.message (bareMessage .oneway "ping" 5) = .ok ⟨"ping", .oneway, 5⟩ [0] ∧
      (handler.process calculator {} (bareMessage .oneway "ping" 5)).output =
        bareMessage .reply "ping" 5) ∧
    Decoder.message (bareMessage .oneway "mix" 6) = .ok ⟨"mix", .oneway, 6⟩ [0] ∧
      (handler.process calculator {} (bareMessage .oneway "mix" 6)).output =
        (Handler.refusal ⟨"mix", .oneway, 6⟩).bytes := by
  refine ⟨⟨bareMessage_header _ _ _ (by decide), ?_⟩, bareMessage_header _ _ _ (by decide), ?_⟩
  · decide +kernel
  · decide +kernel

/-- After any steps of a client, a call has the id of the first one plus the number of calls before
it. A reply to it is accepted if it is named for the function and holds a result. The same reply
under any other id gives the same, and leaves the same bytes. -/
theorem reply_accepted_iff (steps : List (Step interface)) (start : Channel)
    (call : Call interface) (answered : ¬ call.signature.isOneway) :
    let c := afterSteps steps start
    let id := start.seqId + Int32.ofNat (steps.countP Step.isSend)
    let sent := (call.send c).2
    (sent.output = c.output ++ (call.request id).bytes ∧
      ∃ body, Decoder.message (call.request id).bytes =
        .ok ⟨call.signature.name, .call, id⟩ body) ∧
    (∀ result, (call.signature.receive sent).1 = .ok result ↔ ∃ header body rest record,
      Decoder.message c.input = .ok header body ∧ header.kind = .reply ∧
        header.name = call.signature.name ∧
        call.signature.reply.fields.readNew body = .ok record rest ∧
        call.signature.reply.result? record = some result) ∧
    ∀ header body, Decoder.message c.input = .ok header body → ∀ seqId input',
      Decoder.message input' = .ok { header with seqId := seqId } body →
        call.signature.receive { sent with input := input' } = call.signature.receive sent := by
  intro c id sent
  have next : c.seqId = id := afterSteps_seqId steps start
  refine ⟨⟨?_, ?_⟩, ?_, ?_⟩
  · rw [← next]
    rfl
  · have kind : call.kind = .call := if_neg answered
    rw [← kind]
    exact request_header call call.function.sound id
  · intro result
    rw [Signature.receive_eq_ok_iff]
    constructor
    · rintro ⟨rest, accepted⟩
      obtain ⟨header, body, record, given⟩ := call.signature.answer_eq_ok_iff.mp accepted
      exact ⟨header, body, rest, record, given⟩
    · rintro ⟨header, body, rest, record, given⟩
      exact ⟨rest, call.signature.answer_eq_ok_iff.mpr ⟨header, body, record, given⟩⟩
  · intro header body read seqId input' read'
    exact call.signature.receive_of_seqId read read'

def firstSum : Call interface := ⟨.add, (1, 2, ())⟩

def secondSum : Call interface := ⟨.add, (5, 5, ())⟩

def lateReply : Bytes :=
  (handler.process calculator {} (firstSum.request 0).bytes).output

theorem lateReply_eq : lateReply = (Handler.response firstSum.signature 0 (.inl 3)).bytes := by
  decide +kernel

theorem lateReply_isMessage : IsMessage lateReply ⟨"add", .reply, 0⟩
    firstSum.signature.reply.fields.readNew (firstSum.signature.reply.record (.inl 3)) := by
  have portable : (⟨firstSum, .inl 3⟩ : Exchange interface).Portable :=
    portable_of_fits _ (by decide)
  rw [lateReply_eq]
  exact (Handler.response_isMessage firstSum.signature firstSum.function.sound 0 (.inl 3)
    portable.result).2

theorem reply_accepted_iff_lateReply :
    let sent := (secondSum.send
      (afterSteps [.send firstSum] { input := lateReply, seqId := 0x7FFFFFFF })).2
    (∃ body, Decoder.message (secondSum.request (-0x80000000)).bytes =
      .ok ⟨"add", .call, -0x80000000⟩ body) ∧
      (secondSum.signature.receive sent).1 = .ok (.inl 3) := by
  obtain ⟨⟨-, header⟩, accepted, -⟩ := reply_accepted_iff [.send firstSum]
    { input := lateReply, seqId := 0x7FFFFFFF } secondSum (by decide)
  obtain ⟨rest, read, record⟩ := lateReply_isMessage
  exact ⟨header, (accepted (.inl 3)).mpr ⟨_, rest, [], _, read, rfl, rfl, record, rfl⟩⟩

/-- The reply to the first sum is accepted as the answer to the second one. -/
theorem late_reply_accepted :
    let sent := (secondSum.send (afterSteps [.send firstSum] { input := lateReply })).2
    (secondSum.signature.receive sent).1 = .ok (.inl 3) ∧
      (∃ body, Decoder.message sent.input = .ok ⟨"add", .reply, 0⟩ body) ∧
      ∃ earlier body, sent.output = earlier ++ (secondSum.request 1).bytes ∧
        Decoder.message (secondSum.request 1).bytes = .ok ⟨"add", .call, 1⟩ body := by
  intro sent
  obtain ⟨rest, read, record⟩ := lateReply_isMessage
  obtain ⟨body, header⟩ := request_header secondSum secondSum.function.sound 1
  have accepted := secondSum.signature.answer_eq_ok_iff.mpr
    ⟨_, rest, _, read, rfl, rfl, record, rfl⟩
  exact ⟨(secondSum.signature.receive_eq_ok_iff sent _).mpr ⟨[], accepted⟩, ⟨rest, read⟩,
    _, body, rfl, header⟩

end Idl.Tutorial
