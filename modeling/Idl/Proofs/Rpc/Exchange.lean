import Idl.Proofs.Value.RoundTrip
import Idl.Rpc.Client
import Idl.Rpc.Processor

/-!
# Exchanges

A call and its result, each carried by a message. A request is processed as the call that was
sent, and the response to it is received as the result that the function gave.
-/

set_option autoImplicit false

namespace Idl

theorem Fields.complete_ofFull : (fs : Fields) → (full : fs.Full) →
    fs.complete (fs.ofFull full) = full
  | .nil, _ => rfl
  | .cons _ _ rest, (_, others) => by
    rw [ofFull, complete, rest.complete_ofFull others]
    rfl

theorem Fields.first?_absent (fs : Fields) : fs.first? fs.absent = none := by
  cases fs with
  | nil => rfl
  | cons field shape rest =>
    rw [absent, first?, rest.first?_absent]
    rfl

theorem Fields.first?_ofOne : (fs : Fields) → (x : fs.One) → fs.first? (fs.ofOne x) = some x
  | .cons _ _ _, .inl _ => rfl
  | .cons _ _ rest, .inr x => by
    rw [ofOne, first?, rest.first?_ofOne x]
    rfl

open Wire

/-- The record survives being written and read. -/
structure Fields.Portable (fs : Fields) (record : fs.Val) : Prop where
  fits : fs.Fits record
  canonical : fs.Canonical record

theorem Fields.write_conveys (fs : Fields) (distinct : fs.Distinct) {record : fs.Val}
    (h : fs.Portable record) : Conveys (fs.write record) fs.readNew record := by
  refine ⟨?_, fs.reads_write distinct record h.canonical h.fits⟩
  rw [fs.write_eq record h.fits]

namespace Rpc

theorem Reply.result?_record (r : Reply) (result : r.Result) :
    r.result? (r.record result) = some result := by
  cases r with
  | never => rfl
  | empty throws =>
    cases result with
    | none => exact congrArg some throws.first?_absent
    | some x => exact congrArg some (throws.first?_ofOne x)
  | value shape throws => exact (Reply.value shape throws).fields.first?_ofOne result

/-- Messages of the function can be told apart and read. -/
structure Signature.Sound (g : Signature) : Prop where
  name : (Text.utf8 g.name).length ≤ 0x7FFFFFFF
  args : g.args.Distinct
  reply : g.reply.fields.Distinct

variable {i : Interface} {σ : Type}

structure Call (i : Interface) where
  function : i.Function
  args : (i.signature function).Args

structure Exchange (i : Interface) extends Call i where
  result : (i.signature function).Result

namespace Call

abbrev signature (call : Call i) : Signature := i.signature call.function

def kind (call : Call i) : MessageKind :=
  if call.signature.isOneway then .oneway else .call

def request (call : Call i) (seqId : Int32) : Emission :=
  call.signature.request seqId call.args

def send (call : Call i) (c : Channel) : Except Fault Unit × Channel :=
  call.signature.send call.args c

end Call

namespace Exchange

def reply (e : Exchange i) (seqId : Int32) : Emission :=
  if e.signature.isOneway then .nothing else Handler.response e.signature seqId e.result

theorem reply_of_oneway {e : Exchange i} (h : e.signature.isOneway) (seqId : Int32) :
    e.reply seqId = .nothing :=
  if_pos h

theorem reply_of_answered {e : Exchange i} (h : ¬ e.signature.isOneway) (seqId : Int32) :
    e.reply seqId = Handler.response e.signature seqId e.result :=
  if_neg h

def Fits (e : Exchange i) : Prop :=
  e.signature.args.Fits (e.signature.args.ofFull e.args) ∧
    e.signature.reply.fields.Fits (e.signature.reply.record e.result)

instance (e : Exchange i) : Decidable e.Fits :=
  inferInstanceAs (Decidable (_ ∧ _))

structure Portable (e : Exchange i) : Prop where
  args : e.signature.args.Portable (e.signature.args.ofFull e.args)
  result : e.signature.reply.fields.Portable (e.signature.reply.record e.result)

end Exchange

/-- What functions do to a state when each of them ends with its value or with an exception that
it declares. -/
abbrev Behaviour (i : Interface) (σ : Type) : Type :=
  (f : i.Function) → (i.signature f).Args → σ → (i.signature f).Result × σ

namespace Behaviour

def handler (b : Behaviour i σ) : Handler i σ := fun f args state =>
  (.ok (b f args state).1, (b f args state).2)

def exchange (b : Behaviour i σ) (call : Call i) (state : σ) : Exchange i × σ :=
  (⟨call, (b call.function call.args state).1⟩, (b call.function call.args state).2)

end Behaviour

theorem request_parts (call : Call i) (sound : call.signature.Sound) (seqId : Int32) :
    call.request seqId =
      ⟨(Emission.message call.kind call.signature.name seqId).bytes ++
          (call.signature.args.write (call.signature.args.ofFull call.args)).bytes,
        (call.signature.args.write (call.signature.args.ofFull call.args)).fault⟩ :=
  emission_append (message_conveys _ _ seqId sound.name).written _

theorem request_header (call : Call i) (sound : call.signature.Sound) (seqId : Int32) :
    ∃ body, Decoder.message (call.request seqId).bytes =
      .ok ⟨call.signature.name, call.kind, seqId⟩ body := by
  rw [request_parts call sound]
  exact ⟨_, (message_conveys call.kind call.signature.name seqId sound.name).reads _⟩

theorem request_written (e : Exchange i) (sound : e.signature.Sound) (portable : e.Portable)
    (seqId : Int32) : (e.request seqId).fault = none := by
  rw [request_parts e.toCall sound]
  exact (e.signature.args.write_conveys sound.args portable.args).written

theorem send_request (call : Call i) (c : Channel)
    (written : (call.request c.seqId).fault = none) :
    call.send c =
      (.ok (), { c with output := c.output ++ (call.request c.seqId).bytes
                        seqId := c.seqId + 1 }) := by
  change Channel.write { c with seqId := c.seqId + 1 } (call.request c.seqId) = _
  rw [Channel.write, written]

theorem response_conveys (g : Signature) (sound : g.Sound) (seqId : Int32) (result : g.Result)
    (portable : g.reply.fields.Portable (g.reply.record result)) :
    Conveys (Handler.response g seqId result) g.answer (.ok result) := by
  have body := g.reply.fields.write_conveys sound.reply portable
  have read : Reads g.result (g.reply.fields.write (g.reply.record result)).bytes (.ok result) := by
    apply body.reads.bind_nil
    rw [Reply.result?_record]
  apply (message_conveys .reply g.name seqId sound.name).append
  simp only [reduceCtorEq, if_false, ne_eq, not_true_eq_false]
  exact ⟨body.written, read⟩

theorem response_header (g : Signature) (sound : g.Sound) (seqId : Int32) (result : g.Result) :
    ∃ body, Decoder.message (Handler.response g seqId result).bytes =
      .ok ⟨g.name, .reply, seqId⟩ body := by
  have header := message_conveys .reply g.name seqId sound.name
  rw [Handler.response, emission_append header.written]
  exact ⟨_, header.reads _⟩

theorem reply_written {e : Emission} (h : e.fault = none) (done : Bool) (rest : Bytes)
    (state : σ) : Handler.reply e done rest state = ⟨.ok done, rest, e.bytes, state⟩ := by
  rw [Handler.reply, h]

/-- The function runs once, on the arguments that were sent. -/
theorem run_request (b : Behaviour i σ) (call : Call i) (state : σ) (sound : call.signature.Sound)
    (portable : (b.exchange call state).1.Portable) (seqId : Int32) (rest : Bytes) :
    b.handler.run call.function seqId state
        ((call.signature.args.write (call.signature.args.ofFull call.args)).bytes ++ rest) =
      ⟨.ok true, rest, ((b.exchange call state).1.reply seqId).bytes,
        (b.exchange call state).2⟩ := by
  have args : Reads call.signature.args.readNew
      (call.signature.args.write (call.signature.args.ofFull call.args)).bytes
      (call.signature.args.ofFull call.args) :=
    (call.signature.args.write_conveys sound.args portable.args).reads
  have written := (response_conveys call.signature sound seqId _ portable.result).written
  rw [Handler.run, args rest]
  dsimp only
  rw [Fields.complete_ofFull]
  by_cases oneway : call.signature.isOneway
  · rw [Exchange.reply_of_oneway oneway]
    exact if_pos oneway
  · rw [Exchange.reply_of_answered oneway]
    exact (if_neg oneway).trans (reply_written written true rest _)

section Process

variable (h : Handler i σ) {s : Service i} {header : MessageHeader} {input rest : Bytes}
  (read : Decoder.message input = .ok header rest) (state : σ)

theorem run_outcome_ne (f : i.Function) (seqId : Int32) :
    (h.run f seqId state input).outcome ≠ .ok false := by
  unfold Handler.run
  dsimp only
  split
  · nofun
  · split
    · nofun
    · split
      · nofun
      · unfold Handler.reply
        split <;> nofun

include read

theorem process_of_known {f : i.Function} (found : s.find? header.name = some f) :
    h.process s state input = h.run f header.seqId state rest := by
  have known : h.dispatch s header state rest = h.run f header.seqId state rest := by
    rw [Handler.dispatch, found]
  rw [Handler.process, read]
  dsimp only
  rw [known]
  split
  · rename_i handled
    exact absurd handled (run_outcome_ne h state f header.seqId)
  · rfl

theorem process_of_unknown (unknown : s.find? header.name = none) :
    h.process s state input = Handler.refuse header state rest := by
  rw [Handler.process, read]
  dsimp only
  rw [Handler.dispatch, unknown]
  rfl

end Process

/-- The processor takes exactly the request, and writes the reply under the same id. -/
theorem process_request (b : Behaviour i σ) (s : Service i) (call : Call i) (state : σ)
    (found : s.find? call.signature.name = some call.function) (sound : call.signature.Sound)
    (portable : (b.exchange call state).1.Portable) (seqId : Int32) (rest : Bytes) :
    b.handler.process s state ((call.request seqId).bytes ++ rest) =
      ⟨.ok true, rest, ((b.exchange call state).1.reply seqId).bytes,
        (b.exchange call state).2⟩ := by
  have header := (message_conveys call.kind call.signature.name seqId sound.name).reads
  rw [request_parts call sound, List.append_assoc,
    process_of_known b.handler (header _) state found]
  exact run_request b call state sound portable seqId rest

theorem receive_response (g : Signature) (sound : g.Sound) (seqId : Int32) (result : g.Result)
    (portable : g.reply.fields.Portable (g.reply.record result)) (c : Channel) (rest : Bytes) :
    g.receive { c with input := (Handler.response g seqId result).bytes ++ rest } =
      (.ok result, { c with input := rest }) := by
  rw [Signature.receive, Channel.read, (response_conveys g sound seqId result portable).reads rest]

end Rpc

end Idl
