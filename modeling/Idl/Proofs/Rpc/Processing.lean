import Idl.Proofs.Rpc.Session
import Idl.Proofs.Value.Application

/-!
# Processing any input

Whatever bytes a processor is given, it ends in one of four ways: it fails and writes nothing, it
runs a one-way function and writes nothing, it writes one reply, or it writes one exception
because it does not have the function. A function runs at most once, and only when the request
has been read to its end.
-/

set_option autoImplicit false

namespace Idl

open Wire

def Fields.present : (fs : Fields) → fs.Val → Nat
  | .nil, _ => 0
  | .cons _ _ rest, (a, others) => (if a.isSome then 1 else 0) + rest.present others

theorem Fields.present_absent (fs : Fields) : fs.present fs.absent = 0 := by
  cases fs with
  | nil => rfl
  | cons field shape rest =>
    rw [absent, present, rest.present_absent]
    rfl

theorem Fields.present_ofOne : (fs : Fields) → (x : fs.One) → fs.present (fs.ofOne x) = 1
  | .cons _ _ rest, .inl _ => by
    rw [ofOne, present, rest.present_absent]
    rfl
  | .cons _ _ rest, .inr x => by
    rw [ofOne, present, rest.present_ofOne x]
    rfl

theorem Rpc.Reply.present_record (r : Rpc.Reply) (result : r.Result) :
    r.fields.present (r.record result) ≤ 1 := by
  cases r with
  | never => exact Nat.zero_le 1
  | empty throws =>
    cases result with
    | none => exact Nat.le_trans (Nat.le_of_eq throws.present_absent) (Nat.zero_le 1)
    | some x => exact Nat.le_of_eq (throws.present_ofOne x)
  | value shape throws =>
    exact Nat.le_of_eq ((Reply.value shape throws).fields.present_ofOne result)

theorem Wire.emission_append_nothing (e : Emission) : e ++ Emission.nothing = e := by
  obtain ⟨bytes, fault⟩ := e
  cases fault with
  | none => exact congrArg (Emission.mk · none) (List.append_nil bytes)
  | some fault => rfl

namespace Wire.ApplicationException

def toRecord (x : ApplicationException) : fields.Val :=
  (some x.text, some x.kind.code, ())

theorem ofRecord_toRecord (x : ApplicationException) : ofRecord x.toRecord = x := by
  rw [toRecord, ofRecord]
  exact congrArg (ApplicationException.mk · x.text) (ApplicationKind.ofCode_code x.kind)

theorem write_eq_record (x : ApplicationException) : x.write = fields.write x.toRecord := by
  have code := emission_append_nothing (Emission.field .i32 2 ++ Emission.i32 x.kind.code)
  rw [write, ← code]
  rfl

theorem write_conveys (x : ApplicationException) (h : (Text.utf8 x.text).length ≤ 0x7FFFFFFF) :
    Conveys x.write read x := by
  have portable : fields.Portable x.toRecord := by
    constructor
    · simpa [toRecord, Fields.Fits, Shape.Fits] using h
    · simp [toRecord, Fields.Canonical, Shape.Canonical]
  have record := fields.write_conveys fields_distinct portable
  rw [← write_eq_record] at record
  refine ⟨record.written, fun rest => ?_⟩
  rw [read_eq, record.reads.map ofRecord, ofRecord_toRecord]

end Wire.ApplicationException

namespace Rpc

variable {i : Interface} {σ : Type}

/-- What a request comes to before any function runs. -/
inductive Demand (i : Interface) where
  | unreadable (fault : Fault) (rest : Bytes)
  | unknown (header : MessageHeader) (rest : Bytes)
  | call (seqId : Int32) (call : Call i) (rest : Bytes)

def Demand.calls : Demand i → List (Call i)
  | .call _ c _ => [c]
  | _ => []

namespace Service

variable (s : Service i)

def demand (input : Bytes) : Demand i :=
  match Decoder.message input with
  | .error fault rest => .unreadable fault rest
  | .ok header rest =>
    match s.find? header.name with
    | none => .unknown header rest
    | some f =>
      match (i.signature f).args.readNew rest with
      | .error fault rest => .unreadable fault rest
      | .ok args rest => .call header.seqId ⟨f, (i.signature f).args.complete args⟩ rest

def Declares (f : i.Function) (name : String) : Prop :=
  f ∈ s.functions ++ s.inherited ∧ (i.signature f).name = name

theorem find?_eq_none_iff (name : String) :
    s.find? name = none ↔ ∀ f, ¬ s.Declares f name := by
  rw [find?, List.find?_eq_none]
  simp [Declares]

theorem declares_of_find? {name : String} {f : i.Function} (h : s.find? name = some f) :
    s.Declares f name :=
  ⟨List.mem_of_find?_eq_some h, by simpa using List.find?_some h⟩

theorem demand_unknown {input : Bytes} {header : MessageHeader} {rest : Bytes}
    (h : s.demand input = .unknown header rest) :
    Decoder.message input = .ok header rest ∧ s.find? header.name = none := by
  unfold demand at h
  split at h
  case h_1 => cases h
  case h_2 found body read =>
    split at h
    case h_1 none =>
      cases h
      exact ⟨read, none⟩
    case h_2 f _ => split at h <;> cases h

theorem demand_call {input : Bytes} {seqId : Int32} {call : Call i} {rest : Bytes}
    (h : s.demand input = .call seqId call rest) :
    ∃ header body args, Decoder.message input = .ok header body ∧ header.seqId = seqId ∧
      s.find? header.name = some call.function ∧
      call.signature.args.readNew body = .ok args rest ∧
      call.args = call.signature.args.complete args := by
  unfold demand at h
  split at h
  case h_1 => cases h
  case h_2 header body read =>
    split at h
    case h_1 => cases h
    case h_2 f found =>
      split at h
      case h_1 => cases h
      case h_2 args rest readArgs =>
        cases h
        exact ⟨header, body, args, read, rfl, found, readArgs, rfl⟩

theorem demand_eq_call {input body rest : Bytes} {header : MessageHeader} {f : i.Function}
    {args : (i.signature f).args.Val} (read : Decoder.message input = .ok header body)
    (found : s.find? header.name = some f)
    (readArgs : (i.signature f).args.readNew body = .ok args rest) :
    s.demand input = .call header.seqId ⟨f, (i.signature f).args.complete args⟩ rest := by
  simp only [demand, read, found, readArgs]

/-- The input starts with a request for the call. -/
def Asks (input : Bytes) (call : Call i) : Prop :=
  ∃ header body args rest, Decoder.message input = .ok header body ∧
    s.Declares call.function header.name ∧
    call.signature.args.readNew body = .ok args rest ∧
    call.args = call.signature.args.complete args

theorem find?_eq_some_iff (offers : ∀ f ∈ s.functions ++ s.inherited, s.Offers f) (name : String)
    (f : i.Function) : s.find? name = some f ↔ s.Declares f name := by
  refine ⟨s.declares_of_find?, ?_⟩
  rintro ⟨declared, rfl⟩
  exact (offers f declared).found

theorem mem_calls_iff (offers : ∀ f ∈ s.functions ++ s.inherited, s.Offers f) (input : Bytes)
    (call : Call i) : call ∈ (s.demand input).calls ↔ s.Asks input call := by
  constructor
  · intro hc
    cases h : s.demand input with
    | unreadable fault rest => simp [h, Demand.calls] at hc
    | unknown header rest => simp [h, Demand.calls] at hc
    | call seqId asked rest =>
      obtain rfl : call = asked := by simpa [h, Demand.calls] using hc
      obtain ⟨header, body, args, read, -, found, readArgs, full⟩ := s.demand_call h
      exact ⟨header, body, args, rest, read, s.declares_of_find? found, readArgs, full⟩
  · rintro ⟨header, body, args, rest, read, declared, readArgs, full⟩
    have found := (s.find?_eq_some_iff offers _ _).mpr declared
    have same : (⟨call.function, call.signature.args.complete args⟩ : Call i) = call := by
      rw [← full]
    rw [s.demand_eq_call read found readArgs, same]
    exact List.mem_singleton_self _

end Service

namespace Handler

variable (h : Handler i σ)

def meet (state : σ) : Demand i → Processed σ
  | .unreadable fault rest => ⟨.error (.protocol fault), rest, [], state⟩
  | .unknown header rest => refuse header state rest
  | .call seqId call rest =>
    match h call.function call.args state with
    | (.error failure, state) => ⟨.error failure, rest, [], state⟩
    | (.ok result, state) =>
      if call.signature.isOneway then ⟨.ok true, rest, [], state⟩
      else reply (response call.signature seqId result) true rest state

theorem process_eq_meet (s : Service i) (state : σ) (input : Bytes) :
    h.process s state input = h.meet state (s.demand input) := by
  unfold Service.demand
  cases read : Decoder.message input with
  | error fault rest =>
    rw [process, read]
    rfl
  | ok header rest =>
    dsimp only
    cases found : s.find? header.name with
    | none => exact process_of_unknown h read state found
    | some f =>
      rw [process_of_known h read state found, run]
      dsimp only
      cases (i.signature f).args.readNew rest with
      | error fault rest => rfl
      | ok args rest =>
        dsimp only [meet]
        cases h f ((i.signature f).args.complete args) state with
        | mk outcome state => cases outcome <;> rfl

theorem meet_call_state (state : σ) (seqId : Int32) (call : Call i) (rest : Bytes) :
    (h.meet state (.call seqId call rest)).state = (h call.function call.args state).2 := by
  rw [meet]
  cases h call.function call.args state with
  | mk outcome state =>
    cases outcome with
    | error failure => rfl
    | ok result =>
      dsimp only
      split <;> rfl

/-- The same handler, which also keeps a log of its calls. -/
def recording : Handler i (σ × List (Call i)) := fun f args state =>
  ((h f args state.1).1, (h f args state.1).2, state.2 ++ [⟨f, args⟩])

theorem meet_recording (state : σ) (log : List (Call i)) (demand : Demand i) :
    h.recording.meet (state, log) demand =
      ⟨(h.meet state demand).outcome, (h.meet state demand).rest, (h.meet state demand).output,
        (h.meet state demand).state, log ++ demand.calls⟩ := by
  cases demand with
  | unreadable fault rest => simp [meet, Demand.calls]
  | unknown header rest =>
    simp only [meet, refuse, Demand.calls, List.append_nil]
    cases skip .struct rest with
    | error fault rest => rfl
    | ok _ rest => rfl
  | call seqId call rest =>
    simp only [meet, recording, Demand.calls]
    cases h call.function call.args state with
    | mk outcome state =>
      cases outcome with
      | error failure => rfl
      | ok result =>
        dsimp only
        split <;> rfl

end Handler

/-- The bytes are one whole message, of which `body` reads all that follows the header. -/
def IsMessage {α : Type} (bytes : Bytes) (header : MessageHeader) (body : Decoder α) (a : α) :
    Prop :=
  ∃ rest, Decoder.message bytes = .ok header rest ∧ body rest = .ok a []

theorem isMessage_of_conveys {α : Type} {name : String} {e : Emission} {body : Decoder α} {a : α}
    (k : MessageKind) (small : (Text.utf8 name).length ≤ 0x7FFFFFFF) (seqId : Int32)
    (h : Conveys e body a) :
    (Emission.message k name seqId ++ e).fault = none ∧
      IsMessage (Emission.message k name seqId ++ e).bytes ⟨name, k, seqId⟩ body a := by
  have header := message_conveys k name seqId small
  rw [emission_append header.written]
  exact ⟨h.written, e.bytes, header.reads _, h.whole⟩

theorem not_isMessage_nil {α : Type} {header : MessageHeader} {body : Decoder α} {a : α} :
    ¬ IsMessage [] header body a := by
  rintro ⟨rest, h, -⟩
  cases h

/-- The ways in which processing can end. -/
inductive Ending where
  | failed
  | silent
  | answered
  | refused

def refusalOf (name : String) : ApplicationException :=
  ⟨.unknownMethod, "Function " ++ name ++ " not implemented."⟩

/-- What each way to end says of the outcome and of the bytes written. -/
def Ends (s : Service i) (input : Bytes) (p : Processed σ) : Ending → Prop
  | .failed => (∃ failure, p.outcome = .error failure) ∧ p.output = []
  | .silent => p.outcome = .ok true ∧ p.output = [] ∧
      ∃ header rest f, Decoder.message input = .ok header rest ∧ s.Declares f header.name ∧
        (i.signature f).isOneway
  | .answered => p.outcome = .ok true ∧
      ∃ header rest f, Decoder.message input = .ok header rest ∧ s.Declares f header.name ∧
        ¬ (i.signature f).isOneway ∧ ∃ record,
          IsMessage p.output ⟨header.name, .reply, header.seqId⟩
            (i.signature f).reply.fields.readNew record ∧
          (i.signature f).reply.fields.present record ≤ 1
  | .refused => p.outcome = .ok false ∧
      ∃ header rest, Decoder.message input = .ok header rest ∧ (∀ f, ¬ s.Declares f header.name) ∧
        IsMessage p.output ⟨header.name, .exception, header.seqId⟩ ApplicationException.read
          (refusalOf header.name)

def Ending.verdict? : Ending → Option Bool
  | .failed => none
  | .silent | .answered => some true
  | .refused => some false

theorem ends_verdict {s : Service i} {input : Bytes} {p : Processed σ} {ending : Ending}
    (h : Ends s input p ending) : p.outcome.toOption = ending.verdict? := by
  cases ending with
  | failed =>
    obtain ⟨⟨failure, outcome⟩, -⟩ := h
    rw [outcome]
    rfl
  | silent | answered | refused =>
    rw [h.1]
    rfl

theorem ends_unique {s : Service i} {input : Bytes} {p : Processed σ} {a b : Ending}
    (ha : Ends s input p a) (hb : Ends s input p b) : a = b := by
  -- Silence and an answer have the same verdict, but an answer is not empty.
  have apart : Ends s input p .silent → ¬ Ends s input p .answered := by
    rintro ⟨-, nothing, -⟩ ⟨-, _, _, _, _, _, _, _, message, -⟩
    rw [nothing] at message
    exact not_isMessage_nil message
  have verdict : a.verdict? = b.verdict? := (ends_verdict ha).symm.trans (ends_verdict hb)
  cases a <;> cases b <;> try cases verdict
  · rfl
  · rfl
  · exact absurd hb (apart ha)
  · exact absurd ha (apart hb)
  · rfl
  · rfl

namespace Handler

variable (h : Handler i σ)

/-- Every size in the answer to a request fits its word. -/
structure AnswerFits (s : Service i) (state : σ) (input : Bytes) : Prop where
  result : ∀ call, s.Asks input call → ∀ result, (h call.function call.args state).1 = .ok result →
    call.signature.reply.fields.Fits (call.signature.reply.record result)
  refusal : ∀ header rest left, Decoder.message input = .ok header rest →
    (∀ f, ¬ s.Declares f header.name) → skip .struct rest = .ok () left →
    (Text.utf8 (refusalOf header.name).text).length ≤ 0x7FFFFFFF

theorem refusal_isMessage (header : MessageHeader)
    (small : (Text.utf8 (refusalOf header.name).text).length ≤ 0x7FFFFFFF) :
    (refusal header).fault = none ∧
      IsMessage (refusal header).bytes ⟨header.name, .exception, header.seqId⟩
        ApplicationException.read (refusalOf header.name) := by
  have name : (Text.utf8 header.name).length ≤ 0x7FFFFFFF := by
    apply Nat.le_trans _ small
    simp [refusalOf, Text.utf8]
    omega
  exact isMessage_of_conveys .exception name header.seqId
    ((refusalOf header.name).write_conveys small)

theorem response_isMessage (g : Signature) (sound : g.Sound) (seqId : Int32) (result : g.Result)
    (portable : g.reply.fields.Portable (g.reply.record result)) :
    (response g seqId result).fault = none ∧
      IsMessage (response g seqId result).bytes ⟨g.name, .reply, seqId⟩ g.reply.fields.readNew
        (g.reply.record result) :=
  isMessage_of_conveys .reply sound.name seqId (g.reply.fields.write_conveys sound.reply portable)

theorem refuse_ends (s : Service i) (state : σ) {input : Bytes} {header : MessageHeader}
    {rest : Bytes} (read : Decoder.message input = .ok header rest)
    (unknown : ∀ f, ¬ s.Declares f header.name)
    (small : ∀ left, skip .struct rest = .ok () left →
      (Text.utf8 (refusalOf header.name).text).length ≤ 0x7FFFFFFF) :
    ∃ ending, Ends s input (refuse header state rest) ending := by
  rw [refuse]
  cases skipped : skip .struct rest with
  | error fault rest => exact ⟨.failed, ⟨_, rfl⟩, rfl⟩
  | ok _ left =>
    obtain ⟨written, message⟩ := refusal_isMessage header (small left skipped)
    dsimp only
    rw [reply_written written]
    exact ⟨.refused, rfl, header, rest, read, unknown, message⟩

theorem meet_ends (s : Service i) (offers : ∀ f ∈ s.functions ++ s.inherited, s.Offers f)
    (state : σ) (input : Bytes)
    (portable : ∀ call, s.Asks input call → ∀ result,
      (h call.function call.args state).1 = .ok result →
      call.signature.reply.fields.Portable (call.signature.reply.record result))
    (small : ∀ header rest left, Decoder.message input = .ok header rest →
      (∀ f, ¬ s.Declares f header.name) → skip .struct rest = .ok () left →
      (Text.utf8 (refusalOf header.name).text).length ≤ 0x7FFFFFFF) :
    ∃ ending, Ends s input (h.meet state (s.demand input)) ending := by
  cases hd : s.demand input with
  | unreadable fault rest => exact ⟨.failed, ⟨_, rfl⟩, rfl⟩
  | unknown header rest =>
    obtain ⟨read, none⟩ := s.demand_unknown hd
    have unknown := (s.find?_eq_none_iff header.name).mp none
    exact refuse_ends s state read unknown fun left => small header rest left read unknown
  | call seqId call rest =>
    obtain ⟨header, body, args, read, rfl, found, readArgs, full⟩ := s.demand_call hd
    have declared := s.declares_of_find? found
    have answers := portable call ⟨header, body, args, rest, read, declared, readArgs, full⟩
    rw [meet]
    cases hr : h call.function call.args state with
    | mk outcome after =>
      cases outcome with
      | error failure => exact ⟨.failed, ⟨_, rfl⟩, rfl⟩
      | ok result =>
        dsimp only
        by_cases oneway : call.signature.isOneway
        · rw [if_pos oneway]
          exact ⟨.silent, rfl, rfl, header, body, call.function, read, declared, oneway⟩
        · have sound := (offers call.function declared.1).sound
          obtain ⟨written, message⟩ := response_isMessage call.signature sound header.seqId result
            (answers result (by rw [hr]))
          rw [declared.2] at message
          rw [if_neg oneway, reply_written written]
          exact ⟨.answered, rfl, header, body, call.function, read, declared, oneway, _, message,
            call.signature.reply.present_record result⟩

end Handler

end Rpc

end Idl
