import Idl.Proofs.Rpc.Exchange

/-!
# What a client makes of a message

A client looks at the kind of a message first, then at the name, and only then at the result. On
each of these ways it takes the message to its end, so that it stays in step with the other side.
In a result the value comes before the exceptions, and these come in the order of their declaration.
-/

set_option autoImplicit false

namespace Idl

open Wire

def Fields.IsFirst : (fs : Fields) → fs.Val → fs.One → Prop
  | .cons _ _ _, (a, _), .inl b => a = some b
  | .cons _ _ rest, (a, others), .inr x => a = none ∧ rest.IsFirst others x

theorem Fields.isFirst_of_first? : (fs : Fields) → (record : fs.Val) → (x : fs.One) →
    fs.first? record = some x → fs.IsFirst record x
  | .cons _ _ _, (some a, _), _, found => by
    cases found
    rfl
  | .cons _ _ rest, (none, others), x, found => by
    obtain ⟨y, later, rfl⟩ := Option.map_eq_some_iff.mp found
    exact ⟨rfl, rest.isFirst_of_first? others y later⟩

theorem Fields.absent_of_first? : (fs : Fields) → (record : fs.Val) → fs.first? record = none →
    record = fs.absent
  | .nil, _, _ => rfl
  | .cons _ _ rest, (none, others), nothing => by
    rw [absent, ← rest.absent_of_first? others (Option.map_eq_none_iff.mp nothing)]

namespace Rpc

/-- What a client comes to that has read the record in a reply to `name`. A declared exception is a
result of its own; it is what the call fails with as a user error. -/
def Reply.Yields (name : String) : (r : Reply) → r.fields.Val → Except Failure r.Result → Prop
  | .never, _, _ => False
  | .empty throws, record, outcome =>
    (∃ x, throws.IsFirst record x ∧ outcome = .ok (some x)) ∨
      record = throws.absent ∧ outcome = .ok none
  | .value _ throws, (success, record), outcome =>
    (∃ a, success = some a ∧ outcome = .ok (.inl a)) ∨
      (success = none ∧ ∃ x, throws.IsFirst record x ∧ outcome = .ok (.inr x)) ∨
      success = none ∧ record = throws.absent ∧
        outcome = .error (.application ⟨.missingResult, name ++ " failed: unknown result"⟩)

namespace Signature

variable (g : Signature)

def conclude (record : g.reply.fields.Val) : Except ApplicationException g.Result :=
  match g.reply.result? record with
  | some result => .ok result
  | none => .error ⟨.missingResult, g.name ++ " failed: unknown result"⟩

theorem result_reads {body : Bytes} {record : g.reply.fields.Val}
    (read : Reads g.reply.fields.readNew body record) :
    Reads g.result body (g.conclude record) := by
  apply read.bind_nil
  unfold conclude
  cases g.reply.result? record with
  | none => rfl
  | some result => rfl

theorem conclude_yields (answered : ¬ g.isOneway) (record : g.reply.fields.Val) :
    g.reply.Yields g.name record ((g.conclude record).mapError .application) := by
  obtain ⟨name, args, reply⟩ := g
  cases reply with
  | never => exact absurd rfl answered
  | empty throws =>
    unfold conclude Reply.result?
    dsimp only
    cases found : throws.first? record with
    | some x => exact .inl ⟨x, throws.isFirst_of_first? record x found, rfl⟩
    | none => exact .inr ⟨throws.absent_of_first? record found, rfl⟩
  | value shape throws =>
    obtain ⟨success, others⟩ := record
    unfold conclude Reply.result?
    dsimp only
    cases success with
    | some a => exact .inl ⟨a, rfl, rfl⟩
    | none =>
      rw [Fields.first?]
      cases found : throws.first? others with
      | some x => exact .inr (.inl ⟨rfl, x, throws.isFirst_of_first? others x found, rfl⟩)
      | none => exact .inr (.inr ⟨rfl, throws.absent_of_first? others found, rfl⟩)

section Messages

variable {opening body : Bytes} {header : MessageHeader}
  (opens : Reads Decoder.message opening header)

include opens

theorem answer_exception (kind : header.kind = .exception) {x : ApplicationException}
    (read : Reads ApplicationException.read body x) :
    Reads g.answer (opening ++ body) (.error x) := by
  apply opens.bind
  rw [if_pos kind]
  exact read.bind_nil rfl

theorem answer_other_kind (notException : header.kind ≠ .exception)
    (notReply : header.kind ≠ .reply) (skipped : Reads (skip .struct) body ()) :
    Reads g.answer (opening ++ body) (.error ⟨.invalidMessageType,
      g.name ++ " failed: unexpected " ++ header.kind.name ++ " message"⟩) := by
  apply opens.bind
  rw [if_neg notException, if_pos notReply]
  exact skipped.bind_nil rfl

theorem answer_other_name (isReply : header.kind = .reply) (other : header.name ≠ g.name)
    (skipped : Reads (skip .struct) body ()) :
    Reads g.answer (opening ++ body) (.error ⟨.wrongMethodName,
      g.name ++ " failed: reply is for " ++ header.name⟩) := by
  apply opens.bind
  rw [if_neg (by simp [isReply]), if_neg (by simp [isReply]), if_pos other]
  exact skipped.bind_nil rfl

theorem answer_reply (isReply : header.kind = .reply) (named : header.name = g.name)
    {record : g.reply.fields.Val} (read : Reads g.reply.fields.readNew body record) :
    Reads g.answer (opening ++ body) (g.conclude record) := by
  apply opens.bind
  rw [if_neg (by simp [isReply]), if_neg (by simp [isReply]), if_neg (by simp [named])]
  exact g.result_reads read

end Messages

theorem receive_of_reads {message : Bytes} {outcome : Except ApplicationException g.Result}
    (reads : Reads g.answer message outcome) (c : Channel) (trailing : Bytes) :
    g.receive { c with input := message ++ trailing } =
      (outcome.mapError .application, { c with input := trailing }) := by
  rw [receive, Channel.read, reads trailing]
  cases outcome with
  | error x => rfl
  | ok result => rfl

end Signature

end Rpc

end Idl
