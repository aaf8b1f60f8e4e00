import Idl.Proofs.Rpc.Receiving
import Idl.Proofs.Tutorial.Sessions
import Idl.Proofs.Value.Acceptance
import Idl.Proofs.Wire.Framing

/-!
# Messages that reach a client of the tutorial

Whatever message comes, a client that waits for a function takes it to its end: an exception, a
message that is no reply, a reply to another function, and a reply with any result. What it returns
depends on the kind first, on the name next, and on the fields of the result last.
-/

set_option autoImplicit false

namespace Idl.Tutorial

open Rpc Wire Wire.Tree

theorem Function.reply_flat (f : Function) : f.signature.reply.fields.Flat := by
  cases f <;> simp [Fields.Flat, Shape.Flat]

theorem skip_struct {rs : List Record} (wellFormed : ∀ r ∈ rs, r.2.WellFormed)
    (shallow : (Tree.struct rs).depth ≤ 64) : Reads (skip .struct) (Tree.struct rs).encode () :=
  (skip_passes (.struct rs) (.struct wellFormed) maxDepth).reads shallow

/-- An exception is returned as it is read. A message of another kind than a reply is refused for
its kind, and a reply to another function for its name. From a reply to the function itself the
client takes the value if it is present, else the first exception, and else it misses a value unless
there is none to be returned. Each time the bytes behind the message are left. -/
theorem receive_takes_message (f : Function) (twoWay : ¬ f.signature.isOneway) (opening : Bytes)
    (header : MessageHeader) (opens : Decoder.message opening = .ok header []) (rs : List Record)
    (wellFormed : ∀ r ∈ rs, r.2.WellFormed) (trailing : Bytes) (c : Channel) :
    let body := encodeRecords rs ++ Kind.stop.tag :: trailing
    let received := f.signature.receive { c with input := opening ++ body }
    let after : Channel := { c with input := trailing }
    (header.kind = .exception → ∀ x left, ApplicationException.read body = .ok x left →
      received = (.error (.application x), after)) ∧
    (header.kind ≠ .exception → header.kind ≠ .reply → (Tree.struct rs).depth ≤ 64 →
      received = (.error (.application ⟨.invalidMessageType, f.signature.name ++
        " failed: unexpected " ++ header.kind.name ++ " message"⟩), after)) ∧
    (header.kind = .reply → header.name ≠ f.signature.name → (Tree.struct rs).depth ≤ 64 →
      received = (.error (.application ⟨.wrongMethodName, f.signature.name ++
        " failed: reply is for " ++ header.name⟩), after)) ∧
    (header.kind = .reply → header.name = f.signature.name → ∀ record left,
      f.signature.reply.fields.readNew body = .ok record left →
        ∃ outcome, f.signature.reply.Yields f.signature.name record outcome ∧
          received = (outcome, after)) := by
  intro body received after
  have opened := message_stable.reads opens
  have whole : received = f.signature.receive
      { c with input := opening ++ (Tree.struct rs).encode ++ trailing } := by
    rw [List.append_assoc, ← encode_struct]
  rw [whole]
  refine ⟨?_, ?_, ?_, ?_⟩
  · intro kind x left read
    have exactly := ApplicationException.reads_of_read rs wellFormed read
    exact f.signature.receive_of_reads (f.signature.answer_exception opened kind exactly) c trailing
  · intro notException notReply shallow
    have skipped := skip_struct wellFormed shallow
    exact f.signature.receive_of_reads
      (f.signature.answer_other_kind opened notException notReply skipped) c trailing
  · intro isReply other shallow
    have skipped := skip_struct wellFormed shallow
    exact f.signature.receive_of_reads
      (f.signature.answer_other_name opened isReply other skipped) c trailing
  · intro isReply named record left read
    have exactly := f.signature.reply.fields.reads_of_readNew f.reply_flat f.sound.reply rs
      wellFormed read
    exact ⟨_, f.signature.conclude_yields twoWay record,
      f.signature.receive_of_reads (f.signature.answer_reply opened isReply named exactly) c
        trailing⟩

def mixedResult : List Record :=
  [(1, .struct [(1, .scalar (.i32 4))]), (7, .list .void []), (0, .scalar (.i32 12))]

theorem mixedResult_wellFormed : ∀ r ∈ mixedResult, r.2.WellFormed := by
  have exception : (Tree.struct [(1, .scalar (.i32 4))]).WellFormed :=
    .struct (by simpa using .scalar trivial)
  simp only [mixedResult, List.forall_mem_cons]
  exact ⟨exception, .list (by decide) (by simp) (by simp), .scalar trivial, by simp⟩

theorem receive_takes_message_mixedResult :
    let received (kind : MessageKind) (name : String) := Function.calculate.signature.receive
      { input := (Emission.message kind name 5).bytes ++
          (encodeRecords mixedResult ++ Kind.stop.tag :: [9]) }
    received .reply "calculate" = (.ok (.inl 12), { input := [9] }) ∧
    received .reply "add" = (.error (.application
      ⟨.wrongMethodName, "calculate failed: reply is for add"⟩), { input := [9] }) ∧
    received .oneway "add" = (.error (.application
      ⟨.invalidMessageType, "calculate failed: unexpected Oneway message"⟩), { input := [9] }) ∧
    received .exception "add" = (.error (.application ⟨.unknown, ""⟩), { input := [9] }) := by
  intro received
  have law (kind : MessageKind) (name : String) (small : (Text.utf8 name).length ≤ 0x7FFFFFFF) :=
    receive_takes_message .calculate (by decide) _ _ (message_conveys kind name 5 small).whole
      mixedResult mixedResult_wellFormed [9] {}
  refine ⟨?_, ?_, ?_, ?_⟩
  · obtain ⟨-, -, -, reply⟩ := law .reply "calculate" (by decide)
    obtain ⟨outcome, yields, taken⟩ := reply rfl rfl
      (some 12, some (some 4, none, ()), ()) [9] rfl
    rcases yields with ⟨a, present, rfl⟩ | ⟨absent, -⟩ | ⟨absent, -⟩
    · cases present
      exact taken
    · cases absent
    · cases absent
  · exact (law .reply "add" (by decide)).2.2.1 rfl (by decide) (by decide)
  · exact (law .oneway "add" (by decide)).2.1 (by decide) (by decide) (by decide)
  · exact (law .exception "add" (by decide)).1 rfl _ [9] rfl

end Idl.Tutorial
