import Idl.Proofs.Rpc.Exchange

/-!
# Sessions

A client sends all its calls, a processor answers the requests one after another, and the client
then reads the replies. Neither side gets out of step with the other: each request and each reply
is taken exactly, so that every call is run once, in its turn, and its result comes back.
-/

set_option autoImplicit false

namespace Idl.Rpc

open Wire

variable {i : Interface} {σ : Type}

def inTurn {α β τ : Type} (step : α → τ → β × τ) : List α → τ → List β × τ
  | [], state => ([], state)
  | a :: rest, state =>
    let (b, state) := step a state
    let (bs, state) := inTurn step rest state
    (b :: bs, state)

def sendAll : List (Call i) → Channel → List (Except Fault Unit) × Channel :=
  inTurn Call.send

structure Server (σ : Type) where
  input : Bytes
  output : Bytes := []
  state : σ

/-- Processes one request. What it writes follows what has been written. -/
def Server.step (h : Handler i σ) (s : Service i) (server : Server σ) :
    Except Failure Bool × Server σ :=
  let p := h.process s server.state server.input
  (p.outcome, ⟨p.rest, server.output ++ p.output, p.state⟩)

def processTimes (h : Handler i σ) (s : Service i) :
    Nat → Server σ → List (Except Failure Bool) × Server σ
  | 0, server => ([], server)
  | n + 1, server =>
    let (outcome, server) := Server.step h s server
    let (outcomes, server) := processTimes h s n server
    (outcome :: outcomes, server)

abbrev Received (i : Interface) : Type := (f : i.Function) × Except Failure (i.signature f).Result

def await (f : i.Function) (c : Channel) : Received i × Channel :=
  (⟨f, ((i.signature f).receive c).1⟩, ((i.signature f).receive c).2)

def receiveAll : List i.Function → Channel → List (Received i) × Channel :=
  inTurn await

def awaited (calls : List (Call i)) : List i.Function :=
  (calls.filter fun call => !call.signature.isOneway).map Call.function

structure Session (i : Interface) (σ : Type) where
  sent : List (Except Fault Unit)
  processed : List (Except Failure Bool)
  received : List (Received i)
  client : Channel
  server : Server σ

/-- Sends all calls, processes as many requests, and waits for the replies. -/
def session (h : Handler i σ) (s : Service i) (calls : List (Call i)) (seqId : Int32)
    (state : σ) : Session i σ :=
  let sent := sendAll calls { seqId := seqId }
  let served := processTimes h s calls.length { input := sent.2.output, state := state }
  let received := receiveAll (awaited calls) { sent.2 with input := served.2.output }
  ⟨sent.1, served.1, received.1, received.2, served.2⟩

namespace Behaviour

/-- The calls with their results, and the state that they lead to. -/
def exchanges (b : Behaviour i σ) : List (Call i) → σ → List (Exchange i) × σ :=
  inTurn b.exchange

theorem exchanges_cons (b : Behaviour i σ) (call : Call i) (calls : List (Call i)) (state : σ) :
    b.exchanges (call :: calls) state =
      ((b.exchange call state).1 :: (b.exchanges calls (b.exchange call state).2).1,
        (b.exchanges calls (b.exchange call state).2).2) := rfl

theorem exchanges_calls (b : Behaviour i σ) (calls : List (Call i)) (state : σ) :
    (b.exchanges calls state).1.map Exchange.toCall = calls := by
  induction calls generalizing state with
  | nil => rfl
  | cons call calls ih =>
    rw [exchanges_cons, List.map_cons, ih]
    rfl

def recording (b : Behaviour i σ) : Behaviour i (σ × List (Call i)) := fun f args state =>
  ((b f args state.1).1, (b f args state.1).2, state.2 ++ [⟨f, args⟩])

theorem exchanges_recording (b : Behaviour i σ) (calls : List (Call i)) (state : σ)
    (log : List (Call i)) :
    b.recording.exchanges calls (state, log) =
      ((b.exchanges calls state).1, (b.exchanges calls state).2, log ++ calls) := by
  induction calls generalizing state log with
  | nil => simp [exchanges, inTurn]
  | cons call calls ih =>
    have step : b.recording.exchange call (state, log) =
        ((b.exchange call state).1, (b.exchange call state).2, log ++ [call]) := rfl
    rw [exchanges_cons, step, ih, exchanges_cons, List.append_assoc, List.singleton_append]

end Behaviour

/-- The bytes of messages, of which the first has the given id and each later one the next. -/
def numbered {α : Type} (message : α → Int32 → Emission) (as : List α) (seqId : Int32) : Bytes :=
  (as.mapIdx fun k a => (message a (seqId + Int32.ofNat k)).bytes).flatten

theorem ids_succ (seqId : Int32) (k : Nat) :
    seqId + Int32.ofNat (k + 1) = seqId + 1 + Int32.ofNat k := by
  rw [Int32.ofNat_add, Int32.add_comm (Int32.ofNat k), Int32.add_assoc]
  rfl

theorem numbered_cons {α : Type} (message : α → Int32 → Emission) (a : α) (as : List α)
    (seqId : Int32) :
    numbered message (a :: as) seqId =
      (message a seqId).bytes ++ numbered message as (seqId + 1) := by
  simp only [numbered, List.mapIdx_cons, List.flatten_cons, ids_succ]
  simp

theorem sendAll_requests (calls : List (Call i))
    (written : ∀ call ∈ calls, ∀ seqId, (call.request seqId).fault = none) (c : Channel) :
    sendAll calls c =
      (List.replicate calls.length (.ok ()),
        { c with output := c.output ++ numbered Call.request calls c.seqId
                 seqId := c.seqId + Int32.ofNat calls.length }) := by
  induction calls generalizing c with
  | nil => simp [sendAll, inTurn, numbered]
  | cons call calls ih =>
    obtain ⟨first, others⟩ := List.forall_mem_cons.mp written
    rw [sendAll, inTurn, send_request call c (first c.seqId), ← sendAll]
    dsimp only
    rw [ih others, numbered_cons, List.length_cons, ids_succ, List.append_assoc,
      List.replicate_succ]

structure Service.Offers (s : Service i) (f : i.Function) : Prop where
  found : s.find? (i.signature f).name = some f
  sound : (i.signature f).Sound

theorem step_request (b : Behaviour i σ) (s : Service i) (call : Call i) (state : σ)
    (offers : s.Offers call.function) (portable : (b.exchange call state).1.Portable)
    (seqId : Int32) (rest output : Bytes) :
    Server.step b.handler s ⟨(call.request seqId).bytes ++ rest, output, state⟩ =
      (.ok true, ⟨rest, output ++ ((b.exchange call state).1.reply seqId).bytes,
        (b.exchange call state).2⟩) := by
  rw [Server.step, process_request b s call state offers.found offers.sound portable]

theorem processTimes_requests (b : Behaviour i σ) (s : Service i) (calls : List (Call i))
    (state : σ) (offers : ∀ call ∈ calls, s.Offers call.function)
    (portable : ∀ e ∈ (b.exchanges calls state).1, e.Portable) (seqId : Int32)
    (rest output : Bytes) :
    processTimes b.handler s calls.length
        ⟨numbered Call.request calls seqId ++ rest, output, state⟩ =
      (List.replicate calls.length (.ok true),
        ⟨rest, output ++ numbered Exchange.reply (b.exchanges calls state).1 seqId,
          (b.exchanges calls state).2⟩) := by
  -- The bytes behind the requests stay arbitrary: what a request leaves starts the next one.
  induction calls generalizing state seqId output with
  | nil => simp [processTimes, inTurn, numbered, Behaviour.exchanges]
  | cons call calls ih =>
    rw [Behaviour.exchanges_cons] at portable ⊢
    obtain ⟨first, others⟩ := List.forall_mem_cons.mp portable
    obtain ⟨offered, offers⟩ := List.forall_mem_cons.mp offers
    have step := step_request b s call state offered first seqId
      (numbered Call.request calls (seqId + 1) ++ rest) output
    rw [numbered_cons, List.append_assoc, List.length_cons, processTimes, step]
    dsimp only
    rw [ih _ offers others, numbered_cons, List.replicate_succ, List.append_assoc]

def results (es : List (Exchange i)) : List (Received i) :=
  (es.filter fun e => !e.signature.isOneway).map fun e => ⟨e.function, .ok e.result⟩

theorem receiveAll_replies (es : List (Exchange i)) (sound : ∀ e ∈ es, e.signature.Sound)
    (portable : ∀ e ∈ es, e.Portable) (seqId : Int32) (c : Channel) (rest : Bytes) :
    receiveAll (awaited (es.map Exchange.toCall))
        { c with input := numbered Exchange.reply es seqId ++ rest } =
      (results es, { c with input := rest }) := by
  induction es generalizing seqId with
  | nil => rfl
  | cons e es ih =>
    obtain ⟨headSound, sound⟩ := List.forall_mem_cons.mp sound
    obtain ⟨headPortable, portable⟩ := List.forall_mem_cons.mp portable
    have others := ih sound portable (seqId + 1)
    rw [numbered_cons]
    by_cases oneway : e.signature.isOneway
    · rw [Exchange.reply_of_oneway oneway, Emission.nothing, List.nil_append]
      simpa [awaited, results, oneway] using others
    · have received := receive_response e.signature headSound seqId e.result headPortable.result c
        (numbered Exchange.reply es (seqId + 1) ++ rest)
      have awaits : awaited ((e :: es).map Exchange.toCall) =
          e.function :: awaited (es.map Exchange.toCall) := by simp [awaited, oneway]
      have answered : results (e :: es) = ⟨e.function, .ok e.result⟩ :: results es := by
        simp [results, oneway]
      rw [Exchange.reply_of_answered oneway, List.append_assoc, awaits, answered,
        receiveAll, inTurn, await, received, ← receiveAll]
      dsimp only
      rw [others]

/-- The results of the calls are the results of the functions, run one after another. Both
streams are used up, and their messages have ascending ids from the first one on. -/
theorem session_eq (b : Behaviour i σ) (s : Service i) (calls : List (Call i)) (seqId : Int32)
    (state : σ) (offers : ∀ call ∈ calls, s.Offers call.function)
    (portable : ∀ e ∈ (b.exchanges calls state).1, e.Portable) :
    session b.handler s calls seqId state =
      { sent := List.replicate calls.length (.ok ())
        processed := List.replicate calls.length (.ok true)
        received := results (b.exchanges calls state).1
        client :=
          { input := []
            output := numbered Call.request calls seqId
            seqId := seqId + Int32.ofNat calls.length }
        server :=
          { input := []
            output := numbered Exchange.reply (b.exchanges calls state).1 seqId
            state := (b.exchanges calls state).2 } } := by
  have called := b.exchanges_calls calls state
  have sound : ∀ e ∈ (b.exchanges calls state).1, e.signature.Sound := by
    intro e he
    exact (offers e.toCall (called ▸ List.mem_map_of_mem he)).sound
  have written : ∀ call ∈ calls, ∀ seqId, (call.request seqId).fault = none := by
    rw [← called]
    intro call hc
    obtain ⟨e, he, rfl⟩ := List.mem_map.mp hc
    exact request_written e (sound e he) (portable e he)
  have sent := sendAll_requests calls written { seqId := seqId }
  have served := processTimes_requests b s calls state offers portable seqId [] []
  have received := receiveAll_replies (b.exchanges calls state).1 sound portable seqId
    { output := numbered Call.request calls seqId, seqId := seqId + Int32.ofNat calls.length } []
  rw [List.append_nil] at served received
  rw [called] at received
  rw [session, sent]
  dsimp only
  rw [List.nil_append, served, List.nil_append]
  dsimp only
  rw [received]

end Idl.Rpc
