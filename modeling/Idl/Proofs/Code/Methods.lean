import Idl.Proofs.Code.Generation
import Idl.Proofs.Schema.Inheritance

/-!
# Methods of a service

The text of a service declares functions one level below its items: a trait has a method for every
function of the service, a client has up to three beside those that every client has, and a
processor has one that runs the handler. A client also reaches the methods of the clients above it.

The check compares what the functions of a lineage add to handlers and clients, and it looks at
every function as a whole. That the methods of one function differ from each other, that they differ
from those that every client has, and that the processor's own functions differ, is left to the
spelling of the names.
-/

set_option autoImplicit false

namespace Idl

namespace Emit

def Line.Opens (name : String) (l : Line) : Prop :=
  ∃ visibility ∈ ["", "pub "], ∃ rest, l.text = visibility ++ "fn " ++ name ++ "(" ++ rest

theorem Line.Opens.opensFunction {name : String} {l : Line} (opens : l.Opens name) :
    opensFunction l.text = true := by
  obtain ⟨visibility, member, rest, text⟩ := opens
  simp only [List.mem_cons, List.not_mem_nil, or_false] at member
  rcases member with rfl | rfl <;> simp [text, Emit.opensFunction, List.isPrefixOf]

/-- The functions that begin at a depth of the text have these names, in this order. -/
def Functions (depth : Nat) (names : List String) (ls : List Line) : Prop :=
  List.Forall₂ Line.Opens names (ls.filter fun l => l.depth = depth && opensFunction l.text)

def Naming : List String → List String → Prop :=
  Tells opensFunction fun name text => (⟨0, text⟩ : Line).Opens name

theorem naming_cons {name text : String} {names texts : List String}
    (opens : (⟨0, text⟩ : Line).Opens name) (others : Naming names texts) :
    Naming (name :: names) (text :: texts) :=
  .cons opens.opensFunction opens others

theorem Draft.Marks.functions {α : Type} {d : Draft α} {depth : Nat} {names texts : List String}
    (marks : d.Marks depth texts) (naming : Naming names texts) {n : Nat} {a : α}
    (answered : (d n).answer = .ok a) : Functions depth names (d n).lines := by
  have found := marks n a answered
  subst found
  exact naming.lines fun _ => isLandmark_of_opensFunction

end Emit

namespace Code

open Emit Draft

theorem signature_opens (name : String) (f : FunctionDecl) (tail : String) :
    (⟨0, signature name f ++ tail⟩ : Line).Opens name := by
  refine ⟨"", by simp, ", ".intercalate ("&mut self" :: argParams f) ++ ") -> rt::Result<" ++
    f.returns.code ++ ">" ++ tail, ?_⟩
  simp [signature, String.append_assoc]

theorem interface_naming (d : ServiceDecl) : Naming (d.functions.map fun f => Ident.field f.name)
    (d.functions.map fun f => signature (Ident.field f.name) f ++ ";") := by
  have opens (f : FunctionDecl) : (⟨0, signature (Ident.field f.name) f ++ ";"⟩ : Line).Opens
      (Ident.field f.name) := signature_opens (Ident.field f.name) f ";"
  exact .map (fun f => (opens f).opensFunction) opens d.functions

def clientMethods (f : FunctionDecl) : List String :=
  Ident.clientMethod f.name :: Ident.prefixed "send" f.name ::
    if f.oneway then [] else [Ident.prefixed "recv" f.name]

/-- What a client has of the methods of every client. It reaches the rest through its parent. -/
def channelMethods : Option ServiceDecl → List String
  | some _ => ["new", "into_channel"]
  | none => ["new", "channel_mut", "into_channel"]

def derefMethods : Option ServiceDecl → List String
  | some _ => ["deref", "deref_mut"]
  | none => []

theorem clientFunction_naming (f : FunctionDecl) :
    Naming (clientMethods f) (clientFunctionMarks f) := by
  have call : (⟨0, opening ("pub " ++ signature (Ident.clientMethod f.name) f)⟩ : Line).Opens
      (Ident.clientMethod f.name) := by
    refine ⟨"pub ", by simp, ", ".intercalate ("&mut self" :: argParams f) ++ ") -> rt::Result<" ++
      f.returns.code ++ "> \x7b", ?_⟩
    apply String.toList_injective
    simp [opening, signature]
  have send : (⟨0, opening ("pub fn " ++ Ident.prefixed "send" f.name ++ "(&mut self" ++
      String.join ((argParams f).map (", " ++ ·)) ++ ") -> rt::Result<()>")⟩ : Line).Opens
        (Ident.prefixed "send" f.name) := by
    refine ⟨"pub ", by simp, "&mut self" ++ String.join ((argParams f).map (", " ++ ·)) ++
      ") -> rt::Result<()> \x7b", ?_⟩
    apply String.toList_injective
    simp [opening]
  have recv : (⟨0, opening ("pub fn " ++ Ident.prefixed "recv" f.name ++
      "(&mut self) -> rt::Result<" ++ f.returns.code ++ ">")⟩ : Line).Opens
        (Ident.prefixed "recv" f.name) := by
    refine ⟨"pub ", by simp, "&mut self) -> rt::Result<" ++ f.returns.code ++ "> \x7b", ?_⟩
    apply String.toList_injective
    simp [opening]
  refine naming_cons call (naming_cons send ?_)
  by_cases oneway : f.oneway
  · rw [if_pos oneway, if_pos oneway]
    exact .nil
  · rw [if_neg oneway, if_neg oneway]
    exact naming_cons recv .nil

theorem channel_naming (parent : Option ServiceDecl) :
    Naming (channelMethods parent) (channelMarks parent) := by
  have new : (⟨0, opening "pub fn new(input: I, output: O) -> Self"⟩ : Line).Opens "new" :=
    ⟨"pub ", by simp, "input: I, output: O) -> Self \x7b", by decide⟩
  have channel : (⟨0, opening "pub fn channel_mut(&mut self) -> &mut rt::ClientChannel<I, O>"⟩ :
      Line).Opens "channel_mut" :=
    ⟨"pub ", by simp, "&mut self) -> &mut rt::ClientChannel<I, O> \x7b", by decide⟩
  have into : (⟨0, opening "pub fn into_channel(self) -> rt::ClientChannel<I, O>"⟩ : Line).Opens
      "into_channel" :=
    ⟨"pub ", by simp, "self) -> rt::ClientChannel<I, O> \x7b", by decide⟩
  cases parent with
  | none => exact naming_cons new (naming_cons channel (naming_cons into .nil))
  | some p => exact naming_cons new (naming_cons into .nil)

theorem deref_naming (parent : Option ServiceDecl) :
    Naming (derefMethods parent) (derefMarks parent) := by
  cases parent with
  | none => exact .nil
  | some p =>
    exact naming_cons ⟨"", by simp, "&self) -> &Self::Target \x7b", by decide⟩
      (naming_cons ⟨"", by simp, "&mut self) -> &mut Self::Target \x7b", by decide⟩ .nil)

theorem client_naming (parent : Option ServiceDecl) (d : ServiceDecl) :
    Naming (channelMethods parent ++ d.functions.flatMap clientMethods ++ derefMethods parent)
      (channelMarks parent ++ (d.functions.flatMap clientFunctionMarks ++ derefMarks parent)) := by
  rw [List.append_assoc]
  exact (channel_naming parent).append ((Tells.flatMap clientFunction_naming d.functions).append
    (deref_naming parent))

def processorMethods (d : ServiceDecl) : List String :=
  ["new", "handler", "handler_mut", "into_handler", "dispatch_call"] ++
    d.functions.map (fun f => Ident.prefixed "process" f.name) ++ ["dispatch"]

theorem processor_naming (d : ServiceDecl) :
    Naming (processorMethods d) (processorMarks d ++ ["fn dispatch("]) := by
  have process (f : FunctionDecl) : (⟨0, "fn " ++ Ident.prefixed "process" f.name ++ "("⟩ :
      Line).Opens (Ident.prefixed "process" f.name) := ⟨"", by simp, "", by simp⟩
  have last : Naming ["dispatch"] ["fn dispatch("] :=
    naming_cons ⟨"", by simp, "", by decide⟩ .nil
  refine Tells.append ?_ last
  refine .skip (by simp [opensFunction, List.isPrefixOf]) ?_
  refine naming_cons ⟨"pub ", by simp, "handler: H) -> Self \x7b", by decide⟩ ?_
  refine naming_cons ⟨"pub ", by simp, "&self) -> &H \x7b", by decide⟩ ?_
  refine naming_cons ⟨"pub ", by simp, "&mut self) -> &mut H \x7b", by decide⟩ ?_
  refine naming_cons ⟨"pub ", by simp, "self) -> H \x7b", by decide⟩ ?_
  refine naming_cons ⟨"pub ", by simp, "", by decide⟩ ?_
  exact .map (fun f => (process f).opensFunction) process d.functions

end Code

namespace Ident

theorem length_field (name : String) : (field name).length ≤ (snake name).length + 2 := by
  rcases escape_cases (snake name) with marked | raw | same
  · rw [field, marked, String.length_append]
    exact Nat.add_le_add_left (by decide) _
  · rw [field, raw, String.length_append, Nat.add_comm]
    exact Nat.add_le_add_left (by decide) _
  · rw [field, same]
    omega

theorem length_clientMethod (name : String) :
    (clientMethod name).length ≤ (snake name).length + 3 := by
  have short := length_field name
  unfold clientMethod
  split
  · rw [String.length_append]
    exact Nat.add_le_add_right short 1
  · omega

theorem length_prefixed (lead name : String) :
    (prefixed lead name).length = lead.length + 1 + (snake name).length := by
  rw [prefixed, String.length_append, String.length_append]
  rfl

theorem clientMethod_ne_prefixed {lead : String} (long : 3 ≤ lead.length) (name : String) :
    clientMethod name ≠ prefixed lead name := by
  intro same
  have short := length_clientMethod name
  rw [same, length_prefixed] at short
  omega

theorem clientMethod_not_mem_clientOwn (name : String) : clientMethod name ∉ clientOwn := by
  unfold clientMethod
  split
  case isTrue own =>
    have known : field name ∈ clientOwn := by simpa using own
    have moved : ∀ word ∈ clientOwn, word ++ "_" ∉ clientOwn := by decide
    exact moved _ known
  case isFalse other => simpa using other

theorem prefix_prefixed (lead name : String) : lead.toList <+: (prefixed lead name).toList := by
  simp [prefixed, String.append_assoc]

theorem prefixed_not_mem {lead : String} {words : List String}
    (apart : ∀ word ∈ words, ¬ lead.toList <+: word.toList) (name : String) :
    prefixed lead name ∉ words :=
  fun member => apart _ member (prefix_prefixed lead name)

theorem prefixed_ne_prefixed {lead lead' : String}
    (apart : ¬ (lead.toList <+: lead'.toList ∨ lead'.toList <+: lead.toList))
    (name name' : String) :
    prefixed lead name ≠ prefixed lead' name' := by
  intro same
  have begins : lead'.toList <+: (prefixed lead name).toList := by
    rw [same]
    exact prefix_prefixed lead' name'
  exact apart (List.prefix_or_prefix_of_prefix (prefix_prefixed lead name) begins)

theorem prefixed_inj {lead lead' name name' : String}
    (same : prefixed lead name = prefixed lead name') :
    prefixed lead' name = prefixed lead' name' := by
  rw [prefixed, prefixed, String.append_right_inj] at same
  rw [prefixed, prefixed, same]

end Ident

namespace Code

open Emit Draft

theorem mem_clientMethods {f : FunctionDecl} {method : String} :
    method ∈ clientMethods f ↔ method = Ident.clientMethod f.name ∨
      method = Ident.prefixed "send" f.name ∨
      f.oneway = false ∧ method = Ident.prefixed "recv" f.name := by
  cases oneway : f.oneway <;> simp [clientMethods, oneway]

theorem clientMethods_nodup (f : FunctionDecl) : (clientMethods f).Nodup := by
  have send := Ident.clientMethod_ne_prefixed (show 3 ≤ "send".length by decide) f.name
  have recv := Ident.clientMethod_ne_prefixed (show 3 ≤ "recv".length by decide) f.name
  have ways := Ident.prefixed_ne_prefixed (show ¬ ("send".toList <+: "recv".toList ∨
    "recv".toList <+: "send".toList) by decide) f.name f.name
  unfold clientMethods
  split <;> simp [send, recv, ways]

theorem clientMethods_disjoint_clientOwn (f : FunctionDecl) :
    Ident.clientOwn.Disjoint (clientMethods f) := by
  intro method own member
  rcases mem_clientMethods.mp member with rfl | rfl | ⟨-, rfl⟩
  · exact Ident.clientMethod_not_mem_clientOwn f.name own
  · exact Ident.prefixed_not_mem (by decide) f.name own
  · exact Ident.prefixed_not_mem (by decide) f.name own

theorem adds_of_mem_clientMethods {f : FunctionDecl} {method : String}
    (member : method ∈ clientMethods f) : f.Adds method :=
  .inr (mem_clientMethods.mp member)

variable {lineage : List ServiceDecl}

theorem clientMethods_distinct (apart : Schema.MethodsApart lineage) :
    (Ident.clientOwn ++ (lineage.flatMap (·.functions)).flatMap clientMethods).Nodup := by
  have functions : ((lineage.flatMap (·.functions)).flatMap clientMethods).Nodup := by
    rw [List.nodup_flatMap]
    refine ⟨fun f _ => clientMethods_nodup f, apart.imp ?_⟩
    intro f g differ method here there
    exact differ method (adds_of_mem_clientMethods here) (adds_of_mem_clientMethods there)
  rw [List.nodup_append']
  refine ⟨by decide, functions, ?_⟩
  intro method own member
  obtain ⟨f, -, ofFunction⟩ := List.mem_flatMap.mp member
  exact clientMethods_disjoint_clientOwn f own ofFunction

theorem handlerMethods_distinct (apart : Schema.MethodsApart lineage) :
    ((lineage.flatMap (·.functions)).map fun f => Ident.field f.name).Nodup := by
  rw [List.Nodup, List.pairwise_map]
  refine apart.imp ?_
  intro f g differ same
  exact differ _ (.inl rfl) (.inl same)

theorem processorMethods_distinct {d : ServiceDecl}
    (apart : d.functions.Pairwise fun f g => ∀ method, f.Adds method → ¬ g.Adds method) :
    (processorMethods d).Nodup := by
  have process : (d.functions.map fun f => Ident.prefixed "process" f.name).Nodup := by
    rw [List.Nodup, List.pairwise_map]
    refine apart.imp ?_
    intro f g differ same
    exact differ _ (.inr (.inr (.inl rfl))) (.inr (.inr (.inl (Ident.prefixed_inj same))))
  have others (words : List String) (other : ∀ word ∈ words, ¬ "process".toList <+: word.toList) :
      List.Disjoint words (d.functions.map fun f => Ident.prefixed "process" f.name) := by
    intro method here there
    obtain ⟨f, -, rfl⟩ := List.mem_map.mp there
    exact Ident.prefixed_not_mem other f.name here
  unfold processorMethods
  have last := List.disjoint_comm.mp (others ["dispatch"] (by decide))
  rw [List.append_assoc, List.nodup_append', List.nodup_append', List.disjoint_append_right]
  exact ⟨by decide, ⟨process, by decide, last⟩, others _ (by decide), by simp⟩

/-- In a schema that passes the check, the methods that a client reaches are all different: those
that every client has, and what its service and the services above it add for each function. So are
the methods that a handler of the service needs, and the functions of every processor on the way up.
The texts declare these functions and no others. -/
theorem methods_distinct (s : Schema) (accepted : s.check = .ok ()) {d : ServiceDecl}
    (declared : d ∈ s.services) :
    ∃ above, s.ancestors d = .ok above ∧ s.Lineage d above ∧
      (Ident.clientOwn ++ ((d :: above).flatMap (·.functions)).flatMap clientMethods).Nodup ∧
      (((d :: above).flatMap (·.functions)).map fun f => Ident.field f.name).Nodup ∧
      ∀ service ∈ d :: above, (processorMethods service).Nodup ∧
        ∃ parent, s.parentOf service = .ok parent ∧ ∀ (o : Options) (n : Nat),
          Functions 1 (channelMethods parent ++ service.functions.flatMap clientMethods ++
            derefMethods parent) (clientCode o parent service n).lines ∧
          Functions 1 (service.functions.map fun f => Ident.field f.name)
            (interfaceCode o parent service n).lines ∧
          ((processorCode s o parent service n).answer = .ok () →
            Functions 1 (processorMethods service) (processorCode s o parent service n).lines) := by
  have wellFormed := Schema.wellFormed_of_check accepted
  have distinct := wellFormed.serviceNames
  obtain ⟨above, lineage, once, apart⟩ := (wellFormed.services d declared).lineage
  refine ⟨above, (Schema.ancestors_eq_ok_iff distinct declared).mpr ⟨lineage, once⟩, lineage,
    clientMethods_distinct apart, handlerMethods_distinct apart, ?_⟩
  intro service member
  have own := (List.pairwise_flatMap.mp apart).1 service member
  obtain ⟨rest, up⟩ := lineage.of_mem member
  obtain ⟨parent, found⟩ := up.exists_parentOf distinct
  refine ⟨processorMethods_distinct own, parent, found, fun o n => ⟨?_, ?_, ?_⟩⟩
  · exact (clientCode_methods o parent service).functions (client_naming parent service)
      (Sure.answer n)
  · exact (interfaceCode_methods o parent service).functions (interface_naming service)
      (Sure.answer n)
  · exact (processorCode_methods s o parent service).functions (processor_naming service)

def desk : ServiceDecl :=
  { name := "Desk"
    functions := [{ name := "new", returns := .bool },
      { name := "channelMut", returns := .void, oneway := true },
      { name := "type", returns := .i32 }] }

def window : ServiceDecl :=
  { name := "Window", parent := some "Desk"
    functions := [{ name := "send", returns := .void }, { name := "self", returns := .string }] }

def office : Schema where
  name := "office"
  services := [desk, window]

theorem methods_distinct_office : office.check = .ok () ∧
    ["new", "channel_mut", "into_channel", "send", "send_send", "recv_send", "self_", "send_self",
      "recv_self", "new_", "send_new", "recv_new", "channel_mut_", "send_channel_mut", "r#type",
      "send_type", "recv_type"].Nodup ∧
    ["send", "self_", "new", "channel_mut", "r#type"].Nodup ∧ (processorMethods desk).Nodup ∧
    ∀ (o : Options) (n : Nat), Functions 1 ["new", "into_channel", "send", "send_send", "recv_send",
      "self_", "send_self", "recv_self", "deref", "deref_mut"]
      (clientCode o (some desk) window n).lines := by
  have accepted : office.check = .ok () := by decide +kernel
  have walked : office.ancestors window = .ok [desk] := by cbv
  obtain ⟨above, ancestors, -, clients, handlers, services⟩ :=
    methods_distinct office accepted (by simp [office] : window ∈ office.services)
  cases walked.symm.trans ancestors
  obtain ⟨-, parent, found, texts⟩ := services window (by simp)
  have up : office.parentOf window = .ok (some desk) := by cbv
  cases up.symm.trans found
  exact ⟨accepted, clients, handlers, (services desk (by simp)).1, fun o n => (texts o n).1⟩

end Code

end Idl
