import Idl.Proofs.Code.Struct

/-!
# The text of a service

What is known of the generators for a service: the structs that carry arguments and results, the
trait of its handlers, the client and the processor. What stops a service is a missing parent, a
struct that cannot be written, or a default that a handler would receive.
-/

set_option autoImplicit false

namespace Idl.Code

open Text Emit Draft

variable {A : Char → Prop} [usual : Usual A] {legible : Prop} (s : Schema) (o : Options)

/-! ## Words of functions -/

section Words

variable {f : FunctionDecl} (spelled : Spelled A f.names f.texts)

include spelled

omit usual in
theorem Function.worded_name : Worded A f.name :=
  spelled.name f.name List.mem_cons_self

theorem Function.phrased_params : ∀ t ∈ argParams f, Phrased A t := by
  intro t member
  obtain ⟨a, inside, rfl⟩ := List.mem_map.mp member
  have field := FunctionDecl.spelled_field spelled (List.mem_append_left _ inside)
  exact .append ((Field.phrased_ident field).mark rfl) (Field.phrased_code field)

theorem Function.phrased_args : ∀ t ∈ argNames f, Phrased A t := by
  intro t member
  obtain ⟨a, inside, rfl⟩ := List.mem_map.mp member
  exact Field.phrased_ident (FunctionDecl.spelled_field spelled (List.mem_append_left _ inside))

theorem Function.phrased_returns : Phrased A f.returns.code :=
  (Ty.worded_code (FunctionDecl.spelled_returns spelled).name).phrased

theorem Function.phrased_prefixed {lead : List Char} (tidy : Phrased.isTidy lead = true) :
    Phrased A (Ident.prefixed (String.ofList lead) f.name) :=
  .append (.mark (.fixed tidy) rfl) (Ident.worded_snake (Function.worded_name spelled)).phrased

theorem signature_clause {name : String} (named : Phrased A name) :
    Clause A (signature name f) := by
  have returns := Function.phrased_returns spelled
  have params : Phrased A (", ".intercalate ("&mut self" :: argParams f)) := by
    refine .intercalate (.fixed rfl) fun t member => ?_
    rcases List.mem_cons.mp member with rfl | param
    · exact .fixed rfl
    · exact Function.phrased_params spelled t param
  unfold signature
  exact .and (.and (.and (.fixed rfl) named rfl) params rfl) returns rfl

omit usual in
theorem argsStruct_spelled {service : String} :
    FieldsSpelled A (argsStruct service f).fields := fun _ member =>
  FunctionDecl.spelled_field spelled (List.mem_append_left _ member)

theorem resultStruct_spelled {service : String} :
    FieldsSpelled A (resultStruct service f).fields := by
  intro r member
  rcases List.mem_append.mp member with success | thrown
  · split at success
    · rw [List.mem_singleton.mp success]
      refine ⟨fun w inside => ?_, fun w inside => absurd inside List.not_mem_nil⟩
      rcases List.mem_cons.mp inside with rfl | inside
      · exact .fixed rfl
      · exact (FunctionDecl.spelled_returns spelled).name w inside
    · cases success
  · exact FunctionDecl.spelled_field spelled (List.mem_append_right _ thrown)

theorem argsStruct_worded {service : String} (named : Worded A service) :
    Worded A (argsStruct service f).name :=
  .and (.append named (.fixed rfl)) (Function.worded_name spelled) rfl

theorem resultStruct_worded {service : String} (named : Worded A service) :
    Worded A (resultStruct service f).name :=
  .and (.append named (.fixed rfl)) (Function.worded_name spelled) rfl

omit spelled

def functionLeads (service : String) (f : FunctionDecl) : List String :=
  argsName service f :: resultName service f :: (f.args ++ f.throws).map (Ident.field ·.name)

omit usual in
theorem argsStruct_legible {service : String}
    (told : legible → ∀ i ∈ functionLeads service f, isDoc i = false) :
    FieldsLegible legible (argsStruct service f).fields := by
  intro l a member
  refine told l _ (List.mem_cons_of_mem _ (List.mem_cons_of_mem _ ?_))
  exact List.mem_map.mpr ⟨a, List.mem_append_left _ member, rfl⟩

omit usual in
theorem resultStruct_legible {service : String}
    (told : legible → ∀ i ∈ functionLeads service f, isDoc i = false) :
    FieldsLegible legible (resultStruct service f).fields := by
  intro l r member
  rcases List.mem_append.mp member with success | thrown
  · split at success
    · have other : isDoc (Ident.field "success") = false := by decide
      rw [List.mem_singleton.mp success]
      exact other
    · cases success
  · refine told l _ (List.mem_cons_of_mem _ (List.mem_cons_of_mem _ ?_))
    exact List.mem_map.mpr ⟨r, List.mem_append_right _ thrown, rfl⟩

end Words

/-! ## The structs of functions -/

section Helpers

variable (d : ServiceDecl)

instance : Steady (helpersCode s o d) := by
  unfold helpersCode
  infer_instance

def helpersVerdict : Emitted Unit :=
  d.functions.forM fun f => do
    structVerdict s (argsStruct d.name f)
    if f.oneway then .ok () else structVerdict s (resultStruct d.name f)

theorem helpersCode_answer (n : Nat) : (helpersCode s o d n).answer = helpersVerdict s d := by
  apply answer_forM
  intro f _ n
  simp [structCode_answer]

def helperMarks (service : String) (f : FunctionDecl) : List String :=
  structMarks (argsStruct service f) ++
    if f.oneway then [] else structMarks (resultStruct service f)

theorem helpersCode_marks :
    (helpersCode s o d).Marks 0 (d.functions.flatMap (helperMarks d.name)) := by
  refine forM_marks d.functions fun f => ?_
  refine (structCode_marks s o (argsStruct d.name f)).bind fun _ => ?_
  by_cases oneway : f.oneway
  · rw [if_pos oneway, if_pos oneway]
    exact lines_plain (by simp)
  · rw [if_neg oneway, if_neg oneway]
    exact structCode_marks s o (resultStruct d.name f)

def serviceLeads : List String :=
  processorName d.name :: d.functions.flatMap (functionLeads d.name)

variable {s o d}

omit usual in
theorem functionLeads_subset {f : FunctionDecl} (member : f ∈ d.functions)
    (told : legible → ∀ i ∈ serviceLeads d, isDoc i = false) :
    legible → ∀ i ∈ functionLeads d.name f, isDoc i = false := fun l i inside =>
  told l i (List.mem_cons_of_mem _ (List.mem_flatMap.mpr ⟨f, member, inside⟩))

omit usual in
theorem Service.worded_name (spelled : Spelled A d.names d.texts) : Worded A d.name :=
  spelled.name d.name List.mem_cons_self

theorem helpersCode_commented (spelled : Spelled A d.names d.texts)
    (words : Spelled A s.names s.texts) (told : legible → ∀ i ∈ serviceLeads d, isDoc i = false) :
    Commented A legible (helpersCode s o d) (helpersCode s o.bare d) := by
  have named := Service.worded_name spelled
  refine .forM fun f member => ?_
  have function := ServiceDecl.spelled_function spelled member
  have leads := functionLeads_subset member told
  refine .seq ?_ ?_
  · exact structCode_commented words (argsStruct_worded function named)
      (argsStruct_spelled function)
      (argsStruct_legible leads)
  · split
    · exact .nothing
    · exact structCode_commented words (resultStruct_worded function named)
        (resultStruct_spelled function) (resultStruct_legible leads)

end Helpers

/-! ## Handlers -/

section Handlers

theorem traitName_phrased {service : String} (named : Worded A service) :
    Phrased A (traitName service) :=
  .mark (Ident.worded_type named).phrased rfl

section Spaced

variable {α : Type} {piece other : α → Draft Unit} (as : List α)

instance [∀ a, Sure (piece a)] : Sure (spaced piece as) := by
  fun_induction spaced piece as <;> infer_instance

instance [∀ a, Steady (piece a)] : Steady (spaced piece as) := by
  fun_induction spaced piece as <;> infer_instance

theorem spaced_marks [∀ a, Steady (piece a)] {depth : Nat} {mark : α → String}
    (all : ∀ a, (piece a).Marks depth [mark a]) : (spaced piece as).Marks depth (as.map mark) := by
  fun_induction spaced piece as with
  | case1 => exact lines_plain (by simp)
  | case2 a => exact all a
  | case3 a rest _ ih => exact (all a).bind fun _ => blank_plain.after fun _ => ih

omit usual in
variable {as} in
theorem spaced_commented (all : ∀ a ∈ as, Commented A legible (piece a) (other a)) :
    Commented A legible (spaced piece as) (spaced other as) := by
  induction as with
  | nil => exact .nothing
  | cons a rest ih =>
    rw [List.forall_mem_cons] at all
    cases rest with
    | nil => exact all.1
    | cons b rest => exact .seq all.1 (.seq .blank (ih all.2))

end Spaced

variable (parent : Option ServiceDecl) (d : ServiceDecl)

instance : Sure (interfaceCode o parent d) := by
  unfold interfaceCode
  infer_instance

instance : Steady (interfaceCode o parent d) := by
  unfold interfaceCode
  infer_instance

def interfaceMark : String :=
  "pub trait " ++ traitName d.name ++ (match parent with
    | some p => ": " ++ traitName p.name
    | none => "") ++ " \x7b"

theorem interfaceCode_marks : (interfaceCode o parent d).Marks 0 [interfaceMark parent d] := by
  unfold interfaceCode
  refine (doc_plain o _).after fun _ => (line_marks (isLandmark_of_opensItem ?_)).before fun _ => ?_
  · simp [interfaceMark, opensItem, List.isPrefixOf]
  · exact .indent ((line_plain rfl).after fun _ => blank_plain)

theorem signature_isLandmark (name : String) (f : FunctionDecl) (tail : String) :
    isLandmark (signature name f ++ tail) = true :=
  isLandmark_of_opensFunction (by simp [signature, opensFunction, List.isPrefixOf])

theorem interfaceCode_methods : (interfaceCode o parent d).Marks 1
    (d.functions.map fun f => signature (Ident.field f.name) f ++ ";") := by
  have method (f : FunctionDecl) : (do
      if f.oneway then doc o "One-way: no reply is sent." else lines []
      line (signature (Ident.field f.name) f ++ ";")).Marks 0
        [signature (Ident.field f.name) f ++ ";"] := by
    have item := line_marks (signature_isLandmark (Ident.field f.name) f ";")
    dsimp only
    split
    · exact (doc_plain o _).after fun _ => item
    · exact (lines_plain (by simp)).after fun _ => item
  unfold interfaceCode
  refine (doc_plain o _).after fun _ => line_above.after fun _ => ?_
  rw [← List.append_nil (d.functions.map _)]
  exact Marks.indent_succ (spaced_marks d.functions method) (line_above.after fun _ => blank_plain)

variable {o parent d}

theorem interfaceCode_commented (spelled : Spelled A d.names d.texts)
    (above : ∀ p, parent = some p → Worded A p.name) :
    Commented A legible (interfaceCode o parent d) (interfaceCode o.bare parent d) := by
  have worded := Service.worded_name spelled
  have trait := traitName_phrased worded
  refine .seq (doc_commented (.and (.fixed rfl) worded.orFeed rfl)) ?_
  refine .braces (.append (.append (.fixed rfl) trait) ?_) ?_ .blank
  · cases parent with
    | none => exact .nil
    | some p => exact .append (.fixed rfl) (traitName_phrased (above p rfl))
  · refine spaced_commented fun f member => ?_
    have function := ServiceDecl.spelled_function spelled member
    have method := signature_clause function
      (Ident.worded_field (Function.worded_name function)).phrased
    dsimp only
    split
    · exact .seq (doc_commented (.fixed rfl)) (.line (method.mark rfl))
    · exact .seq .nothing (.line (method.mark rfl))

end Handlers

/-! ## Clients -/

section ClientFunctions

variable (service : String) (f : FunctionDecl)

instance : Sure (callCode f) := by
  unfold callCode
  infer_instance

instance : Steady (callCode f) := by
  unfold callCode
  infer_instance

instance : Sure (sendCode service f) := by
  unfold sendCode
  infer_instance

instance : Steady (sendCode service f) := by
  unfold sendCode
  infer_instance

instance (condition kind message detail : String) :
    Sure (rejectCode condition kind message detail) := by
  unfold rejectCode
  infer_instance

instance (condition kind message detail : String) :
    Steady (rejectCode condition kind message detail) := by
  unfold rejectCode
  infer_instance

instance : Sure (recvCode service f) := by
  unfold recvCode
  dsimp only
  infer_instance

instance : Steady (recvCode service f) := by
  unfold recvCode
  dsimp only
  infer_instance

instance : Sure (clientFunctionCode service f) := by
  unfold clientFunctionCode
  infer_instance

instance : Steady (clientFunctionCode service f) := by
  unfold clientFunctionCode
  infer_instance

def clientFunctionMarks : List String :=
  opening ("pub " ++ signature (Ident.clientMethod f.name) f) ::
    opening ("pub fn " ++ Ident.prefixed "send" f.name ++ "(&mut self" ++
      String.join ((argParams f).map (", " ++ ·)) ++ ") -> rt::Result<()>") ::
    if f.oneway then [] else [opening ("pub fn " ++ Ident.prefixed "recv" f.name ++
      "(&mut self) -> rt::Result<" ++ f.returns.code ++ ">")]

theorem clientFunctionCode_marks :
    (clientFunctionCode service f).Marks 0 (clientFunctionMarks f) := by
  unfold clientFunctionCode clientFunctionMarks
  refine blank_plain.after fun _ => Marks.cons (block_marks ?_) fun _ => ?_
  · simp [isLandmark, opening, opensItem, List.isPrefixOf]
  refine blank_plain.after fun _ => Marks.cons (block_marks ?_) fun _ => ?_
  · simp [isLandmark, opening, opensItem, List.isPrefixOf]
  by_cases oneway : f.oneway
  · rw [if_pos oneway, if_pos oneway]
    exact lines_plain (by simp)
  · rw [if_neg oneway, if_neg oneway]
    refine blank_plain.after fun _ => block_marks ?_
    simp [isLandmark, opening, opensItem, List.isPrefixOf]

variable {service f} (spelled : Spelled A f.names f.texts)

include spelled

theorem callCode_commented : Commented A legible (callCode f) (callCode f) := by
  have worded := Function.worded_name spelled
  have method := signature_clause spelled (Ident.worded_clientMethod worded).phrased
  have args : Phrased A (", ".intercalate (argNames f)) :=
    .intercalate (.fixed rfl) (Function.phrased_args spelled)
  have send : Phrased A (Ident.prefixed "send" f.name) := Function.phrased_prefixed spelled rfl
  have recv : Phrased A (Ident.prefixed "recv" f.name) := Function.phrased_prefixed spelled rfl
  have sent : Clause A ("self." ++ Ident.prefixed "send" f.name ++ "(" ++
      ", ".intercalate (argNames f) ++ ")") :=
    .and (.and (.fixed rfl) send rfl) args rfl
  refine .braced (.append (.fixed rfl) method.phrased) ?_
  split
  · exact .line sent
  · exact .statements (.cons (sent.mark rfl) (.cons (.and (.fixed rfl) recv rfl) .nil))

theorem sendCode_commented (named : Worded A service)
    (told : legible → ∀ i ∈ functionLeads service f, isDoc i = false) :
    Commented A legible (sendCode service f) (sendCode service f) := by
  have worded := Function.worded_name spelled
  have send : Phrased A (Ident.prefixed "send" f.name) := Function.phrased_prefixed spelled rfl
  have quote : Phrased A (quoted f.name) := .quoted worded.orFeed.phrased
  have struct : Phrased A (argsName service f) :=
    (Ident.worded_type (argsStruct_worded spelled named)).phrased
  have params : Phrased A (String.join ((argParams f).map (", " ++ ·))) := by
    refine .join fun t member => ?_
    obtain ⟨p, inside, rfl⟩ := List.mem_map.mp member
    exact .append (.fixed rfl) (Function.phrased_params spelled p inside)
  have kind : Phrased A (if f.oneway then "Oneway" else "Call") := by split <;> exact .fixed rfl
  have args : Statements A legible ((argNames f).map fun a => a ++ ": Some(" ++ a ++ "),") := by
    intro t member
    obtain ⟨i, inside, rfl⟩ := List.mem_map.mp member
    have ident := Function.phrased_args spelled i inside
    obtain ⟨a, argument, rfl⟩ := List.mem_map.mp inside
    refine ⟨.and (ident.mark rfl) ident rfl,
      fun l => isDoc_named (argsStruct_legible told l a argument)
        ⟨" Some(".toList ++ ((Ident.field a.name).toList ++ "),".toList), by simp⟩⟩
  have message : Statements A legible ["let seq_id = self.channel_mut().next_seq_id();",
      "let output = self.channel_mut().output_mut();",
      "output.write_message_begin(&rt::MessageHeader::new(" ++ quoted f.name ++
        ", rt::MessageKind::" ++
        (if f.oneway then "Oneway" else "Call") ++ ", seq_id))?;",
      "args.write(output)?;", "output.write_message_end()?;", "output.flush()"] :=
    .fixed rfl (.fixed rfl (.cons (.and (.and (.fixed rfl) quote rfl) kind rfl)
      (.fixed rfl (.fixed rfl (.fixed rfl .nil)))))
  have taken : Clause A ("let args = " ++ argsName service f) := .append (.fixed rfl) struct
  refine .braced (.and (.and (.fixed rfl) send rfl) params rfl) ?_
  dsimp only
  split
  · exact .seq (.line (taken.mark rfl)) (.statements message)
  · refine .seq ?_ (.statements message)
    exact .block taken.phrased (.fixed rfl) (fun _ => taken.notDoc_opening) (.statements args)

omit spelled in
theorem rejectCode_commented {condition kind message detail : String}
    (conditional : Phrased A condition)
    (kinded : Phrased A kind) (stated : Phrased (orFeed A) message) (detailed : Phrased A detail) :
    Commented A legible (rejectCode condition kind message detail)
      (rejectCode condition kind message detail) := by
  have quote : Phrased A (quoted message) := .quoted stated
  refine .braced (.append (.fixed rfl) conditional)
    (.seq ?_ (.indented (.statements ?_) (.fixed rfl)))
  · exact .statements (.fixed rfl (.fixed rfl (.fixed rfl .nil)))
  · refine .cons (.and (.fixed rfl) kinded rfl) (.cons ?_ .nil)
    exact .and (.and (.fixed rfl) quote rfl) detailed rfl

theorem recvCode_commented (named : Worded A service)
    (told : legible → ∀ i ∈ functionLeads service f, isDoc i = false) :
    Commented A legible (recvCode service f) (recvCode service f) := by
  have worded := Function.worded_name spelled
  have name : Phrased (orFeed A) f.name := worded.orFeed.phrased
  have recv : Phrased A (Ident.prefixed "recv" f.name) := Function.phrased_prefixed spelled rfl
  have returns := Function.phrased_returns spelled
  have quote : Phrased A (quoted f.name) := .quoted name
  have unknown : Clause A (quoted (f.name ++ " failed: unknown result")) :=
    ⟨.quoted (name.mark rfl), .quoted _⟩
  have struct : Phrased A (resultName service f) :=
    (Ident.worded_type (resultStruct_worded spelled named)).phrased
  have begins : legible → isDoc (resultName service f) = false := fun l =>
    told l _ (List.mem_cons_of_mem _ List.mem_cons_self)
  have thrown : ∀ t ∈ f.throws,
      let raise := block ("if let Some(" ++ Ident.field t.name ++ ") = result." ++
        Ident.field t.name) ""
        (Draft.line ("return Err(rt::Error::user(" ++ Ident.field t.name ++ "));"))
      Commented A legible raise raise := by
    intro t member
    have ident := Field.phrased_ident
      (FunctionDecl.spelled_field spelled (List.mem_append_right _ member))
    exact .braced (.append (.and (.fixed rfl) ident rfl) ident)
      (.line (.and (.fixed rfl) ident rfl))
  refine .braced (.and (.and (.fixed rfl) recv rfl) returns rfl) ?_
  refine .seq ?_ (.seq (.braced (.fixed rfl) ?_) ?_)
  · exact .statements (.fixed rfl (.fixed rfl .nil))
  · exact .statements (.fixed rfl (.fixed rfl (.fixed rfl .nil)))
  refine .seq (rejectCode_commented (.fixed rfl) (.fixed rfl) (name.mark rfl) (.fixed rfl)) ?_
  have renamed : Phrased A ("header.name != " ++ quoted f.name) := .append (.fixed rfl) quote
  refine .seq (rejectCode_commented renamed (.fixed rfl) (name.mark rfl) (.fixed rfl)) ?_
  refine .seq ?_ (.seq (.fixed rfl) ?_)
  · split
    · exact .line (.append (.fixed rfl) (struct.mark rfl))
    · exact .entry (struct.mark rfl) fun l => isDoc_named (begins l)
        ⟨":read_new(input)?;".toList, by simp⟩
  · dsimp only
    split
    · refine .seq (.braced (.fixed rfl) (.fixed rfl)) (.seq (.forM thrown) ?_)
      refine .seq (.fixed rfl) (.indented ?_ (.fixed rfl))
      exact .statements (.fixed rfl (.cons (unknown.mark rfl) .nil))
    · exact .seq .nothing (.seq (.forM thrown) (.fixed rfl))

theorem clientFunctionCode_commented (named : Worded A service)
    (told : legible → ∀ i ∈ functionLeads service f, isDoc i = false) :
    Commented A legible (clientFunctionCode service f) (clientFunctionCode service f) := by
  refine .seq .blank (.seq (callCode_commented spelled) (.seq .blank ?_))
  refine .seq (sendCode_commented spelled named told) ?_
  split
  · exact .nothing
  · exact .seq .blank (recvCode_commented spelled named told)

end ClientFunctions

section Clients

theorem clientName_phrased {service : String} (named : Worded A service) :
    Phrased A (clientName service) :=
  .mark (Ident.worded_type named).phrased rfl

section Deref

variable (client base : String)

instance : Sure (derefCode client base) := by
  unfold derefCode
  infer_instance

instance : Steady (derefCode client base) := by
  unfold derefCode
  infer_instance

theorem derefCode_plain : (derefCode client base).Marks 0 [] := by
  unfold derefCode
  refine (line_plain ?_).after fun _ => .indent ((line_plain rfl).after fun _ => ?_)
  · simp [isLandmark, opensItem, opensFunction, makesError, List.isPrefixOf]
  refine blank_plain.after fun _ => (line_plain ?_).after fun _ => .indent ?_
  · simp [isLandmark, opensItem, opensFunction, makesError, List.isPrefixOf]
  exact (line_plain rfl).after fun _ => blank_plain

theorem derefCode_methods : (derefCode client base).Marks 1
    ["fn deref(&self) -> &Self::Target \x7b",
      "fn deref_mut(&mut self) -> &mut Self::Target \x7b"] := by
  have shared : (lines ["type Target = " ++ base ++ "<I, O>;", "",
      "fn deref(&self) -> &Self::Target \x7b", "    &self.parent", "\x7d"]).Marks 0
        ["fn deref(&self) -> &Self::Target \x7b"] := by
    have target : isLandmark ("type Target = " ++ base ++ "<I, O>;") = false := by
      simp [isLandmark, opensItem, opensFunction, makesError, List.isPrefixOf]
    have found := lines_marks ["type Target = " ++ base ++ "<I, O>;", "",
      "fn deref(&self) -> &Self::Target \x7b", "    &self.parent", "\x7d"]
    rwa [List.filter_cons, target] at found
  have exclusive : (lines ["fn deref_mut(&mut self) -> &mut Self::Target \x7b",
      "    &mut self.parent", "\x7d"]).Marks 0
        ["fn deref_mut(&mut self) -> &mut Self::Target \x7b"] :=
    lines_marks _
  unfold derefCode
  refine line_above.after fun _ => Marks.indent_succ shared (line_above.after fun _ => ?_)
  refine blank_plain.after fun _ => line_above.after fun _ => ?_
  exact Marks.indent_succ exclusive (line_above.after fun _ => blank_plain)

variable {client base} in
theorem derefCode_commented (named : Phrased A client) (below : Phrased A base) :
    Commented A legible (derefCode client base) (derefCode client base) := by
  have first : "impl<I, O> ::std::ops::Deref for " ++ client ++ "<I, O> \x7b" =
      "impl<I, O> ::std::ops::Deref for " ++ client ++ "<I, O>" ++ " \x7b" :=
    String.toList_injective (by simp)
  have second : "impl<I, O> ::std::ops::DerefMut for " ++ client ++ "<I, O> \x7b" =
      "impl<I, O> ::std::ops::DerefMut for " ++ client ++ "<I, O>" ++ " \x7b" :=
    String.toList_injective (by simp)
  unfold derefCode
  rw [first, second]
  refine .braces (.and (.fixed rfl) named rfl) ?_ (.seq .blank ?_)
  · exact .scope (.cons (.and (.fixed rfl) below rfl) (.gap .nil)) (.fixed rfl rfl) (.fixed rfl)
  · refine .braces (.and (.fixed rfl) named rfl) ?_ .blank
    exact .scope .nil (.fixed rfl rfl) (.fixed rfl)

end Deref

variable (parent : Option ServiceDecl) (d : ServiceDecl)

instance : Sure (channelCode o parent) := by
  unfold channelCode
  cases parent <;> infer_instance

instance : Steady (channelCode o parent) := by
  unfold channelCode
  cases parent <;> infer_instance

instance : Sure (clientCode o parent d) := by
  unfold clientCode
  cases parent <;> infer_instance

instance : Steady (clientCode o parent d) := by
  unfold clientCode
  cases parent <;> infer_instance

theorem clientCode_marks : (clientCode o parent d).Marks 0
    [opening ("pub struct " ++ clientName d.name ++ "<I, O>")] := by
  unfold clientCode
  refine (doc_plain o _).after fun _ => (line_plain rfl).after fun _ => ?_
  refine (block_marks (isLandmark_of_opensItem ?_)).before fun _ => blank_plain.after fun _ => ?_
  · simp [opening, opensItem, List.isPrefixOf]
  refine (block_plain ?_).after fun _ => blank_plain.after fun _ => ?_
  · simp [isLandmark, opening, opensItem, opensFunction, makesError, List.isPrefixOf]
  · cases parent with
    | none => exact lines_plain (by simp)
    | some p => exact derefCode_plain (clientName d.name) (clientName p.name)

def channelMarks : Option ServiceDecl → List String
  | some _ => [opening "pub fn new(input: I, output: O) -> Self",
      opening "pub fn into_channel(self) -> rt::ClientChannel<I, O>"]
  | none => [opening "pub fn new(input: I, output: O) -> Self",
      opening "pub fn channel_mut(&mut self) -> &mut rt::ClientChannel<I, O>",
      opening "pub fn into_channel(self) -> rt::ClientChannel<I, O>"]

def derefMarks : Option ServiceDecl → List String
  | some _ => ["fn deref(&self) -> &Self::Target \x7b",
      "fn deref_mut(&mut self) -> &mut Self::Target \x7b"]
  | none => []

theorem channelCode_marks : (channelCode o parent).Marks 0 (channelMarks parent) := by
  cases parent with
  | none =>
    exact Marks.cons (block_marks rfl) fun _ => blank_plain.after fun _ =>
      Marks.cons (block_marks rfl) fun _ => blank_plain.after fun _ =>
      (doc_plain o _).after fun _ => block_marks rfl
  | some p =>
    exact Marks.cons (block_marks rfl) fun _ => blank_plain.after fun _ =>
      (doc_plain o _).after fun _ => block_marks rfl

theorem clientCode_methods : (clientCode o parent d).Marks 1
    (channelMarks parent ++ (d.functions.flatMap clientFunctionMarks ++ derefMarks parent)) := by
  have inside : (do
      doc o "Creates a client reading replies from `input` and writing calls to `output`."
      channelCode o parent
      d.functions.forM (clientFunctionCode d.name)).Marks 0
        (channelMarks parent ++ d.functions.flatMap clientFunctionMarks) :=
    (doc_plain o _).after fun _ => (channelCode_marks o parent).bind fun _ =>
      forM_marks d.functions (clientFunctionCode_marks d.name)
  unfold clientCode
  rw [← List.append_assoc]
  refine (doc_plain o _).after fun _ => line_above.after fun _ => ?_
  refine Marks.after (Marks.block (line_plain ?_)) fun _ => blank_plain.after fun _ => ?_
  · cases parent with
    | none => rfl
    | some p => simp [isLandmark, opensItem, opensFunction, makesError, List.isPrefixOf]
  refine Marks.bind (Marks.block inside) fun _ => blank_plain.after fun _ => ?_
  cases parent with
  | none => exact lines_plain (by simp)
  | some p => exact derefCode_methods (clientName d.name) (clientName p.name)

variable {o parent d} (above : ∀ p, parent = some p → Worded A p.name)

include above

theorem channelCode_commented :
    Commented A legible (channelCode o parent) (channelCode o.bare parent) := by
  cases parent with
  | none =>
    refine .seq (.braced (.fixed rfl) (.fixed rfl)) (.seq .blank ?_)
    refine .seq (.braced (.fixed rfl) (.fixed rfl)) (.seq .blank ?_)
    exact .seq (doc_commented (.fixed rfl)) (.braced (.fixed rfl) (.fixed rfl))
  | some p =>
    have client := clientName_phrased (above p rfl)
    have parts : "Self \x7b parent: " ++ clientName p.name ++ "::new(input, output) \x7d" =
        "Self " ++
          ("\x7b" ++ (" parent: " ++ clientName p.name ++ "::new(input, output) ") ++ "\x7d") :=
      String.toList_injective (by simp)
    have created : Clause A ("Self \x7b parent: " ++ clientName p.name ++
        "::new(input, output) \x7d") := by
      rw [parts]
      exact .append (.fixed rfl) (.enclosed (.and (.fixed rfl) client rfl))
    refine .seq (.braced (.fixed rfl) (.line created)) (.seq .blank ?_)
    exact .seq (doc_commented (.fixed rfl)) (.braced (.fixed rfl) (.fixed rfl))

theorem clientCode_commented (spelled : Spelled A d.names d.texts)
    (told : legible → ∀ i ∈ serviceLeads d, isDoc i = false) :
    Commented A legible (clientCode o parent d) (clientCode o.bare parent d) := by
  have worded := Service.worded_name spelled
  have client := clientName_phrased worded
  have words := worded.orFeed
  refine .seq (doc_commented (.and (.fixed rfl) words rfl)) (.seq (.fixed rfl) ?_)
  refine .seq (.braced (.and (.fixed rfl) client rfl) ?_) (.seq .blank ?_)
  · cases parent with
    | none => exact .fixed rfl
    | some p => exact .line (.and (.fixed rfl) (clientName_phrased (above p rfl)) rfl)
  refine .seq (.braced (.and (.fixed rfl) client rfl) ?_) (.seq .blank ?_)
  · refine .seq (doc_commented (.fixed rfl))
      (.seq (channelCode_commented above) (.forM fun f member => ?_))
    exact clientFunctionCode_commented (ServiceDecl.spelled_function spelled member) worded
      (functionLeads_subset member told)
  · cases parent with
    | none => exact .nothing
    | some p => exact derefCode_commented client (clientName_phrased (above p rfl))

end Clients

/-! ## Processors -/

section ProcessorFunctions

variable (service : String) (f : FunctionDecl)

instance (call : String) : Sure (runCode service f call) := by
  unfold runCode
  infer_instance

instance (call : String) : Steady (runCode service f call) := by
  unfold runCode
  infer_instance

instance : Steady (processCode s service f) := by
  unfold processCode
  infer_instance

theorem processCode_answer (n : Nat) :
    (processCode s service f n).answer = verdict (f.args.mapM (argCode s)) := by
  simp [processCode, verdict]

theorem processCode_marks : (processCode s service f).Marks 0
    ["fn " ++ Ident.prefixed "process" f.name ++ "("] := by
  unfold processCode
  refine (line_marks (isLandmark_of_opensFunction ?_)).before fun _ => .indent ?_
  · simp [opensFunction, List.isPrefixOf]
  · exact (ofEmitted_plain _).after fun _ => block_plain rfl

variable {s service f} (spelled : Spelled A f.names f.texts)

include spelled

theorem argCode_phrased (words : Spelled A s.names s.texts) {a : Field} (member : a ∈ f.args)
    {code : String} (written : argCode s a = .ok code) : Phrased A code := by
  have field := FunctionDecl.spelled_field spelled (List.mem_append_left _ member)
  have ident := Field.phrased_ident field
  unfold argCode at written
  split at written
  · rename_i v given
    obtain ⟨text, rendered, same⟩ := bind_eq_ok_iff.mp written
    have value := Schema.render_phrased words (Field.worded_type field)
      (fun w inside => field.text w (by simp [Field.texts, given, inside])) rendered
    cases same
    exact .and (.and (.fixed rfl) ident rfl) value rfl
  · cases written
    exact .and (.fixed rfl) ident rfl

theorem runCode_commented {call : String} (named : Worded A service) (called : Clause A call) :
    Commented A legible (runCode service f call) (runCode service f call) := by
  have struct : Phrased A (resultName service f) :=
    (Ident.worded_type (resultStruct_worded spelled named)).phrased
  have captures : Statements A legible (f.throws.map fun t =>
      "let pending = pending.and_then(|err| rt::capture(err, &mut result." ++
        Ident.field t.name ++ "));") := by
    refine .map fun t member => ?_
    have ident := Field.phrased_ident
      (FunctionDecl.spelled_field spelled (List.mem_append_right _ member))
    exact .and (.fixed rfl) ident rfl
  unfold runCode
  split
  · split
    · refine .statements (.cons (.and (.fixed rfl) struct rfl) (.cons ?_ .nil))
      exact .and (.fixed rfl) called.phrased rfl
    · exact .statements (.cons (.and (.fixed rfl) struct rfl) (.cons (called.mark rfl) .nil))
  · refine .seq (.line (.and (.fixed rfl) struct rfl))
      (.braced (.append (.fixed rfl) called.phrased) ?_)
    refine .seq ?_ (.braced (.fixed rfl) (.seq (.fixed rfl) (.seq (.statements captures) ?_)))
    · split <;> exact .fixed rfl
    · exact .braced (.fixed rfl) (.fixed rfl)

theorem processCode_commented (words : Spelled A s.names s.texts)
    (named : Worded A service) (told : legible → ∀ i ∈ functionLeads service f, isDoc i = false) :
    Commented A legible (processCode s service f) (processCode s service f) := by
  have worded := Function.worded_name spelled
  have method := (Ident.worded_field worded).phrased
  have process : Phrased A (Ident.prefixed "process" f.name) :=
    Function.phrased_prefixed spelled rfl
  have quote : Phrased A (quoted f.name) := .quoted worded.orFeed.phrased
  have struct : Phrased A (argsName service f) :=
    (Ident.worded_type (argsStruct_worded spelled named)).phrased
  have begins : legible → isDoc (argsName service f) = false := fun l => told l _ List.mem_cons_self
  have numbers : Clause A ((if f.oneway then "_seq_id" else "seq_id") ++ ": i32,") := by
    split <;> exact .mark (.fixed rfl) rfl
  have outputs : Clause A ((if f.oneway then "_output" else "output") ++
      ": &mut dyn rt::OutputProtocol,") := by
    split <;> exact .mark (.fixed rfl) rfl
  refine .seq (.line (.and (.fixed rfl) process rfl)) (.indented (.statements ?_) ?_)
  · exact .fixed rfl (.cons numbers (.fixed rfl (.cons outputs .nil)))
  refine .given fun args known => ?_
  have passed : Phrased A (", ".intercalate args) := by
    refine .intercalate (.fixed rfl) fun t member => ?_
    obtain ⟨a, inside, written⟩ := exists_of_forall₂ (mapM_eq_ok_iff.mp known) member
    exact argCode_phrased spelled words inside written
  have called : Clause A ("handler." ++ Ident.field f.name ++ "(" ++
      ", ".intercalate args ++ ")") :=
    .and (.and (.fixed rfl) method rfl) passed rfl
  refine .braced (.fixed rfl) (.seq ?_ (.seq (.fixed rfl) ?_))
  · split
    · exact .entry (struct.mark rfl) fun l => isDoc_named (begins l)
        ⟨":read_new(input)?;".toList, by simp⟩
    · exact .line (.append (.fixed rfl) (struct.mark rfl))
  · split
    · split
      · exact .statements (.cons (called.mark rfl) (.fixed rfl .nil))
      · exact .statements (.cons called .nil)
    · refine .seq (runCode_commented spelled named called) (.statements (.cons ?_ ?_))
      · exact .and (.fixed rfl) quote rfl
      · exact .fixed rfl (.fixed rfl (.fixed rfl .nil))

end ProcessorFunctions

section Processors

theorem processorName_phrased {service : String} (named : Worded A service) :
    Phrased A (processorName service) :=
  .mark (Ident.worded_type named).phrased rfl

variable (parent : Option ServiceDecl) (d : ServiceDecl)

instance : Sure (dispatchCode o parent d) := by
  unfold dispatchCode
  infer_instance

instance : Steady (dispatchCode o parent d) := by
  unfold dispatchCode
  infer_instance

theorem dispatchCode_marks : (dispatchCode o parent d).Marks 0 ["pub fn dispatch_call("] := by
  unfold dispatchCode
  refine (doc_plain o _).after fun _ => (line_marks rfl).before fun _ => .indent ?_
  exact block_plain rfl

instance : Steady (processorCode s o parent d) := by
  unfold processorCode
  infer_instance

theorem processorCode_answer (n : Nat) : (processorCode s o parent d n).answer =
    d.functions.forM fun f => verdict (f.args.mapM (argCode s)) := by
  have functions (n : Nat) : (forM d.functions (fun f => do
      blank
      processCode s d.name f) n).answer =
        forM d.functions fun f => verdict (f.args.mapM (argCode s)) := by
    apply answer_forM
    intro f _ n
    simp [processCode_answer]
  simp [processorCode, functions]

theorem processorCode_marks : (processorCode s o parent d).Marks 0
    [opening ("pub struct " ++ processorName d.name ++ "<H>")] := by
  unfold processorCode
  refine (doc_plain o _).after fun _ => (line_plain rfl).after fun _ => ?_
  refine (block_marks (isLandmark_of_opensItem ?_)).before fun _ => blank_plain.after fun _ => ?_
  · simp [opening, opensItem, List.isPrefixOf]
  refine (block_plain ?_).after fun _ => blank_plain.after fun _ => ?_
  · simp [isLandmark, opening, opensItem, opensFunction, makesError, List.isPrefixOf]
  refine (block_plain ?_).after fun _ => blank_plain
  simp [isLandmark, opening, opensItem, opensFunction, makesError, List.isPrefixOf]

def processorMarks : List String :=
  ("pub const METHODS: &'static [&'static str] = &[" ++
      ", ".intercalate (d.functions.map fun f => quoted f.name) ++ "];") ::
    opening "pub fn new(handler: H) -> Self" :: opening "pub fn handler(&self) -> &H" ::
    opening "pub fn handler_mut(&mut self) -> &mut H" :: opening "pub fn into_handler(self) -> H" ::
    "pub fn dispatch_call(" ::
    d.functions.map fun f => "fn " ++ Ident.prefixed "process" f.name ++ "("

theorem processorCode_methods :
    (processorCode s o parent d).Marks 1 (processorMarks d ++ ["fn dispatch("]) := by
  have process : Draft.Marks 0
      (d.functions.map fun f => "fn " ++ Ident.prefixed "process" f.name ++ "(")
      (d.functions.forM fun f => do
        blank
        processCode s d.name f) := by
    rw [List.map_eq_flatMap]
    exact forM_marks d.functions fun f => blank_plain.after fun _ => processCode_marks s d.name f
  unfold processorCode processorMarks
  refine (doc_plain o _).after fun _ => line_above.after fun _ => ?_
  refine Marks.after (Marks.block (line_plain rfl)) fun _ => blank_plain.after fun _ => ?_
  refine Marks.bind (Marks.block ?_) fun _ => blank_plain.after fun _ => ?_
  · refine (doc_plain o _).after fun _ => Marks.cons (line_marks ?_) fun _ => ?_
    · simp [isLandmark, opensItem, List.isPrefixOf]
    refine blank_plain.after fun _ => Marks.cons (block_marks rfl) fun _ => ?_
    refine blank_plain.after fun _ => Marks.cons (block_marks rfl) fun _ => ?_
    refine blank_plain.after fun _ => Marks.cons (block_marks rfl) fun _ => ?_
    refine blank_plain.after fun _ => Marks.cons (block_marks rfl) fun _ => ?_
    exact blank_plain.after fun _ => (dispatchCode_marks o parent d).cons fun _ => process
  · refine Marks.before (Marks.block ?_) fun _ => blank_plain
    exact (line_marks rfl).before fun _ => .indent (block_plain rfl)

variable {s o parent d} (spelled : Spelled A d.names d.texts)
  (above : ∀ p, parent = some p → Worded A p.name)

include spelled above

theorem dispatchCode_commented
    (told : legible → ∀ p, parent = some p → isDoc (processorName p.name) = false) :
    Commented A legible (dispatchCode o parent d) (dispatchCode o.bare parent d) := by
  have fallback : Phrased A (fallbackCode parent) ∧
      (legible → isDoc (fallbackCode parent) = false) := by
    cases parent with
    | none => exact ⟨.fixed rfl, fun _ => by decide⟩
    | some p =>
      refine ⟨.mark (processorName_phrased (above p rfl)) rfl,
        fun l => isDoc_named (told l p rfl) ?_⟩
      exact ⟨":<H>::dispatch_call(handler, header, input, output)".toList, by simp [fallbackCode]⟩
  obtain ⟨phrased, begins⟩ := fallback
  have arms : Statements A legible (d.functions.map fun f => quoted f.name ++ " => Self::" ++
      Ident.prefixed "process" f.name ++ "(handler, header.seq_id, input, output)?,") := by
    refine .map fun f member => ?_
    have function := ServiceDecl.spelled_function spelled member
    have process : Phrased A (Ident.prefixed "process" f.name) :=
      Function.phrased_prefixed function rfl
    have quote : Clause A (quoted f.name) :=
      ⟨.quoted (Function.worded_name function).orFeed.phrased, .quoted _⟩
    exact .and (quote.mark rfl) process rfl
  refine .seq (doc_commented (.append (.fixedLines rfl) (.fixed rfl))) (.seq (.fixed rfl) ?_)
  refine .indented (.statements ?_) (.braced (.fixed rfl) ?_)
  · exact .fixed rfl (.fixed rfl (.fixed rfl (.fixed rfl .nil)))
  split
  · refine .seq (.statements ?_) (.entry phrased begins)
    split
    · exact .fixed rfl .nil
    · exact .nil
  · refine .seq (.braced (.fixed rfl) (.seq (.statements arms) (.line ?_))) (.fixed rfl)
    exact .and (.fixed rfl) phrased rfl

theorem processorCode_commented (words : Spelled A s.names s.texts)
    (told : legible → ∀ i ∈ serviceLeads d, isDoc i = false)
    (below : legible → ∀ p, parent = some p → isDoc (processorName p.name) = false) :
    Commented A legible (processorCode s o parent d) (processorCode s o.bare parent d) := by
  have worded := Service.worded_name spelled
  have trait := traitName_phrased worded
  have processor := processorName_phrased worded
  have text := worded.orFeed
  have methods : Phrased A (", ".intercalate (d.functions.map fun f => quoted f.name)) := by
    refine .intercalate (.fixed rfl) fun t member => ?_
    obtain ⟨f, inside, rfl⟩ := List.mem_map.mp member
    have function := ServiceDecl.spelled_function spelled inside
    exact .quoted (Function.worded_name function).orFeed.phrased
  refine .seq (doc_commented (.and (.fixed rfl) text rfl)) (.seq (.fixed rfl) ?_)
  refine .seq (.braced (.and (.fixed rfl) processor rfl) (.fixed rfl)) (.seq .blank ?_)
  refine .seq (.braced (.and (.and (.fixed rfl) trait rfl) processor rfl) ?_) (.seq .blank ?_)
  · refine .seq (doc_commented (.fixed rfl)) (.seq (.line (.and (.fixed rfl) methods rfl))
      (.seq .blank ?_))
    refine .seq (.braced (.fixed rfl) (.fixed rfl)) (.seq .blank ?_)
    refine .seq (.braced (.fixed rfl) (.fixed rfl)) (.seq .blank ?_)
    refine .seq (.braced (.fixed rfl) (.fixed rfl)) (.seq .blank ?_)
    refine .seq (.braced (.fixed rfl) (.fixed rfl)) (.seq .blank ?_)
    refine .seq (dispatchCode_commented spelled above below) ?_
    refine .forM fun f member => .seq .blank ?_
    exact processCode_commented (ServiceDecl.spelled_function spelled member) words worded
      (functionLeads_subset member told)
  · refine .seq (.braced (.and (.and (.fixed rfl) trait rfl) processor rfl) ?_) .blank
    refine .seq (.fixed rfl) (.indented (.statements ?_) (.braced (.fixed rfl) (.fixed rfl)))
    exact .fixed rfl (.fixed rfl (.fixed rfl (.fixed rfl .nil)))

end Processors

/-! ## Services -/

section Services

variable (d : ServiceDecl)

instance : Steady (serviceCode s o d) := by
  unfold serviceCode
  infer_instance

/-- A service stops at a missing parent, then at the structs of its functions, then at a default
that a handler would receive. -/
def serviceVerdict : Emitted Unit := do
  let _ ← ofSchema (s.parentOf d)
  helpersVerdict s d
  d.functions.forM fun f => verdict (f.args.mapM (argCode s))

theorem serviceCode_answer (n : Nat) : (serviceCode s o d n).answer = serviceVerdict s d := by
  simp [serviceCode, serviceVerdict, helpersCode_answer, processorCode_answer]

def serviceMarks (parent : Option ServiceDecl) : List String :=
  d.functions.flatMap (helperMarks d.name) ++ [interfaceMark parent d,
    opening ("pub struct " ++ clientName d.name ++ "<I, O>"),
    opening ("pub struct " ++ processorName d.name ++ "<H>")]

theorem serviceCode_marks {parent : Option ServiceDecl} (found : s.parentOf d = .ok parent) :
    (serviceCode s o d).Marks 0 (serviceMarks d parent) := by
  unfold serviceCode
  rw [found]
  exact (helpersCode_marks s o d).bind fun _ => (interfaceCode_marks o parent d).cons fun _ =>
    (clientCode_marks o parent d).cons fun _ => processorCode_marks s o parent d

variable {s o d}

omit usual in
theorem mem_of_parentOf {p : ServiceDecl} (found : s.parentOf d = .ok (some p)) :
    p ∈ s.services := by
  unfold Schema.parentOf at found
  split at found
  · cases found
  · split at found
    · rename_i looked
      cases found
      exact List.mem_reverse.mp (List.mem_of_find?_eq_some looked)
    · cases found

theorem serviceCode_commented (words : Spelled A s.names s.texts)
    (spelled : Spelled A d.names d.texts) (told : legible → ∀ i ∈ serviceLeads d, isDoc i = false)
    (below : legible → ∀ p ∈ s.services, isDoc (processorName p.name) = false) :
    Commented A legible (serviceCode s o d) (serviceCode s o.bare d) := by
  refine .given fun parent found => ?_
  have declared : ∀ p, parent = some p → p ∈ s.services := by
    rintro p rfl
    exact mem_of_parentOf (ofSchema_eq_ok_iff.mp found)
  have above : ∀ p, parent = some p → Worded A p.name := fun p known =>
    Service.worded_name (Schema.spelled_service words (declared p known))
  refine .seq (helpersCode_commented spelled words told)
    (.seq (interfaceCode_commented spelled above) ?_)
  refine .seq (clientCode_commented above spelled told) ?_
  exact processorCode_commented spelled above words told fun l p known =>
    below l p (declared p known)

end Services

end Idl.Code
