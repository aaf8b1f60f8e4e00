import Idl.Proofs.Code.Generation
import Idl.Proofs.Document.Reader
import Idl.Proofs.Order

/-!
# Elements of documents

The tags of a document open and close elements. Put together they are trees, if every end tag closes
the element that was opened last and nothing stays open. A document is one such tree, whatever the
schema declares and however its types are nested, and below the root stand the declarations of the
schema and the functions and exceptions of the service, each under its name.
-/

set_option autoImplicit false

namespace Idl.Document

inductive Tree where
  | node (tag : String) (attributes : Attributes) (children : List Tree)

namespace Tree

def tag : Tree → String
  | node tag _ _ => tag

def attributes : Tree → Attributes
  | node _ attributes _ => attributes

def children : Tree → List Tree
  | node _ _ children => children

def Named (tag name : String) (t : Tree) : Prop :=
  t.tag = tag ∧ ∃ value others, t.attributes = ("name", value) :: others ∧
    unescape value.toList = some name.toList

end Tree

structure Frame where
  tag : String
  attributes : Attributes
  before : List Tree

/-- Puts elements together from tags. The elements in `outer` are open, the innermost first, and
`done` is what stands complete in the innermost one. -/
def build : List Frame → List Tree → List Event → Option (List Tree)
  | [], done, [] => some done
  | _ :: _, _, [] => none
  | outer, done, .start tag attributes :: rest => build (⟨tag, attributes, done⟩ :: outer) [] rest
  | outer, done, .empty tag attributes :: rest =>
    build outer (done ++ [.node tag attributes []]) rest
  | [], _, .finish _ :: _ => none
  | frame :: outer, done, .finish tag :: rest =>
    if tag = frame.tag then build outer (frame.before ++ [.node tag frame.attributes done]) rest
    else none
  | outer, done, .comment _ :: rest => build outer done rest
  | _, _, .declaration :: _ => none

/-- Events that can be told from their text and that are these elements, wherever they stand. -/
structure Forms (es : List Event) (ts : List Tree) : Prop where
  writable : ∀ e ∈ es, e.Writable
  builds : ∀ outer done rest,
    build outer done (es.map Event.raw ++ rest) = build outer (done ++ ts) rest

namespace Forms

variable {es es' : List Event} {ts ts' : List Tree}

theorem nil : Forms [] [] where
  writable := by simp
  builds := by simp

theorem append (first : Forms es ts) (second : Forms es' ts') : Forms (es ++ es') (ts ++ ts') where
  writable := List.forall_mem_append.mpr ⟨first.writable, second.writable⟩
  builds outer done rest := by
    rw [List.map_append, List.append_assoc, first.builds, second.builds, List.append_assoc]

theorem comment {text : String} (unclosed : (Event.comment text).Writable) :
    Forms [.comment text] [] where
  writable := by simpa using unclosed
  builds outer done rest := by simp [Event.raw, build]

theorem empty {tag : String} {attributes : Attributes} (plain : isPlain tag = true)
    (keys : attributes.arePlain = true) :
    Forms [.empty tag attributes] [.node tag attributes.raw []] where
  writable := by simpa using ⟨plain, keys⟩
  builds outer done rest := by simp [Event.raw, build]

theorem element {tag : String} {attributes : Attributes} (plain : isPlain tag = true)
    (keys : attributes.arePlain = true) (body : Forms es ts) :
    Forms (element tag attributes es) [.node tag attributes.raw ts] where
  writable := by
    intro e member
    rcases List.mem_append.mp member with inside | last
    · rcases List.mem_cons.mp inside with rfl | inside
      · exact ⟨plain, keys⟩
      · exact body.writable e inside
    · rw [List.mem_singleton.mp last]
      exact plain
  builds outer done rest := by
    simp [Document.element, Event.raw, build, body.builds]

end Forms

variable {α : Type}

theorem forms_flatMap {each : α → List Event} {R : α → Tree → Prop} (as : List α)
    (forms : ∀ a, ∃ t, Forms (each a) [t] ∧ R a t) :
    ∃ ts, Forms (as.flatMap each) ts ∧ List.Forall₂ R as ts := by
  induction as with
  | nil => exact ⟨[], .nil, .nil⟩
  | cons a as ih =>
    obtain ⟨t, first, related⟩ := forms a
    obtain ⟨ts, others, all⟩ := ih
    exact ⟨t :: ts, first.append others, .cons related all⟩

theorem forms_map {tag : String} {attributes : α → Attributes} (plain : isPlain tag = true)
    (keys : ∀ a, (attributes a).arePlain = true) (as : List α) :
    Forms (as.map fun a => .empty tag (attributes a))
      (as.map fun a => .node tag (attributes a).raw []) := by
  induction as with
  | nil => exact .nil
  | cons a as ih => exact (Forms.empty plain (keys a)).append ih

theorem named_node {tag : String} (name : String) (others : Attributes) (children : List Tree) :
    (Tree.node tag (Attributes.raw (("name", name) :: others)) children).Named tag name :=
  ⟨rfl, escape name, others.raw, rfl, unescape_escape name⟩

theorem occurs_plain (o : Occurs) : o.attributes.arePlain = true := by
  obtain ⟨optional, nillable, repeated⟩ := o
  cases optional <;> cases nillable <;> cases repeated <;> decide

theorem arePlain_cons {key value : String} {others : Attributes} (plain : isPlain key = true)
    (rest : others.arePlain = true) : Attributes.arePlain ((key, value) :: others) = true := by
  rw [Attributes.arePlain, List.all_cons, Bool.and_eq_true]
  exact ⟨plain, rest⟩

theorem attributeEvents_forms (fields : List Field) : ∃ ts, Forms (attributeEvents fields) ts := by
  have keys (f : Field) : Attributes.arePlain [("name", f.name), ("type", typeName f.ty)] = true :=
    arePlain_cons rfl (arePlain_cons rfl rfl)
  exact ⟨_, forms_map rfl keys fields⟩

theorem Forms.named {es : List Event} {ts : List Tree} (body : Forms es ts) (name : String)
    (occurs : Occurs) :
    ∃ t, Forms (Document.element "xsd:element" (("name", name) :: occurs.attributes) es) [t] ∧
      t.Named "xsd:element" name :=
  ⟨_, .element rfl (arePlain_cons rfl (occurs_plain occurs)) body, named_node name _ _⟩

theorem referring_forms (name ref : String) (attributes : Option (List Field)) (occurs : Occurs) :
    ∃ t, Forms (match attributes with
      | none => [.empty "xsd:element" (("name", name) :: ("type", ref) :: occurs.attributes)]
      | some fields =>
        element "xsd:element" (("name", name) :: occurs.attributes)
          (element "xsd:complexType" []
            (element "xsd:complexContent" []
              (element "xsd:extension" [("base", ref)] (attributeEvents fields))))) [t] ∧
      t.Named "xsd:element" name := by
  cases attributes with
  | none =>
    have keys := occurs_plain occurs
    exact ⟨_, .empty rfl (arePlain_cons rfl (arePlain_cons rfl keys)), named_node name _ _⟩
  | some fields =>
    obtain ⟨ts, inner⟩ := attributeEvents_forms fields
    have extension : Forms (element "xsd:extension" [("base", ref)] (attributeEvents fields)) _ :=
      .element rfl (arePlain_cons rfl rfl) inner
    have content : Forms (element "xsd:complexType" [] (element "xsd:complexContent" []
        (element "xsd:extension" [("base", ref)] (attributeEvents fields)))) _ :=
      .element rfl rfl (.element rfl rfl extension)
    exact content.named name occurs

theorem elementFrom_forms (ty : Ty) (name ref : String) (attributes : Option (List Field))
    (occurs : Occurs) :
    ∃ t, Forms (elementFrom name ref attributes occurs ty) [t] ∧ t.Named "xsd:element" name := by
  induction ty generalizing name ref attributes occurs with
  | typedef own target ih => exact ih name ref attributes occurs
  | void =>
    cases attributes with
    | none =>
      have inner : Forms [.empty "xsd:complexType" []] _ := .empty rfl rfl
      exact inner.named name occurs
    | some fields =>
      obtain ⟨ts, given⟩ := attributeEvents_forms fields
      have inner : Forms (element "xsd:complexType" [] (attributeEvents fields)) _ :=
        .element rfl rfl given
      exact inner.named name occurs
  | list item ih =>
    obtain ⟨t, repeated, -⟩ := ih (itemName name item) (typeName item) none { repeated := true }
    obtain ⟨ts, others⟩ := attributeEvents_forms (attributes.getD [])
    have flag : Forms [.empty "xsd:attribute" [("name", "list"), ("type", "xsd:boolean")]] _ :=
      .empty rfl (arePlain_cons rfl (arePlain_cons rfl rfl))
    have sequence : Forms (element "xsd:sequence"
        [("minOccurs", "0"), ("maxOccurs", "unbounded")] _) _ :=
      .element rfl (arePlain_cons rfl (arePlain_cons rfl rfl)) repeated
    have content : Forms (element "xsd:complexType" [] _) _ :=
      .element rfl rfl (sequence.append (flag.append others))
    exact content.named name occurs
  | _ => exact referring_forms name ref attributes occurs

theorem typedefEvents_forms (d : TypedefDecl) :
    ∃ t, Forms (typedefEvents d) [t] ∧ t.Named "xsd:simpleType" d.name := by
  obtain ⟨name, target, choices⟩ := d
  have base : Attributes.arePlain [("base", typeName target)] = true := arePlain_cons rfl rfl
  have named {es : List Event} {ts : List Tree} (body : Forms es ts) :
      ∃ t, Forms (element "xsd:simpleType" [("name", name)] es) [t] ∧
        t.Named "xsd:simpleType" name :=
    ⟨_, .element rfl (arePlain_cons rfl rfl) body, named_node name [] ts⟩
  have unrestricted : Forms [.empty "xsd:restriction" [("base", typeName target)]] _ :=
    .empty rfl base
  cases choices with
  | none => exact named unrestricted
  | some choices =>
    have keys (c : String) : Attributes.arePlain [("value", c)] = true := arePlain_cons rfl rfl
    have restricted : Forms (element "xsd:restriction" [("base", typeName target)]
        (choices.map fun c => .empty "xsd:enumeration" [("value", c)])) _ :=
      .element rfl base (forms_map rfl keys choices)
    unfold typedefEvents
    dsimp only
    split
    · exact named restricted
    · exact named unrestricted

/-- The element of a struct: one group, and in it one element for each field, in order. -/
def Tree.IsStruct (d : StructDecl) (t : Tree) : Prop :=
  t.Named "xsd:complexType" d.name ∧ ∃ group, t.children = [group] ∧
    group.tag = (if d.unordered then "xsd:all" else "xsd:sequence") ∧
    List.Forall₂ (fun (f : Field) c => c.Named "xsd:element" f.name) d.fields group.children

theorem structEvents_forms (d : StructDecl) :
    ∃ t, Forms (structEvents d) [t] ∧ t.IsStruct d := by
  obtain ⟨ts, fields, named⟩ := forms_flatMap d.fields fun f =>
    elementFrom_forms f.ty f.name (typeName f.ty) f.attributes
      { optional := f.optional || d.unordered, nillable := f.nillable }
  have plain : isPlain (if d.unordered then "xsd:all" else "xsd:sequence") = true := by
    split <;> rfl
  have group : Forms (element _ [] _) _ := .element plain rfl fields
  exact ⟨_, .element rfl (arePlain_cons rfl rfl) group, named_node d.name [] _, _, rfl, rfl, named⟩

theorem infix_of_infix_append {mark front rest : List Char}
    (foreign : (front.all fun c => c ∉ mark) = true) (holds : mark <:+: front ++ rest) :
    mark <:+: rest := by
  induction front with
  | nil => exact holds
  | cons c front ih =>
    rw [List.all_cons, Bool.and_eq_true, decide_eq_true_eq] at foreign
    rcases List.infix_cons_iff.mp holds with first | later
    · cases mark with
      | nil => exact List.nil_infix
      | cons d mark =>
        rw [(List.cons_prefix_cons.mp first).1] at foreign
        exact absurd List.mem_cons_self foreign.1
    · exact ih foreign.2 later

theorem headerComment_writable {name : String} (closed : ¬ "-->".toList <:+: name.toList) :
    (Event.comment ("Generated by ironidl from schema " ++ name ++ ". Do not edit.")).Writable := by
  intro holds
  have parts :
      (" " ++ ("Generated by ironidl from schema " ++ name ++ ". Do not edit.") ++ " ").toList =
        " Generated by ironidl from schema ".toList ++
          (name.toList ++ ". Do not edit. ".toList) := by
    simp
  rw [parts] at holds
  have later := infix_of_infix_append (by decide) holds
  rw [← List.reverse_infix, List.reverse_append] at later
  have within := infix_of_infix_append (by decide) later
  exact closed (List.reverse_infix.mp within)

theorem thrown_names (d : ServiceDecl) : Ascending orderTexts ((thrown d).map Prod.fst) ∧
    ∀ name, name ∈ (thrown d).map Prod.fst ↔ ∃ f ∈ d.functions, ∃ x ∈ f.throws, x.name = name := by
  constructor
  · exact entries_ascend orderTexts _
  · intro name
    rw [thrown, mem_entries_keys]
    simp

/-- What a document says of a service: every type of the schema, the response of every function and
everything that is thrown. -/
def Tree.Outlines (schema : Schema) (d : ServiceDecl) (root : Tree) : Prop :=
  root.tag = "xsd:schema" ∧ ∃ typedefs structs responses exceptions names,
    root.children = typedefs ++ structs ++ responses ++ exceptions ∧
    List.Forall₂ (fun (t : TypedefDecl) c => c.Named "xsd:simpleType" t.name)
      schema.typedefs typedefs ∧
    List.Forall₂ (fun r c => c.IsStruct r) schema.structs structs ∧
    List.Forall₂ (fun (f : FunctionDecl) c => c.Named "xsd:element" (f.name ++ "_response"))
      d.functions responses ∧
    List.Forall₂ (fun name c => c.Named "xsd:element" name) names exceptions ∧
    Ascending orderTexts names ∧
    ∀ name, name ∈ names ↔ ∃ f ∈ d.functions, ∃ x ∈ f.throws, x.name = name

theorem schemaAttributes_plain (target : Option String) :
    (schemaAttributes target).arePlain = true := by
  cases target with
  | none => rfl
  | some target =>
    rw [schemaAttributes]
    split
    · rfl
    · exact arePlain_cons rfl (arePlain_cons rfl (arePlain_cons rfl rfl))

theorem serviceEvents_forms (schema : Schema) (d : ServiceDecl) (units : List Emit.OutputUnit)
    (closed : ¬ "-->".toList <:+: schema.name.toList) :
    ∃ markup root, serviceEvents ⟨schema.typedefs, schema.structs, units⟩ schema d =
      .declaration :: markup ∧ Forms markup [root] ∧ root.Outlines schema d := by
  obtain ⟨typedefs, typedefsForm, simple⟩ := forms_flatMap schema.typedefs typedefEvents_forms
  obtain ⟨structs, structsForm, complex⟩ := forms_flatMap schema.structs structEvents_forms
  obtain ⟨responses, responsesForm, answers⟩ := forms_flatMap d.functions fun f =>
    elementFrom_forms f.returns (f.name ++ "_response") (typeName f.returns) none {}
  obtain ⟨exceptions, exceptionsForm, throws⟩ := forms_flatMap (thrown d) fun e =>
    elementFrom_forms e.2 e.1 (typeName e.2) none {}
  have body := (Forms.comment (headerComment_writable closed)).append
    (((typedefsForm.append structsForm).append responsesForm).append exceptionsForm)
  obtain ⟨space, start⟩ : ∃ space, schemaStart schema.targetNamespace = [.declaration,
      .start "xsd:schema" (("xmlns:xsd", space) :: schemaAttributes schema.targetNamespace)] :=
    ⟨_, rfl⟩
  have keys : Attributes.arePlain
      (("xmlns:xsd", space) :: schemaAttributes schema.targetNamespace) = true :=
    arePlain_cons rfl (schemaAttributes_plain schema.targetNamespace)
  refine ⟨_, _, ?_, Forms.element rfl keys body, rfl, typedefs, structs, responses, exceptions,
    (thrown d).map Prod.fst, rfl, simple, complex, answers, List.forall₂_map_left_iff.mpr throws,
    thrown_names d⟩
  simp only [serviceEvents, start, element, List.append_assoc, List.cons_append, List.nil_append]
  rfl

/-- The unit is the document of a service. It reads as a declaration and one element, in which every
end tag closes what was opened last. No attribute value holds a character that would end it or begin
a tag. -/
def IsDocument (schema : Schema) (d : ServiceDecl) (unit : Emit.OutputUnit) : Prop :=
  unit.path = d.name ++ ".xsd" ∧ ∃ markup root, scan unit.contents = some (.declaration :: markup) ∧
    build [] [] markup = some [root] ∧ (∀ e ∈ markup, ∀ a ∈ e.attributes, Clean a.2.toList) ∧
    root.Outlines schema d

theorem serviceUnit_isDocument (width : Nat) {schema : Schema}
    (closed : ¬ "-->".toList <:+: schema.name.toList) (d : ServiceDecl) :
    IsDocument schema d (serviceUnit width schema d) := by
  obtain ⟨markup, root, events, forms, outlines⟩ := serviceEvents_forms schema d [] closed
  have readable : ∀ e ∈ Event.declaration :: markup, e.Writable :=
    List.forall_mem_cons.mpr ⟨trivial, forms.writable⟩
  refine ⟨rfl, markup.map Event.raw, root, ?_, ?_, ?_, outlines⟩
  · rw [serviceUnit, events, scan_document width readable]
    rfl
  · have whole := forms.builds [] [] []
    rwa [List.append_nil] at whole
  · intro e member
    obtain ⟨written, -, rfl⟩ := List.mem_map.mp member
    exact clean_raw written

/-- Whatever was emitted before, a pass gives a document for every service, in order. All that this
needs is that the name of the schema does not end the comment in which it is written. -/
theorem documents_well_formed (width : Nat) (schema : Schema)
    (closed : ¬ "-->".toList <:+: schema.name.toList) (state : State) :
    ∃ units, (emitter width).units state schema = .ok units ∧
      List.Forall₂ (IsDocument schema) schema.services units := by
  have pass : (emitter width).units state schema = generate width schema := rfl
  refine ⟨_, pass.trans (generate_eq width schema), List.forall₂_map_right_iff.mpr ?_⟩
  rw [List.forall₂_same]
  intro d _
  exact serviceUnit_isDocument width closed d

def lost : Field :=
  { id := 1, name := "lost", ty := .exception "Lost" }

def counter : ServiceDecl :=
  { name := "Counter"
    functions := [{ name := "send", returns := .void, throws := [lost] },
      { name := "fetch", returns := .list (.list .i32)
        throws := [lost, { id := 2, name := "broken\" <", ty := .exception "Lost" }] }] }

def parcels : Schema where
  name := "a->b --"
  targetNamespace := some "urn:\"parcels\"&more"
  typedefs := [{ name := "kind<'>", target := .string, choices := some ["&", "\"/>"] }]
  structs := [{ name := "Lost", isException := true },
    { name := "box", unordered := true
      fields :=
        [{ id := 1, name := "></xsd:all>", ty := .list <| Ty.typedef "rows" (.list .bool) }] }]
  services := [counter]

theorem documents_well_formed_parcels : ¬ "-->".toList <:+: parcels.name.toList ∧
    ∃ unit, (emitter 2).units {} parcels = .ok [unit] ∧ IsDocument parcels counter unit := by
  have closed : ¬ "-->".toList <:+: parcels.name.toList := by decide
  obtain ⟨units, pass, documents⟩ := documents_well_formed 2 parcels closed {}
  cases documents with
  | cons document rest =>
    cases rest
    exact ⟨closed, _, pass, document⟩

end Idl.Document
