import Idl.Document.Xml
import Idl.Schema.Decl

/-!
# Declarations in structural documents

Typedefs become simple types, structs become complex types, and fields become elements of them.
-/

set_option autoImplicit false

namespace Idl.Document

def typeName : Ty → String
  | .typedef name _ | .struct name | .exception name => name
  | .void => "void"
  | .string => "xsd:string"
  | .bool => "xsd:boolean"
  | .byte => "xsd:byte"
  | .i16 => "xsd:short"
  | .i32 | .enum _ => "xsd:int"
  | .i64 => "xsd:long"
  | .double => "xsd:decimal"
  | .list _ | .set _ | .map _ _ => "container"

structure Occurs where
  optional : Bool := false
  nillable : Bool := false
  /-- The element is repeated inside a list. -/
  repeated : Bool := false

def Occurs.attributes (o : Occurs) : Attributes :=
  (if o.optional || o.repeated then [("minOccurs", "0")] else []) ++
    (if o.repeated then [("maxOccurs", "unbounded")] else []) ++
    (if o.nillable then [("nillable", "true")] else [])

def attributeEvents (fields : List Field) : List Event :=
  fields.map fun f => .empty "xsd:attribute" [("name", f.name), ("type", typeName f.ty)]

def itemName (name : String) : Ty → String
  | .typedef own _ => own
  | .struct target | .exception target => target
  | _ => name ++ "_elt"

def elementFrom (name ref : String) (attributes : Option (List Field)) (occurs : Occurs) :
    Ty → List Event
  | .typedef _ target => elementFrom name ref attributes occurs target
  | .void =>
    element "xsd:element" (("name", name) :: occurs.attributes)
      (match attributes with
       | none => [.empty "xsd:complexType" []]
       | some fields => element "xsd:complexType" [] (attributeEvents fields))
  | .list item =>
    element "xsd:element" (("name", name) :: occurs.attributes)
      (element "xsd:complexType" []
        (element "xsd:sequence" [("minOccurs", "0"), ("maxOccurs", "unbounded")]
          (elementFrom (itemName name item) (typeName item) none { repeated := true } item) ++
          .empty "xsd:attribute" [("name", "list"), ("type", "xsd:boolean")] ::
          attributeEvents (attributes.getD [])))
  | _ =>
    match attributes with
    | none => [.empty "xsd:element" (("name", name) :: ("type", ref) :: occurs.attributes)]
    | some fields =>
      element "xsd:element" (("name", name) :: occurs.attributes)
        (element "xsd:complexType" []
          (element "xsd:complexContent" []
            (element "xsd:extension" [("base", ref)] (attributeEvents fields))))

def elementEvents (name : String) (ty : Ty) (attributes : Option (List Field)) (occurs : Occurs) :
    List Event :=
  elementFrom name (typeName ty) attributes occurs ty

def typedefEvents (d : TypedefDecl) : List Event :=
  let base : Attributes := [("base", typeName d.target)]
  element "xsd:simpleType" [("name", d.name)]
    (match d.choices with
     | some choices =>
       if d.target.resolve = .string then
         element "xsd:restriction" base
           (choices.map fun c => .empty "xsd:enumeration" [("value", c)])
       else [.empty "xsd:restriction" base]
     | none => [.empty "xsd:restriction" base])

def fieldEvents (unordered : Bool) (f : Field) : List Event :=
  elementEvents f.name f.ty f.attributes
    { optional := f.optional || unordered, nillable := f.nillable }

def structEvents (d : StructDecl) : List Event :=
  element "xsd:complexType" [("name", d.name)]
    (element (if d.unordered then "xsd:all" else "xsd:sequence") []
      (d.fields.flatMap (fieldEvents d.unordered)))

def schemaAttributes : Option String → Attributes
  | none => []
  | some target =>
    if target = "" then []
    else [("targetNamespace", target), ("xmlns", target), ("elementFormDefault", "qualified")]

/-- The beginning of a document; the element it opens is still to be finished. -/
def schemaStart (target : Option String) : List Event :=
  [.declaration, .start "xsd:schema"
    (("xmlns:xsd", "http://www.w3.org/2001/XMLSchema") :: schemaAttributes target)]

end Idl.Document
