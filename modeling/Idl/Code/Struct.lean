import Idl.Code.Codec
import Idl.Code.Literal

/-!
# Structs and exceptions

The type, its default value, and the functions that read and write it.
-/

set_option autoImplicit false

namespace Idl.Code

open Emit Draft

structure Options where
  runtime : String := "::ironidl_core"
  banner : Bool := true
  docs : Bool := true

def doc (o : Options) (text : String) : Draft Unit :=
  if o.docs then lines (commentLines "///" text) else lines []

def definitionCode (o : Options) (d : StructDecl) : Draft Unit := do
  doc o ((if d.isException then "Exception" else "Struct") ++ " `" ++ d.name ++ "`.")
  line "#[derive(Debug, Clone, PartialEq, Eq, Hash, PartialOrd, Ord)]"
  line ("pub struct " ++ Ident.type d.name ++ " \x7b")
  indent
  d.fields.forM fun f => do
    doc o ("Field " ++ toString f.id ++ ": `" ++ f.ty.display ++ "`.")
    line ("pub " ++ Ident.field f.name ++ ": Option<" ++ f.ty.code ++ ">,")
  dedent
  line "\x7d"
  blank

def defaultCode (s : Schema) (f : Field) : Emitted String :=
  match f.default with
  | none => .ok "None"
  | some v => do .ok ("Some(" ++ (← s.render f.ty v) ++ ")")

def selfCode (fields : List Field) (value : Field → Emitted String) : Draft Unit :=
  if fields.isEmpty then line "Self \x7b\x7d"
  else block "Self" "" do
    fields.forM fun f => do
      let v ← ofEmitted (value f)
      line (Ident.field f.name ++ ": " ++ v ++ ",")

def defaultImplCode (s : Schema) (d : StructDecl) : Draft Unit := do
  block ("impl Default for " ++ Ident.type d.name) "" do
    block "fn default() -> Self" "" (selfCode d.fields (defaultCode s))
  blank

def absentCode (o : Options) (d : StructDecl) : Draft Unit := do
  doc o "Returns a value with every field absent, ignoring declared defaults."
  block "pub fn absent() -> Self" "" (selfCode d.fields fun _ => .ok "None")

def readNewCode (o : Options) : Draft Unit := do
  doc o "Decodes a fresh value. Fields missing on the wire stay `None`."
  block "pub fn read_new<P: rt::InputProtocol + ?Sized>(input: &mut P) -> rt::Result<Self>" ""
    (lines ["let mut value = Self::absent();", "value.read(input)?;", "Ok(value)"])

def readArmCode (f : Field) : Draft Unit :=
  block (toString f.id ++ " if field.kind == " ++ f.ty.kindCode ++ " =>") "" do
    let value ← tmp "_val"
    readCode f.ty value
    line ("self." ++ Ident.field f.name ++ " = Some(" ++ value ++ ");")

def readFieldsCode (fields : List Field) : Draft Unit :=
  if fields.isEmpty then line "input.skip(field.kind)?;"
  else block "match field.id" "" do
    fields.forM readArmCode
    line "_ => input.skip(field.kind)?,"

def readFnCode (o : Options) (d : StructDecl) : Draft Unit := do
  doc o ("Reads fields into `self`, skipping unknown or mistyped ones. " ++
    "Fields not on the wire keep their current value.")
  block "pub fn read<P: rt::InputProtocol + ?Sized>(&mut self, input: &mut P) -> rt::Result<()>"
      "" do
    line "input.read_struct_begin()?;"
    block "loop" "" do
      line "let field = input.read_field_begin()?;"
      block "if field.kind == rt::WireKind::Stop" "" (line "break;")
      readFieldsCode d.fields
      line "input.read_field_end()?;"
    line "input.read_struct_end()"

def writeFieldCode (f : Field) : Draft Unit :=
  block ("if let Some(value) = &self." ++ Ident.field f.name) "" do
    line ("output.write_field_begin(&rt::FieldHeader::new(" ++ Text.quoted f.name ++ ", " ++
      f.ty.kindCode ++ ", " ++ toString f.id ++ "))?;")
    writeCode f.ty "value"
    line "output.write_field_end()?;"

def writeFnCode (o : Options) (d : StructDecl) : Draft Unit := do
  doc o "Writes every present field in declaration order."
  block "pub fn write<P: rt::OutputProtocol + ?Sized>(&self, output: &mut P) -> rt::Result<()>"
      "" do
    line "output.write_struct_begin(Self::NAME)?;"
    d.fields.forM writeFieldCode
    line "output.write_field_stop()?;"
    line "output.write_struct_end()"

def errorImplCode (name : String) : Draft Unit := do
  line ("impl ::std::fmt::Display for " ++ name ++ " \x7b")
  indent
  lines ["fn fmt(&self, f: &mut ::std::fmt::Formatter<'_>) -> ::std::fmt::Result \x7b",
    "    write!(f, \"\x7b\x7d: \x7b:?\x7d\", Self::NAME, self)", "\x7d"]
  dedent
  line "\x7d"
  blank
  line ("impl ::std::error::Error for " ++ name ++ " \x7b\x7d")
  blank

def structBodyCode (s : Schema) (o : Options) (d : StructDecl) : Draft Unit := do
  definitionCode o d
  defaultImplCode s d
  block ("impl " ++ Ident.type d.name) "" do
    line ("pub const NAME: &'static str = " ++ Text.quoted d.name ++ ";")
    blank
    absentCode o d
    blank
    readNewCode o
    blank
    readFnCode o d
    blank
    writeFnCode o d
  blank
  if d.isException then errorImplCode (Ident.type d.name) else lines []

/-- A field without a value refuses the struct before anything is written. -/
def structCode (s : Schema) (o : Options) (d : StructDecl) : Draft Unit :=
  match d.fields.find? (·.ty.containsVoid) with
  | some f => fail (.schema (.voidField d.name f.name))
  | none => structBodyCode s o d

end Idl.Code
