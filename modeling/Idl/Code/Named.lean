import Idl.Code.Struct

/-!
# Enums, typedefs and constants

An enum is a number with named constants, so that a number without a name stays a value of the
enum. A typedef is an alias. A constant of a simple type is a constant, a text is a borrowed
text, and any other constant is built when it is first used.
-/

set_option autoImplicit false

namespace Idl.Code

open Emit Draft

def nameFnCode : Draft Unit := do
  line "pub fn name(self) -> Option<&'static str> \x7b"
  indent
  line "Self::VALUES"
  indent
  lines [".iter()", ".find(|(_, v)| *v == self)", ".map(|(n, _)| *n)"]
  dedent
  dedent
  line "\x7d"

def enumMembersCode (o : Options) (d : EnumDecl) : Draft Unit := do
  lines (d.numbered.map fun (n, v) =>
    "pub const " ++ Ident.constant n ++ ": Self = Self(" ++ toString v ++ ");")
  lines (if d.values.isEmpty then [] else [""])
  doc o "Every declared value with its name."
  line "pub const VALUES: &'static [(&'static str, Self)] = &["
  indent
  lines (d.values.map fun (n, _) =>
    "(" ++ Text.quoted n ++ ", Self::" ++ Ident.constant n ++ "),")
  dedent
  line "];"
  blank
  doc o "Returns the declared name of this value, if any."
  nameFnCode

def enumCode (o : Options) (d : EnumDecl) : Draft Unit := do
  let name := Ident.type d.name
  doc o ("Enum `" ++ d.name ++ "`.")
  line "#[derive(Debug, Clone, Copy, PartialEq, Eq, Hash, PartialOrd, Ord, Default)]"
  line ("pub struct " ++ name ++ "(pub i32);")
  blank
  line ("impl " ++ name ++ " \x7b")
  indent
  enumMembersCode o d
  dedent
  line "\x7d"
  blank
  line ("impl From<i32> for " ++ name ++ " \x7b")
  indent
  lines ["fn from(value: i32) -> Self \x7b", "    Self(value)", "\x7d"]
  dedent
  line "\x7d"
  blank
  line ("impl From<" ++ name ++ "> for i32 \x7b")
  indent
  lines ["fn from(value: " ++ name ++ ") -> Self \x7b", "    value.0", "\x7d"]
  dedent
  line "\x7d"
  blank

def typedefCode (o : Options) (d : TypedefDecl) : Draft Unit := do
  match d.choices with
  | some choices =>
    doc o ("Typedef `" ++ d.name ++ "`, restricted to: " ++ ", ".intercalate choices ++ ".")
  | none => doc o ("Typedef `" ++ d.name ++ "`.")
  line ("pub type " ++ Ident.type d.name ++ " = " ++ d.target.code ++ ";")
  blank

def constLine (s : Schema) (d : ConstDecl) : Emitted String :=
  match d.ty.resolve with
  | .string =>
    match d.value with
    | .text t => .ok ("pub const " ++ Ident.constant d.name ++ ": &str = " ++ Text.quoted t ++ ";")
    | v => .error (misfit d.ty v)
  | .bool | .byte | .i16 | .i32 | .i64 | .double | .enum _ => do
    let value ← s.render d.ty d.value
    .ok ("pub const " ++ Ident.constant d.name ++ ": " ++ d.ty.code ++ " = " ++ value ++ ";")
  | _ => do
    let value ← s.render d.ty d.value
    .ok ("pub static " ++ Ident.constant d.name ++ ": ::std::sync::LazyLock<" ++ d.ty.code ++
      "> = ::std::sync::LazyLock::new(|| " ++ value ++ ");")

def constCode (s : Schema) (d : ConstDecl) : Draft Unit := do
  let text ← ofEmitted (constLine s d)
  line text

end Idl.Code
