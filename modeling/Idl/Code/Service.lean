import Idl.Code.Struct

/-!
# Services

For every service: the structs that carry arguments and results, the trait of its handlers, the
client, and the processor that hands calls to a handler. A service that extends another one
builds on the trait, the client and the processor of its parent.
-/

set_option autoImplicit false

namespace Idl.Code

open Emit Draft

def traitName (service : String) : String :=
  Ident.type service ++ "If"

def clientName (service : String) : String :=
  Ident.type service ++ "Client"

def processorName (service : String) : String :=
  Ident.type service ++ "Processor"

def argsStruct (service : String) (f : FunctionDecl) : StructDecl :=
  { name := service ++ "_" ++ f.name ++ "_args", fields := f.args }

def resultStruct (service : String) (f : FunctionDecl) : StructDecl :=
  { name := service ++ "_" ++ f.name ++ "_result"
    fields := (if f.hasReturn then [{ id := 0, name := "success", ty := f.returns }] else []) ++
      f.throws }

def argsName (service : String) (f : FunctionDecl) : String :=
  Ident.type (argsStruct service f).name

def resultName (service : String) (f : FunctionDecl) : String :=
  Ident.type (resultStruct service f).name

def argNames (f : FunctionDecl) : List String :=
  f.args.map fun a => Ident.field a.name

def argParams (f : FunctionDecl) : List String :=
  f.args.map fun a => Ident.field a.name ++ ": " ++ a.ty.code

def signature (name : String) (f : FunctionDecl) : String :=
  "fn " ++ name ++ "(" ++ ", ".intercalate ("&mut self" :: argParams f) ++ ") -> rt::Result<" ++
    f.returns.code ++ ">"

def helpersCode (s : Schema) (o : Options) (d : ServiceDecl) : Draft Unit :=
  d.functions.forM fun f => do
    structCode s o (argsStruct d.name f)
    if f.oneway then lines [] else structCode s o (resultStruct d.name f)

def spaced {α : Type} (piece : α → Draft Unit) : List α → Draft Unit
  | [] => lines []
  | [a] => piece a
  | a :: rest => do
    piece a
    blank
    spaced piece rest

def interfaceCode (o : Options) (parent : Option ServiceDecl) (d : ServiceDecl) : Draft Unit := do
  doc o ("Handler interface of service `" ++ d.name ++ "`.")
  let above := match parent with
    | some p => ": " ++ traitName p.name
    | none => ""
  line ("pub trait " ++ traitName d.name ++ above ++ " \x7b")
  indent
  d.functions |> spaced fun f => do
    if f.oneway then doc o "One-way: no reply is sent." else lines []
    line (signature (Ident.field f.name) f ++ ";")
  dedent
  line "\x7d"
  blank

def callCode (f : FunctionDecl) : Draft Unit := do
  let args := ", ".intercalate (argNames f)
  let send := "self." ++ Ident.prefixed "send" f.name ++ "(" ++ args ++ ")"
  block ("pub " ++ signature (Ident.clientMethod f.name) f) "" do
    if f.oneway then line send
    else lines [send ++ "?;", "self." ++ Ident.prefixed "recv" f.name ++ "()"]

def sendCode (service : String) (f : FunctionDecl) : Draft Unit := do
  let params := String.join ((argParams f).map (", " ++ ·))
  block ("pub fn " ++ Ident.prefixed "send" f.name ++ "(&mut self" ++ params ++
      ") -> rt::Result<()>") "" do
    if f.args.isEmpty then line ("let args = " ++ argsName service f ++ "::default();")
    else
      block ("let args = " ++ argsName service f) ";"
        (lines ((argNames f).map fun a => a ++ ": Some(" ++ a ++ "),"))
    lines ["let seq_id = self.channel_mut().next_seq_id();",
      "let output = self.channel_mut().output_mut();",
      "output.write_message_begin(&rt::MessageHeader::new(" ++ Text.quoted f.name ++
        ", rt::MessageKind::" ++ (if f.oneway then "Oneway" else "Call") ++ ", seq_id))?;",
      "args.write(output)?;", "output.write_message_end()?;", "output.flush()"]

def rejectCode (condition kind message detail : String) : Draft Unit :=
  block ("if " ++ condition) "" do
    lines ["input.skip(rt::WireKind::Struct)?;", "input.read_message_end()?;",
      "return Err(rt::Error::Application(rt::ApplicationException::new("]
    indent
    lines ["rt::ApplicationExceptionKind::" ++ kind ++ ",",
      "format!(" ++ Text.quoted message ++ ", " ++ detail ++ "),"]
    dedent
    line ")));"

def recvCode (service : String) (f : FunctionDecl) : Draft Unit :=
  block ("pub fn " ++ Ident.prefixed "recv" f.name ++ "(&mut self) -> rt::Result<" ++
      f.returns.code ++ ">") "" do
    lines ["let input = self.channel_mut().input_mut();",
      "let header = input.read_message_begin()?;"]
    block "if header.kind == rt::MessageKind::Exception" ""
      (lines ["let x = rt::ApplicationException::read(input)?;", "input.read_message_end()?;",
        "return Err(rt::Error::Application(x));"])
    rejectCode "header.kind != rt::MessageKind::Reply" "InvalidMessageType"
      (f.name ++ " failed: unexpected \x7b:?\x7d message") "header.kind"
    rejectCode ("header.name != " ++ Text.quoted f.name) "WrongMethodName"
      (f.name ++ " failed: reply is for \x7b\x7d") "header.name"
    let read := resultName service f ++ "::read_new(input)?;"
    line (if f.hasReturn || !f.throws.isEmpty then "let result = " ++ read else read)
    line "input.read_message_end()?;"
    if f.hasReturn then
      block "if let Some(success) = result.success" "" (line "return Ok(success);")
    else lines []
    f.throws.forM fun t =>
      block ("if let Some(" ++ Ident.field t.name ++ ") = result." ++ Ident.field t.name) ""
        (line ("return Err(rt::Error::user(" ++ Ident.field t.name ++ "));"))
    if f.hasReturn then do
      line "Err(rt::Error::Application(rt::ApplicationException::new("
      indent
      lines ["rt::ApplicationExceptionKind::MissingResult,",
        Text.quoted (f.name ++ " failed: unknown result") ++ ","]
      dedent
      line ")))"
    else line "Ok(())"

def clientFunctionCode (service : String) (f : FunctionDecl) : Draft Unit := do
  blank
  callCode f
  blank
  sendCode service f
  if f.oneway then lines [] else do
    blank
    recvCode service f

def derefCode (client parent : String) : Draft Unit := do
  line ("impl<I, O> ::std::ops::Deref for " ++ client ++ "<I, O> \x7b")
  indent
  lines ["type Target = " ++ parent ++ "<I, O>;", "", "fn deref(&self) -> &Self::Target \x7b",
    "    &self.parent", "\x7d"]
  dedent
  line "\x7d"
  blank
  line ("impl<I, O> ::std::ops::DerefMut for " ++ client ++ "<I, O> \x7b")
  indent
  lines ["fn deref_mut(&mut self) -> &mut Self::Target \x7b", "    &mut self.parent", "\x7d"]
  dedent
  line "\x7d"
  blank

def channelCode (o : Options) : Option ServiceDecl → Draft Unit
  | some p => do
    block "pub fn new(input: I, output: O) -> Self" ""
      (line ("Self \x7b parent: " ++ clientName p.name ++ "::new(input, output) \x7d"))
    blank
    doc o "Consumes the client and returns its channel."
    block "pub fn into_channel(self) -> rt::ClientChannel<I, O>" ""
      (line "self.parent.into_channel()")
  | none => do
    block "pub fn new(input: I, output: O) -> Self" ""
      (line "Self \x7b channel: rt::ClientChannel::new(input, output) \x7d")
    blank
    block "pub fn channel_mut(&mut self) -> &mut rt::ClientChannel<I, O>" ""
      (line "&mut self.channel")
    blank
    doc o "Consumes the client and returns its channel."
    block "pub fn into_channel(self) -> rt::ClientChannel<I, O>" "" (line "self.channel")

def clientCode (o : Options) (parent : Option ServiceDecl) (d : ServiceDecl) : Draft Unit := do
  doc o ("Client of service `" ++ d.name ++ "`.")
  line "#[derive(Debug)]"
  block ("pub struct " ++ clientName d.name ++ "<I, O>") "" (line (match parent with
    | some p => "parent: " ++ clientName p.name ++ "<I, O>,"
    | none => "channel: rt::ClientChannel<I, O>,"))
  blank
  block ("impl<I: rt::InputProtocol, O: rt::OutputProtocol> " ++ clientName d.name ++ "<I, O>")
      "" do
    doc o "Creates a client reading replies from `input` and writing calls to `output`."
    channelCode o parent
    d.functions.forM (clientFunctionCode d.name)
  blank
  match parent with
  | some p => derefCode (clientName d.name) (clientName p.name)
  | none => lines []

def fallbackCode : Option ServiceDecl → String
  | some p => processorName p.name ++ "::<H>::dispatch_call(handler, header, input, output)"
  | none => "Ok(false)"

def dispatchCode (o : Options) (parent : Option ServiceDecl) (d : ServiceDecl) : Draft Unit := do
  doc o ("Runs the function named by `header`, or returns `Ok(false)` without\n" ++
    "consuming input if neither this service nor an ancestor declares it.")
  line "pub fn dispatch_call("
  indent
  lines ["handler: &mut H,", "header: &rt::MessageHeader,",
    "input: &mut dyn rt::InputProtocol,", "output: &mut dyn rt::OutputProtocol,"]
  dedent
  block ") -> rt::Result<bool>" "" do
    if d.functions.isEmpty then do
      lines (if parent.isNone then ["let _ = (handler, header, input, output);"] else [])
      line (fallbackCode parent)
    else do
      block "match header.name.as_str()" "" do
        lines (d.functions.map fun f => Text.quoted f.name ++ " => Self::" ++
          Ident.prefixed "process" f.name ++ "(handler, header.seq_id, input, output)?,")
        line ("_ => return " ++ fallbackCode parent ++ ",")
      line "Ok(true)"

def argCode (s : Schema) (a : Field) : Emitted String :=
  match a.default with
  | some v => do
    .ok ("args." ++ Ident.field a.name ++ ".unwrap_or_else(|| " ++ (← s.render a.ty v) ++ ")")
  | none => .ok ("args." ++ Ident.field a.name ++ ".unwrap_or_default()")

def runCode (service : String) (f : FunctionDecl) (call : String) : Draft Unit :=
  if f.throws.isEmpty then
    if f.hasReturn then
      lines ["let mut result = " ++ resultName service f ++ "::absent();",
        "result.success = Some(" ++ call ++ "?);"]
    else lines ["let result = " ++ resultName service f ++ "::absent();", call ++ "?;"]
  else do
    line ("let mut result = " ++ resultName service f ++ "::absent();")
    block ("match " ++ call) "" do
      line (if f.hasReturn then "Ok(success) => result.success = Some(success),"
        else "Ok(()) => \x7b\x7d")
      block "Err(err) =>" "" do
        line "let pending = Some(err);"
        lines (f.throws.map fun t =>
          "let pending = pending.and_then(|err| rt::capture(err, &mut result." ++
            Ident.field t.name ++ "));")
        block "if let Some(err) = pending" "" (line "return Err(err);")

def processCode (s : Schema) (service : String) (f : FunctionDecl) : Draft Unit := do
  line ("fn " ++ Ident.prefixed "process" f.name ++ "(")
  indent
  lines ["handler: &mut H,", (if f.oneway then "_seq_id" else "seq_id") ++ ": i32,",
    "input: &mut dyn rt::InputProtocol,",
    (if f.oneway then "_output" else "output") ++ ": &mut dyn rt::OutputProtocol,"]
  dedent
  let args ← ofEmitted (f.args.mapM (argCode s))
  let call := "handler." ++ Ident.field f.name ++ "(" ++ ", ".intercalate args ++ ")"
  block ") -> rt::Result<()>" "" do
    let read := argsName service f ++ "::read_new(input)?;"
    line (if f.args.isEmpty then read else "let args = " ++ read)
    line "input.read_message_end()?;"
    if f.oneway then
      lines (if f.hasReturn then [call ++ "?;", "Ok(())"] else [call])
    else do
      runCode service f call
      lines ["output.write_message_begin(&rt::MessageHeader::new(" ++ Text.quoted f.name ++
          ", rt::MessageKind::Reply, seq_id))?;",
        "result.write(output)?;", "output.write_message_end()?;", "output.flush()"]

def processorCode (s : Schema) (o : Options) (parent : Option ServiceDecl) (d : ServiceDecl) :
    Draft Unit := do
  doc o ("Processor dispatching calls of service `" ++ d.name ++ "` to a handler.")
  line "#[derive(Debug)]"
  block ("pub struct " ++ processorName d.name ++ "<H>") "" (line "handler: H,")
  blank
  block ("impl<H: " ++ traitName d.name ++ "> " ++ processorName d.name ++ "<H>") "" do
    doc o "Functions this service declares, excluding inherited ones."
    line ("pub const METHODS: &'static [&'static str] = &[" ++
      ", ".intercalate (d.functions.map fun f => Text.quoted f.name) ++ "];")
    blank
    block "pub fn new(handler: H) -> Self" "" (line "Self \x7b handler \x7d")
    blank
    block "pub fn handler(&self) -> &H" "" (line "&self.handler")
    blank
    block "pub fn handler_mut(&mut self) -> &mut H" "" (line "&mut self.handler")
    blank
    block "pub fn into_handler(self) -> H" "" (line "self.handler")
    blank
    dispatchCode o parent d
    d.functions.forM fun f => do
      blank
      processCode s d.name f
  blank
  block ("impl<H: " ++ traitName d.name ++ "> rt::Processor for " ++ processorName d.name ++
      "<H>") "" do
    line "fn dispatch("
    indent
    lines ["&mut self,", "header: &rt::MessageHeader,", "input: &mut dyn rt::InputProtocol,",
      "output: &mut dyn rt::OutputProtocol,"]
    dedent
    block ") -> rt::Result<bool>" ""
      (line "Self::dispatch_call(&mut self.handler, header, input, output)")
  blank

def serviceCode (s : Schema) (o : Options) (d : ServiceDecl) : Draft Unit := do
  let parent ← ofEmitted (ofSchema (s.parentOf d))
  helpersCode s o d
  interfaceCode o parent d
  clientCode o parent d
  processorCode s o parent d

end Idl.Code
