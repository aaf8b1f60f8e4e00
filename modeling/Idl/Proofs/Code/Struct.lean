import Idl.Code.Emitter
import Idl.Proofs.Code.Codec
import Idl.Proofs.Emit.Landmarks

/-!
# The text of a struct

What is known of the generators for structs and exceptions, one after another. A generator comes
back to its level however it ends. What stops a struct is a field that holds void or a default that
does not fit its type, whatever the options and the numbers of temporary names. Where comments are
wanted, they stand between the lines of code and nowhere else. All that the text does with a
protocol is in the functions that read and write the struct.
-/

set_option autoImplicit false

namespace Idl.Code

open Text Emit Draft

def Options.bare (o : Options) : Options :=
  { o with docs := false }

variable {A : Char → Prop} [usual : Usual A] {legible : Prop} (s : Schema) (o : Options)

instance : Usual (orFeed A) :=
  ⟨fun c opened closed feed => .inl (usual.mem c opened closed feed)⟩

/-! ## Comments -/

section Doc

variable (text : String)

instance : Sure (doc o text) := by
  unfold doc
  infer_instance

instance : Steady (doc o text) := by
  unfold doc
  infer_instance

theorem doc_plain {depth : Nat} : (doc o text).Marks depth [] := by
  unfold doc
  split
  · apply lines_plain
    intro t member
    obtain ⟨l, -, rfl⟩ := List.mem_map.mp member
    split <;> simp [isLandmark, opensItem, opensFunction, makesError, List.isPrefixOf]
  · exact lines_plain (by simp)

omit usual in
variable {o text} in
theorem doc_commented (worded : Worded (orFeed A) text) :
    Commented A legible (doc o text) (doc o.bare text) := by
  unfold doc
  split
  · exact .comment worded
  · exact .nothing

theorem doc_idle : (doc o text).Idle := by
  unfold doc
  split
  · apply lines_idle
    apply outlines_idle
    intro t member
    obtain ⟨l, -, rfl⟩ := List.mem_map.mp member
    apply lineKind_comment
    split
    · rfl
    · exact isPrefixOf_append _ (isPrefixOf_append _ rfl)
  · exact lines_idle outlines_nil

end Doc

/-! ## Fields -/

section Fields

variable {f : Field} (spelled : Spelled A f.names f.texts)

include spelled

omit usual in
theorem Field.worded_name : Worded A f.name :=
  spelled.name f.name List.mem_cons_self

omit usual in
theorem Field.worded_type : ∀ w ∈ f.ty.names, Worded A w :=
  fun w member => spelled.name w (List.mem_cons_of_mem f.name member)

theorem Field.phrased_ident : Phrased A (Ident.field f.name) :=
  (Ident.worded_field (Field.worded_name spelled)).phrased

theorem Field.phrased_code : Phrased A f.ty.code :=
  (Ty.worded_code (Field.worded_type spelled)).phrased

variable {s} in
theorem defaultCode_phrased (words : Spelled A s.names s.texts) {code : String}
    (written : defaultCode s f = .ok code) : Phrased A code := by
  unfold defaultCode at written
  split at written
  · cases written
    exact .fixed rfl
  · rename_i v given
    obtain ⟨text, rendered, same⟩ := bind_eq_ok_iff.mp written
    cases same
    have value := Schema.render_phrased words (Field.worded_type spelled)
      (fun w member => spelled.text w (by simp [Field.texts, given, member])) rendered
    exact .and (.fixed rfl) value rfl

end Fields

abbrev FieldsSpelled (A : Char → Prop) (fields : List Field) : Prop :=
  ∀ f ∈ fields, Spelled A f.names f.texts

abbrev FieldsLegible (legible : Prop) (fields : List Field) : Prop :=
  legible → ∀ f ∈ fields, isDoc (Ident.field f.name) = false

theorem entry_idle {front back : String} (last : back.toList.getLast? = some ',') :
    (line (front ++ back)).Idle := by
  have ends : (front ++ back).toList.getLast? = some ',' := last_append last
  refine line_idle (lineKind_plain ends (by decide) ?_)
  intro same
  rw [same] at ends
  cases ends

theorem id_text (id : Int16) : ∃ n, (toString id).toList = Nat.toDigits 10 n ∨
    (toString id).toList = '-' :: Nat.toDigits 10 n := by
  have shown : toString id = toString id.toInt := rfl
  have natural (n : Nat) : (toString n).toList = Nat.toDigits 10 n := String.toList_ofList
  rw [shown]
  cases id.toInt with
  | ofNat n => exact ⟨n, .inl (natural n)⟩
  | negSucc n =>
    have minus : toString (Int.negSucc n) = "-" ++ toString (n + 1) := rfl
    refine ⟨n + 1, .inr ?_⟩
    rw [minus, String.toList_append, natural]
    rfl

theorem id_chars (id : Int16) {c : Char} (member : c ∈ (toString id).toList) :
    c.isDigit = true ∨ c = '-' := by
  obtain ⟨n, text | text⟩ := id_text id
  · rw [text] at member
    exact .inl (Nat.isDigit_of_mem_toDigits (by decide) (by decide) member)
  · rw [text, List.mem_cons] at member
    exact member.symm.imp_left (Nat.isDigit_of_mem_toDigits (by decide) (by decide))

theorem id_plain (id : Int16) : ' ' ∉ (toString id).toList := by
  intro member
  rcases id_chars id member with digit | minus
  · cases digit
  · cases minus

theorem id_first (id : Int16) : ∃ c, (toString id).toList.head? = some c ∧ c ∉ ['/', 'f'] := by
  have some : (toString id).toList ≠ [] := by
    obtain ⟨n, text | text⟩ := id_text id
    · rw [text]
      exact Nat.toDigits_ne_nil
    · rw [text]
      exact List.cons_ne_nil _ _
  obtain ⟨c, rest, shape⟩ := List.exists_cons_of_ne_nil some
  refine ⟨c, by rw [shape]; rfl, ?_⟩
  have member : c ∈ (toString id).toList := by simp [shape]
  rcases id_chars id member with digit | rfl
  · rintro (_ | ⟨_, _ | ⟨_, ⟨⟩⟩⟩) <;> cases digit
  · decide

theorem kind_plain (t : Ty) : ' ' ∉ t.kindCode.toList := by
  unfold Ty.kindCode
  cases t.wireKind <;> decide

/-! ## The definition -/

section Definition

variable (d : StructDecl)

instance : Sure (definitionCode o d) := by
  unfold definitionCode
  infer_instance

instance : Steady (definitionCode o d) := by
  unfold definitionCode
  infer_instance

theorem definitionCode_marks :
    (definitionCode o d).Marks 0 ["pub struct " ++ Ident.type d.name ++ " \x7b"] := by
  unfold definitionCode
  refine (doc_plain o _).after fun _ => (line_plain rfl).after fun _ => ?_
  refine (line_marks ?_).before fun _ => .indent ((line_plain rfl).after fun _ => blank_plain)
  exact isLandmark_of_opensItem (by simp [opensItem, List.isPrefixOf])

variable {o d} in
theorem definitionCode_commented (named : Worded A d.name) (fields : FieldsSpelled A d.fields) :
    Commented A legible (definitionCode o d) (definitionCode o.bare d) := by
  have name := named.orFeed
  have type := (Ident.worded_type named).phrased
  have kind : Worded (orFeed A) (if d.isException then "Exception" else "Struct") := by
    split <;> exact .fixed rfl
  refine .seq (doc_commented (.and (.append kind (.fixed rfl)) name rfl)) ?_
  refine .seq (.fixed rfl) (.braces (.append (.fixed rfl) type) (.forM fun f member => ?_) .blank)
  refine .seq (doc_commented ?_) (.line ?_)
  · have display := (Ty.worded_display (Field.worded_type (fields f member))).orFeed
    have id : Worded (orFeed A) (toString f.id) := .integer f.id.toInt
    exact .and (.and (.fixed rfl) id rfl) display rfl
  · have ident := Field.phrased_ident (fields f member)
    have code := Field.phrased_code (fields f member)
    exact .and (.and (.fixed rfl) ident rfl) code rfl

theorem definitionCode_idle : (definitionCode o d).Idle := by
  refine (doc_idle o _).bind fun _ => (line_idle rfl).bind fun _ => ?_
  refine Idle.braces (head?_append _ rfl) (by decide) (Idle.forM d.fields fun f _ => ?_) blank_idle
  exact (doc_idle o _).bind fun _ => entry_idle rfl

end Definition

/-! ## Values of the type -/

section Values

variable (fields : List Field) (value : Field → Emitted String)

instance : Steady (selfCode fields value) := by
  unfold selfCode
  infer_instance

theorem selfCode_answer (n : Nat) :
    (selfCode fields value n).answer = fields.forM fun f => verdict (value f) := by
  cases fields with
  | nil => rfl
  | cons f rest =>
    apply answer_forM
    intro f _ n
    simp [verdict]

variable {fields value} in
theorem selfCode_commented (spelled : FieldsSpelled A fields) (told : FieldsLegible legible fields)
    (values : ∀ f ∈ fields, ∀ v, value f = .ok v → Phrased A v) :
    Commented A legible (selfCode fields value) (selfCode fields value) := by
  unfold selfCode
  split
  · exact .fixed rfl
  · refine .braced (.fixed rfl) (.forM fun f member => .given fun v known => .entry ?_ fun l => ?_)
    · exact .and ((Field.phrased_ident (spelled f member)).mark rfl) (values f member v known) rfl
    · exact isDoc_named (told l f member) ⟨' ' :: (v.toList ++ [',']), by simp⟩

theorem selfCode_idle : (selfCode fields value).Idle := by
  unfold selfCode
  split
  · exact line_idle rfl
  · refine Idle.scope rfl (by decide) (Idle.forM fields fun f _ => ?_)
    exact (ofEmitted_idle _).bind fun v => entry_idle rfl

variable (d : StructDecl)

instance : Steady (defaultImplCode s d) := by
  unfold defaultImplCode
  infer_instance

theorem defaultImplCode_answer (n : Nat) :
    (defaultImplCode s d n).answer = d.fields.forM fun f => verdict (defaultCode s f) := by
  simp [defaultImplCode, selfCode_answer]

theorem defaultImplCode_plain : (defaultImplCode s d).Marks 0 [] := by
  unfold defaultImplCode
  refine (block_plain ?_).after fun _ => blank_plain
  simp [isLandmark, opensItem, opensFunction, makesError, opening, List.isPrefixOf]

variable {s d} in
theorem defaultImplCode_commented (words : Spelled A s.names s.texts) (named : Worded A d.name)
    (spelled : FieldsSpelled A d.fields) (told : FieldsLegible legible d.fields) :
    Commented A legible (defaultImplCode s d) (defaultImplCode s d) := by
  have type := (Ident.worded_type named).phrased
  have values : ∀ f ∈ d.fields, ∀ v, defaultCode s f = .ok v → Phrased A v := fun f member v =>
    defaultCode_phrased (spelled f member) words
  refine .seq (.braced (.append (.fixed rfl) type) (.braced (.fixed rfl) ?_)) .blank
  exact selfCode_commented spelled told values

theorem defaultImplCode_idle : (defaultImplCode s d).Idle := by
  refine Idle.bind (Idle.scope (head?_append _ rfl) (by decide) ?_) fun _ => blank_idle
  exact (selfCode_idle d.fields _).block rfl rfl

instance : Steady (absentCode o d) := by
  unfold absentCode
  infer_instance

instance : Sure (absentCode o d) := by
  have absent : (d.fields.forM fun _ => verdict (.ok "None" : Emitted String)) = .ok () :=
    (forM_eq_ok_iff d.fields).mpr fun _ _ => rfl
  exact ⟨fun n => by simp [absentCode, selfCode_answer, absent]⟩

variable {o d} in
theorem absentCode_commented (spelled : FieldsSpelled A d.fields)
    (told : FieldsLegible legible d.fields) :
    Commented A legible (absentCode o d) (absentCode o.bare d) := by
  refine .seq (doc_commented (.fixed rfl))
    (.braced (.fixed rfl) (selfCode_commented spelled told ?_))
  intro f _ v known
  cases known
  exact .fixed rfl

theorem absentCode_idle : (absentCode o d).Idle :=
  (doc_idle o _).bind fun _ => (selfCode_idle d.fields _).scope rfl (by decide)

end Values

/-! ## Reading -/

section Reading

instance : Sure (readNewCode o) := by
  unfold readNewCode
  infer_instance

instance : Steady (readNewCode o) := by
  unfold readNewCode
  infer_instance

variable {o} in
theorem readNewCode_commented : Commented A legible (readNewCode o) (readNewCode o.bare) :=
  .seq (doc_commented (.fixed rfl))
    (.braced (.fixed rfl) (.statements (.fixed rfl (.fixed rfl (.fixed rfl .nil)))))

theorem readNewCode_idle : (readNewCode o).Idle := by
  refine (doc_idle o _).bind fun _ => Idle.scope rfl (by decide) (lines_idle (outlines_idle ?_))
  simp only [List.forall_mem_cons]
  exact ⟨rfl, rfl, rfl, by simp⟩

def armHead (f : Field) : String :=
  toString f.id ++ " if field.kind == " ++ f.ty.kindCode ++ " =>"

def readArm (f : Field) : Op :=
  .scope (armHead f) (f.ty.calls .reads)

instance (f : Field) : Steady (readArmCode f) := by
  unfold readArmCode
  infer_instance

theorem readArmCode_commented {f : Field} (spelled : Spelled A f.names f.texts) :
    Commented A legible (readArmCode f) (readArmCode f) := by
  have ident := Field.phrased_ident spelled
  have kind : Phrased A f.ty.kindCode := f.ty.worded_kindCode.phrased
  have id : Clause A (toString f.id) :=
    ⟨(Worded.integer f.id.toInt).phrased, .integer f.id.toInt⟩
  refine .braced (.and (id.mark rfl) kind rfl) (.temporary (by decide) fun value begins => ?_)
  refine .seq ?_ (.line (.and (.and (.fixed rfl) ident rfl) begins.phrased rfl))
  exact readCode_commented (Field.worded_type spelled) begins.phrased fun _ => begins.settled

theorem readArmCode_shows {f : Field} (valued : f.ty.containsVoid = false) :
    (readArmCode f).Shows [readArm f] := by
  obtain ⟨c, first, other⟩ := id_first f.id
  have head : (armHead f).toList.head? = some c :=
    head?_append _ (head?_append _ (head?_append _ first))
  have inside : (do
      let value ← tmp "_val"
      readCode f.ty value
      line ("self." ++ Ident.field f.name ++ " = Some(" ++ value ++ ");")).Shows
        (f.ty.calls .reads) := by
    refine Shows.named fun n =>
      (readCode_shows f.ty (own_of_underscore rfl n)).bind_idle fun _ => ?_
    have own : Own "self." := ⟨'s', rfl, by decide⟩
    exact (((own.append _).append _).append _).idle rfl
  exact inside.scope head other (Ty.calls_ne_nil valued .reads)

variable {fields : List Field}

instance : Steady (readFieldsCode fields) := by
  unfold readFieldsCode
  infer_instance

theorem readFieldsCode_commented (spelled : FieldsSpelled A fields) :
    Commented A legible (readFieldsCode fields) (readFieldsCode fields) := by
  unfold readFieldsCode
  split
  · exact .fixed rfl
  · refine .braced (.fixed rfl) (.seq (.forM fun f member => ?_) (.fixed rfl))
    exact readArmCode_commented (spelled f member)

theorem readFieldsCode_shows (valued : ∀ f ∈ fields, f.ty.containsVoid = false) :
    (readFieldsCode fields).Shows (closed "match field.id" (fields.map readArm)) := by
  unfold readFieldsCode
  split
  case isTrue empty =>
    rw [List.isEmpty_iff.mp empty]
    exact line_shows rfl
  case isFalse =>
    have arms : (fields.forM readArmCode).Shows (fields.map readArm) := by
      rw [List.map_eq_flatMap]
      exact Shows.forM fields fun f member => readArmCode_shows (valued f member)
    exact (arms.bind_idle fun _ => line_idle rfl).block rfl

variable (d : StructDecl)

instance : Steady (readFnCode o d) := by
  unfold readFnCode
  infer_instance

theorem readFnCode_answer (valued : ∀ f ∈ d.fields, f.ty.containsVoid = false) (n : Nat) :
    (readFnCode o d n).answer = .ok () := by
  have arms : ∀ f ∈ d.fields, ∀ n, (readArmCode f n).answer = .ok () := by
    intro f member n
    simp [readArmCode, readCode_answer f.ty (valued f member)]
  simp [readFnCode, readFieldsCode, answer_forM_ok arms]

variable {o d} in
theorem readFnCode_commented (spelled : FieldsSpelled A d.fields) :
    Commented A legible (readFnCode o d) (readFnCode o.bare d) := by
  refine .seq (doc_commented (.append (.fixed rfl) (.fixed rfl))) (.braced (.fixed rfl) ?_)
  refine .seq (.fixed rfl) (.seq (.braced (.fixed rfl) ?_) (.fixed rfl))
  refine .seq (.fixed rfl) (.seq (.braced (.fixed rfl) (.fixed rfl)) ?_)
  exact .seq (readFieldsCode_commented spelled) (.fixed rfl)

def readHead : String :=
  "pub fn read<P: rt::InputProtocol + ?Sized>(&mut self, input: &mut P) -> rt::Result<()>"

def readOp (fields : List Field) : Op :=
  .scope readHead [.call .reads "struct_begin", .scope "loop"
    (.call .reads "field_begin" :: closed "match field.id" (fields.map readArm) ++
      [.call .reads "field_end"])]

theorem readFnCode_shows (valued : ∀ f ∈ d.fields, f.ty.containsVoid = false) :
    (readFnCode o d).Shows [readOp d.fields] := by
  refine (doc_idle o _).bind_shows fun _ => Shows.scope rfl (by decide) (List.cons_ne_nil _ _) ?_
  have stop : (block "if field.kind == rt::WireKind::Stop" "" (line "break;")).Idle :=
    (line_idle rfl).scope rfl (by decide)
  have field : (line "let field = input.read_field_begin()?;").Shows [.call .reads "field_begin"] :=
    line_shows rfl
  have ends : (line "input.read_field_end()?;").Shows [.call .reads "field_end"] := line_shows rfl
  have step := field.bind fun _ => stop.bind_shows fun _ =>
    (readFieldsCode_shows valued).bind fun _ => ends
  have begins : (line "input.read_struct_begin()?;").Shows [.call .reads "struct_begin"] :=
    line_shows rfl
  exact begins.bind fun _ => Shows.bind_idle
    (Shows.scope rfl (by decide) (List.cons_ne_nil _ _) step) fun _ => line_idle rfl

end Reading

/-! ## Writing -/

section Writing

def writeBlock (f : Field) : Op :=
  .scope ("if let Some(value) = &self." ++ Ident.field f.name)
    (.header (toString f.id) f.ty.kindCode :: f.ty.calls .writes ++ [.call .writes "field_end"])

instance (f : Field) : Steady (writeFieldCode f) := by
  unfold writeFieldCode
  infer_instance

theorem writeFieldCode_commented {f : Field} (spelled : Spelled A f.names f.texts) :
    Commented A legible (writeFieldCode f) (writeFieldCode f) := by
  have ident := Field.phrased_ident spelled
  have kind : Phrased A f.ty.kindCode := f.ty.worded_kindCode.phrased
  have id : Phrased A (toString f.id) := (Worded.integer f.id.toInt).phrased
  have quote : Phrased A (quoted f.name) := .quoted (Field.worded_name spelled).orFeed.phrased
  refine .braced (.append (.fixed rfl) ident) (.seq (.line ?_) (.seq ?_ (.fixed rfl)))
  · exact .and (.and (.and (.fixed rfl) quote rfl) kind rfl) id rfl
  · exact writeCode_commented (.fixed rfl) fun _ => .fixed rfl

theorem writeFieldCode_shows (f : Field) : (writeFieldCode f).Shows [writeBlock f] := by
  have header := line_shows (lineKind_header (Text.quoted f.name) (id_plain f.id) (kind_plain f.ty))
  have value : Own "value" := ⟨'v', rfl, by decide⟩
  have ends : (line "output.write_field_end()?;").Shows [.call .writes "field_end"] :=
    line_shows rfl
  have inside := header.bind fun _ => (writeCode_shows f.ty value).bind fun _ => ends
  exact inside.scope (head?_append _ rfl) (by decide) (List.cons_ne_nil _ _)

variable (d : StructDecl)

instance : Steady (writeFnCode o d) := by
  unfold writeFnCode
  infer_instance

theorem writeFnCode_answer (valued : ∀ f ∈ d.fields, f.ty.containsVoid = false) (n : Nat) :
    (writeFnCode o d n).answer = .ok () := by
  have blocks : ∀ f ∈ d.fields, ∀ n, (writeFieldCode f n).answer = .ok () := by
    intro f member n
    simp [writeFieldCode, writeCode_answer f.ty (valued f member)]
  simp [writeFnCode, answer_forM_ok blocks]

variable {o d} in
theorem writeFnCode_commented (spelled : FieldsSpelled A d.fields) :
    Commented A legible (writeFnCode o d) (writeFnCode o.bare d) := by
  refine .seq (doc_commented (.fixed rfl)) (.braced (.fixed rfl) (.seq (.fixed rfl) (.seq ?_ ?_)))
  · exact .forM fun f member => writeFieldCode_commented (spelled f member)
  · exact .seq (.fixed rfl) (.fixed rfl)

def writeHead : String :=
  "pub fn write<P: rt::OutputProtocol + ?Sized>(&self, output: &mut P) -> rt::Result<()>"

def writeOp (fields : List Field) : Op :=
  .scope writeHead (.call .writes "struct_begin" :: fields.map writeBlock ++
    [.call .writes "field_stop"])

theorem writeFnCode_shows : (writeFnCode o d).Shows [writeOp d.fields] := by
  refine (doc_idle o _).bind_shows fun _ => Shows.scope rfl (by decide) (List.cons_ne_nil _ _) ?_
  have begins : (line "output.write_struct_begin(Self::NAME)?;").Shows
      [.call .writes "struct_begin"] := line_shows rfl
  have blocks : (d.fields.forM writeFieldCode).Shows (d.fields.map writeBlock) := by
    rw [List.map_eq_flatMap]
    exact Shows.forM d.fields fun f _ => writeFieldCode_shows f
  have stop : (line "output.write_field_stop()?;").Shows [.call .writes "field_stop"] :=
    line_shows rfl
  exact begins.bind fun _ => blocks.bind fun _ => stop.bind_idle fun _ => line_idle rfl

end Writing

/-! ## Exceptions -/

section Exceptions

variable (name : String)

instance : Sure (errorImplCode name) := by
  unfold errorImplCode
  infer_instance

instance : Steady (errorImplCode name) := by
  unfold errorImplCode
  infer_instance

theorem errorImplCode_marks :
    (errorImplCode name).Marks 0 ["impl ::std::error::Error for " ++ name ++ " \x7b\x7d"] := by
  unfold errorImplCode
  refine (line_plain ?_).after fun _ => .indent ?_
  · simp [isLandmark, opensItem, opensFunction, makesError, List.isPrefixOf]
  refine (line_plain rfl).after fun _ => blank_plain.after fun _ => ?_
  refine (line_marks (isLandmark_of_makesError ?_)).before fun _ => blank_plain
  simp [makesError, List.getLast?_cons]

variable {name} in
theorem errorImplCode_commented (named : Phrased A name) :
    Commented A legible (errorImplCode name) (errorImplCode name) := by
  refine .braces (.append (.fixed rfl) named) (.scope .nil (.fixed rfl rfl) (.fixed rfl)) ?_
  exact .seq .blank (.seq (.line (.and (.fixed rfl) named rfl)) .blank)

theorem errorImplCode_idle : (errorImplCode name).Idle := by
  refine Idle.braces (head?_append _ rfl) (by decide) (lines_idle ?_)
    (blank_idle.bind fun _ => Idle.bind (line_idle ?_) fun _ => blank_idle)
  · have shown : Outlines [] ["    write!(f, \"\x7b\x7d: \x7b:?\x7d\", Self::NAME, self)"] :=
      outlines_line rfl
    have header : isComment (opening
        "fn fmt(&self, f: &mut ::std::fmt::Formatter<'_>) -> ::std::fmt::Result") = false := rfl
    exact shown.block header
  · refine lineKind_plain (last_append rfl) (by decide) fun same => ?_
    have first : ("impl ::std::error::Error for " ++ name ++ " \x7b\x7d").toList.head? = some 'i' :=
      head?_append _ (head?_append _ rfl)
    rw [same] at first
    cases first

end Exceptions

/-! ## Structs -/

section Structs

variable (d : StructDecl)

theorem nameLine_idle (name : String) :
    (line ("pub const NAME: &'static str = " ++ Text.quoted name ++ ";")).Idle := by
  have first : ("pub const NAME: &'static str = " ++ Text.quoted name ++ ";").toList.head? =
      some 'p' :=
    head?_append _ (head?_append _ rfl)
  have last : ("pub const NAME: &'static str = " ++ Text.quoted name ++ ";").toList.reverse =
      ';' :: '"' :: ((name.toList.flatMap Text.escapeChar).reverse ++ '"' ::
        "pub const NAME: &'static str = ".toList.reverse) := by
    simp [Text.quoted, Text.quotedChars]
  exact line_idle (lineKind_idle first (by decide) last (by decide))

instance : Steady (structCode s o d) := by
  unfold structCode
  split
  · infer_instance
  · unfold structBodyCode
    infer_instance

/-- A struct without void in it stops at the first default that does not fit. -/
def structVerdict : Emitted Unit :=
  match d.fields.find? (·.ty.containsVoid) with
  | some f => .error (.schema (.voidField d.name f.name))
  | none => d.fields.forM fun f => verdict (defaultCode s f)

theorem structCode_answer (n : Nat) : (structCode s o d n).answer = structVerdict s d := by
  unfold structCode structVerdict
  cases held : d.fields.find? (·.ty.containsVoid) with
  | some f => exact answer_fail _ n
  | none =>
    have valued : ∀ f ∈ d.fields, f.ty.containsVoid = false := by
      intro f member
      simpa using List.find?_eq_none.mp held f member
    simp [structBodyCode, defaultImplCode_answer, readFnCode_answer o d valued,
      writeFnCode_answer o d valued]

def structMarks : List String :=
  ["pub struct " ++ Ident.type d.name ++ " \x7b"] ++
    if d.isException then
      ["impl ::std::error::Error for " ++ Ident.type d.name ++ " \x7b\x7d"]
    else []

theorem structCode_marks : (structCode s o d).Marks 0 (structMarks d) := by
  unfold structCode
  split
  · exact marks_of_fail _
  · unfold structBodyCode structMarks
    refine (definitionCode_marks o d).bind fun _ => (defaultImplCode_plain s d).after fun _ => ?_
    refine (block_plain ?_).after fun _ => blank_plain.after fun _ => ?_
    · simp [isLandmark, opensItem, opensFunction, makesError, opening, List.isPrefixOf,
        List.getLast?_cons]
    · by_cases exception : d.isException
      · rw [if_pos exception, if_pos exception]
        exact errorImplCode_marks _
      · rw [if_neg exception, if_neg exception]
        exact lines_plain (by simp)

variable {s o d} in
theorem structCode_commented (words : Spelled A s.names s.texts) (named : Worded A d.name)
    (fields : FieldsSpelled A d.fields) (told : FieldsLegible legible d.fields) :
    Commented A legible (structCode s o d) (structCode s o.bare d) := by
  have type := (Ident.worded_type named).phrased
  have quote : Phrased A (quoted d.name) := .quoted named.orFeed.phrased
  unfold structCode
  split
  · exact .fail _
  · refine .seq (definitionCode_commented named fields) ?_
    refine .seq (defaultImplCode_commented words named fields told) ?_
    refine .seq (.braced (.append (.fixed rfl) type) ?_) (.seq .blank ?_)
    · refine .seq (.line (.and (.fixed rfl) quote rfl)) (.seq .blank ?_)
      refine .seq (absentCode_commented fields told) (.seq .blank ?_)
      refine .seq readNewCode_commented (.seq .blank (.seq (readFnCode_commented fields) ?_))
      exact .seq .blank (writeFnCode_commented fields)
    · split
      · exact errorImplCode_commented type
      · exact .nothing

theorem find?_void_eq_none {fields : List Field}
    (valued : ∀ f ∈ fields, f.ty.containsVoid = false) :
    fields.find? (·.ty.containsVoid) = none := by
  simpa [List.find?_eq_none] using valued

variable {d} (valued : ∀ f ∈ d.fields, f.ty.containsVoid = false)

include valued

theorem structCode_of_valued : structCode s o d = structBodyCode s o d := by
  rw [structCode, find?_void_eq_none valued]

/-- All that the text of a struct does is in the functions that read and write it. -/
theorem structCode_shows : (structCode s o d).Shows
    [.scope ("impl " ++ Ident.type d.name) [readOp d.fields, writeOp d.fields]] := by
  rw [structCode_of_valued s o valued, structBodyCode]
  refine (definitionCode_idle o d).bind_shows fun _ =>
    (defaultImplCode_idle s d).bind_shows fun _ =>
    Shows.bind_idle (Shows.scope (head?_append _ rfl) (by decide) (List.cons_ne_nil _ _) ?_)
      fun _ => ?_
  · exact (nameLine_idle d.name).bind_shows fun _ => blank_idle.bind_shows fun _ =>
      (absentCode_idle o d).bind_shows fun _ => blank_idle.bind_shows fun _ =>
      (readNewCode_idle o).bind_shows fun _ => blank_idle.bind_shows fun _ =>
      (readFnCode_shows o d valued).bind fun _ => blank_idle.bind_shows fun _ =>
        writeFnCode_shows o d
  · refine blank_idle.bind fun _ => ?_
    split
    · exact errorImplCode_idle _
    · exact lines_idle outlines_nil

end Structs

end Idl.Code
