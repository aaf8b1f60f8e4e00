import Idl.Code.Codec
import Idl.Proofs.Code.Words
import Idl.Proofs.Emit.Commented
import Idl.Proofs.Emit.Outline

/-!
# Statements that read and write values

The statements for a value follow its type, and so does what is known of them: they come back to
their level, they can be written exactly if there is no void in the type, their text is a phrase,
and they show the calls of the type.
-/

set_option autoImplicit false

namespace Idl

namespace Ty

open Emit

/-- The calls that a value of the type takes, in the order of the wire. -/
def calls (way : Way) : Ty → List Op
  | .void => []
  | .bool => [.call way "bool"]
  | .byte => [.call way "byte"]
  | .i16 => [.call way "i16"]
  | .i32 | .enum _ => [.call way "i32"]
  | .i64 => [.call way "i64"]
  | .double => [.call way "double"]
  | .string => [.call way "string"]
  | .struct _ | .exception _ => [.call way "struct"]
  | .typedef _ target => target.calls way
  | .list item => [.call way "list_begin", .loop (item.calls way), .call way "list_end"]
  | .set item => [.call way "set_begin", .loop (item.calls way), .call way "set_end"]
  | .map key value =>
    [.call way "map_begin", .loop (key.calls way ++ value.calls way), .call way "map_end"]

theorem calls_ne_nil {t : Ty} (valued : t.containsVoid = false) (way : Way) : t.calls way ≠ [] := by
  induction t with
  | void => cases valued
  | typedef name target ih => exact ih valued
  | _ => exact List.cons_ne_nil _ _

end Ty

namespace Code

open Text Emit Draft

instance (start finish head : String) (items : Draft Unit) [Steady items] :
    Steady (fillCode start finish head items) := by
  unfold fillCode
  infer_instance

instance (t : Ty) (target : String) : Steady (readCode t target) := by
  induction t generalizing target <;> simp only [readCode] <;> infer_instance

instance (t : Ty) (value : String) : Steady (writeCode t value) := by
  induction t generalizing value <;> simp only [writeCode] <;> infer_instance

theorem readCode_ok_iff (t : Ty) (target : String) (n : Nat) :
    (readCode t target n).answer = .ok () ↔ t.containsVoid = false := by
  induction t generalizing target n with
  | void => simp [readCode, Ty.containsVoid]
  | typedef name aliased ih => exact ih target n
  | list item ih | set item ih => simp [readCode, fillCode, ih, Ty.containsVoid]
  | map key value ihk ihv =>
    simp [readCode, fillCode, bind_eq_ok_iff, ihk, ihv, Ty.containsVoid]
  | _ => exact ⟨fun _ => rfl, fun _ => rfl⟩

theorem readCode_answer (t : Ty) (valued : t.containsVoid = false) (target : String) (n : Nat) :
    (readCode t target n).answer = .ok () :=
  (readCode_ok_iff t target n).mpr valued

theorem writeCode_ok_iff (t : Ty) (value : String) (n : Nat) :
    (writeCode t value n).answer = .ok () ↔ t.containsVoid = false := by
  induction t generalizing value n with
  | void => simp [writeCode, Ty.containsVoid]
  | typedef name aliased ih => exact ih value n
  | list item ih | set item ih => simp [writeCode, ih, Ty.containsVoid]
  | map key entry ihk ihv => simp [writeCode, bind_eq_ok_iff, ihk, ihv, Ty.containsVoid]
  | _ => exact ⟨fun _ => rfl, fun _ => rfl⟩

theorem writeCode_answer (t : Ty) (valued : t.containsVoid = false) (value : String) (n : Nat) :
    (writeCode t value n).answer = .ok () :=
  (writeCode_ok_iff t value n).mpr valued

section Words

variable {A : Char → Prop} [usual : Usual A] {legible : Prop}

theorem fillCode_commented {start finish head : String} {items : Draft Unit}
    (begun : Phrased A start) (finished : Phrased A finish) (headed : Phrased A head)
    (inside : Commented A legible items items) :
    Commented A legible (fillCode start finish head items) (fillCode start finish head items) := by
  refine .block .nil .nil (fun _ => rfl) (.seq (.line ?_) (.seq (.braced ?_ inside) (.line ?_)))
  · exact .and (.and (.fixed rfl) headed rfl) begun rfl
  · exact .and (.fixed rfl) headed rfl
  · exact .and (.fixed rfl) finished rfl

theorem readCode_commented {t : Ty} (named : ∀ w ∈ t.names, Worded A w) {target : String}
    (phrased : Phrased A target) (settled : legible → Settled target) :
    Commented A legible (readCode t target) (readCode t target) := by
  induction t generalizing target with
  | void => exact .fail _
  | typedef name aliased ih =>
    exact ih (fun w member => named w (List.mem_cons_of_mem name member)) phrased settled
  | enum name | struct name | exception name =>
    have type := (Ident.worded_type (named name List.mem_cons_self)).phrased
    exact .line (.and (.and (.fixed rfl) phrased rfl) type rfl)
  | list item ih =>
    have code := (Ty.worded_code named).phrased
    refine .seq (.line (.and (.and (.fixed rfl) phrased rfl) code rfl)) ?_
    refine .temporary (by decide) fun head headed => ?_
    refine fillCode_commented (.fixed rfl) (.fixed rfl) headed.phrased ?_
    refine .temporary (by decide) fun element begins => ?_
    refine .seq (ih named begins.phrased fun _ => begins.settled) (.entry ?_ fun l => ?_)
    · exact .and (phrased.mark rfl) begins.phrased rfl
    · exact ((((settled l).append _).append _).append _).notDoc
  | set item ih =>
    have code := (Ty.worded_code named).phrased
    have path : Phrased A Ty.setPath := Ty.worded_setPath.phrased
    refine .seq (.line (.and (.and (.and (.fixed rfl) phrased rfl) code rfl) path rfl)) ?_
    refine .temporary (by decide) fun head headed => ?_
    refine fillCode_commented (.fixed rfl) (.fixed rfl) headed.phrased ?_
    refine .temporary (by decide) fun element begins => ?_
    refine .seq (ih named begins.phrased fun _ => begins.settled) (.entry ?_ fun l => ?_)
    · exact .and (phrased.mark rfl) begins.phrased rfl
    · exact ((((settled l).append _).append _).append _).notDoc
  | map key value ihk ihv =>
    have code := (Ty.worded_code named).phrased
    have path : Phrased A Ty.mapPath := Ty.worded_mapPath.phrased
    refine .seq (.line (.and (.and (.and (.fixed rfl) phrased rfl) code rfl) path rfl)) ?_
    refine .temporary (by decide) fun head headed => ?_
    refine fillCode_commented (.fixed rfl) (.fixed rfl) headed.phrased ?_
    refine .temporary (by decide) fun k keyed => .temporary (by decide) fun v valued => ?_
    refine .seq (ihk (Ty.names_key named) keyed.phrased fun _ => keyed.settled) ?_
    refine .seq (ihv (Ty.names_value named) valued.phrased fun _ => valued.settled)
      (.entry ?_ fun l => ?_)
    · exact .and (.and (phrased.mark rfl) keyed.phrased rfl) valued.phrased rfl
    · exact ((((((settled l).append _).append _).append _).append _).append _).notDoc
  | _ => exact .line (.and (.fixed rfl) phrased rfl)

theorem writeCode_commented {t : Ty} {value : String} (phrased : Phrased A value)
    (settled : legible → Settled value) :
    Commented A legible (writeCode t value) (writeCode t value) := by
  induction t generalizing value with
  | void => exact .fail _
  | typedef name aliased ih => exact ih phrased settled
  | struct name | exception name =>
    exact .entry (phrased.mark rfl) fun l => ((settled l).append _).notDoc
  | list item ih | set item ih =>
    have kind : Phrased A item.kindCode := item.worded_kindCode.phrased
    refine .seq (.line (.and (.and (.fixed rfl) kind rfl) phrased rfl)) ?_
    refine .temporary (by decide) fun each begins => .seq (.braced ?_ ?_) (.fixed rfl)
    · exact .append (.and (.fixed rfl) begins.phrased rfl) phrased
    · exact ih begins.phrased fun _ => begins.settled
  | map key entry ihk ihv =>
    have keyKind : Phrased A key.kindCode := key.worded_kindCode.phrased
    have entryKind : Phrased A entry.kindCode := entry.worded_kindCode.phrased
    refine .seq (.line (.and (.and (.and (.fixed rfl) keyKind rfl) entryKind rfl) phrased rfl)) ?_
    refine .temporary (by decide) fun k keyed => .temporary (by decide) fun v valued => ?_
    refine .seq (.braced ?_ (.seq ?_ ?_)) (.fixed rfl)
    · exact .append (.and (.and (.fixed rfl) keyed.phrased rfl) valued.phrased rfl) phrased
    · exact ihk keyed.phrased fun _ => keyed.settled
    · exact ihv valued.phrased fun _ => valued.settled
  | _ => exact .line (.and (.fixed rfl) phrased rfl)

end Words

def Own (name : String) : Prop :=
  ∃ c, name.toList.head? = some c ∧ c ∉ ['/', 'o', 'l', 'i']

theorem Own.append {name : String} (own : Own name) (rest : String) : Own (name ++ rest) := by
  obtain ⟨c, first, other⟩ := own
  exact ⟨c, head?_append rest first, other⟩

theorem own_of_underscore {lead : String} (first : lead.toList.head? = some '_') (n : Nat) :
    Own (lead ++ toString n) :=
  Own.append ⟨'_', first, by decide⟩ _

theorem Own.idle {front back : String} (own : Own front) {rest : List Char}
    (ends : back.toList.reverse = ';' :: ')' :: rest) : (line (front ++ back)).Idle := by
  obtain ⟨c, first, other⟩ := own.append back
  have last : (front ++ back).toList.reverse = ';' :: ')' :: (rest ++ front.toList.reverse) := by
    rw [String.toList_append, List.reverse_append, ends]
    rfl
  exact line_idle (lineKind_idle first other last (by decide))

theorem line_reads {front back name : String}
    (starts : "let ".toList.isPrefixOf front.toList = true)
    (ends : readCall? back.toList = some name) :
    (line (front ++ back)).Shows [.call .reads name] :=
  line_shows (lineKind_read (isPrefixOf_append back starts) ends)

theorem line_makes {front back : String} (starts : "let ".toList.isPrefixOf front.toList = true)
    {rest : List Char} (ends : back.toList.reverse = ';' :: ')' :: '(' :: rest) :
    (line (front ++ back)).Idle := by
  have last : (front ++ back).toList.reverse =
      ';' :: ')' :: '(' :: (rest ++ front.toList.reverse) := by
    rw [String.toList_append, List.reverse_append, ends]
    rfl
  exact line_idle (lineKind_made (isPrefixOf_append back starts) last)

theorem let_starts (rest : String) : "let ".toList.isPrefixOf ("let " ++ rest).toList = true :=
  isPrefixOf_append rest rfl

theorem let_mut_starts (rest : String) :
    "let ".toList.isPrefixOf ("let mut " ++ rest).toList = true :=
  isPrefixOf_append rest rfl

theorem fillCode_shows {start finish head first last : String} {items : Draft Unit} {ops : List Op}
    (opens : readCall? (" = input." ++ start ++ "()?;").toList = some first)
    (closes : lineKind ("input." ++ finish ++ "()?;") = .does [.call .reads last])
    (shows : items.Shows ops) :
    (fillCode start finish head items).Shows
      [.call .reads first, .loop ops, .call .reads last] := by
  have opening : (line ("let " ++ head ++ " = input." ++ start ++ "()?;")).Shows
      [.call .reads first] := by
    have reads := line_reads (let_starts head) opens
    rwa [← String.append_assoc, ← String.append_assoc] at reads
  have loop : (block ("for _ in 0.." ++ head ++ ".size") "" items).Shows [.loop ops] :=
    shows.loop (isPrefixOf_append _ (isPrefixOf_append _ rfl))
  exact (opening.bind fun _ => loop.bind fun _ => line_shows closes).block rfl

theorem readCode_shows (t : Ty) {target : String} (own : Own target) :
    (readCode t target).Shows (t.calls .reads) := by
  -- The elements of a container are bound to temporary names, which are their own again.
  induction t generalizing target with
  | void =>
    intro n _ answered
    cases answered
  | typedef name aliased ih => exact ih own
  | bool | byte | i16 | i32 | i64 | double | string => exact line_reads (let_starts target) rfl
  | enum name =>
    exact line_reads (isPrefixOf_append _ (isPrefixOf_append _ (let_starts target))) rfl
  | struct name | exception name =>
    exact line_shows (lineKind_readNew (isPrefixOf_append _ (isPrefixOf_append _
      (isPrefixOf_append _ (let_starts target)))))
  | list item ih =>
    rw [readCode]
    refine Idle.bind_shows (line_makes ?_ rfl) fun _ => Shows.named fun _ =>
      fillCode_shows rfl rfl ?_
    · exact isPrefixOf_append _ (isPrefixOf_append _ (let_mut_starts target))
    · exact Shows.named fun n => (ih (own_of_underscore rfl n)).bind_idle fun _ =>
        ((own.append _).append _).idle rfl
  | set item ih =>
    rw [readCode]
    refine Idle.bind_shows (line_makes ?_ rfl) fun _ => Shows.named fun _ =>
      fillCode_shows rfl rfl ?_
    · exact isPrefixOf_append _ (isPrefixOf_append _ (isPrefixOf_append _ (isPrefixOf_append _
        (let_mut_starts target))))
    · exact Shows.named fun n => (ih (own_of_underscore rfl n)).bind_idle fun _ =>
        ((own.append _).append _).idle rfl
  | map key value ihk ihv =>
    rw [readCode]
    refine Idle.bind_shows (line_makes ?_ rfl) fun _ => Shows.named fun _ =>
      fillCode_shows rfl rfl ?_
    · exact isPrefixOf_append _ (isPrefixOf_append _ (isPrefixOf_append _ (isPrefixOf_append _
        (let_mut_starts target))))
    · refine Shows.named fun n => Shows.named fun m => ?_
      exact (ihk (own_of_underscore rfl n)).bind fun _ =>
        (ihv (own_of_underscore rfl m)).bind_idle fun _ =>
          ((((own.append _).append _).append _).append _).idle rfl

theorem line_writes {front rest name : String}
    (starts : ("output.write_" ++ name ++ "(").toList.isPrefixOf front.toList = true)
    (word : name.toList.all isWordChar = true) (other : name ≠ "field_begin")
    (last : rest.toList.getLast? = some ';') :
    (line (front ++ rest)).Shows [.call .writes name] :=
  line_shows (lineKind_write starts word other last)

theorem line_writes_value {front value rest name : String}
    (starts : ("output.write_" ++ name ++ "(").toList.isPrefixOf front.toList = true)
    (word : name.toList.all isWordChar = true) (other : name ≠ "field_begin")
    (last : rest.toList.getLast? = some ';') :
    (line (front ++ value ++ rest)).Shows [.call .writes name] :=
  line_writes (isPrefixOf_append value starts) word other last

theorem writeCode_shows (t : Ty) {value : String} (own : Own value) :
    (writeCode t value).Shows (t.calls .writes) := by
  induction t generalizing value with
  | void =>
    intro n _ answered
    cases answered
  | typedef name aliased ih => exact ih own
  | bool | byte | i16 | i32 | i64 | double | string =>
    exact line_writes_value rfl rfl (by decide) rfl
  | enum name => exact line_writes_value rfl rfl (by decide) rfl
  | struct name | exception name =>
    obtain ⟨c, first, other⟩ := own
    exact line_shows (lineKind_writeStruct first other)
  | list item ih | set item ih =>
    rw [writeCode]
    refine Shows.bind (line_writes ?_ rfl (by decide) rfl) fun _ => Shows.named fun n => ?_
    · exact isPrefixOf_append _ (isPrefixOf_append _ (isPrefixOf_append _ rfl))
    · exact Shows.bind ((ih (own_of_underscore rfl n)).loop
        (isPrefixOf_append _ (isPrefixOf_append _ (isPrefixOf_append _ rfl))))
        fun _ => line_shows rfl
  | map key entry ihk ihv =>
    rw [writeCode]
    refine Shows.bind (line_writes ?_ rfl (by decide) rfl) fun _ =>
      Shows.named fun n => Shows.named fun m => ?_
    · exact isPrefixOf_append _ (isPrefixOf_append _ (isPrefixOf_append _ (isPrefixOf_append _
        (isPrefixOf_append _ rfl))))
    · refine Shows.bind (Shows.loop ?_ ?_) fun _ => line_shows rfl
      · exact isPrefixOf_append _ (isPrefixOf_append _ (isPrefixOf_append _ (isPrefixOf_append _
          (isPrefixOf_append _ rfl))))
      · exact (ihk (own_of_underscore rfl n)).bind fun _ => ihv (own_of_underscore rfl m)

end Code

end Idl
