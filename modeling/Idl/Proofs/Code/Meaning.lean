import Idl.Proofs.Code.Rendering

/-!
# What literals stand for

A literal stands for a value of the type that it is given to. An integer can stand for a truth value
and a truth value for a number, a list literal and a set literal stand for the sequence of their
items, and of the values that are given for one field the last one counts.
-/

set_option autoImplicit false

namespace Idl

inductive Meaning where
  | truth (b : Bool)
  | number (n : Int)
  | text (t : String)
  | sequence (items : List Meaning)
  | table (pairs : List (Meaning × Meaning))
  /-- The values of the fields that have one. -/
  | record (value : String → Option Meaning)

/-- The last value that is given for a key. -/
def lastGiven {α : Type} (entries : List (String × α)) (key : String) : Option α :=
  (entries.reverse.find? (·.1 = key)).map (·.2)

namespace Schema

def simpleMeaning? (ty : Ty) (v : Literal) : Option Meaning :=
  match ty.resolve with
  | .string =>
    match v with
    | .text t => some (.text t)
    | _ => none
  | .bool => v.integer?.map fun n => .truth (n ≠ 0)
  | .byte | .i16 | .i32 | .i64 | .enum _ => v.integer?.map fun n => .number n.toInt
  | _ => none

mutual

/-- What a literal stands for at a type, if it fits it. -/
def meaning? (s : Schema) (ty : Ty) : Literal → Option Meaning
  | .list items =>
    match ty.resolve with
    | .list item | .set item => (s.itemMeanings? item items).map .sequence
    | _ => none
  | .set items =>
    match ty.resolve with
    | .list item | .set item => (s.itemMeanings? item items).map .sequence
    | _ => none
  | .map pairs =>
    match ty.resolve with
    | .map key value => (s.pairMeanings? key value pairs).map .table
    | .struct name | .exception name => do
      let d ← s.struct? name
      (s.keyedMeanings? d pairs).map fun given => .record (lastGiven given)
    | _ => none
  | .struct entries =>
    match ty.resolve with
    | .struct name | .exception name => do
      let d ← s.struct? name
      (s.entryMeanings? d entries).map fun given => .record (lastGiven given)
    | _ => none
  | .integer n => simpleMeaning? ty (.integer n)
  | .double d => simpleMeaning? ty (.double d)
  | .bool b => simpleMeaning? ty (.bool b)
  | .text t => simpleMeaning? ty (.text t)

def itemMeanings? (s : Schema) (ty : Ty) : List Literal → Option (List Meaning)
  | [] => some []
  | v :: rest => do
    let first ← s.meaning? ty v
    some (first :: (← s.itemMeanings? ty rest))

def pairMeanings? (s : Schema) (key value : Ty) :
    List (Literal × Literal) → Option (List (Meaning × Meaning))
  | [] => some []
  | (k, v) :: rest => do
    let first ← s.meaning? key k
    let second ← s.meaning? value v
    some ((first, second) :: (← s.pairMeanings? key value rest))

def keyedMeanings? (s : Schema) (d : StructDecl) :
    List (Literal × Literal) → Option (List (String × Meaning))
  | [] => some []
  | (k, v) :: rest =>
    match k with
    | .text key => do
      let f ← d.field? key
      let first ← s.meaning? f.ty v
      some ((key, first) :: (← s.keyedMeanings? d rest))
    | _ => none

def entryMeanings? (s : Schema) (d : StructDecl) :
    List (String × Literal) → Option (List (String × Meaning))
  | [] => some []
  | (key, v) :: rest => do
    let f ← d.field? key
    let first ← s.meaning? f.ty v
    some ((key, first) :: (← s.entryMeanings? d rest))

end

variable {s : Schema} {ty item key value : Ty} {v : Literal}

def GivesMeaning (s : Schema) (d : StructDecl) (e : String × Literal) (g : String × Meaning) :
    Prop :=
  ∃ f, d.field? e.1 = some f ∧ s.meaning? f.ty e.2 = some g.2 ∧ g.1 = e.1

theorem itemMeanings?_eq_some_iff {items : List Literal} {ms : List Meaning} :
    s.itemMeanings? ty items = some ms ↔
      List.Forall₂ (fun i m => s.meaning? ty i = some m) items ms := by
  induction items generalizing ms with
  | nil => simp [itemMeanings?, eq_comm]
  | cons i rest ih =>
    rw [itemMeanings?]
    simp only [Option.bind_eq_bind, Option.bind_eq_some_iff, ih, List.forall₂_cons_left_iff,
      Option.some.injEq]
    constructor
    · rintro ⟨m, first, others, all, rfl⟩
      exact ⟨m, others, first, all, rfl⟩
    · rintro ⟨m, others, first, all, rfl⟩
      exact ⟨m, first, others, all, rfl⟩

theorem pairMeanings?_eq_some_iff {pairs : List (Literal × Literal)}
    {ms : List (Meaning × Meaning)} :
    s.pairMeanings? key value pairs = some ms ↔ List.Forall₂ (fun p m =>
      s.meaning? key p.1 = some m.1 ∧ s.meaning? value p.2 = some m.2) pairs ms := by
  induction pairs generalizing ms with
  | nil => simp [pairMeanings?, eq_comm]
  | cons p rest ih =>
    rw [pairMeanings?]
    simp only [Option.bind_eq_bind, Option.bind_eq_some_iff, ih, List.forall₂_cons_left_iff,
      Option.some.injEq]
    constructor
    · rintro ⟨k, first, w, second, others, all, rfl⟩
      exact ⟨(k, w), others, ⟨first, second⟩, all, rfl⟩
    · rintro ⟨m, others, ⟨first, second⟩, all, rfl⟩
      exact ⟨m.1, first, m.2, second, others, all, rfl⟩

theorem entryMeanings?_eq_some_iff {d : StructDecl} {entries : List (String × Literal)}
    {given : List (String × Meaning)} :
    s.entryMeanings? d entries = some given ↔ List.Forall₂ (s.GivesMeaning d) entries given := by
  induction entries generalizing given with
  | nil => simp [entryMeanings?, eq_comm]
  | cons e rest ih =>
    rw [entryMeanings?]
    simp only [Option.bind_eq_bind, Option.bind_eq_some_iff, ih, List.forall₂_cons_left_iff,
      Option.some.injEq]
    constructor
    · rintro ⟨f, declared, m, first, others, all, rfl⟩
      exact ⟨(e.1, m), others, ⟨f, declared, first, rfl⟩, all, rfl⟩
    · rintro ⟨⟨key, m⟩, others, ⟨f, declared, first, rfl⟩, all, rfl⟩
      exact ⟨f, declared, m, first, others, all, rfl⟩

theorem keyedMeanings?_eq {d : StructDecl} (entries : List (String × Literal)) :
    s.keyedMeanings? d (entries.map fun (key, v) => (.text key, v)) =
      s.entryMeanings? d entries := by
  induction entries with
  | nil => rfl
  | cons e rest ih => rw [List.map_cons, keyedMeanings?, entryMeanings?, ih]

theorem meaning?_sequence (form : ty.resolve = .list item ∨ ty.resolve = .set item)
    {items : List Literal} (has : v.items? = some items) :
    s.meaning? ty v = (s.itemMeanings? item items).map .sequence := by
  rcases Literal.items?_eq_some_iff.mp has with rfl | rfl <;> rcases form with form | form <;>
    rw [meaning?, form]

theorem meaning?_table (form : ty.resolve = .map key value) (pairs : List (Literal × Literal)) :
    s.meaning? ty (.map pairs) = (s.pairMeanings? key value pairs).map .table := by
  rw [meaning?, form]

theorem meaning?_record {name : String} (form : ty.structName? = some name) {d : StructDecl}
    (found : s.struct? name = some d) {entries : List (String × Literal)}
    (gives : v.Gives entries) :
    s.meaning? ty v = (s.entryMeanings? d entries).map fun given => .record (lastGiven given) := by
  have shape : ty.resolve = .struct name ∨ ty.resolve = .exception name := by
    unfold Ty.structName? at form
    split at form <;> simp_all
  cases gives with
  | struct => rcases shape with shape | shape <;> simp [meaning?, shape, found]
  | map => rcases shape with shape | shape <;> simp [meaning?, shape, found, keyedMeanings?_eq]

theorem meaning?_string (form : ty.resolve = .string) (t : String) :
    s.meaning? ty (.text t) = some (.text t) := by
  rw [meaning?, simpleMeaning?, form]

theorem meaning?_bool (form : ty.resolve = .bool) {n : Int64} (given : v.integer? = some n) :
    s.meaning? ty v = some (.truth (n ≠ 0)) := by
  cases v <;> simp_all [meaning?, simpleMeaning?, Literal.integer?]

theorem meaning?_number {bits : Nat} (form : ty.resolve.bits? = some bits) {n : Int64}
    (given : v.integer? = some n) : s.meaning? ty v = some (.number n.toInt) := by
  have simple : simpleMeaning? ty v = some (.number n.toInt) := by
    unfold Ty.bits? at form
    unfold simpleMeaning?
    split at form <;> simp_all
  cases v with
  | integer m => exact simple
  | bool b => exact simple
  | _ => cases given

end Schema

end Idl
