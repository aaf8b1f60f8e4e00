import Idl.Proofs.Wire.Reading

/-!
# Wire values as trees

What the wire can carry, apart from any declared type: scalars, structs as lists of records, and
containers that announce the kinds of what is in them. Each tree has its bytes and its depth. In a
well-formed tree every size fits its word, and what a container holds has the announced kinds; an
empty container may announce any kinds.
-/

set_option autoImplicit false

namespace Idl.Wire

inductive Scalar where
  /-- Every byte but zero stands for true. -/
  | bool (mark : UInt8)
  | byte (n : Int8)
  | i16 (n : Int16)
  | i32 (n : Int32)
  | i64 (n : Int64)
  | double (d : Double)
  | string (s : String)

namespace Scalar

def kind : Scalar → Kind
  | .bool _ => .bool
  | .byte _ => .byte
  | .i16 _ => .i16
  | .i32 _ => .i32
  | .i64 _ => .i64
  | .double _ => .double
  | .string _ => .string

def encode : Scalar → Bytes
  | .bool mark => [mark]
  | .byte n => bigEndian 1 n.toUInt8.toNat
  | .i16 n => bigEndian 2 n.toUInt16.toNat
  | .i32 n => bigEndian 4 n.toUInt32.toNat
  | .i64 n => bigEndian 8 n.toUInt64.toNat
  | .double d => bigEndian 8 d.bits.toNat
  | .string s => bigEndian 4 (Text.utf8 s).length ++ Text.utf8 s

def WellFormed : Scalar → Prop
  | .string s => (Text.utf8 s).length ≤ 0x7FFFFFFF
  | _ => True

end Scalar

inductive Tree where
  | scalar (value : Scalar)
  | struct (records : List (Int16 × Tree))
  | list (item : Kind) (items : List Tree)
  | set (item : Kind) (items : List Tree)
  | map (key value : Kind) (entries : List (Tree × Tree))

abbrev Record := Int16 × Tree

namespace Tree

def kind : Tree → Kind
  | .scalar value => value.kind
  | .struct _ => .struct
  | .list _ _ => .list
  | .set _ _ => .set
  | .map _ _ _ => .map

mutual

def encode : Tree → Bytes
  | .scalar value => value.encode
  | .struct records => encodeRecords records ++ [Kind.stop.tag]
  | .list item items => item.tag :: bigEndian 4 items.length ++ encodeItems items
  | .set item items => item.tag :: bigEndian 4 items.length ++ encodeItems items
  | .map key value entries =>
    key.tag :: value.tag :: bigEndian 4 entries.length ++ encodeEntries entries

def encodeRecords : List (Int16 × Tree) → Bytes
  | [] => []
  | (id, t) :: rest =>
    t.kind.tag :: bigEndian 2 id.toUInt16.toNat ++ (t.encode ++ encodeRecords rest)

def encodeItems : List Tree → Bytes
  | [] => []
  | t :: rest => t.encode ++ encodeItems rest

def encodeEntries : List (Tree × Tree) → Bytes
  | [] => []
  | (k, v) :: rest => (k.encode ++ v.encode) ++ encodeEntries rest

end

mutual

/-- A scalar is one deep, anything else one more than the deepest value in it. -/
def depth : Tree → Nat
  | .scalar _ => 1
  | .struct records => depthRecords records + 1
  | .list _ items => depthItems items + 1
  | .set _ items => depthItems items + 1
  | .map _ _ entries => depthEntries entries + 1

def depthRecords : List (Int16 × Tree) → Nat
  | [] => 0
  | (_, t) :: rest => max t.depth (depthRecords rest)

def depthItems : List Tree → Nat
  | [] => 0
  | t :: rest => max t.depth (depthItems rest)

def depthEntries : List (Tree × Tree) → Nat
  | [] => 0
  | (k, v) :: rest => max (max k.depth v.depth) (depthEntries rest)

end

inductive WellFormed : Tree → Prop
  | scalar {value : Scalar} (h : value.WellFormed) : WellFormed (.scalar value)
  | struct {records : List (Int16 × Tree)} (h : ∀ r ∈ records, WellFormed r.2) :
      WellFormed (.struct records)
  | list {item : Kind} {items : List Tree} (size : items.length ≤ 0x7FFFFFFF)
      (kinds : ∀ t ∈ items, t.kind = item) (h : ∀ t ∈ items, WellFormed t) :
      WellFormed (.list item items)
  | set {item : Kind} {items : List Tree} (size : items.length ≤ 0x7FFFFFFF)
      (kinds : ∀ t ∈ items, t.kind = item) (h : ∀ t ∈ items, WellFormed t) :
      WellFormed (.set item items)
  | map {key value : Kind} {entries : List (Tree × Tree)} (size : entries.length ≤ 0x7FFFFFFF)
      (kinds : ∀ e ∈ entries, e.1.kind = key ∧ e.2.kind = value)
      (keys : ∀ e ∈ entries, WellFormed e.1) (values : ∀ e ∈ entries, WellFormed e.2) :
      WellFormed (.map key value entries)

theorem kind_ne_stop (t : Tree) : t.kind ≠ .stop := by
  cases t with
  | scalar value => cases value <;> simp [kind, Scalar.kind]
  | _ => simp [kind]

theorem encodeItems_eq (items : List Tree) : encodeItems items = items.flatMap encode := by
  induction items with
  | nil => rfl
  | cons t rest ih => rw [encodeItems, ih, List.flatMap_cons]

theorem encodeEntries_eq (entries : List (Tree × Tree)) :
    encodeEntries entries = entries.flatMap fun e => e.1.encode ++ e.2.encode := by
  induction entries with
  | nil => rfl
  | cons e rest ih => rw [encodeEntries, ih, List.flatMap_cons]

theorem depthItems_le (items : List Tree) (n : Nat) :
    depthItems items ≤ n ↔ ∀ t ∈ items, t.depth ≤ n := by
  induction items with
  | nil => simp [depthItems]
  | cons t rest ih => rw [depthItems, Nat.max_le, ih, List.forall_mem_cons]

theorem depthEntries_le (entries : List (Tree × Tree)) (n : Nat) :
    depthEntries entries ≤ n ↔ ∀ e ∈ entries, e.1.depth ≤ n ∧ e.2.depth ≤ n := by
  induction entries with
  | nil => simp [depthEntries]
  | cons e rest ih => rw [depthEntries, Nat.max_le, Nat.max_le, ih, List.forall_mem_cons]

end Tree

def Record.header (r : Record) : FieldHeader := ⟨r.2.kind, r.1⟩

end Idl.Wire
