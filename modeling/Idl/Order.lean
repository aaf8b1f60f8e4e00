/-!
# Ascending lists

Sets and maps are kept as ascending lists under a comparison. Inserting what is there changes
nothing in a set; in a map it replaces the value.
-/

set_option autoImplicit false

namespace Idl

/-- Lists by their first difference; a list comes after its own beginnings. -/
def orderLists {α : Type} (order : α → α → Ordering) : List α → List α → Ordering
  | [], [] => .eq
  | [], _ :: _ => .lt
  | _ :: _, [] => .gt
  | a :: as, b :: bs => (order a b).then (orderLists order as bs)

def orderPairs {α β : Type} (first : α → α → Ordering) (second : β → β → Ordering)
    (x y : α × β) : Ordering :=
  (first x.1 y.1).then (second x.2 y.2)

/-- What is absent comes first. -/
def orderOptions {α : Type} (order : α → α → Ordering) : Option α → Option α → Ordering
  | none, none => .eq
  | none, some _ => .lt
  | some _, none => .gt
  | some a, some b => order a b

def orderNats (a b : Nat) : Ordering :=
  if a < b then .lt else if a = b then .eq else .gt

def orderInts (a b : Int) : Ordering :=
  if a < b then .lt else if a = b then .eq else .gt

/-- Texts by their code points, which is also their order by UTF-8 bytes. -/
def orderTexts (a b : String) : Ordering :=
  orderLists (fun c d => orderNats c.toNat d.toNat) a.toList b.toList

def insertAscending {α : Type} (order : α → α → Ordering) (a : α) : List α → List α
  | [] => [a]
  | b :: bs =>
    match order a b with
    | .lt => a :: b :: bs
    | .eq => b :: bs
    | .gt => b :: insertAscending order a bs

def ascending {α : Type} (order : α → α → Ordering) (items : List α) : List α :=
  items.foldl (fun kept a => insertAscending order a kept) []

def insertEntry {κ ν : Type} (order : κ → κ → Ordering) (k : κ) (v : ν) :
    List (κ × ν) → List (κ × ν)
  | [] => [(k, v)]
  | (l, w) :: rest =>
    match order k l with
    | .lt => (k, v) :: (l, w) :: rest
    | .eq => (l, v) :: rest
    | .gt => (l, w) :: insertEntry order k v rest

def entries {κ ν : Type} (order : κ → κ → Ordering) (items : List (κ × ν)) : List (κ × ν) :=
  items.foldl (fun kept e => insertEntry order e.1 e.2 kept) []

end Idl
