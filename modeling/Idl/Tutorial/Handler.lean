import Idl.Tutorial.Services

/-!
# A handler for the tutorial services

The handler logs the results of calculations and counts what it is asked for.
-/

set_option autoImplicit false

namespace Idl.Tutorial

open Rpc Wire

structure State where
  log : List (Int32 × sharedStruct.Val) := []
  pings : Nat := 0
  zips : Nat := 0
  resets : Nat := 0
  batches : List Int32 := []

namespace State

def entry (s : State) (id : Int32) : sharedStruct.Val :=
  match s.log.find? (·.1 = id) with
  | some (_, entry) => entry
  | none => sharedStructFields.defaults

def record (s : State) (id : Int32) (result : Int32) : State :=
  let entry : sharedStruct.Val := (some id, some (toString result.toInt), ())
  { s with log := insertEntry Shape.i32.order id entry s.log }

end State

def overflow : Failure := .user "overflow"

/-- The sum, unless it leaves the numbers of its width. -/
def sum (a b : Int32) : Except Failure Int32 :=
  if (a + b).toInt = a.toInt + b.toInt then .ok (a + b) else .error overflow

/-- The result of an operation or what is wrong with it. Operations from 96 on fail in ways that
no exception declares. -/
def compute (op a b : Int32) : Except Failure (Int32 ⊕ invalidOperation.Val) :=
  let refuse (why : String) : Int32 ⊕ invalidOperation.Val := .inr (some op, some why, ())
  match op.toInt with
  | 1 => .ok (.inl (a + b))
  | 2 => .ok (.inl (a - b))
  | 3 => .ok (.inl (a * b))
  | 4 => .ok (if b = 0 then refuse "Cannot divide by 0" else .inl (a / b))
  | 96 => .error (.io "disk")
  | 97 => .error overflow
  | 98 => .error (.protocol (.rejected "handler"))
  | 99 => .error (.application ⟨.internalError, "handler"⟩)
  | _ => .ok (refuse "Invalid operation")

def squareRoot (d : Double) : Double :=
  if d.isNaN then ⟨d.bits ||| 0x0008000000000000⟩
  else if d.isNegative ∧ d.magnitude ≠ 0 then ⟨0xfff8000000000000⟩
  else ⟨(Float.ofBits d.bits).sqrt.toBits⟩

def handler : Handler interface State
  | .getStruct, (key, _), s => (.ok (.inl (s.entry key)), s)
  | .ping, _, s => (.ok none, { s with pings := s.pings + 1 })
  | .add, (a, b, _), s => ((sum a b).map .inl, s)
  | .calculate, (id, (a, b, op, _), _), s =>
    match compute (op.getD (0 : Int32)) (a.getD (0 : Int32)) (b.getD (0 : Int32)) with
    | .error failure => (.error failure, s)
    | .ok (.inl result) => (.ok (.inl result), s.record id result)
    | .ok (.inr x) => (.ok (.inr (.inl x)), s)
  | .reset, _, s =>
    let s := { s with resets := s.resets + 1 }
    if s.log.isEmpty then (.ok (some (.inl (none, some "Nothing to reset", ()))), s)
    else (.ok none, { s with log := [] })
  | .zip, _, s => (.ok (), { s with zips := s.zips + 1 })
  | .sqrt, (d, _), s => (.ok (.inl (squareRoot d)), s)
  | .new, (seed, _), s => (.ok (.inl (seed * (10 : Int32))), s)
  | .channelMut, (batch, _), s => (.ok (.inl batch), { s with batches := s.batches ++ [batch] })
  | .intoChannel, _, s => (.ok (), s)

end Idl.Tutorial
