import TileGrammar.Text.Basic

/-!
# Reading a numeral

A numeral is read into an integer where one of 64 bits holds it, and into a
double otherwise. The significand of a double keeps digits as long as they fit
64 bits and drops the rest; it is then scaled once by a power of ten, in the
arithmetic of doubles. A double beyond the largest one is no number.
-/

set_option autoImplicit false

namespace TileGrammar

/-- The parts of a numeral as written. Digits stand as characters. -/
structure Numeral where
  negative : Bool
  whole : List Char
  fraction : List Char
  exponent : Int
  integral : Bool

/-- A significand of 64 bits times a power of ten. `full` once a digit did not fit. -/
structure Significand where
  value : Nat
  power : Int
  full : Bool

def digitValue (c : Char) : Nat := (decimalDigit? c).getD 0

def Significand.wholeDigit (s : Significand) (c : Char) : Significand :=
  let next := s.value * 10 + digitValue c
  if s.full || UInt64.size ≤ next then ⟨s.value, s.power + 1, true⟩ else ⟨next, s.power, false⟩

def Significand.fractionDigit (s : Significand) (c : Char) : Significand :=
  let next := s.value * 10 + digitValue c
  if s.full || UInt64.size ≤ next then ⟨s.value, s.power, true⟩ else ⟨next, s.power - 1, false⟩

/-- The fraction starts afresh: a digit may fit again after one that did not. -/
def Numeral.significand (n : Numeral) : Significand :=
  let whole := n.whole.foldl Significand.wholeDigit ⟨0, 0, false⟩
  n.fraction.foldl Significand.fractionDigit ⟨whole.value, whole.power, false⟩

def powerOfTen (n : Nat) : Float := OfScientific.ofScientific 1 false n

/-- `value * 10 ^ power`. Below `10 ^ -308` the division is done in two steps,
and two steps of it leave nothing. -/
def scaleByTen (value : Nat) (power : Int) : Option Float :=
  let x := Float.ofNat value
  if 308 < power then if value = 0 then some 0 else none
  else if 0 ≤ power then
    let y := x * powerOfTen power.toNat
    if y.isInf then none else some y
  else if -308 ≤ power then some (x / powerOfTen (-power).toNat)
  else if -616 ≤ power then some (x / powerOfTen 308 / powerOfTen (-power - 308).toNat)
  else some 0

def Numeral.toFloat? (n : Numeral) : Option Float :=
  let s := n.significand
  (scaleByTen s.value (s.power + n.exponent)).map fun x => if n.negative then -x else x

/-- An integral numeral of 64 bits. The negative zero is not one. -/
def Numeral.toInt? (n : Numeral) : Option Int :=
  let value := n.whole.foldl (fun v c => v * 10 + digitValue c) 0
  if !n.integral then none
  else if n.negative then
    if value = 0 ∨ Nat.pow 2 63 < value then none else some (-value)
  else if UInt64.size ≤ value then none
  else some value

end TileGrammar
