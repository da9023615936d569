import TileGrammar.Text.Basic

/-!
# Shortest decimal text of a double

A double stands for the interval of reals that round to it. The text written
is the point of the coarsest decimal grid that meets this interval, and of two
such points the nearer one, a tie going to the even digit. The search is done
in natural numbers. How the digits are laid out is decided by `numberLayout`.
-/

set_option autoImplicit false

namespace TileGrammar

/-- A finite double without its sign, `mantissa * 2 ^ exponent`. The gap below
it is half the gap above it when `narrowBelow`. -/
structure Magnitude where
  mantissa : Nat
  exponent : Int
  narrowBelow : Bool

def magnitude (x : Float) : Magnitude :=
  let bits := x.toBits.toNat
  let biased : Nat := bits / Nat.pow 2 52 % Nat.pow 2 11
  let fraction : Nat := bits % Nat.pow 2 52
  if biased = 0 then ⟨fraction, -1074, false⟩
  else ⟨Nat.pow 2 52 + fraction, (biased : Int) - 1075, fraction = 0 && 1 < biased⟩

def signBit (x : Float) : Bool := x.toBits.toNat / Nat.pow 2 63 = 1

/-- `a * 2 ^ p` and `b * 10 ^ g` brought to a common unit. -/
def alignPowers (a b : Nat) (p g : Int) : Nat × Nat :=
  (a * Nat.pow 2 p.toNat * Nat.pow 10 (-g).toNat, b * Nat.pow 10 g.toNat * Nat.pow 2 (-p).toNat)

/-- `n * 10 ^ g` rounds to the magnitude: it lies in the interval, whose ends
count when the mantissa is even. All is measured in quarters of a unit. -/
def Magnitude.holds (m : Magnitude) (g : Int) (n : Nat) : Bool :=
  let low := 4 * m.mantissa - (if m.narrowBelow then 1 else 2)
  let high := 4 * m.mantissa + 2
  let atLow := alignPowers low n (m.exponent - 2) g
  let atHigh := alignPowers high n (m.exponent - 2) g
  if m.mantissa % 2 = 0 then atLow.1 ≤ atLow.2 && atHigh.2 ≤ atHigh.1
  else atLow.1 < atLow.2 && atHigh.2 < atHigh.1

def Magnitude.gridPoint? (m : Magnitude) (g : Int) : Option Nat :=
  let scaled := alignPowers m.mantissa 1 m.exponent g
  let below := scaled.1 / scaled.2
  let rest := scaled.1 % scaled.2
  if m.holds g below then
    if m.holds g (below + 1) &&
        (scaled.2 < 2 * rest || (scaled.2 = 2 * rest && below % 2 = 1)) then some (below + 1)
    else some below
  else if m.holds g (below + 1) then some (below + 1)
  else none

def Magnitude.search (m : Magnitude) : Nat → Int → Nat × Int
  | 0, g => (m.mantissa, g)
  | tries + 1, g => match m.gridPoint? g with
    | some n => (n, g)
    | none => m.search tries (g - 1)

/-- A power of ten above the magnitude: `log10 2` is below `0.30103`. -/
def Magnitude.coarsest (m : Magnitude) : Int :=
  (m.mantissa.log2 + 1 + m.exponent) * 30103 / 100000 + 2

/-- Digits and power of ten of the text of a positive magnitude. Seventeen
digits always name a double, so the search ends within twenty four grids. -/
def Magnitude.shortest (m : Magnitude) : Nat × Int := m.search 24 m.coarsest

/-- How digits are laid out: in positions while the first digit stands for a
power of ten from `lowest` to `highest`, with a mark of the exponent beyond. -/
structure NumberLayout where
  lowest : Int
  highest : Int
  mark : Char
  plus : Bool

/-- Positional text from one hundred thousandth up to below ten to the sixteenth. -/
def numberLayout : NumberLayout := ⟨-5, 15, 'e', true⟩

def NumberLayout.exponentText (l : NumberLayout) (e : Int) : List Char :=
  let sign := if e < 0 then ['-'] else if l.plus then ['+'] else []
  l.mark :: sign ++ Nat.toDigits 10 e.natAbs

/-- Digits `ds` with the point after the first `point` of them; a positional
text has a digit on both sides of it. -/
def NumberLayout.place (l : NumberLayout) (ds : List Char) (point : Int) : List Char :=
  let e := point - 1
  if l.lowest ≤ e ∧ e ≤ l.highest then
    if point ≤ 0 then '0' :: '.' :: List.replicate (-point).toNat '0' ++ ds
    else if ds.length ≤ point.toNat then
      ds ++ List.replicate (point.toNat - ds.length) '0' ++ ['.', '0']
    else ds.take point.toNat ++ '.' :: ds.drop point.toNat
  else match ds with
    | [] => []
    | [d] => d :: l.exponentText e
    | d :: rest => d :: '.' :: rest ++ l.exponentText e

def floatText (x : Float) : List Char :=
  let m := magnitude x
  let sign := if signBit x then ['-'] else []
  if m.mantissa = 0 then sign ++ ['0', '.', '0']
  else
    let (n, g) := m.shortest
    let ds := Nat.toDigits 10 n
    sign ++ numberLayout.place ds (ds.length + g)

end TileGrammar
