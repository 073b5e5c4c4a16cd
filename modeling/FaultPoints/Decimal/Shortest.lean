import FaultPoints.Decimal.Binary64

/-!
# The fewest decimal digits that read back

A finite number is written with the fewest decimal digits from which rounding to nearest
recovers it, and among texts of that length with the one nearest to its exact value. Where
two are equally near, a rule that the format chooses decides between them.

The numbers that round to a given one form an interval around it, whose ends belong to it
iff the significand is even. Decimal grids are tried from the coarsest on, one digit
more each time. On each grid only the two neighbours of the exact value matter: if any
point of the grid lies in the interval then one of the two does.

## Main Definitions

* `Digits` — a natural number with a decimal exponent
* `Decimal.Tie` — which of two equally near numbers is chosen
* `Decimal.decade` — the decimal exponent of the leading digit of a quotient
* `Binary64.shortest` — the digits of a finite number
-/

namespace FaultPoints

/-- A decimal number `coefficient · 10^exponent`. -/
structure Digits where
  /-- The digits, read as one number. -/
  coefficient : Nat
  /-- The power of ten by which they are scaled. -/
  exponent : Int
  deriving DecidableEq, Repr

namespace Decimal

/-- How many decimal digits a number has; zero has one. -/
def length (n : Nat) : Nat :=
  if n < 10 then 1 else length (n / 10) + 1
termination_by n

/-- The exponent `k` with `10^k ≤ num / den < 10^(k+1)`, for a quotient that is not zero. -/
def decade (num den : Nat) : Int :=
  if den ≤ num then (length (num / den) : Int) - 1
  else -(length ((den - 1) / num) : Int)

/-- A natural number scaled by a power of ten, as numerator and denominator. -/
def scaled (n : Nat) (exponent : Int) : Nat × Nat :=
  match exponent with
  | .ofNat k => (n * Nat.pow 10 k, 1)
  | .negSucc k => (n, Nat.pow 10 (k + 1))

/-- An interval of quotients over one denominator, with or without its ends. -/
structure Interval where
  /-- The lower end times the denominator. -/
  low : Nat
  /-- The upper end times the denominator. -/
  high : Nat
  /-- The common denominator. -/
  den : Nat
  /-- Whether the ends belong to the interval. -/
  closed : Bool

/-- Whether a decimal number lies in an interval. -/
def Interval.has (i : Interval) (d : Digits) : Bool :=
  let (n, m) := scaled d.coefficient d.exponent
  if i.closed then i.low * m ≤ n * i.den && n * i.den ≤ i.high * m
  else i.low * m < n * i.den && n * i.den < i.high * m

/-- Which of two equally near numbers is chosen. -/
inductive Tie where
  /-- The one whose last digit is even. -/
  | toEven
  /-- The greater one. -/
  | up
  deriving DecidableEq, Repr

/-- Whether the lower one of two equally near numbers is chosen. -/
def Tie.prefersLower (t : Tie) (lower : Nat) : Bool :=
  match t with
  | .toEven => lower % 2 == 0
  | .up => false

/-- The nearer to `num / den` of the two decimal numbers with the given exponent around it,
among those that lie in the interval. -/
def nearestOnGrid (t : Tie) (i : Interval) (num den : Nat) (exponent : Int) : Option Digits :=
  let (p, q) := scaled 1 exponent
  let below := num * q / (den * p)
  let down : Digits := ⟨below, exponent⟩
  let up : Digits := ⟨below + 1, exponent⟩
  match i.has down, i.has up with
  | true, true =>
    -- The remainder says how far the value lies above the lower neighbour.
    let twice := 2 * (num * q % (den * p))
    if twice < den * p || twice = den * p && t.prefersLower below then some down else some up
  | true, false => some down
  | false, true => some up
  | false, false => none

/-- The first hit among the grids that have one digit, two digits and so on. -/
def firstHit (t : Tie) (i : Interval) (num den : Nat) (top : Int) : Nat → Nat → Digits
  | 0, _ => ⟨0, 0⟩
  | fuel + 1, count =>
    match nearestOnGrid t i num den (top - count) with
    | some d => d
    | none => firstHit t i num den top fuel (count + 1)

/-- Decimal digits without trailing zeros. -/
def stripZeros : Nat → Digits → Digits
  | 0, d => d
  | fuel + 1, d =>
    if d.coefficient % 10 = 0 && d.coefficient != 0 then
      stripZeros fuel ⟨d.coefficient / 10, d.exponent + 1⟩
    else d

end Decimal

namespace Binary64

/-- The interval of the quotients that round to a finite number other than zero. The gap
below a power of two is half the gap above it. -/
def roundingInterval (x : Binary64) : Decimal.Interval :=
  -- Quarters of a unit are counted, so that half of the smaller gap is whole too.
  let step := Nat.pow 2 x.scale
  let below := if x.fraction.val = 0 && 1 < x.exponent.val then step else 2 * step
  { low := 4 * x.units - below
    high := 4 * x.units + 2 * step
    den := 4 * unitsPerOne
    closed := x.significand % 2 == 0 }

/-- The fewest digits from which rounding to nearest recovers a finite number, and among
those the ones nearest to it. -/
def shortest (t : Decimal.Tie) (x : Binary64) : Digits :=
  if x.isZero then ⟨0, 0⟩
  else
    -- Seventeen digits always suffice, so that the fuel is never used up.
    let top := Decimal.decade x.units unitsPerOne
    let d := Decimal.firstHit t x.roundingInterval x.units unitsPerOne top 18 0
    Decimal.stripZeros 18 d

end Binary64

end FaultPoints
