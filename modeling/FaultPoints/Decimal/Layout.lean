import FaultPoints.Decimal.Shortest
import FaultPoints.Text.Digits

/-!
# How a number is laid out

The digits of a number are settled by `Binary64.shortest`; what remains is where the point
stands, when an exponent takes over, and what stands for the values that are not finite.
These decisions are one record per format.

## Main Definitions

* `Layout` — the decisions of one format
* `Layout.json` — documents: positional from `1e-5` up to `1e16`, always with a point
* `Layout.message` — messages: always positional, whole numbers without a point
* `Layout.cited` — a number cited by a type error: as in messages, always with a point
* `Layout.render` — the text of a number
-/

namespace FaultPoints

/-- What a format decides about the text of a number. -/
structure Layout where
  /-- The number `0.d₁d₂… · 10^p` is positional iff `p` lies strictly above the first bound
  and at most at the second; without bounds it always is. -/
  bounds : Option (Int × Int)
  /-- Which of two equally near texts is chosen. -/
  tie : Decimal.Tie
  /-- Whether a whole number keeps a point with one zero behind it. -/
  pointZero : Bool
  /-- The text of a value that is not a number. -/
  nan : String
  /-- The text of the infinite magnitude. -/
  infinite : String
  /-- Whether an infinite value shows its sign. -/
  signedInfinity : Bool

namespace Layout

/-- Numbers in documents. -/
def json : Layout :=
  { bounds := some (-5, 16), tie := .toEven, pointZero := true, nan := "null",
    infinite := "null", signedInfinity := false }

/-- Numbers in messages. -/
def message : Layout :=
  { bounds := none, tie := .up, pointZero := false, nan := "NaN", infinite := "inf",
    signedInfinity := true }

/-- Numbers cited by a type error of the settings. -/
def cited : Layout := { message with pointZero := true }

/-- Digits with the point at a place counted from their left end. -/
def positional (pointZero : Bool) (ds : List Char) (point : Int) : List Char :=
  if point ≤ 0 then ['0', '.'] ++ List.replicate point.natAbs '0' ++ ds
  else
    let n := point.toNat
    if ds.length ≤ n then
      ds ++ List.replicate (n - ds.length) '0' ++ (if pointZero then ['.', '0'] else [])
    else ds.take n ++ '.' :: ds.drop n

/-- Digits with a point behind the first one and an exponent. -/
def scientific (ds : List Char) (exponent : Int) : List Char :=
  let mantissa := match ds with
    | [] => []
    | [d] => [d]
    | d :: rest => d :: '.' :: rest
  let sign := if exponent < 0 then '-' else '+'
  mantissa ++ 'e' :: sign :: Text.digits exponent.natAbs

/-- The magnitude of a finite number. -/
def magnitude (l : Layout) (x : Binary64) : List Char :=
  let d := x.shortest l.tie
  if d.coefficient = 0 then '0' :: (if l.pointZero then ['.', '0'] else [])
  else
    let ds := Text.digits d.coefficient
    let point := (ds.length : Int) + d.exponent
    match l.bounds with
    | none => positional l.pointZero ds point
    | some (low, high) =>
      if low < point && point ≤ high then positional l.pointZero ds point
      else scientific ds (point - 1)

/-- The characters of a number's text. -/
def chars (l : Layout) (x : Binary64) : List Char :=
  if x.isNan then l.nan.toList
  else if x.isInfinite then
    (if x.negative && l.signedInfinity then ['-'] else []) ++ l.infinite.toList
  else (if x.negative then ['-'] else []) ++ l.magnitude x

/-- The text of a number. -/
def render (l : Layout) (x : Binary64) : String := String.ofList (l.chars x)

end Layout

end FaultPoints
