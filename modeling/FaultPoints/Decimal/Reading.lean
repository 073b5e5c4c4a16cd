import FaultPoints.Decimal.Shortest
import FaultPoints.Text.Digits

/-!
# Reading decimal numbers

A decimal text denotes an exact rational number, and the number read is the binary64 number
nearest to it. Exponents may have any length: a magnitude far outside the range of the
format is recognised from the number of digits alone.

## Main Definitions

* `Digits.toBinary64` — the nearest number to a decimal
* `Decimal.Exponent` — the part behind the letter `e`
* `Decimal.read` — the free form of settings: a sign, digits on either side of a point,
  an exponent, or the names of the values that are not finite
-/

namespace FaultPoints

/-- The binary64 number nearest to a decimal with a sign. A decimal whose leading digit stands
more than four hundred places from the point is infinite or zero without further
arithmetic, far outside the range of finite numbers either way. -/
def Digits.toBinary64 (d : Digits) (negative : Bool) : Binary64 :=
  if d.coefficient = 0 then Binary64.zero negative
  else
    let top := (Decimal.length d.coefficient : Int) + d.exponent
    if 400 < top then Binary64.infinity negative
    else if top < -400 then Binary64.zero negative
    else
      let (num, den) := Decimal.scaled d.coefficient d.exponent
      Binary64.ofRatio negative num den

namespace Decimal

/-- The value of an exponent part `e±digits`, which must be the whole of the list. -/
def exponentPart (cs : List Char) : Option Int :=
  match cs with
  | '-' :: rest => (Text.readNatural rest).map fun n => -(n : Int)
  | '+' :: rest => (Text.readNatural rest).map fun n => (n : Int)
  | _ => (Text.readNatural cs).map fun n => (n : Int)

/-- A decimal without sign: digits, an optional point with digits, an optional exponent;
one digit at least stands before the exponent. -/
def unsigned (cs : List Char) : Option Digits :=
  let whole := cs.takeWhile Text.isDigit
  let afterWhole := cs.dropWhile Text.isDigit
  let (part, afterPart) := match afterWhole with
    | '.' :: rest => (rest.takeWhile Text.isDigit, rest.dropWhile Text.isDigit)
    | _ => ([], afterWhole)
  if whole.isEmpty && part.isEmpty then none
  else
    let coefficient := Text.ofDigits (whole ++ part)
    match afterPart with
    | [] => some ⟨coefficient, -(part.length : Int)⟩
    | c :: rest =>
      if c = 'e' || c = 'E' then
        (exponentPart rest).map fun e => ⟨coefficient, e - (part.length : Int)⟩
      else none

/-- A number in the free form of settings. Letters may be of either case. -/
def read (s : String) : Option Binary64 :=
  let (negative, body) := match s.toList with
    | '-' :: rest => (true, rest)
    | '+' :: rest => (false, rest)
    | cs => (false, cs)
  let name := String.ofList (body.map Char.toLower)
  if name = "inf" || name = "infinity" then some (Binary64.infinity negative)
  else if name = "nan" then some Binary64.nan
  else (unsigned body).map fun d => d.toBinary64 negative

end Decimal

end FaultPoints
