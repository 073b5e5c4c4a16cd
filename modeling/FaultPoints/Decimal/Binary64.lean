/-!
# Numbers of the binary64 format

Sleeping times travel as binary64 numbers. They are held here by their three fields, and
every operation on them is exact arithmetic on natural numbers followed by one rounding,
so that a statement about a written or a converted number never depends on the hardware.

A finite number denotes `units · 2^-1074`, with `units` a natural number; the numbers that
are not negative are therefore ordered by their *rank*, the two lower fields read as one
natural number.

## Main Definitions

* `Binary64` — sign, exponent field and fraction field
* `Binary64.units` — the magnitude in multiples of the least positive number
* `Binary64.ofRatio` — the number nearest to a quotient, a tie going to the even neighbour
* `Binary64.ofNatural`, `Binary64.add` — conversion and addition with that rounding
* `Binary64.roundedAway` — the integer nearest to a magnitude, a half going up

## Main Statements

* `rank_ofRank` — a rank below the infinite one is the rank of the number built from it
-/

namespace FaultPoints

/-- How many fractions share an exponent. -/
abbrev fractionCount : Nat := 4503599627370496

/-- A number of the binary64 format by its fields. -/
structure Binary64 where
  /-- The sign bit. -/
  negative : Bool
  /-- The biased exponent. -/
  exponent : Fin 2048
  /-- The fraction without its hidden bit. -/
  fraction : Fin fractionCount
  deriving DecidableEq, Repr

/-- A quotient rounded to the nearest natural number, a tie going to the even one. -/
def roundHalfEven (num den : Nat) : Nat :=
  let whole := num / den
  let twice := 2 * (num % den)
  if twice < den then whole
  else if den < twice then whole + 1
  else whole + whole % 2

namespace Binary64

/-- The rank of the infinite magnitude: every finite one lies below it. -/
def infiniteRank : Nat := 2047 * fractionCount

/-- The exponent and the fraction read as one natural number. -/
def rank (x : Binary64) : Nat := x.exponent.val * fractionCount + x.fraction.val

/-- The number of a sign and a rank; a rank too large stands for the infinite magnitude. -/
def ofRank (negative : Bool) (r : Nat) : Binary64 :=
  if h : r < infiniteRank then
    { negative
      exponent := ⟨r / fractionCount, by
        have : r < 2047 * fractionCount := h
        simp only [fractionCount] at this ⊢
        omega⟩
      fraction := ⟨r % fractionCount, Nat.mod_lt _ (by decide)⟩ }
  else { negative, exponent := 2047, fraction := 0 }

/-- The infinite number of a sign. -/
def infinity (negative : Bool) : Binary64 := { negative, exponent := 2047, fraction := 0 }

/-- The number that is not one. -/
def nan : Binary64 := { negative := false, exponent := 2047, fraction := 2251799813685248 }

/-- Zero with a sign. -/
def zero (negative : Bool) : Binary64 := { negative, exponent := 0, fraction := 0 }

/-- Whether the number is not a number. -/
def isNan (x : Binary64) : Bool := x.exponent.val == 2047 && x.fraction.val != 0

/-- Whether the number has the infinite magnitude. -/
def isInfinite (x : Binary64) : Bool := x.exponent.val == 2047 && x.fraction.val == 0

/-- Whether the number is finite. -/
def isFinite (x : Binary64) : Bool := x.exponent.val != 2047

/-- Whether the number is a zero of either sign. -/
def isZero (x : Binary64) : Bool := x.exponent.val == 0 && x.fraction.val == 0

/-- The significand: the fraction, with the hidden bit unless the exponent is the least. -/
def significand (x : Binary64) : Nat :=
  if x.exponent.val = 0 then x.fraction.val else fractionCount + x.fraction.val

/-- The power of two by which the significand is scaled, in units. -/
def scale (x : Binary64) : Nat := x.exponent.val - 1

/-- The magnitude of a finite number in multiples of `2^-1074`. -/
def units (x : Binary64) : Nat := x.significand * Nat.pow 2 x.scale

/-- How many units make one. -/
def unitsPerOne : Nat := Nat.pow 2 1074

/-- The rank of the magnitude nearest to a quotient, a tie going to the even rank: the bits
beyond the fifty-third are dropped from the quotient in units, which leaves a significand
of the exponent that the number of dropped bits gives. -/
def rankOfRatio (num den : Nat) : Nat :=
  let scaled := num * unitsPerOne
  let dropped := Nat.log2 (scaled / den) - 52
  dropped * fractionCount + roundHalfEven scaled (den * Nat.pow 2 dropped)

/-- The number nearest to a quotient with a sign; one too large is infinite. -/
def ofRatio (negative : Bool) (num den : Nat) : Binary64 :=
  ofRank negative (rankOfRatio num den)

/-- The number nearest to a natural number. -/
def ofNatural (n : Nat) : Binary64 := ofRatio false n 1

/-- The number nearest to an integer. -/
def ofInteger (i : Int) : Binary64 := ofRatio (i < 0) i.natAbs 1

/-- The sum of two finite numbers that are not negative. -/
def add (x y : Binary64) : Binary64 := ofRatio false (x.units + y.units) unitsPerOne

/-- The integer nearest to the magnitude of a finite number, a half going away from zero. -/
def roundedAway (x : Binary64) : Nat := (2 * x.units + unitsPerOne) / (2 * unitsPerOne)

/-- A rank below the infinite one is the rank of the number built from it. -/
theorem rank_ofRank {negative : Bool} {r : Nat} (h : r < infiniteRank) :
    (ofRank negative r).rank = r := by
  simp only [ofRank, h, ↓reduceDIte, rank]
  exact Nat.div_add_mod' r fractionCount

/-- A number that is finite is built from its own rank. -/
theorem ofRank_rank {x : Binary64} (h : x.isFinite = true) : ofRank x.negative x.rank = x := by
  obtain ⟨s, e, f⟩ := x
  have he := e.isLt
  have hf := f.isLt
  have hne : e.val ≠ 2047 := by simpa [isFinite] using h
  have hr : e.val * fractionCount + f.val < infiniteRank := by
    simp only [infiniteRank, fractionCount] at *
    omega
  have hdiv : (e.val * fractionCount + f.val) / fractionCount = e.val := by
    simp only [fractionCount] at *
    omega
  have hmod : (e.val * fractionCount + f.val) % fractionCount = f.val := by
    simp only [fractionCount] at *
    omega
  simp only [ofRank, rank, hr, ↓reduceDIte, hdiv, hmod]

end Binary64

end FaultPoints
