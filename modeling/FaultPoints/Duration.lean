import FaultPoints.Decimal.Binary64
import FaultPoints.Text.Digits

/-!
# Durations

How long a sleeping fault blocks its caller: a whole number of nanoseconds whose seconds
fit sixty-four bits.

## Main Definitions

* `Duration` — a bounded number of nanoseconds
* `Duration.ofSeconds?` — the duration nearest to a number of seconds, if there is one
* `Duration.toSeconds` — the number of seconds nearest to a duration, part by part
* `Duration.ceilMillis` — the duration in milliseconds, rounded up
-/

namespace FaultPoints

/-- How many nanoseconds make a second. -/
abbrev nanosPerSecond : Nat := 1000000000

/-- The first number of nanoseconds whose seconds do not fit sixty-four bits. -/
abbrev nanosLimit : Nat := Text.wordLimit * nanosPerSecond

/-- A duration in whole nanoseconds. -/
structure Duration where
  /-- The number of nanoseconds. -/
  nanos : Nat
  /-- The seconds fit sixty-four bits. -/
  bounded : nanos < nanosLimit
  deriving DecidableEq

namespace Duration

/-- A number of nanoseconds as a duration, if its seconds fit sixty-four bits. -/
def ofNanos? (n : Nat) : Option Duration :=
  if h : n < nanosLimit then some ⟨n, h⟩ else none

/-- Seconds and nanoseconds together; nanoseconds beyond a second carry over. -/
def ofParts? (seconds nanos : Nat) : Option Duration :=
  ofNanos? (seconds * nanosPerSecond + nanos)

/-- The whole seconds of a duration. -/
def wholeSeconds (d : Duration) : Nat := d.nanos / nanosPerSecond

/-- The nanoseconds beyond the whole seconds. -/
def subsecondNanos (d : Duration) : Nat := d.nanos % nanosPerSecond

/-- Whether nothing is left to wait for. -/
def isZero (d : Duration) : Bool := d.nanos == 0

/-- The nanoseconds nearest to a magnitude in seconds, a tie going to the even number. -/
def nanosOf (x : Binary64) : Nat :=
  roundHalfEven (x.units * nanosPerSecond) Binary64.unitsPerOne

/-- The duration nearest to a number of seconds. There is none for a number below zero, for
one of `2^64` seconds or more, and for one that is not finite; the negative zero counts as
zero. -/
def ofSeconds? (x : Binary64) : Option Duration :=
  if !x.isFinite || (x.negative && !x.isZero) then none else ofNanos? (nanosOf x)

/-- The number of seconds nearest to a duration: the whole seconds and the fraction are
rounded on their own, then their sum is. -/
def toSeconds (d : Duration) : Binary64 :=
  Binary64.add (Binary64.ofNatural d.wholeSeconds)
    (Binary64.ofRatio false d.subsecondNanos nanosPerSecond)

/-- The duration in milliseconds, a part of one counting whole. -/
def ceilMillis (d : Duration) : Nat := (d.nanos + 999999) / 1000000

/-- The seconds with nine decimal places. -/
def render (d : Duration) : String :=
  Text.natural d.wholeSeconds ++ "." ++ Text.padded 9 d.subsecondNanos

end Duration

end FaultPoints
