import FaultPoints.Decimal.Layout
import FaultPoints.Text.Blank
import FaultPoints.Text.Quoted

/-!
# Type tags and the refusals of a fault

A request names the sort of its fault by a tag. Tags are written in small letters and read
without regard to ASCII case and to blanks around them.

Everything for which a fault can be refused is one constructor of `Fault.Refusal`, and one
function gives the wording.

## Main Definitions

* `Fault.Tag` — marker, exception or sleep
* `Fault.Tag.read` — reading a tag
* `Fault.Refusal` — why a fault is refused
* `Fault.Refusal.reason`, `Fault.Refusal.message` — the wording
-/

namespace FaultPoints.Fault

/-- The sort of a fault. -/
inductive Tag where
  /-- Counts how often its point is reached and does nothing else. -/
  | marker
  /-- Fails the operation that reaches its point. -/
  | exception
  /-- Delays the operation that reaches its point. -/
  | sleep
  deriving DecidableEq, Repr

/-- The written form of a tag. -/
def Tag.name : Tag → String
  | .marker => "marker"
  | .exception => "exception"
  | .sleep => "sleep"

/-- Why a fault is refused. -/
inductive Refusal where
  /-- The tag names no sort of fault. -/
  | unknownTag (written : String)
  /-- A sleeping fault has no sleeping time. -/
  | sleepMissing
  /-- The sleeping time of a sleeping fault is zero. -/
  | sleepZero
  /-- A fault of another sort has a sleeping time. -/
  | sleepUnused (tag : Tag)
  /-- The sleeping time is not a duration. -/
  | notDuration (seconds : Binary64)
  /-- The window starts before the first hit. -/
  | startZero
  /-- The window ends before it starts. -/
  | windowReversed (start stop : UInt64)
  /-- The name of the point is empty. -/
  | nameEmpty
  /-- The name of the point has a character that no name may have. -/
  | nameCharacter (name : String) (found : Char)
  deriving DecidableEq, Repr

/-- What is wrong with the parameters. -/
def Refusal.reason : Refusal → String
  | .unknownTag written => "unknown fault type '" ++ written ++ "'"
  | .sleepMissing => "No sleep_time provided for fault point of type sleep"
  | .sleepZero => "sleep_time must be greater than zero"
  | .sleepUnused tag => "sleep_time only applies to sleep faults, got type " ++ tag.name
  | .notDuration seconds =>
    "sleep_time " ++ Layout.message.render seconds ++ " is not a valid duration"
  | .startZero => "start_from is 1-based and must be at least 1"
  | .windowReversed start stop =>
    "start_from (" ++ Text.natural start.toNat ++ ") must not exceed end_after (" ++
      Text.natural stop.toNat ++ ")"
  | .nameEmpty => "fault point name must not be empty"
  | .nameCharacter name found =>
    "fault point name '" ++ name ++ "' contains '" ++ String.singleton found ++
      "'; only ASCII letters, digits, '_', '-' and '.' are allowed"

/-- The message of a refusal. -/
def Refusal.message (r : Refusal) : String := "Invalid fault parameters: " ++ r.reason

/-- Reading a tag: blanks around it and the case of its ASCII letters do not matter. -/
def Tag.read (s : String) : Except Refusal Tag :=
  let folded := String.ofList ((Text.trimChars s.toList).map Char.toLower)
  if folded = "marker" then .ok .marker
  else if folded = "exception" then .ok .exception
  else if folded = "sleep" then .ok .sleep
  else .error (.unknownTag folded)

/-- A written tag is read back. -/
theorem Tag.read_name (t : Tag) : Tag.read t.name = .ok t := by
  cases t <;> rfl

end FaultPoints.Fault
