import FaultPoints.Settings.Check
import FaultPoints.Settings.Tree

/-!
# Settings in the environment

The environment speaks in two ways. A variable whose name begins with a fixed lead sets one
key of the settings; the case of its letters does not matter, and two underscores stand
between the parts of the key. Its text is taken as a truth value, an integer or a binary64
number where it reads as one, and as it stands otherwise.

Five variables with names of their own describe one fault to arm at the start. Blanks around
their texts do not count, and one that is blank counts as unset.

## Main Definitions

* `Settings.Environment` — the variables
* `Settings.Environment.source` — the keys that are set, as a source of settings
* `Settings.BootError`, `Settings.Environment.fault` — the fault that is described

## Main Statements

* `fault_none_iff` — no fault is described iff its variable is unset or blank
-/

namespace FaultPoints.Settings

/-- The variables with their texts. A variable whose name or value is no text, but bytes that
spell no characters, is not represented. -/
abbrev Environment := List (String × String)

/-- What the name of a variable that sets a key begins with, in small letters. -/
def keyLead : String := "fault_injector__"

/-- Two underscores at a time become one full stop. -/
def joinParts : List Char → List Char
  | '_' :: '_' :: rest => '.' :: joinParts rest
  | c :: rest => c :: joinParts rest
  | [] => []

/-- The key that a variable sets. -/
def keyOf (name : String) : Option String :=
  let cs := (foldKey name).toList
  if keyLead.toList.isPrefixOf cs then
    some (String.ofList (joinParts (cs.drop keyLead.toList.length)))
  else none

/-- What the text of a variable is taken for. -/
def readVariable (s : String) : Tree :=
  let folded := foldKey s
  if folded = "true" then .boolean true
  else if folded = "false" then .boolean false
  else
    -- Every integer also reads as a binary64 number, so integers are tried first.
    match Text.readSigned s.toList with
    | some i => .whole i
    | none =>
      match Decimal.read s with
      | some x => .real x
      | none => .text s

namespace Environment

/-- The text of a variable. -/
def get? (e : Environment) (name : String) : Option String := e.lookup name

/-- The keys that are set. A variable with an empty text sets none; of two settings of a key
the later one counts. -/
def source (e : Environment) : List (String × Tree) :=
  e.foldl (fun entries v =>
    match keyOf v.1 with
    | some k => if v.2.isEmpty then entries else put k (readVariable v.2) entries
    | none => entries) []

/-- The text of a variable without the blanks around it, unless nothing is left. -/
def trimmed? (e : Environment) (name : String) : Option String :=
  ((e.get? name).map Text.trim).filter fun s => !s.isEmpty

end Environment

/-- Why the environment describes no fault although it should. -/
inductive BootError where
  /-- The fault is refused. -/
  | refused (why : Fault.Refusal)
  /-- A variable holds a text that is not what it should be. -/
  | invalid (why : Invalid)
  deriving DecidableEq, Repr

namespace Environment

/-- What a variable says, if it is set. -/
def said {α : Type} (e : Environment) (name : String) (read : String → Option α) :
    Except BootError (Option α) :=
  match e.trimmed? name with
  | none => .ok none
  | some s =>
    match read s with
    | some a => .ok (some a)
    | none => .error (.invalid (.variable name s))

/-- A count of sixty-four bits. -/
def readCount (s : String) : Option UInt64 :=
  (Text.readUnsigned Text.wordLimit s.toList).map UInt64.ofNat

/-- The tag of the fault that is described. -/
def tag (e : Environment) : Except BootError Fault.Tag :=
  match e.trimmed? "FAULT_TYPE" with
  | none => .ok .exception
  | some s => (Fault.Tag.read s).mapError .refused

/-- The fault that is described at a point. Hits end nowhere where the end is zero. -/
def faultAt (e : Environment) (name : String) : Except BootError Fault.Request := do
  let tag ← e.tag
  let start ← e.said "FAULT_START_FROM" readCount
  let stop ← e.said "FAULT_END_AFTER" readCount
  let seconds ← e.said "FAULT_SLEEP_TIME" Decimal.read
  let request : Fault.Request := { name, tag, start, stop := stop.filter (· ≠ 0), seconds }
  let _ ← request.plan.mapError BootError.refused
  pure request

/-- The fault that is described, if one is. -/
def fault (e : Environment) : Except BootError (Option Fault.Request) :=
  match e.trimmed? "FAULT_POINT" with
  | none => .ok none
  | some name => (e.faultAt name).map some

/-- No fault is described iff its variable is unset or blank. -/
theorem fault_none_iff (e : Environment) :
    e.fault = .ok none ↔ e.trimmed? "FAULT_POINT" = none := by
  unfold fault
  cases e.trimmed? "FAULT_POINT" with
  | none => simp
  | some name => cases h : e.faultAt name <;> simp [Except.map, h]

end Environment

/-- The faults to arm at the start: those of the settings, then the one of the environment. -/
def startFaults (s : Settings) (e : Environment) : Except BootError (List Fault.Request) := do
  let extra ← e.fault
  pure (s.faults ++ extra.toList)

end FaultPoints.Settings
