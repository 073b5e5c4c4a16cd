import FaultPoints.Heartbeat.Beat
import FaultPoints.Node.Assembly

/-!
# The log of a process

A record of the log has a level, the part of the program that it comes from, and a message.
Records are kept or left out by a filter, which a text of directives describes: each gives
the least level for the parts whose names begin in a given way, or for all of them, and the
directive that says most counts.

## Main Definitions

* `Launch.Level`, `Launch.Record` — records
* `Launch.Filter.read`, `Launch.Filter.admits` — filters
* `Launch.Record.line` — a line of the log
* `Launch.ofNotice`, `Launch.ofBeat` — the records of what happens
-/

namespace FaultPoints.Launch

open FaultPoints.Fault FaultPoints.Node

/-- How grave a record is. -/
inductive Level where
  /-- An error. -/
  | error
  /-- A warning. -/
  | warn
  /-- An information. -/
  | info
  /-- A detail. -/
  | debug
  /-- A detail of a detail. -/
  | trace
  deriving DecidableEq, Repr

/-- The name of a level. -/
def Level.name : Level → String
  | .error => "ERROR"
  | .warn => "WARN"
  | .info => "INFO"
  | .debug => "DEBUG"
  | .trace => "TRACE"

/-- How much a level lets through: all levels up to this number. -/
def Level.rank : Level → Nat
  | .error => 1
  | .warn => 2
  | .info => 3
  | .debug => 4
  | .trace => 5

/-- A record. -/
structure Record where
  /-- Its level. -/
  level : Level
  /-- The part of the program that it comes from. -/
  source : String
  /-- Its message. -/
  message : String
  deriving DecidableEq, Repr

/-- A record as a line. -/
def Record.line (r : Record) : String := r.level.name ++ " " ++ r.source ++ ": " ++ r.message

/-- The parts of the program with the beginning of a name get the records up to a rank. -/
structure Directive where
  /-- The beginning of the name. -/
  lead : String
  /-- The rank. -/
  rank : Nat
  deriving DecidableEq, Repr

/-- Directives. -/
abbrev Filter := List Directive

/-- The rank that a word names. -/
def readRank (word : String) : Option Nat :=
  let w := word.toLower
  if w = "off" || w = "0" then some 0
  else if w = "error" || w = "1" then some 1
  else if w = "warn" || w = "2" then some 2
  else if w = "info" || w = "3" then some 3
  else if w = "debug" || w = "4" then some 4
  else if w = "trace" || w = "5" then some 5
  else none

/-- Whether the name of a part of the program may have the character. -/
def isPartCharacter (c : Char) : Bool := c.isAlphanum || c = '_' || c = ':' || c = '-'

/-- A directive: a rank for all parts, or the beginning of a name with a rank. -/
def Directive.read (word : String) : Option Directive :=
  match readRank word with
  | some rank => some ⟨"", rank⟩
  | none =>
    let cs := word.toList
    let lead := cs.takeWhile isPartCharacter
    if lead.isEmpty then none
    else
      match cs.dropWhile isPartCharacter with
      | [] => some ⟨String.ofList lead, 5⟩
      | ['='] => some ⟨String.ofList lead, 5⟩
      | '=' :: rest => (readRank (String.ofList rest)).map fun rank => ⟨String.ofList lead, rank⟩
      | _ => none

/-- The filter that a text describes. Without directives only errors are kept. -/
def Filter.read (s : String) : Filter :=
  let ds := (Files.splitAt ',' s.toList).filterMap fun w => Directive.read (String.ofList w)
  if ds.isEmpty then [⟨"", 1⟩] else ds

/-- Of two directives the one that says more, or the later one. -/
def Directive.better (d : Directive) : Option Directive → Option Directive
  | none => some d
  | some b => if b.lead.length ≤ d.lead.length then some d else some b

/-- Whether a record is kept. -/
def Filter.admits (f : Filter) (r : Record) : Bool :=
  let fitting := f.filter fun d => d.lead.toList.isPrefixOf r.source.toList
  match fitting.foldl (fun best d => d.better best) none with
  | none => false
  | some d => r.level.rank ≤ d.rank

/-- The part of the program that runs it. -/
def programSource : String := "ha_fault_injector"

/-- A part of the program inside it. -/
def sourceOf (part : String) : String := programSource ++ "::" ++ part

/-- The record of what a step of the assembly has to tell. -/
def ofNotice : Notice → Record
  | .activated name tag =>
    ⟨.info, sourceOf "fault::registry",
      "Activated fault point " ++ name ++ " of type " ++ tag.name⟩
  | .replaced name tag =>
    ⟨.info, sourceOf "fault::registry", "Replaced fault point " ++ name ++ " with type " ++
      tag.name⟩
  | .armed member name =>
    ⟨.info, sourceOf "node::builder",
      "[" ++ member ++ "] bootstrap fault point " ++ name ++ " armed"⟩
  | .listening .control address =>
    ⟨.info, sourceOf "control::http", "control server listening on " ++ address.render⟩
  | .listening .metrics address =>
    ⟨.info, sourceOf "metrics", "metrics server listening on " ++ address.render⟩

/-- The record of a hit on an armed point. -/
def ofHit (point : String) (s : Registry.Strike) : Record :=
  if s.outcome.isFault then
    ⟨.info, sourceOf "fault::registry",
      "Fault " ++ point ++ " of type " ++ s.tag.name ++ " triggered (hit " ++
        Text.natural s.number.toNat ++ ")"⟩
  else
    ⟨.debug, sourceOf "fault::registry",
      "fault point " ++ point ++ " hit " ++ Text.natural s.number.toNat ++ " passed through"⟩

/-- The record of a beat that has ended. -/
def ofBeat (point : String) (ticks : Nat) (o : Outcome) : Record :=
  match o.result point with
  | .ok _ =>
    ⟨.debug, sourceOf "node::heartbeat",
      "heartbeat cycle " ++ Text.natural ticks ++ " completed"⟩
  | .error i =>
    ⟨.warn, sourceOf "node::heartbeat",
      "heartbeat cycle " ++ Text.natural ticks ++ " failed: " ++ i.message⟩

end FaultPoints.Launch
