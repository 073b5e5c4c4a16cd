import FaultPoints.Fault.Registry
import FaultPoints.Json.Tagged

/-!
# Commands of the control channel

A command is a document with a member `command` that names what is asked for.

## Main Definitions

* `Control.Command` — what a harness may ask for
* `Control.Command.toValue`, `Control.Command.parse` — its document
-/

namespace FaultPoints.Control

open FaultPoints.Fault

/-- What a harness may ask for. -/
inductive Command where
  /-- Arm a point. -/
  | inject (request : Request)
  /-- Disarm a point. -/
  | deactivate (name : String)
  /-- Disarm all points. -/
  | deactivateAll
  /-- Tell whether a point is armed. -/
  | query (name : String)
  /-- List the names of the armed points. -/
  | queryAll
  /-- List the armed points with their parameters. -/
  | describe
  deriving DecidableEq

/-- The document of a command. -/
def Command.toValue : Command → Json.Value
  | .inject request => .object (("command", .text "inject") :: request.members)
  | .deactivate name => .object [("command", .text "deactivate"), ("fault_name", .text name)]
  | .deactivateAll => .object [("command", .text "deactivate_all")]
  | .query name => .object [("command", .text "query"), ("fault_name", .text name)]
  | .queryAll => .object [("command", .text "query_all")]
  | .describe => .object [("command", .text "describe")]

/-- A variant that has the name of a point as its only member. -/
def nameRecord (label : String) : Json.Record (Option String) String where
  label
  members := [.of "fault_name" (Json.textForm "a string") id (fun _ x => some x) false]
  empty := none
  complete d := Json.required "fault_name" d

/-- The choice between commands. -/
def Command.tagged : Json.Tagged Command where
  label := "internally tagged enum ControlCommand"
  tag := "command"
  variants :=
    [.of "inject" Request.form .inject,
     .of "deactivate" (.record (nameRecord "struct variant ControlCommand::Deactivate"))
      .deactivate,
     .unit "deactivate_all" .deactivateAll,
     .of "query" (.record (nameRecord "struct variant ControlCommand::Query")) .query,
     .unit "query_all" .queryAll,
     .unit "describe" .describe]

/-- Reading a command from a text. -/
def Command.parse (gs : List Glyph) : Except Json.Flaw Command := Command.tagged.parse gs

end FaultPoints.Control
