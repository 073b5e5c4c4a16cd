import FaultPoints.Fault.Registry
import FaultPoints.Json.Tagged

/-!
# Responses of the control channel

A response is a document with a member `status` that names what it carries.

## Main Definitions

* `Control.Response` — the answer to a command that was not refused
* `Control.Response.toValue`, `Control.Response.parse` — its document
-/

namespace FaultPoints.Control

open FaultPoints.Fault

/-- The answer to a command that was not refused. -/
inductive Response where
  /-- It was done. -/
  | done
  /-- A point is disarmed now, and whether it was armed before. -/
  | deactivated (name : String) (wasActive : Bool)
  /-- Whether a point is armed. -/
  | status (name : String) (armed : Bool)
  /-- The names of the armed points. -/
  | active (names : List String)
  /-- The armed points with their parameters. -/
  | points (listing : List Point)
  deriving DecidableEq

/-- A sequence of texts. -/
def namesValue (names : List String) : Json.Value := .array (names.map .text)

/-- The document of a response. -/
def Response.toValue : Response → Json.Value
  | .done => .object [("status", .text "ok")]
  | .deactivated name wasActive =>
    .object [("status", .text "deactivated"), ("fault_name", .text name),
      ("was_active", .boolean wasActive)]
  | .status name armed =>
    .object [("status", .text "status"), ("fault_name", .text name), ("active", .boolean armed)]
  | .active names => .object [("status", .text "active"), ("fault_names", namesValue names)]
  | .points listing => .object [("status", .text "points"), ("points", listingValue listing)]

/-- The name of a point with a truth value under a key. -/
def flagRecord (label key : String) :
    Json.Record (Option String × Option Bool) (String × Bool) where
  label
  members :=
    [.of "fault_name" (Json.textForm "a string") (·.1) (fun d x => (some x, d.2)) false,
     .of key Json.booleanForm (·.2) (fun d x => (d.1, some x)) false]
  empty := (none, none)
  complete d := do
    let name ← Json.required "fault_name" d.1
    let flag ← Json.required key d.2
    pure (name, flag)

/-- A record with one required member. -/
def singleRecord {α : Type} (label key : String) (form : Json.Form α) :
    Json.Record (Option α) α where
  label
  members := [.of key form id (fun _ x => some x) false]
  empty := none
  complete d := Json.required key d

/-- The choice between responses. -/
def Response.tagged : Json.Tagged Response where
  label := "internally tagged enum ControlResponse"
  tag := "status"
  variants :=
    [.unit "ok" .done,
     .of "deactivated"
      (.record (flagRecord "struct variant ControlResponse::Deactivated" "was_active"))
      (fun d => .deactivated d.1 d.2),
     .of "status" (.record (flagRecord "struct variant ControlResponse::Status" "active"))
      (fun d => .status d.1 d.2),
     .of "active"
      (.record (singleRecord "struct variant ControlResponse::Active" "fault_names"
        (Json.textForm "a string").listOf))
      .active,
     .of "points"
      (.record (singleRecord "struct variant ControlResponse::Points" "points"
        Point.form.listOf))
      .points]

/-- Reading a response from a text. -/
def Response.parse (gs : List Glyph) : Except Json.Flaw Response := Response.tagged.parse gs

end FaultPoints.Control
