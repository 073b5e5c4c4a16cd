import FaultPoints.Fault.Plan
import FaultPoints.Json.Form

/-!
# Activation requests

A request to arm a point arrives over the control channel, from a settings file or from
the environment. It is checked only when its plan is made.

## Main Definitions

* `Fault.Request` — the name of a point with the parameters of its fault
* `Fault.Request.params`, `Fault.Request.plan` — its parameters and its plan
* `Fault.Request.toValue`, `Fault.Request.form` — its document
-/

namespace FaultPoints.Fault

/-- A request to arm a point. -/
structure Request where
  /-- The name of the point. -/
  name : String
  /-- The sort of the fault. -/
  tag : Tag
  /-- The first hit of the window. -/
  start : Option UInt64
  /-- The last hit of the window. -/
  stop : Option UInt64
  /-- The sleeping time in seconds. -/
  seconds : Option Binary64
  deriving DecidableEq

namespace Request

/-- The sleeping time of a request as a duration. -/
def duration (r : Request) : Except Refusal (Option Duration) :=
  match r.seconds with
  | none => .ok none
  | some x =>
    match Duration.ofSeconds? x with
    | some d => .ok (some d)
    | none => .error (.notDuration x)

/-- The parameters of a request. -/
def params (r : Request) : Except Refusal Params := do
  let duration ← r.duration
  pure { start := r.start, stop := r.stop, duration }

/-- The plan of a request. -/
def plan (r : Request) : Except Refusal Plan := do
  let params ← r.params
  Plan.ofParams r.tag params

/-- The members of a request's document; absent parameters are left out. -/
def members (r : Request) : List (String × Json.Value) :=
  [("fault_name", .text r.name), ("fault_type", .text r.tag.name)] ++
    Json.optional "start_from" (r.start.map .count) ++
    Json.optional "end_after" (r.stop.map .count) ++
    Json.optional "sleep_time" (r.seconds.map .real)

/-- The document of a request. -/
def toValue (r : Request) : Json.Value := .object r.members

/-- A request in the making. -/
structure Draft where
  /-- The name of the point. -/
  name : Option String
  /-- The sort of the fault. -/
  tag : Option Tag
  /-- The first hit of the window. -/
  start : Option (Option UInt64)
  /-- The last hit of the window. -/
  stop : Option (Option UInt64)
  /-- The sleeping time in seconds. -/
  seconds : Option (Option Binary64)

end Request

/-- A tag in a document. -/
def tagForm : Json.Form Tag :=
  .scalar (Json.readTextAs "a string" fun s =>
    (Tag.read s).mapError fun r => .refused r.message)

/-- The record of a request. Only the name is required; the tag is that of an exception
unless told otherwise. -/
def Request.record : Json.Record Request.Draft Request where
  label := "struct FaultRequest"
  members :=
    [.of "fault_name" (Json.textForm "a string") (·.name) (fun d x => { d with name := some x })
      false,
     .of "fault_type" tagForm (·.tag) (fun d x => { d with tag := some x }) true,
     .of "start_from" Json.countForm.optional (·.start) (fun d x => { d with start := some x })
      true,
     .of "end_after" Json.countForm.optional (·.stop) (fun d x => { d with stop := some x }) true,
     .of "sleep_time" Json.realForm.optional (·.seconds)
      (fun d x => { d with seconds := some x }) true]
  empty := ⟨none, none, none, none, none⟩
  complete d := do
    let name ← Json.required "fault_name" d.name
    pure
      { name
        tag := d.tag.getD .exception
        start := d.start.getD none
        stop := d.stop.getD none
        seconds := d.seconds.getD none }

/-- How a request is read from a document. -/
def Request.form : Json.Form Request := .record Request.record

end FaultPoints.Fault
