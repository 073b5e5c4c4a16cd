import FaultPoints.Control.Controller
import FaultPoints.Heartbeat.Beat
import FaultPoints.Proofs.Fault.Frame

/-!
# Runs of operations

Everything that a process does to its registries is one of the operations below.  A run performs
them one by one; it is told by its operations together with their answers, since it depends on the
answer whether an operation that arms a point has done so.

## Main Definitions

* `Run.Operation`, `Run.Answer` — what can be done, and what comes back
* `Run.perform` — the answer to an operation and the host after it
* `Run.final`, `Run.trace` — the host after a run, and what was done and answered in it

## Main Statements

* `trace_append` — a run in two parts
* `strike_eq` — however a point is reached, the host counts one hit
-/

namespace FaultPoints.Run

open FaultPoints.Fault

/-- How the instrumented code reaches a point. -/
inductive Way where
  /-- It asks what to do. -/
  | hit
  /-- It has the outcome carried out; it makes no difference to the registry whether the delay of
  a sleeping fault blocks a thread. -/
  | inject
  /-- It is a beat of a heartbeat with these counts. -/
  | beat (stats : Heartbeat.Stats)

/-- What can be asked of a registry without changing it. -/
inductive Query where
  /-- Whether a point is armed. -/
  | isActive (name : String)
  /-- Which points are armed. -/
  | activeNames
  /-- How often a point was hit. -/
  | hitCount (name : String)
  /-- Which points are armed, with their parameters. -/
  | listing

/-- What can be done to the registries of a host. -/
inductive Operation where
  /-- Make a new registry. -/
  | found
  /-- Arm a point under parameters. -/
  | arm (id : Nat) (name : String) (tag : Tag) (params : Params)
  /-- Arm a point under a plan. -/
  | activate (id : Nat) (name : String) (plan : Plan)
  /-- Arm the point of a request. -/
  | apply (id : Nat) (request : Request)
  /-- Carry out a command. -/
  | command (id : Nat) (command : Control.Command)
  /-- Disarm a point. -/
  | deactivate (id : Nat) (name : String)
  /-- Disarm all points. -/
  | deactivateAll (id : Nat)
  /-- Reach a point. -/
  | strike (way : Way) (id : Nat) (name : String)
  /-- Ask. -/
  | ask (id : Nat) (query : Query)

/-- What comes back. -/
inductive Answer where
  /-- The number of the new registry. -/
  | founded (id : Nat)
  /-- Whether a point was armed. -/
  | armed (result : Except Refusal Unit)
  /-- The answer to a command. -/
  | response (result : Except Refusal Control.Response)
  /-- Whether a point was armed before it was disarmed. -/
  | deactivated (wasActive : Bool)
  /-- Nothing. -/
  | done
  /-- What the caller has to do. -/
  | outcome (outcome : Outcome)
  /-- What became of the caller, and how long it waited. -/
  | injected (result : Except Injected Unit) (waitMillis : Nat)
  /-- What the beat had to do, and the counts after it. -/
  | beaten (outcome : Outcome) (stats : Heartbeat.Stats)
  /-- Whether a point is armed. -/
  | flag (active : Bool)
  /-- The names of the armed points. -/
  | names (names : List String)
  /-- The hits of a point. -/
  | count (hits : Option UInt64)
  /-- The armed points. -/
  | points (listing : List Point)

/-- A change that may be refused; if it is, the host stays as it was. -/
def commit (p : Host) : Except Refusal Host → Answer × Host
  | .ok q => (.armed (.ok ()), q)
  | .error e => (.armed (.error e), p)

/-- Reaching a point in some way. -/
def Way.strike (way : Way) (p : Host) (id : Nat) (name : String) : Answer × Host :=
  match way with
  | .hit =>
      let (outcome, q) := p.hit id name
      (.outcome outcome, q)
  | .inject =>
      let (result, waitMillis, q) := p.inject id name
      (.injected result waitMillis, q)
  | .beat stats =>
      let (outcome, q, after) := Heartbeat.beat p id name stats
      (.beaten outcome after, q)

/-- The answer to a question. -/
def Query.answer (r : Registry) : Query → Answer
  | .isActive name => .flag (r.isActive name)
  | .activeNames => .names r.activeNames
  | .hitCount name => .count (r.hitCount? name)
  | .listing => .points r.listing

/-- The answer to an operation, and the host after it. -/
def perform (p : Host) : Operation → Answer × Host
  | .found =>
      let (id, q) := p.found
      (.founded id, q)
  | .arm id name tag params => commit p (p.arm id name tag params)
  | .activate id name plan => commit p (p.activate id name plan)
  | .apply id request => commit p (p.apply id request)
  | .command id command =>
      let (result, q) := Control.handle p id command
      (.response result, q)
  | .deactivate id name =>
      let (wasActive, q) := p.deactivate id name
      (.deactivated wasActive, q)
  | .deactivateAll id => (.done, p.deactivateAll id)
  | .strike way id name => way.strike p id name
  | .ask id query => (query.answer (p.registry id), p)

/-- The host after a run. -/
def final : Host → List Operation → Host
  | p, [] => p
  | p, op :: rest => final (perform p op).2 rest

/-- What was done in a run, and what was answered. -/
def trace : Host → List Operation → List (Operation × Answer)
  | _, [] => []
  | p, op :: rest => (op, (perform p op).1) :: trace (perform p op).2 rest

theorem trace_append (p : Host) (before after : List Operation) :
    trace p (before ++ after) = trace p before ++ trace (final p before) after := by
  induction before generalizing p with
  | nil => rfl
  | cons op rest ih =>
      rw [List.cons_append, trace, ih (perform p op).2]
      rfl

/-- What comes back from reaching a point, by the outcome of the hit. -/
def Way.answer (name : String) (outcome : Outcome) : Way → Answer
  | .hit => .outcome outcome
  | .inject => .injected (outcome.result name) outcome.waitMillis
  | .beat stats => .beaten outcome (stats.begun.ended outcome)

/-- However a point is reached, the host counts one hit, and its outcome decides the answer. -/
theorem strike_eq (way : Way) (p : Host) (id : Nat) (name : String) :
    way.strike p id name = (way.answer name (p.hit id name).1, (p.hit id name).2) := by
  cases way <;> rfl

end FaultPoints.Run
