import FaultPoints.Launch.Log
import FaultPoints.Heartbeat.Schedule
import FaultPoints.Node.Run

/-!
# The program

The program loads its settings, checks them, opens its log, assembles its node and runs it
until a signal arrives. A failure on the way ends it with a report.

## Main Definitions

* `Launch.Signal` — what ends a run
* `Launch.logPath` — where the log is
* `Launch.Outcome` — what is left of a run
* `Launch.start` — assembling the node
* `Launch.run` — the program
-/

namespace FaultPoints.Launch

open FaultPoints.Fault FaultPoints.Node

/-- What ends a run. -/
inductive Signal where
  /-- An interruption. -/
  | interrupt
  /-- A request to terminate. -/
  | terminate
  deriving DecidableEq, Repr

/-- The name of a signal. -/
def Signal.name : Signal → String
  | .interrupt => "SIGINT"
  | .terminate => "SIGTERM"

/-- What is left of a run. -/
structure Outcome where
  /-- The exit code. -/
  code : Nat
  /-- What was written to the channel of errors. -/
  report : String
  /-- The files. -/
  files : Files.Store

/-- Where the log of a member is. -/
def logPath (s : Settings) : String :=
  Files.join (Files.join s.node.logDir s.node.name) "fault.log"

/-- The end with a failure. -/
def failed (f : Failure) (files : Files.Store) : Outcome :=
  ⟨1, "Error: " ++ f.report ++ "\n", files⟩

/-- Names between braces, as the log tells them. -/
def nameSet (names : List String) : String :=
  "\x7b" ++ ", ".intercalate (names.map Text.quoted) ++ "\x7d"

/-- What is told once the node is assembled. -/
def readyRecords (a : Assembly) (n : Node) (p : Host) : List Record :=
  let member := "[" ++ n.name ++ "] "
  let access := match a.address with
    | some e => "accepting fault commands on http://" ++ e.render ++ "/inject_fault"
    | none => "control API disabled; startup faults only"
  let armed := (p.registry n.registry).activeNames
  [⟨.info, programSource, member ++ access⟩] ++
    (if armed.isEmpty then []
     else [⟨.info, programSource, member ++ "armed at startup: " ++ nameSet armed⟩])

/-- What is told of the beat at the start of a run, which is the only one where the signal
arrives before the next is due. -/
def beatRecords (n : Node) (p : Host) : List Record :=
  if !n.beats then []
  else
    let (outcome, _, stats) := Heartbeat.beat p n.heartbeat n.point .zero
    -- A hit on a point that is not armed leaves no record of its own.
    (match (p.registry n.heartbeat).hit n.point with
      | some (s, _) => [ofHit n.point s]
      | none => []) ++
    [ofBeat n.point stats.ticks outcome,
      ⟨.info, sourceOf "node::heartbeat",
        "heartbeat loop stopped after " ++ Text.natural stats.ticks ++ " cycles"⟩]

/-- What is told of a run until a signal. -/
def runRecords (n : Node) (p : Host) (signal : Signal) : List Record :=
  let member := "[" ++ n.name ++ "] "
  [⟨.info, sourceOf "node", member ++ "node running"⟩,
    ⟨.info, programSource, signal.name ++ " received, stopping"⟩] ++
  beatRecords n p ++ [⟨.info, sourceOf "node", member ++ "node stopped"⟩]

/-- A node that is about to run, with its host and what there was to tell so far. -/
structure Started where
  /-- The node. -/
  node : Node
  /-- The host. -/
  host : Host
  /-- What there was to tell. -/
  records : List Record

/-- Assembles the node of settings. A failure comes with what there was to tell before it. -/
def start (s : Settings) (e : Settings.Environment) (taken : Net.Endpoint → Bool) :
    Except (Failure × List Record) Started :=
  match (Assembly.start s).build e .start with
  | (.error f, _, told) => .error (f, told.map ofNotice)
  | (.ok a, p, told) =>
    let told := told ++ a.expose
    match a.listen taken with
    | .error f => .error (f, told.map ofNotice)
    | .ok (a, heard) =>
      let records := (told ++ heard).map ofNotice
      match a.ready with
      | .error f => .error (f, records)
      | .ok n => .ok ⟨n, p, records ++ readyRecords a n p⟩

/-- The settings of a process, loaded and checked. -/
def settings (e : Settings.Environment) (files : Files.Store) : Except Failure Settings := do
  let s ← (Settings.load files e).mapError Failure.source
  s.check.mapError Failure.invalid
  pure s

/-- The variable that describes which records are kept. -/
def filterVariable : String := "RUST_LOG"

/-- The lines of the records that are kept. -/
def logText (e : Settings.Environment) (records : List Record) : String :=
  let kept := records.filter (Filter.read ((e.get? filterVariable).getD "")).admits
  String.join (kept.map fun r => r.line ++ "\n")

/-- The program in an environment and among files, until a signal arrives. -/
def run (e : Settings.Environment) (files : Files.Store) (taken : Net.Endpoint → Bool)
    (signal : Signal) : Outcome :=
  match settings e files with
  | .error f => failed f files
  | .ok s =>
    let path := logPath s
    match files.append path "" with
    | (.error f, files) => failed (.files f) files
    | (.ok _, files) =>
      match start s e taken with
      | .error (f, records) => failed f (files.append path (logText e records)).2
      | .ok n =>
        let records := n.records ++ runRecords n.node n.host signal
        ⟨0, "", (files.append path (logText e records)).2⟩

end FaultPoints.Launch
