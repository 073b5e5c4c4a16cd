import FaultPoints.Control.Controller
import FaultPoints.Heartbeat.Schedule
import FaultPoints.Node.Assembly

/-!
# Running a node

A node that runs beats until it is told to stop; in the meantime commands arrive. Whatever
happens at an instant happens in this order: beats begin and end first, then the commands
of the instant are carried out in the order of their arrival.

## Main Definitions

* `Node.Order` — a command with the time of its arrival
* `Node.Ending` — how the heartbeat is found at the end
* `Node.Report` — what there is to tell of a run
* `Node.run` — a run
-/

namespace FaultPoints.Node

open FaultPoints.Fault FaultPoints.Heartbeat

/-- A command with the time of its arrival in milliseconds. -/
structure Order where
  /-- When it arrives. -/
  time : Nat
  /-- Its text. -/
  text : List Glyph

/-- What became of an order: the answer, and the counts at that time. -/
structure Handled where
  /-- The answer. -/
  answer : Except Control.CommandError Control.Response
  /-- The counts. -/
  stats : Stats

/-- How the heartbeat is found at the end. -/
inductive Ending where
  /-- It stops at once. -/
  | stopped
  /-- It is in the middle of a beat. -/
  | stalled
  /-- It could not beat at all, having no time between beats. -/
  | crashed
  deriving DecidableEq, Repr

/-- What there is to tell of a run. -/
structure Report where
  /-- What became of the orders. -/
  log : List Handled
  /-- The heartbeat at the end. -/
  final : Loop
  /-- How the heartbeat is found. -/
  ending : Ending

/-- The time between beats, if the heart can beat. -/
def beating (n : Node) : Option Interval :=
  if h : n.beats = true ∧ 0 < n.interval.toNat then some ⟨n.interval.toNat, h.2⟩ else none

/-- Lets time pass up to an instant. -/
def elapse (n : Node) (now : Nat) (l : Loop) : Loop :=
  match n.beating with
  | some interval => l.advance interval n.heartbeat n.point now
  | none => l

/-- Carries out orders as they arrive. Time does not run backwards. -/
def follow (n : Node) : Nat → List Order → Loop → List Handled × Nat × Loop
  | now, [], l => ([], now, l)
  | now, o :: rest, l =>
    -- The beats of an instant come before its orders.
    let now := max now o.time
    let l := n.elapse now l
    let (answer, host) := Control.execute l.host n.controller o.text
    let (log, after, final) := follow n now rest { l with host }
    (⟨answer, l.stats⟩ :: log, after, final)

/-- A run up to an instant. -/
def run (n : Node) (p : Host) (s : Stats) (orders : List Order) (horizon : Nat) : Report :=
  let (log, now, l) := n.follow 0 orders (.start p s)
  let final := n.elapse (max now horizon) l
  let ending :=
    if n.beats && n.interval == 0 then .crashed
    else if final.serving.isSome then .stalled
    else .stopped
  ⟨log, final, ending⟩

end FaultPoints.Node
