import FaultPoints.Heartbeat.Beat

/-!
# The schedule of a heartbeat

A running heartbeat beats at once and then at a fixed interval, never twice at a time. A
beat that begins later than a short tolerance after it was due moves the schedule: the next
one is due a whole interval after it began. A smaller delay leaves the schedule as it is.

Time is counted in milliseconds from the start of the run.

## Main Definitions

* `Heartbeat.Interval` — the time between beats, which is not zero
* `Heartbeat.nextDue` — when the beat after a given one is due
* `Heartbeat.Beat` — a beat with its times
* `Heartbeat.Loop` — a running heartbeat
* `Heartbeat.Loop.advance` — letting time pass

## Main Statements

* `due_lt_nextDue` — the schedule moves forward
-/

namespace FaultPoints.Heartbeat

open FaultPoints.Fault

/-- The time between beats in milliseconds. -/
abbrev Interval := { n : Nat // 0 < n }

/-- How late a beat may begin, in milliseconds, without moving the schedule. -/
def tolerance : Nat := 5

/-- When the beat after one that was due and began at given times is due. -/
def nextDue (interval : Interval) (due start : Nat) : Nat :=
  if due + tolerance < start then start + interval.val else due + interval.val

/-- The schedule moves forward with every beat. -/
theorem due_lt_nextDue (interval : Interval) (due start : Nat) :
    due < nextDue interval due start := by
  have := interval.property
  unfold nextDue
  split <;> omega

/-- A beat with its times. -/
structure Beat where
  /-- When it was due. -/
  due : Nat
  /-- When it began. -/
  start : Nat
  /-- When it ends. -/
  stop : Nat
  /-- What its hit meant for it. -/
  outcome : Outcome
  deriving DecidableEq

/-- A running heartbeat in its host. -/
structure Loop where
  /-- The host. -/
  host : Host
  /-- The counts. -/
  stats : Stats
  /-- When the next beat is due. -/
  due : Nat
  /-- When the latest beat ended. -/
  free : Nat
  /-- The beat that has begun and not ended, if there is one. -/
  serving : Option Beat
  /-- All beats that have begun, the latest first. -/
  beats : List Beat
  deriving DecidableEq

namespace Loop

/-- The heartbeat at the start of a run. -/
def start (p : Host) (s : Stats) : Loop := ⟨p, s, 0, 0, none, []⟩

/-- Ends the beat in progress if its time has come. -/
def settle (now : Nat) (l : Loop) : Loop :=
  match l.serving with
  | some b =>
    if b.stop ≤ now then
      { l with serving := none, free := b.stop, stats := l.stats.ended b.outcome }
    else l
  | none => l

/-- When the next beat begins: once it is due and the latest one has ended. -/
def nextStart (l : Loop) : Nat := max l.due l.free

/-- Begins the next beat. -/
def begin (interval : Interval) (id : Nat) (point : String) (l : Loop) : Loop :=
  let start := l.nextStart
  let (outcome, host) := l.host.hit id point
  let b : Beat := ⟨l.due, start, start + outcome.waitMillis, outcome⟩
  { host
    stats := l.stats.begun
    due := nextDue interval l.due start
    free := l.free
    serving := some b
    beats := b :: l.beats }

theorem settle_due (now : Nat) (l : Loop) : (l.settle now).due = l.due := by
  unfold settle
  repeat' split
  all_goals rfl

/-- Lets time pass up to an instant: beats begin and end as their times come. -/
def advance (interval : Interval) (id : Nat) (point : String) (now : Nat) (l : Loop) : Loop :=
  let settled := l.settle now
  if settled.serving = none ∧ settled.nextStart ≤ now then
    advance interval id point now (settled.begin interval id point)
  else settled
termination_by now + 1 - l.due
decreasing_by
  -- The beat was due by now, and the next one is due later than it.
  rename_i h
  have hs : max (l.settle now).due (l.settle now).free ≤ now := h.2
  have hd := settle_due now l
  have hlt := due_lt_nextDue interval (l.settle now).due (l.settle now).nextStart
  simp only [begin]
  omega

end Loop

end FaultPoints.Heartbeat
