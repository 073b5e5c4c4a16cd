import FaultPoints.Fault.Host

/-!
# Beats

A heartbeat reaches one point of a registry at each beat. A beat is counted when it begins,
and once more when it ends: as failed where the point raised a failure, as succeeded
otherwise. Between the two the beat may have to wait for a sleeping fault.

## Main Definitions

* `Heartbeat.Stats` — the counts of a heartbeat
* `Heartbeat.Stats.begun`, `Heartbeat.Stats.ended` — the two ends of a beat
* `Heartbeat.beat` — a whole beat

## Main Statements

* `beat_stats` — what a whole beat adds to the counts
-/

namespace FaultPoints.Heartbeat

open FaultPoints.Fault

/-- The counts of a heartbeat. -/
structure Stats where
  /-- The beats that have begun. -/
  ticks : Nat
  /-- The beats that ended well. -/
  succeeded : Nat
  /-- The beats that ended with a failure. -/
  failed : Nat
  deriving DecidableEq, Repr

namespace Stats

/-- Nothing has been counted. -/
def zero : Stats := ⟨0, 0, 0⟩

/-- A beat has begun. -/
def begun (s : Stats) : Stats := { s with ticks := s.ticks + 1 }

/-- A beat has ended. -/
def ended (s : Stats) : Outcome → Stats
  | .fail => { s with failed := s.failed + 1 }
  | _ => { s with succeeded := s.succeeded + 1 }

end Stats

/-- A whole beat on a point of a registry: the outcome of its hit, the host after it, and
the counts once it has ended. -/
def beat (p : Host) (id : Nat) (point : String) (s : Stats) : Outcome × Host × Stats :=
  let (outcome, q) := p.hit id point
  (outcome, q, s.begun.ended outcome)

/-- A whole beat is counted as begun and once as ended. -/
theorem beat_stats (p : Host) (id : Nat) (point : String) (s : Stats) :
    let after := (beat p id point s).2.2
    after.ticks = s.ticks + 1 ∧
      after.succeeded + after.failed = s.succeeded + s.failed + 1 := by
  simp only [beat]
  cases (p.hit id point).1 <;> simp [Stats.begun, Stats.ended] <;> omega

end FaultPoints.Heartbeat
