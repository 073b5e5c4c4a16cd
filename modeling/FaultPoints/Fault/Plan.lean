import FaultPoints.Duration
import FaultPoints.Fault.Tag

/-!
# Plans: what a fault does, and when

A plan joins an effect with a window of hits. Hits are counted from one; a window is an
inclusive range of counts, open at its end where no last hit is given.

## Main Definitions

* `Fault.Effect` — what happens at a hit inside the window
* `Fault.Window` — during which hits it happens
* `Fault.Params` — the parameters of a fault before they are checked
* `Fault.Plan` — effect and window together
* `Fault.Plan.ofParams` — checking the parameters
* `Fault.Outcome` — what the caller of a hit has to do

## Main Statements

* `Window.contains_iff` — the range of a window
* `Window.not_contains_of_isExhausted` — past its last hit a window contains none
-/

namespace FaultPoints.Fault

/-- What a fault does. A sleeping fault sleeps for some time. -/
inductive Effect where
  /-- Nothing. -/
  | marker
  /-- Raise a failure. -/
  | exception
  /-- Delay the caller. -/
  | sleep (duration : Duration)
  deriving DecidableEq

namespace Effect

/-- The effect of a tag and a sleeping time: sleeping faults need one that is not zero, all
others must not have one. -/
def make (tag : Tag) (duration : Option Duration) : Except Refusal Effect :=
  match tag, duration with
  | .sleep, none => .error .sleepMissing
  | .sleep, some d => if d.isZero then .error .sleepZero else .ok (.sleep d)
  | .marker, none => .ok .marker
  | .exception, none => .ok .exception
  | other, some _ => .error (.sleepUnused other)

/-- The tag of an effect. -/
def tag : Effect → Tag
  | .marker => .marker
  | .exception => .exception
  | .sleep _ => .sleep

/-- How long the effect delays its caller, if it does. -/
def duration? : Effect → Option Duration
  | .sleep d => some d
  | _ => none

end Effect

/-- An inclusive range of hits, counted from one. -/
structure Window where
  /-- The first hit. -/
  start : UInt64
  /-- The last hit, if there is one. -/
  stop : Option UInt64
  deriving DecidableEq, Repr

namespace Window

/-- The window of all hits. -/
def all : Window := ⟨1, none⟩

/-- The window of optional ends; it starts at the first hit unless told otherwise. -/
def make (start stop : Option UInt64) : Except Refusal Window :=
  let first := start.getD 1
  if first = 0 then .error .startZero
  else match stop with
    | none => .ok ⟨first, none⟩
    | some last => if last < first then .error (.windowReversed first last) else .ok ⟨first, last⟩

/-- Whether a hit lies in the window. -/
def contains (w : Window) (hit : UInt64) : Bool :=
  w.start ≤ hit && match w.stop with
    | none => true
    | some last => hit ≤ last

/-- Whether a hit lies beyond the window, so that no later one is in it either. -/
def isExhausted (w : Window) (hit : UInt64) : Bool :=
  match w.stop with
  | none => false
  | some last => last < hit

/-- A window contains the hits between its ends. -/
theorem contains_iff (w : Window) (hit : UInt64) :
    w.contains hit = true ↔ w.start ≤ hit ∧ ∀ last, w.stop = some last → hit ≤ last := by
  obtain ⟨start, stop⟩ := w
  cases stop <;> simp [contains]

/-- Past its last hit a window contains none. -/
theorem not_contains_of_isExhausted {w : Window} {hit : UInt64} (h : w.isExhausted hit = true) :
    w.contains hit = false := by
  obtain ⟨start, stop⟩ := w
  cases stop with
  | none => simp [isExhausted] at h
  | some last =>
    have : last < hit := by simpa [isExhausted] using h
    simp [contains, UInt64.not_le.mpr this]

end Window

/-- What a fault does, and when. -/
structure Plan where
  /-- What happens at a hit inside the window. -/
  effect : Effect
  /-- During which hits it happens. -/
  window : Window
  deriving DecidableEq

/-- The plan of a tag, a sleeping time and the ends of a window; of two faults in them, the
one in the effect is reported. -/
def Plan.make (tag : Tag) (duration : Option Duration) (start stop : Option UInt64) :
    Except Refusal Plan := do
  let effect ← Effect.make tag duration
  let window ← Window.make start stop
  pure ⟨effect, window⟩

/-- The parameters of a fault before they are checked. -/
structure Params where
  /-- The first hit of the window. -/
  start : Option UInt64
  /-- The last hit of the window. -/
  stop : Option UInt64
  /-- How long a sleeping fault sleeps. -/
  duration : Option Duration
  deriving DecidableEq

/-- The plan of a tag and parameters. -/
def Plan.ofParams (tag : Tag) (params : Params) : Except Refusal Plan :=
  Plan.make tag params.duration params.start params.stop

/-- What the caller of a hit has to do. -/
inductive Outcome where
  /-- Proceed. -/
  | proceed
  /-- Fail through the usual channel of errors. -/
  | fail
  /-- Wait, then proceed. -/
  | delay (duration : Duration)
  deriving DecidableEq

/-- Whether an outcome is the work of a fault. -/
def Outcome.isFault : Outcome → Bool
  | .proceed => false
  | _ => true

/-- The outcome of an effect. -/
def Effect.outcome : Effect → Outcome
  | .marker => .proceed
  | .exception => .fail
  | .sleep d => .delay d

/-- The outcome of a hit with a given number. -/
def Plan.outcome (p : Plan) (hit : UInt64) : Outcome :=
  if p.window.contains hit then p.effect.outcome else .proceed

end FaultPoints.Fault
