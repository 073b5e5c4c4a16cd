import FaultPoints.Fault.Registry

/-!
# Hosts: registries with their tallies

All registries of a host share two families of counters and one gauge. A counter is
raised at each hit on an armed point, another one where the hit is the work of a fault;
neither is ever lowered. The gauge holds the size of the registry that was changed last.

## Main Definitions

* `Fault.Tally` — the two families of counters
* `Fault.Host` — registries, tallies and the gauge
* `Fault.Host.activate`, `arm`, `apply`, `deactivate`, `deactivateAll`, `hit` — the operations
* `Fault.Host.inject` — a hit whose outcome is carried out
* `Fault.Host.race` — a number of hits, as many threads make them in some order
* `Fault.Injected` — the failure that a fault raises on purpose
-/

namespace FaultPoints.Fault

/-- The failure that a fault raises on purpose. -/
structure Injected where
  /-- The point at which it was raised. -/
  point : String
  deriving DecidableEq, Repr

/-- The message of a failure raised on purpose. -/
def Injected.message (i : Injected) : String := "Exception raised by fault point " ++ i.point

/-- What the outcome of a hit means for the operation that made it. -/
def Outcome.result (point : String) : Outcome → Except Injected Unit
  | .fail => .error ⟨point⟩
  | _ => .ok ()

/-- For how many milliseconds the outcome of a hit delays the operation that made it. -/
def Outcome.waitMillis : Outcome → Nat
  | .delay d => d.ceilMillis
  | _ => 0

/-- Counters that are only ever raised. -/
structure Tally where
  /-- The hits on armed points, by point. -/
  hits : Catalog String Nat
  /-- The hits that were the work of a fault, by tag and point. -/
  triggered : Catalog (List String) Nat
  deriving DecidableEq

namespace Tally

/-- Nothing has been counted. -/
def empty : Tally := ⟨.empty, .empty⟩

/-- How many hits on a point were counted. -/
def hitsOf (t : Tally) (point : String) : Nat := (t.hits.find? point).getD 0

/-- How many hits on a point were the work of a fault of a sort. -/
def triggeredOf (t : Tally) (tag : Tag) (point : String) : Nat :=
  (t.triggered.find? [tag.name, point]).getD 0

/-- One more hit on a point. -/
def countHit (t : Tally) (point : String) : Tally :=
  { t with hits := t.hits.insert point (t.hitsOf point + 1) }

/-- One more hit on a point that was the work of a fault. -/
def countTrigger (t : Tally) (tag : Tag) (point : String) : Tally :=
  { t with triggered := t.triggered.insert [tag.name, point] (t.triggeredOf tag point + 1) }

/-- The counters after a hit with a strike. -/
def record (t : Tally) (point : String) (s : Registry.Strike) : Tally :=
  let counted := t.countHit point
  if s.outcome.isFault then counted.countTrigger s.tag point else counted

end Tally

/-- Registries by number with what they share. -/
structure Host where
  /-- The registries. -/
  registries : Catalog Nat Registry
  /-- The counters. -/
  tally : Tally
  /-- The size of the registry that was changed last. -/
  gauge : Nat
  deriving DecidableEq

namespace Host

/-- The host at its start. -/
def start : Host := ⟨.empty, .empty, 0⟩

/-- The registry of a number; one that has not been used is empty. -/
def registry (p : Host) (id : Nat) : Registry := (p.registries.find? id).getD .empty

/-- A number above those of all registries. -/
def unused (p : Host) : Nat := p.registries.keys.foldl (fun n k => max n (k + 1)) 0

/-- A new registry: its number, and the host with it. The gauge does not change. -/
def found (p : Host) : Nat × Host :=
  (p.unused, { p with registries := p.registries.insert p.unused .empty })

/-- The host with a changed registry, whose size the gauge now shows. -/
def changed (p : Host) (id : Nat) (r : Registry) : Host :=
  { p with registries := p.registries.insert id r, gauge := r.size }

/-- Arms a point of a registry. -/
def activate (p : Host) (id : Nat) (name : String) (plan : Plan) : Except Refusal Host := do
  let r ← (p.registry id).activate name plan
  pure (p.changed id r)

/-- Arms a point of a registry under parameters. -/
def arm (p : Host) (id : Nat) (name : String) (tag : Tag) (params : Params) :
    Except Refusal Host := do
  let r ← (p.registry id).arm name tag params
  pure (p.changed id r)

/-- Arms the point of a request in a registry. -/
def apply (p : Host) (id : Nat) (request : Request) : Except Refusal Host := do
  let r ← (p.registry id).apply request
  pure (p.changed id r)

/-- Disarms a point of a registry and tells whether it was armed. -/
def deactivate (p : Host) (id : Nat) (name : String) : Bool × Host :=
  let r := p.registry id
  (r.isActive name, p.changed id (r.deactivate name))

/-- Disarms all points of a registry. -/
def deactivateAll (p : Host) (id : Nat) : Host := p.changed id .empty

/-- A hit on a point of a registry. -/
def hit (p : Host) (id : Nat) (name : String) : Outcome × Host :=
  match (p.registry id).hit name with
  | none => (.proceed, p)
  | some (s, r) =>
    (s.outcome,
      { p with registries := p.registries.insert id r, tally := p.tally.record name s })

/-- A hit whose outcome is carried out: its caller fails, or goes on once it has waited. -/
def inject (p : Host) (id : Nat) (name : String) : Except Injected Unit × Nat × Host :=
  let (outcome, q) := p.hit id name
  (outcome.result name, outcome.waitMillis, q)

/-- A number of hits on a point, added to those that were the work of a fault before. -/
def hits (id : Nat) (name : String) : Nat → Nat × Host → Nat × Host
  | 0, state => state
  | n + 1, (faults, p) =>
    let (outcome, q) := p.hit id name
    hits id name n (if outcome.isFault then faults + 1 else faults, q)

/-- A number of hits on a point, with how many of them were the work of a fault. The order in
which threads make them does not matter, since every hit is one step of the registry. -/
def race (p : Host) (id : Nat) (name : String) (n : Nat) : Nat × Host :=
  hits id name n (0, p)

end Host

end FaultPoints.Fault
