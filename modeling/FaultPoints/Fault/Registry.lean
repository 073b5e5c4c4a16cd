import FaultPoints.Catalog
import FaultPoints.Fault.Request

/-!
# The registry of armed points

A registry maps the names of armed points to their plans and to the number of hits since
they were armed. Code that is instrumented reports each time it reaches a point; the
registry counts the hit first and decides by the count.

Names are used verbatim as segments of a path, so they hold only characters that need no
escaping there.

## Main Definitions

* `Fault.checkName` — whether a text may name a point
* `Fault.Descriptor` — an armed point
* `Fault.Registry` with `activate`, `arm`, `deactivate`, `hit`
* `Fault.Registry.isActive`, `activeNames`, `hitCount?`, `listing` — its observers
* `Fault.Point` — an entry of the listing and its document

## Main Statements

* `countHit_toNat` — a count grows by one until it is the greatest of sixty-four bits
-/

namespace FaultPoints.Fault

/-- Whether a name may have the character. -/
def isNameCharacter (c : Char) : Bool :=
  ('a' ≤ c && c ≤ 'z') || ('A' ≤ c && c ≤ 'Z') || Text.isDigit c || c = '_' || c = '-' || c = '.'

/-- A name has at least one character, and each is an ASCII letter, a digit, an underscore,
a hyphen or a full stop. The first character of another sort is reported. -/
def checkName (name : String) : Except Refusal Unit :=
  if name.toList.isEmpty then .error .nameEmpty
  else match name.toList.find? fun c => !isNameCharacter c with
    | some c => .error (.nameCharacter name c)
    | none => .ok ()

/-- An armed point: its name, its plan and the number of hits since it was armed. -/
structure Descriptor where
  /-- The name. -/
  name : String
  /-- What happens, and when. -/
  plan : Plan
  /-- The hits so far. -/
  hits : UInt64
  deriving DecidableEq

/-- The greatest count of sixty-four bits. -/
def greatestCount : UInt64 := 18446744073709551615

/-- The count after one more hit; the greatest count stays. -/
def countHit (n : UInt64) : UInt64 := if n = greatestCount then n else n + 1

/-- An entry of the listing. -/
structure Point where
  /-- The name of the point. -/
  name : String
  /-- The sort of its fault. -/
  tag : Tag
  /-- The first hit of its window. -/
  start : UInt64
  /-- The last hit of its window. -/
  stop : Option UInt64
  /-- Its sleeping time in seconds. -/
  seconds : Option Binary64
  /-- The hits so far. -/
  hits : UInt64
  /-- Whether its window has closed. -/
  expired : Bool
  deriving DecidableEq

/-- The entry of an armed point. -/
def Descriptor.point (d : Descriptor) : Point where
  name := d.name
  tag := d.plan.effect.tag
  start := d.plan.window.start
  stop := d.plan.window.stop
  seconds := d.plan.effect.duration?.map Duration.toSeconds
  hits := d.hits
  expired := d.plan.window.isExhausted d.hits

/-- The points that are armed. -/
structure Registry where
  /-- The armed points by name. -/
  points : Catalog String Descriptor
  deriving DecidableEq

namespace Registry

/-- The registry in which no point is armed. -/
def empty : Registry := ⟨.empty⟩

/-- Arms a point under a plan, with no hits. A point that is armed already is replaced. -/
def activate (r : Registry) (name : String) (plan : Plan) : Except Refusal Registry := do
  checkName name
  pure ⟨r.points.insert name ⟨name, plan, 0⟩⟩

/-- Arms a point under parameters. They are checked before the name. -/
def arm (r : Registry) (name : String) (tag : Tag) (params : Params) :
    Except Refusal Registry := do
  let plan ← Plan.ofParams tag params
  r.activate name plan

/-- Disarms a point. -/
def deactivate (r : Registry) (name : String) : Registry := ⟨r.points.erase name⟩

/-- Whether a point is armed, inside its window or not. -/
def isActive (r : Registry) (name : String) : Bool := r.points.contains name

/-- The names of the armed points in order. -/
def activeNames (r : Registry) : List String := r.points.keys

/-- How many points are armed. -/
def size (r : Registry) : Nat := r.points.size

/-- The hits of an armed point. -/
def hitCount? (r : Registry) (name : String) : Option UInt64 :=
  (r.points.find? name).map (·.hits)

/-- The entries of the armed points, ordered by name. -/
def listing (r : Registry) : List Point := r.points.entries.map fun e => e.2.point

/-- What a hit on an armed point finds. -/
structure Strike where
  /-- What the caller has to do. -/
  outcome : Outcome
  /-- The tag of the plan that was in force. -/
  tag : Tag
  /-- The count of this hit. -/
  number : UInt64

/-- A hit: where the point is armed it is counted, and the count decides. -/
def hit (r : Registry) (name : String) : Option (Strike × Registry) :=
  (r.points.find? name).map fun d =>
    -- The hit counts itself, so that the first one has the number one.
    let n := countHit d.hits
    (⟨d.plan.outcome n, d.plan.effect.tag, n⟩, ⟨r.points.insert name { d with hits := n }⟩)

/-- Arms the point of a request. The plan is checked before the name. -/
def apply (r : Registry) (request : Request) : Except Refusal Registry := do
  let plan ← request.plan
  r.activate request.name plan

end Registry

/-- The document of an entry; absent parameters are null. -/
def Point.toValue (p : Point) : Json.Value :=
  .object
    [("fault_name", .text p.name),
     ("fault_type", .text p.tag.name),
     ("start_from", .count p.start),
     ("end_after", Json.nullable (p.stop.map .count)),
     ("sleep_time", Json.nullable (p.seconds.map .real)),
     ("hits", .count p.hits),
     ("expired", .boolean p.expired)]

/-- An entry in the making. -/
structure Point.Draft where
  /-- The name of the point. -/
  name : Option String
  /-- The sort of its fault. -/
  tag : Option Tag
  /-- The first hit of its window. -/
  start : Option UInt64
  /-- The last hit of its window. -/
  stop : Option (Option UInt64)
  /-- Its sleeping time in seconds. -/
  seconds : Option (Option Binary64)
  /-- The hits so far. -/
  hits : Option UInt64
  /-- Whether its window has closed. -/
  expired : Option Bool

/-- The record of an entry. -/
def Point.record : Json.Record Point.Draft Point where
  label := "struct FaultPointInfo"
  members :=
    [.of "fault_name" (Json.textForm "a string") (·.name) (fun d x => { d with name := some x })
      false,
     .of "fault_type" tagForm (·.tag) (fun d x => { d with tag := some x }) false,
     .of "start_from" Json.countForm (·.start) (fun d x => { d with start := some x }) false,
     .of "end_after" Json.countForm.optional (·.stop) (fun d x => { d with stop := some x }) false,
     .of "sleep_time" Json.realForm.optional (·.seconds)
      (fun d x => { d with seconds := some x }) false,
     .of "hits" Json.countForm (·.hits) (fun d x => { d with hits := some x }) false,
     .of "expired" Json.booleanForm (·.expired) (fun d x => { d with expired := some x }) false]
  empty := ⟨none, none, none, none, none, none, none⟩
  complete d := do
    let name ← Json.required "fault_name" d.name
    let tag ← Json.required "fault_type" d.tag
    let start ← Json.required "start_from" d.start
    let hits ← Json.required "hits" d.hits
    let expired ← Json.required "expired" d.expired
    pure
      { name
        tag
        start
        stop := d.stop.getD none
        seconds := d.seconds.getD none
        hits
        expired }

/-- How an entry is read from a document. -/
def Point.form : Json.Form Point := .record Point.record

/-- The document of a listing. -/
def listingValue (points : List Point) : Json.Value := .array (points.map Point.toValue)

/-- A count grows by one until it is the greatest of sixty-four bits. -/
theorem countHit_toNat (n : UInt64) :
    (countHit n).toNat = min (n.toNat + 1) greatestCount.toNat := by
  have hlt : n.toNat < 18446744073709551616 := n.toNat_lt
  have hg : greatestCount.toNat = 18446744073709551615 := rfl
  unfold countHit
  split
  · rename_i h
    subst h
    decide
  · rename_i h
    have hne : n.toNat ≠ 18446744073709551615 := fun e => h (UInt64.toNat_inj.mp (by rw [e, hg]))
    rw [UInt64.toNat_add, hg]
    have h1 : (1 : UInt64).toNat = 1 := rfl
    rw [h1, Nat.mod_eq_of_lt (by omega)]
    omega

end FaultPoints.Fault
