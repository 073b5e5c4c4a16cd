import FaultPoints.Control.Controller
import FaultPoints.Proofs.Fault.Frame

/-!
# Three ways of arming a point

A point can be armed by applying a request, by a command that carries the request, and by handing
its name, its tag and its parameters to the registry.  The three run through different checks in
different places; this file proves that they accept the same requests, refuse the others for the
same reason, and leave the same host behind.

The parameters of a request exist only where its seconds convert to a duration.  Where they do not,
the third way is not open and the first two are refused.

## Main Definitions

* `Arms` — what arming a point makes of a host, seen from outside

## Main Statements

* `arming_contract` — all three ways succeed on acceptable requests and on no others
-/

namespace FaultPoints.Control

open FaultPoints.Fault

/-- **Arming a point, seen from outside.**  The point has the plan and no hits; nothing else is
touched but the gauge, which shows the number of points that are armed now. -/
structure Arms (p : Host) (id : Nat) (name : String) (plan : Plan) (q : Host) : Prop where
  /-- The point has the plan and no hits. -/
  entry : q.entry id name = some ⟨name, plan, 0⟩
  /-- All other points of the registry stay as they were, their hits included. -/
  others : ∀ name', name' ≠ name → q.entry id name' = p.entry id name'
  /-- All other registries stay as they were. -/
  elsewhere : ∀ id', id' ≠ id → q.registry id' = p.registry id'
  /-- Nothing is counted. -/
  tally : q.tally = p.tally
  /-- The gauge shows how many points are armed. -/
  gauge : q.gauge = (q.registry id).size

theorem arms_armed (p : Host) (id : Nat) (name : String) (plan : Plan) :
    Arms p id name plan (p.armed id name plan) where
  entry := by rw [Host.entry_armed, if_pos ⟨rfl, rfl⟩]
  others name' hname := by rw [Host.entry_armed, if_neg fun h => hname h.2]
  elsewhere id' hid := by rw [Host.armed, Host.registry_changed, if_neg hid]
  tally := rfl
  gauge := by rw [Host.armed, Host.registry_changed, if_pos rfl]; rfl

/-- A request that is not acceptable is refused. -/
theorem exists_refusal_of_not_acceptable {r : Request} (h : ¬ r.Acceptable) (p : Host) (id : Nat) :
    ∃ e, p.apply id r = .error e := by
  cases happly : p.apply id r with
  | error e => exact ⟨e, rfl⟩
  | ok q =>
      obtain ⟨hname, plan, hplan, -⟩ := (Host.apply_eq_ok_iff p q id r).mp happly
      exact absurd ((acceptable_iff r).mpr ⟨hname, plan, hplan⟩) h

/-- A request that describes a plan has parameters. -/
theorem exists_params_of_describes {r : Request} {plan : Plan} (h : r.Describes plan) :
    ∃ params, r.params = .ok params := by
  have hplan := (plan_eq_ok_iff r plan).mpr h
  rw [Request.plan, bind_eq_ok_iff] at hplan
  obtain ⟨params, hparams, -⟩ := hplan
  exact ⟨params, hparams⟩

theorem handle_inject (p : Host) (id : Nat) (r : Request) :
    handle p id (.inject r) =
      match p.apply id r with
      | .ok q => (.ok .done, q)
      | .error e => (.error e, p) := rfl

/-- **The contract of arming.**  Applying a request, carrying out the command that holds it and
handing its parameters to the registry succeed together, exactly on the acceptable requests, and
arm the point with the plan that the request describes.  On all other requests they fail together
and for one reason, and the host stays as it was. -/
theorem arming_contract (p : Host) (id : Nat) (r : Request) :
    (r.Acceptable ∧ ∃ plan q, r.Describes plan ∧ Arms p id r.name plan q ∧
      p.apply id r = .ok q ∧
      handle p id (.inject r) = (.ok .done, q) ∧
      ∃ params, r.params = .ok params ∧ p.arm id r.name r.tag params = .ok q) ∨
    (¬ r.Acceptable ∧ ∃ e, p.apply id r = .error e ∧
      handle p id (.inject r) = (.error e, p) ∧
      ∀ params, r.params = .ok params → p.arm id r.name r.tag params = .error e) := by
  by_cases hacceptable : r.Acceptable
  · obtain ⟨hname, plan, hplan⟩ := (acceptable_iff r).mp hacceptable
    have happly := (Host.apply_eq_ok_iff p _ id r).mpr ⟨hname, plan, hplan, rfl⟩
    obtain ⟨params, hparams⟩ := exists_params_of_describes hplan
    refine Or.inl ⟨hacceptable, plan, p.armed id r.name plan, hplan, arms_armed _ _ _ _, happly,
      ?_, params, hparams, ?_⟩
    · rw [handle_inject, happly]
    · rw [← Host.apply_eq_arm hparams, happly]
  · obtain ⟨e, happly⟩ := exists_refusal_of_not_acceptable hacceptable p id
    refine Or.inr ⟨hacceptable, e, happly, ?_, fun params hparams => ?_⟩
    · rw [handle_inject, happly]
    · rw [← Host.apply_eq_arm hparams, happly]

end FaultPoints.Control
