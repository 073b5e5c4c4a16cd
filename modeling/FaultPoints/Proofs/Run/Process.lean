import FaultPoints.Proofs.Run.Reachable

/-!
# Runs of a process

A process changes its host in more ways than by operations: commands arrive as texts and as
requests over HTTP, and nodes are built.  A run of a process takes such steps one by one.  What is
counted about a run is counted over its moments, each of which is a step together with the host in
which it is taken.

Only a hit on an armed point changes the tally of a host (`tally_next`).

## Main Definitions

* `Run.Step`, `Run.Step.next` — what can happen, and the host after it
* `Run.Moment` — a step with the host before it
* `Run.ending`, `Run.moments` — the host after a run, and the moments of the run

## Main Statements

* `tally_next` — only a hit changes the tally
* `next_of_strikes` — a hit, in whatever way the point is reached
-/

namespace FaultPoints.Run

open FaultPoints.Fault

/-- What can happen in a process. -/
inductive Step where
  /-- An operation. -/
  | operation (op : Operation)
  /-- A text arrives that may be a command. -/
  | text (id : Nat) (cs : List Glyph)
  /-- A request arrives, and the reader of its body has words of its own. -/
  | request (w : Control.Http.Wording) (id : Nat) (r : Control.Http.Request)
  /-- A node is built, or the attempt fails. -/
  | build (a : Node.Assembly) (e : Settings.Environment)

/-- The host after a step. -/
def Step.next (p : Host) : Step → Host
  | operation op => (perform p op).2
  | text id cs => (Control.execute p id cs).2
  | request w id r => (Control.Http.respond w p id r).2
  | build a e => (a.build e p).2.1

/-- The registry and the point at which a step is a hit. -/
def Step.strikes : Step → Option (Nat × String)
  | operation (.strike _ id name) => some (id, name)
  | _ => none

/-- A step with the host in which it is taken. -/
structure Moment where
  /-- The host before the step. -/
  host : Host
  /-- The step. -/
  step : Step

/-- The host after a run. -/
def ending : Host → List Step → Host
  | p, [] => p
  | p, s :: rest => ending (s.next p) rest

/-- The moments of a run. -/
def moments : Host → List Step → List Moment
  | _, [] => []
  | p, s :: rest => ⟨p, s⟩ :: moments (s.next p) rest

theorem ending_append (p : Host) (before after : List Step) :
    ending p (before ++ after) = ending (ending p before) after := by
  induction before generalizing p with
  | nil => rfl
  | cons s rest ih => exact ih (s.next p)

/-! ## The tally -/

theorem tally_commit {p : Host} {x : Except Refusal Host}
    (hx : ∀ q, x = .ok q → q.tally = p.tally) : (commit p x).2.tally = p.tally := by
  cases x with
  | ok q => exact hx q rfl
  | error why => rfl

theorem tally_apply {p q : Host} {id : Nat} {r : Request} (h : p.apply id r = .ok q) :
    q.tally = p.tally := by
  obtain ⟨-, plan, -, rfl⟩ := (Host.apply_eq_ok_iff p q id r).mp h
  rfl

theorem tally_handle (p : Host) (id : Nat) (c : Control.Command) :
    (Control.handle p id c).2.tally = p.tally := by
  cases c with
  | inject r =>
      simp only [Control.handle]
      cases happly : p.apply id r with
      | ok q => exact tally_apply happly
      | error why => rfl
  | _ => rfl

theorem tally_execute (p : Host) (id : Nat) (text : List Glyph) :
    (Control.execute p id text).2.tally = p.tally := by
  unfold Control.execute
  split
  · rfl
  · exact tally_handle p id _

theorem tally_respond (w : Control.Http.Wording) (p : Host) (id : Nat)
    (r : Control.Http.Request) : (Control.Http.respond w p id r).2.tally = p.tally := by
  unfold Control.Http.respond
  split
  · exact tally_handle p id _
  · rfl

theorem tally_armAll (id : Nat) (member : String) (rs : List Request) (p : Host) :
    (Node.Assembly.armAll id member rs p).2.1.tally = p.tally := by
  induction rs generalizing p with
  | nil => rfl
  | cons r rest ih =>
      rw [Node.Assembly.armAll]
      split
      · rfl
      · rename_i q told harm
        rw [Node.Assembly.arm, bind_eq_ok_iff] at harm
        obtain ⟨q', happly, hpure⟩ := harm
        obtain ⟨rfl, -⟩ := Prod.mk.inj (Except.ok.inj hpure)
        exact (ih q').trans (tally_apply happly)

theorem tally_build (a : Node.Assembly) (e : Settings.Environment) (p : Host) :
    (a.build e p).2.1.tally = p.tally := by
  have htarget : (target a p).2.tally = p.tally := by
    unfold target
    split <;> rfl
  cases hfaults : Settings.startFaults a.settings e with
  | error why => rw [host_build_of_error hfaults, htarget]
  | ok faults => rw [host_build_of_ok hfaults, tally_armAll, htarget]

theorem tally_perform {p : Host} {op : Operation} (hop : (Step.operation op).strikes = none) :
    (perform p op).2.tally = p.tally := by
  cases op with
  | arm id name tag params =>
      refine tally_commit fun q hq => ?_
      obtain ⟨-, plan, -, rfl⟩ := (Host.arm_eq_ok_iff p q id name tag params).mp hq
      rfl
  | activate id name plan =>
      refine tally_commit fun q hq => ?_
      obtain ⟨-, rfl⟩ := (Host.activate_eq_ok_iff p q id name plan).mp hq
      rfl
  | apply id r => exact tally_commit fun q hq => tally_apply hq
  | command id c => exact tally_handle p id c
  | strike way id name => cases hop
  | _ => rfl

/-- **Only a hit changes the tally.** -/
theorem tally_next (p : Host) {s : Step} (h : s.strikes = none) : (s.next p).tally = p.tally := by
  cases s with
  | operation op => exact tally_perform h
  | text id cs => exact tally_execute p id cs
  | request w id r => exact tally_respond w p id r
  | build a e => exact tally_build a e p

/-- A step that is a hit leads to the host after that hit. -/
theorem next_of_strikes (p : Host) {s : Step} {id : Nat} {name : String}
    (h : s.strikes = some (id, name)) : s.next p = (p.hit id name).2 := by
  cases s with
  | operation op =>
      cases op with
      | strike way id' name' =>
          obtain ⟨rfl, rfl⟩ := Prod.mk.inj (Option.some.inj h)
          exact congrArg Prod.snd (strike_eq way p id' name')
      | _ => cases h
  | _ => cases h

end FaultPoints.Run
