import FaultPoints.Proofs.Run.Hits
import FaultPoints.Proofs.Run.Process

/-!
# The past of a point in a process

Whatever reaches a process comes down to operations on its registries: a text that is a command and
a request over HTTP to the operation that carries the command out, a text or a request of another
kind to none, and a build to the foundation of a registry, where none was supplied, and to the
requests that it applies before one is refused.  So a run of a process is a run of operations
(`ending_eq_final`), and what happened to a point in the course of it is told by their history.

The history of operations settles the descriptor of the point, and so it does here
(`entry_ending`).  A step that leaves no event in the history has left the point alone, although it
may have been meant for it: an operation may be refused.

## Main Definitions

* `Fault.Request.isAccepted` — a request can be applied
* `Run.Step.operations`, `Run.operations` — the operations to which a step and a run come down
* `Run.past` — what happened to a point in the course of a run of a process

## Main Statements

* `next_eq_final`, `ending_eq_final` — a step, and a run, performs its operations
* `entry_ending` — the descriptor of a point is the replay of its past
* `length_past` — in a past of hits alone each hit has its event
-/

namespace FaultPoints

open FaultPoints.Fault

/-! ## Requests that are applied -/

/-- A request can be applied, in whatever registry. -/
def Fault.Request.isAccepted (r : Request) : Bool := r.plan.isOk && (checkName r.name).isOk

theorem Fault.Request.isAccepted_iff (r : Request) (p : Host) (id : Nat) :
    r.isAccepted = true ↔ ∃ q, p.apply id r = .ok q := by
  rw [Host.apply_eq, isAccepted]
  cases r.plan with
  | error why => simp [bind, Except.bind, Except.isOk, Except.toBool]
  | ok plan =>
      cases hname : checkName r.name <;>
        simp [bind, Except.bind, Except.isOk, Except.toBool, Host.activate, Registry.activate,
          hname, pure, Except.pure]

namespace Run

/-! ## Steps as operations -/

/-- A command on a registry, if there is one. -/
def commanded {ε : Type} (id : Nat) : Except ε Control.Command → List Operation
  | .ok c => [.command id c]
  | .error _ => []

/-- The operations to which a step comes down. -/
def Step.operations (p : Host) : Step → List Operation
  | operation op => [op]
  | text id cs => commanded id (Control.Command.parse cs)
  | request _ id r => commanded id (Control.Http.firstOf r Control.Http.routes)
  | build a e =>
    let faults := (Settings.startFaults a.settings e).toOption.getD []
    (if a.supplied.isSome then [] else [.found]) ++
      (faults.takeWhile Request.isAccepted).map (.apply (target a p).1)

/-- The operations to which a run comes down. -/
def operations : Host → List Step → List Operation
  | _, [] => []
  | p, s :: rest => s.operations p ++ operations (s.next p) rest

/-- **What happened to a point** in the course of a run, the oldest first. -/
def past (p : Host) (id : Nat) (name : String) (steps : List Step) : List Event :=
  history id name (trace p (operations p steps))

theorem final_append (p : Host) (before after : List Operation) :
    final p (before ++ after) = final (final p before) after := by
  induction before generalizing p with
  | nil => rfl
  | cons op rest ih => exact ih (perform p op).2

theorem perform_apply_of_ok {p q : Host} {id : Nat} {r : Request} (h : p.apply id r = .ok q) :
    (perform p (.apply id r)).2 = q := by
  rw [perform, h]
  rfl

/-- Arming the points of requests one by one is applying those before the first that is refused. -/
theorem host_armAll (id : Nat) (member : String) (rs : List Request) (p : Host) :
    (Node.Assembly.armAll id member rs p).2.1 =
      final p ((rs.takeWhile Request.isAccepted).map (.apply id)) := by
  induction rs generalizing p with
  | nil => rfl
  | cons r rest ih =>
      have haccepted := r.isAccepted_iff p id
      cases happly : p.apply id r with
      | error why =>
          rw [happly] at haccepted
          rw [Node.Assembly.armAll, Node.Assembly.arm, happly,
            List.takeWhile_cons_of_neg (by simpa using haccepted)]
          rfl
      | ok q =>
          rw [List.takeWhile_cons_of_pos (haccepted.mpr ⟨q, happly⟩), List.map_cons, final,
            perform_apply_of_ok happly, ← ih, Node.Assembly.armAll, Node.Assembly.arm, happly]
          rfl

theorem host_target (a : Node.Assembly) (p : Host) :
    (target a p).2 = final p (if a.supplied.isSome then [] else [.found]) := by
  unfold target
  cases a.supplied <;> rfl

/-- **A step performs its operations.** -/
theorem next_eq_final (p : Host) (s : Step) : s.next p = final p (s.operations p) := by
  cases s with
  | operation op => rfl
  | text id cs =>
      simp only [Step.next, Step.operations, Control.execute]
      cases Control.Command.parse cs <;> rfl
  | request w id r =>
      simp only [Step.next, Step.operations, Control.Http.respond]
      cases Control.Http.firstOf r Control.Http.routes <;> rfl
  | build a e =>
      simp only [Step.next, Step.operations, final_append, ← host_target]
      cases hfaults : Settings.startFaults a.settings e with
      | error why =>
          rw [host_build_of_error hfaults]
          rfl
      | ok faults =>
          rw [host_build_of_ok hfaults, host_armAll]
          rfl

/-- **A run performs its operations.** -/
theorem ending_eq_final (p : Host) (steps : List Step) :
    ending p steps = final p (operations p steps) := by
  induction steps generalizing p with
  | nil => rfl
  | cons s rest ih => rw [ending, ih, operations, final_append, next_eq_final]

/-! ## The past of a point -/

deriving instance DecidableEq for Arming, Event

/-- **The descriptor of a point is the replay of its past.** -/
theorem entry_ending (p : Host) (steps : List Step) (id : Nat) (name : String) :
    (ending p steps).entry id name = replay name (p.entry id name) (past p id name steps) := by
  rw [ending_eq_final, entry_final, past]

/-- A replay leaves a descriptor of the right name. -/
theorem name_replay {name : String} {o : Option Descriptor} (ho : ∀ d, o = some d → d.name = name)
    (h : List Event) {d : Descriptor} (hd : replay name o h = some d) : d.name = name := by
  induction h generalizing o with
  | nil => exact ho d hd
  | cons e rest ih =>
      refine ih (fun d' hd' => ?_) hd
      cases e with
      | armed a =>
          cases hd'
          rfl
      | disarmed => cases hd'
      | hit =>
          obtain ⟨d'', hd'', rfl⟩ := Option.map_eq_some_iff.mp hd'
          exact ho d'' hd''

/-- In every run from the start a descriptor has the name under which it is found. -/
theorem name_entry_ending {steps : List Step} {id : Nat} {name : String} {d : Descriptor}
    (h : (ending .start steps).entry id name = some d) : d.name = name := by
  rw [entry_ending] at h
  exact name_replay (fun _ hd => by cases hd) _ h

/-! ## How often a point was hit -/

/-- Only reaching a point leaves a hit in a history. -/
theorem exists_strike_of_eventOf {op : Operation} {answer : Answer}
    (h : eventOf op answer = some .hit) : ∃ way id name, op = .strike way id name := by
  unfold eventOf at h
  split at h <;> first | exact ⟨_, _, _, rfl⟩ | cases h

/-- An operation leaves a hit in the history of a point iff it is one. -/
theorem eventFor_eq_hit_iff (id : Nat) (name : String) (op : Operation) (answer : Answer) :
    eventFor id name op answer = some .hit ↔ op.isHitOn id name = true := by
  rw [eventFor, Option.ite_none_right_eq_some]
  constructor
  · rintro ⟨hconcerns, hevent⟩
    obtain ⟨way, id', name', rfl⟩ := exists_strike_of_eventOf hevent
    exact Operation.isHitOn_strike_iff.mpr ⟨hconcerns.1.symm, hconcerns.2.symm⟩
  · intro hhit
    cases op with
    | strike way id' name' =>
        obtain ⟨rfl, rfl⟩ := Operation.isHitOn_strike_iff.mp hhit
        exact ⟨⟨rfl, rfl⟩, rfl⟩
    | _ => cases hhit

theorem history_cons (p : Host) (id : Nat) (name : String) (op : Operation)
    (rest : List Operation) :
    history id name (trace p (op :: rest)) =
      (eventFor id name op (perform p op).1).toList ++
        history id name (trace (perform p op).2 rest) := by
  simp only [history, trace, List.filterMap_cons]
  unfold eventFor
  split <;> rename_i h <;> rw [h] <;> rfl

/-- In a history of hits alone each hit has its event. -/
theorem length_history {p : Host} {id : Nat} {name : String} {ops : List Operation}
    (h : ∀ e ∈ history id name (trace p ops), e = .hit) :
    (history id name (trace p ops)).length = ops.countP (Operation.isHitOn id name) := by
  induction ops generalizing p with
  | nil => rfl
  | cons op rest ih =>
      rw [history_cons] at h ⊢
      obtain ⟨hfirst, hrest⟩ := List.forall_mem_append.mp h
      have hhit := eventFor_eq_hit_iff id name op (perform p op).1
      rw [List.length_append, ih hrest, List.countP_cons, Nat.add_comm]
      congr 1
      cases hevent : eventFor id name op (perform p op).1 with
      | none =>
          have hnot : ¬ op.isHitOn id name = true := by simp [← hhit, hevent]
          rw [if_neg hnot]
          rfl
      | some e =>
          obtain rfl : e = .hit := hfirst e (by simp [hevent])
          rw [if_pos (hhit.mp hevent)]
          rfl

theorem countP_isHitOn_operations (p : Host) (s : Step) (id : Nat) (name : String) :
    (s.operations p).countP (Operation.isHitOn id name) =
      if s.strikes = some (id, name) then 1 else 0 := by
  have hcommanded : ∀ {ε : Type} (id' : Nat) (c : Except ε Control.Command),
      (commanded id' c).countP (Operation.isHitOn id name) = 0 := by
    intro ε id' c
    cases c <;> rfl
  cases s with
  | operation op =>
      rw [Step.operations, List.countP_singleton]
      cases op with
      | strike way id' name' => simp [Operation.isHitOn, Step.strikes]
      | _ => rfl
  | text id' cs => exact hcommanded id' _
  | request w id' r => exact hcommanded id' _
  | build a e =>
      rw [Step.operations, List.countP_append]
      cases a.supplied <;> simp [Operation.isHitOn, Step.strikes, Function.comp_def]

/-- **In a past of hits alone each hit has its event.** -/
theorem length_past {p : Host} {id : Nat} {name : String} {steps : List Step}
    (h : ∀ e ∈ past p id name steps, e = .hit) :
    (past p id name steps).length = steps.countP fun s => s.strikes = some (id, name) := by
  rw [past, length_history h]
  clear h
  induction steps generalizing p with
  | nil => rfl
  | cons s rest ih =>
      rw [operations, List.countP_append, ih, countP_isHitOn_operations, List.countP_cons,
        Nat.add_comm]
      simp

end Run

end FaultPoints
