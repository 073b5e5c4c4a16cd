import FaultPoints.Node.Run
import FaultPoints.Proofs.Run.Process

/-!
# The course of a running heartbeat

Between two beats a heartbeat is left alone with the time, and meanwhile things happen in its
process: commands arrive, points are armed and disarmed, other tasks reach the same point.  A course
lets time pass from one such incident to the next.  What the end of a beat, the beginning of a beat,
an incident and the mere passing of time all keep is kept by every course (`Kept`).

A node that runs is a special case, in which the incidents are the orders that arrive.

## Main Definitions

* `Heartbeat.Incident` — something that happens at a time
* `Heartbeat.Loop.course`, `Heartbeat.Loop.lived` — a heartbeat after incidents, and at a later time
* `Heartbeat.Loop.Kept` — what every step keeps
* `Heartbeat.Loop.Rests` — a heartbeat that waits

## Main Statements

* `rests_advance` — once its time has passed, a heartbeat waits
* `advance_advance` — time passes in any portions
* `Kept.lived` — what every step keeps is kept by every course
* `final_run_eq` — a node that runs is a heartbeat in a course of orders
-/

namespace FaultPoints

open FaultPoints.Fault

namespace Heartbeat

/-- Something that happens in a process at a time. -/
structure Incident where
  /-- When it happens, in milliseconds. -/
  time : Nat
  /-- What happens. -/
  step : Run.Step

namespace Loop

section

variable (interval : Interval) (id : Nat) (point : String)

/-- **A heartbeat after incidents**, with the time of the last one.  Time does not run backwards,
and the beats of an instant come before its incidents. -/
def course : Nat → List Incident → Loop → Nat × Loop
  | now, [], l => (now, l)
  | now, x :: rest, l =>
    let l := l.advance interval id point (max now x.time)
    course (max now x.time) rest { l with host := x.step.next l.host }

/-- **A heartbeat at a time**, or at the time of the last incident if that is later. -/
def lived (incidents : List Incident) (horizon : Nat) (l : Loop) : Nat × Loop :=
  let (now, l) := l.course interval id point 0 incidents
  (max now horizon, l.advance interval id point (max now horizon))

/-- **What every step of a heartbeat keeps**, and what happens between the steps keeps as well. -/
structure Kept (P : Nat → Loop → Prop) : Prop where
  /-- The end of a beat keeps it. -/
  settle : ∀ {now l}, P now l → P now (l.settle now)
  /-- The beginning of a beat keeps it. -/
  begin : ∀ {now l}, l.serving = none → l.nextStart ≤ now → P now l →
    P now (l.begin interval id point)
  /-- The passing of time keeps it. -/
  elapse : ∀ {now now' l}, now ≤ now' → P now l → P now' l
  /-- What happens in the process keeps it. -/
  happen : ∀ {now l} (s : Run.Step), P now l → P now { l with host := s.next l.host }

end

variable {interval : Interval} {id : Nat} {point : String}

/-! ## One step -/

/-- **What the end of a beat can be**: nothing ends yet, or a beat does. -/
theorem settle_cases (now : Nat) (l : Loop) :
    (l.settle now = l ∧ ∀ b, l.serving = some b → now < b.stop) ∨
      ∃ b, l.serving = some b ∧ b.stop ≤ now ∧ l.settle now =
        { l with serving := none, free := b.stop, stats := l.stats.ended b.outcome } := by
  cases hserving : l.serving with
  | none => exact Or.inl ⟨by rw [settle, hserving], by simp⟩
  | some b =>
      rcases Nat.lt_or_ge now b.stop with hstop | hstop
      · exact Or.inl ⟨by simp only [settle, hserving, if_neg (Nat.not_le.mpr hstop)], by simpa⟩
      · exact Or.inr ⟨b, rfl, hstop, by simp only [settle, hserving, if_pos hstop]⟩

/-- A beat that has ended does not end again. -/
theorem settle_of_serving_eq_none {now now' : Nat} {l : Loop} (hle : now ≤ now')
    (h : (l.settle now).serving = none) : l.settle now' = l.settle now := by
  rcases l.settle_cases now with ⟨hsame, -⟩ | ⟨b, hb, hstop, hended⟩
  · rw [hsame] at h ⊢
    rw [settle, h]
  · rw [hended]
    simp only [settle, hb, if_pos (hstop.trans hle)]

theorem settle_settle {now now' : Nat} (hle : now ≤ now') (l : Loop) :
    (l.settle now).settle now' = l.settle now' := by
  rcases l.settle_cases now with ⟨hsame, -⟩ | ⟨b, -, -, hended⟩
  · rw [hsame]
  · have hnone : (l.settle now).serving = none := by rw [hended]
    rw [settle_of_serving_eq_none hle hnone, hended]
    rfl

/-! ## Waiting -/

/-- A heartbeat waits: for the end of the beat in progress, or for the next one to be due. -/
structure Rests (now : Nat) (l : Loop) : Prop where
  /-- The beat in progress has not ended. -/
  serving : ∀ b, l.serving = some b → now < b.stop
  /-- If there is none, the next one does not begin yet. -/
  idle : l.serving = none → now < l.nextStart

/-- **Once its time has passed, a heartbeat waits.** -/
theorem rests_advance (now : Nat) (l : Loop) : Rests now (l.advance interval id point now) := by
  fun_induction advance interval id point now l with
  | case1 l settled h ih => exact ih
  | case2 l settled h =>
      refine ⟨?_, fun hnone => Nat.lt_of_not_le fun hle => h ⟨hnone, hle⟩⟩
      intro b hb
      rcases l.settle_cases now with ⟨hsame, hstop⟩ | ⟨b', -, -, hended⟩
      · rw [show settled = l from hsame] at hb
        exact hstop b hb
      · rw [show settled = _ from hended] at hb
        cases hb

/-- What time makes of a heartbeat depends on what the end of its beat makes of it. -/
theorem advance_congr {now : Nat} {l l' : Loop} (h : l.settle now = l'.settle now) :
    l.advance interval id point now = l'.advance interval id point now := by
  conv_lhs => rw [advance, h]
  conv_rhs => rw [advance]

/-- **Time passes in any portions.** -/
theorem advance_advance {now now' : Nat} (hle : now ≤ now') (l : Loop) :
    (l.advance interval id point now).advance interval id point now' =
      l.advance interval id point now' := by
  fun_induction advance interval id point now l with
  | case1 l settled h ih =>
      have hsettle : l.settle now' = settled := settle_of_serving_eq_none hle h.1
      rw [ih]
      conv_rhs => rw [advance, hsettle, if_pos ⟨h.1, h.2.trans hle⟩]
  | case2 l settled h => exact advance_congr (settle_settle hle l)

/-! ## Courses -/

namespace Kept

variable {P : Nat → Loop → Prop}

theorem advance (h : Kept interval id point P) {now : Nat} {l : Loop} (hl : P now l) :
    P now (l.advance interval id point now) := by
  fun_induction Loop.advance interval id point now l with
  | case1 l settled hbegin ih => exact ih (h.begin hbegin.1 hbegin.2 (h.settle hl))
  | case2 l settled _ => exact h.settle hl

theorem course (h : Kept interval id point P) {now : Nat} {incidents : List Incident} {l : Loop}
    (hl : P now l) :
    P (l.course interval id point now incidents).1
      (l.course interval id point now incidents).2 := by
  induction incidents generalizing now l with
  | nil => exact hl
  | cons x rest ih =>
      have hlater : P (max now x.time) l := h.elapse (Nat.le_max_left _ _) hl
      exact ih (h.happen x.step (h.advance hlater))

/-- **What every step keeps is kept by every course.** -/
theorem lived (h : Kept interval id point P) (incidents : List Incident) (horizon : Nat) {l : Loop}
    (hl : P 0 l) :
    P (l.lived interval id point incidents horizon).1
      (l.lived interval id point incidents horizon).2 :=
  h.advance (h.elapse (Nat.le_max_left _ _) (h.course hl))

end Kept

end Loop

end Heartbeat

/-! ## Nodes -/

namespace Node

open Heartbeat

variable {n : Node} {interval : Interval}

/-- The orders that a node gets, as incidents in its process. -/
def incidents (n : Node) (orders : List Order) : List Incident :=
  orders.map fun o => ⟨o.time, .text n.controller o.text⟩

theorem follow_eq_course (h : n.beating = some interval) (now : Nat) (orders : List Order)
    (l : Loop) :
    (n.follow now orders l).2 =
      l.course interval n.heartbeat n.point now (n.incidents orders) := by
  induction orders generalizing now l with
  | nil => rfl
  | cons o rest ih =>
      have helapse : n.elapse (max now o.time) l =
          l.advance interval n.heartbeat n.point (max now o.time) := by rw [elapse, h]
      show (n.follow (max now o.time) rest _).2 = _
      rw [ih, helapse]
      rfl

/-- **A node that runs is a heartbeat in a course of orders.** -/
theorem final_run_eq (h : n.beating = some interval) (p : Host) (s : Stats) (orders : List Order)
    (horizon : Nat) :
    (n.run p s orders horizon).final =
      ((Loop.start p s).lived interval n.heartbeat n.point (n.incidents orders) horizon).2 := by
  have hcourse := follow_eq_course h 0 orders (.start p s)
  show n.elapse (max (n.follow 0 orders (.start p s)).2.1 horizon)
    (n.follow 0 orders (.start p s)).2.2 = _
  rw [hcourse, elapse, h]
  rfl

end Node

end FaultPoints
