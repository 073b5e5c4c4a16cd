import FaultPoints.Proofs.Heartbeat.Pace
import FaultPoints.Proofs.Heartbeat.Pulse

/-!
# The accounts of a heartbeat

A running heartbeat is a single task that waits for each of its beats, so its counts are those of
a pulse in which only this task beats.  It comes to rest in two states only: between two beats, when
every beat that has begun is counted as succeeded or failed, and asleep in a beat that has hit its
point, when that beat is the only one that is not.

## Main Definitions

* `Heartbeat.Loop.Serves` — a sleeping fault is being served
* `Heartbeat.Loop.Mirrors` — a running heartbeat and a pulse are in the same state
* `Heartbeat.Loop.Played` — a running heartbeat is in a state that a single task can reach
* `Heartbeat.Accounts` — how the counts, the hits and the results of beats belong together

## Main Statements

* `serving_iff_serves` — a heartbeat that waits is in a beat iff a sleeping fault is being served
* `kept_played` — whatever a running heartbeat does, a single task can do
* `heartbeat_accounts` — the counts of a heartbeat, and what its beats return
-/

namespace FaultPoints.Heartbeat

open FaultPoints.Fault

namespace Loop

variable {interval : Interval} {id : Nat} {point : String} {now : Nat} {l : Loop} {m : Pulse}

/-! ## Sleeping faults -/

/-- **A sleeping fault is being served**: a beat that it delays has begun and not ended. -/
def Serves (now : Nat) (l : Loop) : Prop :=
  ∃ b ∈ l.beats, (∃ d, b.outcome = .delay d) ∧ b.start ≤ now ∧ now < b.stop

/-- **A heartbeat that waits is in a beat iff a sleeping fault is being served.** -/
theorem serving_iff_serves (hin : InTime interval now l) (hrests : Rests now l) :
    (∃ b, l.serving = some b) ↔ l.Serves now := by
  constructor
  · rintro ⟨b, hb⟩
    have hmem : b ∈ l.beats := List.mem_of_head? (hin.serving b hb)
    have hstart := hin.begun b hmem
    have hstop := hrests.serving b hb
    refine ⟨b, hmem, ?_, hstart, hstop⟩
    -- A beat that need not sleep would have ended when it began.
    have hwait := hin.schedule.stop_eq hmem
    cases houtcome : b.outcome with
    | delay d => exact ⟨d, rfl⟩
    | _ =>
        rw [houtcome] at hwait
        exact absurd (hstop.trans_eq hwait) (Nat.not_lt.mpr hstart)
  · rintro ⟨b, hmem, -, -, hstop⟩
    cases hserving : l.serving with
    | some b' => exact ⟨b', rfl⟩
    | none =>
        obtain ⟨hfree, hnow⟩ := hin.free hserving
        have hended := hin.schedule.stop_le_free hmem
        rw [← hfree] at hended
        exact absurd (hended.trans hnow) (Nat.not_le.mpr hstop)

/-! ## Running heartbeats as pulses -/

/-- **A running heartbeat and a pulse are in the same state.** -/
structure Mirrors (point : String) (l : Loop) (m : Pulse) : Prop where
  /-- They have one host. -/
  host : m.host = l.host
  /-- They have counted the same. -/
  stats : m.stats = l.stats
  /-- Between two beats, none is in progress. -/
  idle : l.serving = none → m.inProgress = 0
  /-- In a beat, this one has hit its point, and all others are over. -/
  serving : ∀ b, l.serving = some b →
    ∃ front, m.beats = front ++ [Stage.ofOutcome point b.outcome] ∧
      front.countP Stage.isInProgress = 0

namespace Mirrors

theorem start (p : Host) : Mirrors point (.start p .zero) (.start p) where
  host := rfl
  stats := rfl
  idle _ := rfl
  serving b hb := by cases hb

/-- The end of a beat. -/
theorem settle (h : Mirrors point l m) (now : Nat) :
    ∃ moves, m.Single id point moves ∧ Mirrors point (l.settle now) (m.after id point moves) := by
  rcases l.settle_cases now with ⟨hsame, -⟩ | ⟨b, hb, -, hended⟩
  · exact ⟨[], trivial, hsame.symm ▸ h⟩
  · obtain ⟨front, hbeats, hfront⟩ := h.serving b hb
    obtain rfl : m = ⟨l.host, l.stats, front ++ [Stage.ofOutcome point b.outcome]⟩ := by
      rw [← h.host, ← h.stats, ← hbeats]
    refine ⟨Pulse.ending front.length b.outcome, Pulse.single_ended _ _ _ _, ?_⟩
    rw [hended, Pulse.after_ended]
    refine ⟨rfl, rfl, fun _ => ?_, ?_⟩
    · show (front ++ [Stage.done (b.outcome.result point)]).countP Stage.isInProgress = 0
      rw [List.countP_append, hfront]
      rfl
    · intro b' hb'
      cases hb'

/-- The beginning of a beat. -/
theorem begin (h : Mirrors point l m) (hidle : l.serving = none) :
    ∃ moves, m.Single id point moves ∧
      Mirrors point (l.begin interval id point) (m.after id point moves) := by
  refine ⟨_, Pulse.single_begun (h.idle hidle), ?_⟩
  rw [Pulse.after_begun, h.host, h.stats]
  refine ⟨rfl, rfl, ?_, ?_⟩
  · intro hnone
    cases hnone
  · intro b hb
    obtain rfl := Option.some_inj.mp hb
    exact ⟨m.beats, rfl, h.idle hidle⟩

/-- What happens in the process. -/
theorem happen (h : Mirrors point l m) (s : Run.Step) :
    ∃ moves, m.Single id point moves ∧
      Mirrors point { l with host := s.next l.host } (m.after id point moves) := by
  refine ⟨[.happen s], ⟨Or.inr ⟨s, rfl⟩, trivial⟩, ?_, h.stats, h.idle, h.serving⟩
  show s.next m.host = s.next l.host
  rw [h.host]

/-- The beats in progress, counted from the state of the heartbeat. -/
theorem inProgress_of_serving (h : Mirrors point l m) {b : Beat} (hb : l.serving = some b) :
    m.inProgress = 1 := by
  obtain ⟨front, hbeats, hfront⟩ := h.serving b hb
  have hlast : (Stage.ofOutcome point b.outcome).isInProgress = true := by
    cases b.outcome <;> rfl
  rw [Pulse.inProgress, hbeats, List.countP_append, hfront, List.countP_singleton, if_pos hlast]

end Mirrors

/-- **A running heartbeat is in a state that a single task can reach.** -/
def Played (id : Nat) (point : String) (p : Host) (l : Loop) : Prop :=
  ∃ moves, (Pulse.start p).Single id point moves ∧
    Mirrors point l ((Pulse.start p).after id point moves)

/-- What a heartbeat does next, a single task can do next. -/
theorem Played.extend {p : Host} {l' : Loop} (h : Played id point p l)
    (hnext : ∀ {m}, Mirrors point l m →
      ∃ moves, m.Single id point moves ∧ Mirrors point l' (m.after id point moves)) :
    Played id point p l' := by
  obtain ⟨before, hbefore, hmirrors⟩ := h
  obtain ⟨moves, hmoves, hmirrors'⟩ := hnext hmirrors
  refine ⟨before ++ moves, (Pulse.single_append _ _ _).mpr ⟨hbefore, hmoves⟩, ?_⟩
  rw [Pulse.after_append]
  exact hmirrors'

/-- **Whatever a running heartbeat does, a single task can do.** -/
theorem kept_played (p : Host) : Kept interval id point fun _ l => Played id point p l where
  settle h := h.extend fun hm => hm.settle _
  begin hidle _ h := h.extend fun hm => hm.begin hidle
  elapse _ h := h
  happen s h := h.extend fun hm => hm.happen s

end Loop

/-! ## The accounts -/

/-- **The accounts of a heartbeat**, given what the own hit of each of its beats returned. -/
structure Accounts (id : Nat) (point : String) (m : Pulse) (own : Nat → Option Outcome) :
    Prop where
  /-- Beats that have begun are counted as succeeded or failed, or they are in progress. -/
  balance : m.stats.ticks = m.stats.succeeded + m.stats.failed + m.inProgress
  /-- Once none is in progress, the failed ones are those whose own hit raised a failure. -/
  failed : m.inProgress = 0 →
    m.stats.failed = (List.range m.stats.ticks).countP fun n => own n = some .fail
  /-- Those whose own hit returned anything else have succeeded. -/
  succeeded : m.inProgress = 0 →
    m.stats.succeeded = (List.range m.stats.ticks).countP fun n => (own n).any fun o => o ≠ .fail
  /-- A beat returns a failure of its point iff its own hit raised one. -/
  returned : ∀ n r, m.returned? n = some r →
    ∃ o, own n = some o ∧ r = if o = .fail then .error ⟨point⟩ else .ok ()
  /-- A beat makes one hit only. -/
  once : ∀ n o x, own n = some o → m.hitBy id point n x = none

theorem Ledger.accounts {id : Nat} {point : String} {m : Pulse} {own : Nat → Option Outcome}
    (h : Ledger point m own) : Accounts id point m own where
  balance := h.balance
  failed := h.failed_eq
  succeeded := h.succeeded_eq
  returned n r hr := by
    obtain ⟨o, ho, rfl⟩ := h.returned hr
    refine ⟨o, ho, ?_⟩
    cases o <;> rfl
  once n o x ho := h.hitBy_eq_none ho x

/-- **Heartbeat accounting.**  Any number of tasks may beat a heart, and anything else may happen in
the process between the steps of their beats; a running heartbeat is a single task among them. -/
theorem heartbeat_accounts (id : Nat) (point : String) (p : Host) :
    (∀ moves, Accounts id point ((Pulse.start p).after id point moves)
      ((Pulse.start p).ownHit id point moves)) ∧
    (∀ moves, (Pulse.start p).Single id point moves →
      ((Pulse.start p).after id point moves).inProgress ≤ 1) ∧
    ∀ (interval : Interval) (incidents : List Incident) (horizon : Nat),
      let x := (Loop.start p .zero).lived interval id point incidents horizon
      (∃ moves, (Pulse.start p).Single id point moves ∧
        ((Pulse.start p).after id point moves).host = x.2.host ∧
        ((Pulse.start p).after id point moves).stats = x.2.stats) ∧
      (x.2.Serves x.1 → x.2.stats.ticks = x.2.stats.succeeded + x.2.stats.failed + 1) ∧
      (¬ x.2.Serves x.1 → x.2.stats.ticks = x.2.stats.succeeded + x.2.stats.failed) := by
  refine ⟨fun moves => (ledger_after_start id point p moves).accounts,
    fun moves hsingle => (hsingle.lone_after rfl).inProgress_le_one, ?_⟩
  intro interval incidents horizon x
  obtain ⟨hin, hrests, -⟩ := Loop.inTime_lived interval id point incidents p .zero horizon
  obtain ⟨moves, hsingle, hmirrors⟩ := (Loop.kept_played p).lived incidents horizon
    (⟨[], trivial, .start p⟩ : Loop.Played id point p (.start p .zero))
  have hserves := Loop.serving_iff_serves hin hrests
  have hbalance := (ledger_after_start id point p moves).balance
  rw [hmirrors.stats] at hbalance
  refine ⟨⟨moves, hsingle, hmirrors.host, hmirrors.stats⟩, fun hasleep => ?_, fun hawake => ?_⟩
  · obtain ⟨b, hb⟩ := hserves.mpr hasleep
    rw [← hmirrors.inProgress_of_serving hb]
    exact hbalance
  · have hidle := hmirrors.idle (Option.eq_none_iff_forall_ne_some.mpr fun b hb =>
      hawake (hserves.mp ⟨b, hb⟩))
    rw [hidle] at hbalance
    exact hbalance

end FaultPoints.Heartbeat
