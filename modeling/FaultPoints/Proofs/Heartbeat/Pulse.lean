import FaultPoints.Proofs.Run.Process

/-!
# Beats in progress

A beat takes several steps: it is counted as begun, it hits its point, it sleeps if the hit delays
it, and then its result is counted.  Any number of tasks may beat one heart, so any number of beats
may be in progress at once; between their steps anything else may happen in the process, and the
point may be armed anew or disarmed while a beat sleeps.

What a beat returns is settled by its own hit all the same, and the counts can be told from the
beats: each of them is in progress, or it is counted as succeeded, or it is counted as failed.

A single task that waits for each of its beats before it begins the next one never has more than one
of them in progress (`Single.inProgress_after_le_one`).

## Main Definitions

* `Heartbeat.Stage` — how far a beat has come
* `Heartbeat.Pulse`, `Heartbeat.Move` — a heartbeat with all its beats, and what can happen next
* `Heartbeat.Pulse.after` — what moves make of a pulse
* `Heartbeat.Pulse.ownHit` — what the own hit of a beat returned to it in the course of moves
* `Heartbeat.Ledger` — the invariant
* `Heartbeat.Pulse.Single` — the moves of a single task that waits for each of its beats

## Main Statements

* `after_beat` — a beat that is not interrupted is a whole beat
* `ledger_move`, `ledger_after_start` — a move keeps the invariant, so every run satisfies it
* `Ledger.balance` — beats that have begun are in progress or counted
* `Ledger.failed_eq`, `Ledger.succeeded_eq` — the counts once no beat is in progress
-/

namespace FaultPoints.Heartbeat

open FaultPoints.Fault

/-! ## Stages -/

/-- How far a beat has come. -/
inductive Stage where
  /-- It is counted as begun. -/
  | begun
  /-- It has hit its point, and the hit delays it. -/
  | asleep (duration : Duration)
  /-- It has its result, which is not counted yet. -/
  | told (result : Except Injected Unit)
  /-- Its result is counted and returned. -/
  | done (result : Except Injected Unit)

namespace Stage

/-- The stage of a beat behind its hit. -/
def ofOutcome (point : String) : Outcome → Stage
  | .delay d => .asleep d
  | o => .told (o.result point)

/-- The beat has begun and is not over. -/
def isInProgress : Stage → Bool
  | .done _ => false
  | _ => true

/-- The beat is over and has succeeded. -/
def isSuccess : Stage → Bool
  | .done (.ok _) => true
  | _ => false

/-- The beat is over and has failed. -/
def isFailure : Stage → Bool
  | .done (.error _) => true
  | _ => false

end Stage

/-- A beat has returned, and its result is counted. -/
def Stats.counted (s : Stats) : Except Injected Unit → Stats
  | .ok _ => { s with succeeded := s.succeeded + 1 }
  | .error _ => { s with failed := s.failed + 1 }

/-- A beat is counted by its result as it is by the outcome of its hit. -/
theorem Stats.ended_eq (s : Stats) (point : String) (o : Outcome) :
    s.ended o = s.counted (o.result point) := by
  cases o <;> rfl

/-! ## Pulses -/

/-- A heartbeat in its host, with all beats that have begun, in the order of their beginnings. -/
structure Pulse where
  /-- The host. -/
  host : Host
  /-- The counts. -/
  stats : Stats
  /-- How far each beat has come. -/
  beats : List Stage

/-- What can happen next. -/
inductive Move where
  /-- A task begins a beat. -/
  | begin
  /-- The beat of a number takes its next step: it hits, it wakes or it ends. -/
  | turn (n : Nat)
  /-- Something else happens in the process. -/
  | happen (step : Run.Step)

namespace Pulse

/-- A heartbeat that has not beaten yet. -/
def start (p : Host) : Pulse := ⟨p, .zero, []⟩

/-- How many beats are in progress. -/
def inProgress (m : Pulse) : Nat := m.beats.countP Stage.isInProgress

/-- What a beat has returned, if it is over. -/
def returned? (m : Pulse) (n : Nat) : Option (Except Injected Unit) :=
  match m.beats[n]? with
  | some (.done r) => some r
  | _ => none

section

variable (id : Nat) (point : String)

/-- **The next step of a beat.**  A beat that is over has none. -/
def turn (m : Pulse) (n : Nat) : Pulse :=
  match m.beats[n]? with
  | some .begun =>
    let (outcome, q) := m.host.hit id point
    { m with host := q, beats := m.beats.set n (.ofOutcome point outcome) }
  | some (.asleep _) => { m with beats := m.beats.set n (.told (.ok ())) }
  | some (.told r) => { m with stats := m.stats.counted r, beats := m.beats.set n (.done r) }
  | _ => m

/-- **What a move makes of a pulse.** -/
def move (m : Pulse) : Move → Pulse
  | .begin => { m with stats := m.stats.begun, beats := m.beats ++ [Stage.begun] }
  | .turn n => m.turn id point n
  | .happen s => { m with host := s.next m.host }

/-- **What moves make of a pulse.** -/
def after : Pulse → List Move → Pulse
  | m, [] => m
  | m, x :: rest => (m.move id point x).after rest

/-- What the hit of a beat returns, if the move is that hit. -/
def hitBy (m : Pulse) (n : Nat) : Move → Option Outcome
  | .turn k =>
    match m.beats[k]? with
    | some .begun => if n = k then some (m.host.hit id point).1 else none
    | _ => none
  | _ => none

/-- **What the own hit of a beat returned to it** in the course of moves. -/
def ownHit : Pulse → List Move → Nat → Option Outcome
  | _, [], _ => none
  | m, x :: rest, n => (m.hitBy id point n x).or ((m.move id point x).ownHit rest n)

/-- What a task does next that waits for each of its beats: it goes on with its latest beat, or it
begins another one if that one is over. -/
def next (m : Pulse) : Move :=
  match m.beats.getLast? with
  | some s => if s.isInProgress then .turn (m.beats.length - 1) else .begin
  | none => .begin

/-- **The moves of a single task** that waits for each of its beats, with whatever else happens in
between. -/
def Single : Pulse → List Move → Prop
  | _, [] => True
  | m, x :: rest => (x = m.next ∨ ∃ s, x = .happen s) ∧ (m.move id point x).Single rest

end

variable {id : Nat} {point : String}

theorem after_append (m : Pulse) (before after : List Move) :
    m.after id point (before ++ after) = (m.after id point before).after id point after := by
  induction before generalizing m with
  | nil => rfl
  | cons x rest ih => exact ih (m.move id point x)

theorem single_append (m : Pulse) (before after : List Move) :
    m.Single id point (before ++ after) ↔
      m.Single id point before ∧ (m.after id point before).Single id point after := by
  induction before generalizing m with
  | nil => exact (true_and _).symm.to_iff
  | cons x rest ih =>
      rw [List.cons_append, Single, ih, Single, and_assoc]
      rfl

/-! ## Turns -/

theorem turn_of_begun {m : Pulse} {n : Nat} (h : m.beats[n]? = some .begun) :
    m.turn id point n =
      ⟨(m.host.hit id point).2, m.stats,
        m.beats.set n (.ofOutcome point (m.host.hit id point).1)⟩ := by
  rw [turn, h]

theorem turn_of_asleep {m : Pulse} {n : Nat} {d : Duration} (h : m.beats[n]? = some (.asleep d)) :
    m.turn id point n = { m with beats := m.beats.set n (.told (.ok ())) } := by
  rw [turn, h]

theorem turn_of_told {m : Pulse} {n : Nat} {r : Except Injected Unit}
    (h : m.beats[n]? = some (.told r)) :
    m.turn id point n =
      { m with stats := m.stats.counted r, beats := m.beats.set n (.done r) } := by
  rw [turn, h]

theorem turn_of_done {m : Pulse} {n : Nat} {r : Except Injected Unit}
    (h : m.beats[n]? = some (.done r)) : m.turn id point n = m := by
  rw [turn, h]

/-! ## Whole beats -/

section

variable {p : Host} {s : Stats} {front : List Stage}

theorem turn_concat_begun :
    Pulse.turn id point ⟨p, s, front ++ [Stage.begun]⟩ front.length =
      ⟨(p.hit id point).2, s, front ++ [Stage.ofOutcome point (p.hit id point).1]⟩ := by
  simp [turn]

theorem turn_concat_asleep (d : Duration) :
    Pulse.turn id point ⟨p, s, front ++ [Stage.asleep d]⟩ front.length =
      ⟨p, s, front ++ [Stage.told (.ok ())]⟩ := by
  simp [turn]

theorem turn_concat_told (r : Except Injected Unit) :
    Pulse.turn id point ⟨p, s, front ++ [Stage.told r]⟩ front.length =
      ⟨p, s.counted r, front ++ [Stage.done r]⟩ := by
  simp [turn]

theorem next_concat (x : Stage) :
    (⟨p, s, front ++ [x]⟩ : Pulse).next =
      if x.isInProgress then .turn front.length else .begin := by
  simp [next]

end

/-- Where no beat is in progress, the next move is to begin one. -/
theorem next_of_idle {m : Pulse} (h : m.inProgress = 0) : m.next = .begin := by
  unfold next
  cases hlast : m.beats.getLast? with
  | none => rfl
  | some s =>
      have hover := List.countP_eq_zero.mp h s (List.mem_of_getLast? hlast)
      exact if_neg hover

/-- The moves of a beat behind its hit, of which there is one more if it sleeps. -/
def ending (n : Nat) : Outcome → List Move
  | .delay _ => [.turn n, .turn n]
  | _ => [.turn n]

/-- A beat begins and hits its point at once. -/
theorem after_begun (m : Pulse) :
    m.after id point [.begin, .turn m.beats.length] =
      ⟨(m.host.hit id point).2, m.stats.begun,
        m.beats ++ [Stage.ofOutcome point (m.host.hit id point).1]⟩ :=
  turn_concat_begun

/-- A beat that has hit its point ends, and sleeps before its end if the hit delays it. -/
theorem after_ended (p : Host) (s : Stats) (front : List Stage) (o : Outcome) :
    Pulse.after id point ⟨p, s, front ++ [Stage.ofOutcome point o]⟩ (ending front.length o) =
      ⟨p, s.ended o, front ++ [Stage.done (o.result point)]⟩ := by
  rw [s.ended_eq point o]
  cases o with
  | delay d =>
      show Pulse.turn id point (Pulse.turn id point ⟨p, s, front ++ [Stage.asleep d]⟩ _) _ = _
      rw [turn_concat_asleep, turn_concat_told]
      rfl
  | proceed => exact turn_concat_told _
  | fail => exact turn_concat_told _

/-- **A beat that is not interrupted is a whole beat.** -/
theorem after_beat (m : Pulse) :
    let n := m.beats.length
    let x := beat m.host id point m.stats
    m.after id point ([.begin, .turn n] ++ ending n x.1) =
      ⟨x.2.1, x.2.2, m.beats ++ [Stage.done (x.1.result point)]⟩ := by
  intro n x
  rw [after_append, after_begun]
  exact after_ended _ _ _ _

/-- A single task begins a beat and hits its point where no beat is in progress. -/
theorem single_begun {m : Pulse} (h : m.inProgress = 0) :
    m.Single id point [.begin, .turn m.beats.length] :=
  ⟨Or.inl (next_of_idle h).symm, Or.inl (next_concat .begun).symm, trivial⟩

/-- A single task ends its latest beat. -/
theorem single_ended (p : Host) (s : Stats) (front : List Stage) (o : Outcome) :
    Pulse.Single id point ⟨p, s, front ++ [Stage.ofOutcome point o]⟩ (ending front.length o) := by
  cases o with
  | delay d =>
      refine ⟨Or.inl (next_concat (.asleep d)).symm, Or.inl ?_, trivial⟩
      show _ = (Pulse.turn id point ⟨p, s, front ++ [Stage.asleep d]⟩ front.length).next
      rw [turn_concat_asleep, next_concat]
      rfl
  | proceed => exact ⟨Or.inl (next_concat (.told (.ok ()))).symm, trivial⟩
  | fail => exact ⟨Or.inl (next_concat (.told (.error ⟨point⟩))).symm, trivial⟩

end Pulse

/-! ## The ledger -/

/-- What a beat has been told so far fits what its own hit returned. -/
def Fits (point : String) : Option Stage → Option Outcome → Prop
  | none, own => own = none
  | some .begun, own => own = none
  | some (.asleep d), own => own = some (.delay d)
  | some (.told r), own => ∃ o, own = some o ∧ r = o.result point
  | some (.done r), own => ∃ o, own = some o ∧ r = o.result point

/-- **The invariant**: the counts are those of the beats, and each beat fits its own hit. -/
structure Ledger (point : String) (m : Pulse) (own : Nat → Option Outcome) : Prop where
  /-- Every beat is counted as begun. -/
  ticks : m.stats.ticks = m.beats.length
  /-- Those that have succeeded are counted as such. -/
  succeeded : m.stats.succeeded = m.beats.countP Stage.isSuccess
  /-- Those that have failed are counted as such. -/
  failed : m.stats.failed = m.beats.countP Stage.isFailure
  /-- Each of them fits what its own hit returned. -/
  fits : ∀ n, Fits point m.beats[n]? (own n)

theorem ledger_start (point : String) (p : Host) : Ledger point (.start p) fun _ => none where
  ticks := rfl
  succeeded := rfl
  failed := rfl
  fits _ := rfl

/-- An item that does not count is replaced by one that may. -/
theorem countP_set_of_not {α : Type} {xs : List α} {i : Nat} {x y : α} {c : α → Bool}
    (h : xs[i]? = some x) (hx : c x = false) :
    (xs.set i y).countP c = xs.countP c + (c y).toNat := by
  obtain ⟨hi, rfl⟩ := List.getElem?_eq_some_iff.mp h
  rw [List.countP_set hi, hx]
  cases c y <;> rfl

/-- A beat that has just hit its point is not over. -/
theorem isSuccess_ofOutcome (point : String) (o : Outcome) :
    (Stage.ofOutcome point o).isSuccess = false := by
  cases o <;> rfl

theorem isFailure_ofOutcome (point : String) (o : Outcome) :
    (Stage.ofOutcome point o).isFailure = false := by
  cases o <;> rfl

theorem fits_ofOutcome (point : String) (o : Outcome) :
    Fits point (some (.ofOutcome point o)) (some o) := by
  cases o with
  | delay d => rfl
  | proceed => exact ⟨.proceed, rfl, rfl⟩
  | fail => exact ⟨.fail, rfl, rfl⟩

section

variable {id : Nat} {point : String} {m : Pulse} {own : Nat → Option Outcome}

/-- A step that is no hit tells no beat anything. -/
theorem or_hitBy_turn {k : Nat} (h : m.beats[k]? ≠ some .begun) :
    (fun n => (own n).or (m.hitBy id point n (.turn k))) = own := by
  funext n
  have hnone : m.hitBy id point n (.turn k) = none := by
    rw [Pulse.hitBy]
    split
    · rename_i hbegun
      exact absurd hbegun h
    · rfl
  rw [hnone, Option.or_none]

/-- The hit of a beat is told to that beat and to no other. -/
theorem hitBy_turn_of_begun {k : Nat} (h : m.beats[k]? = some .begun) (n : Nat) :
    m.hitBy id point n (.turn k) = if n = k then some (m.host.hit id point).1 else none := by
  rw [Pulse.hitBy, h]

/-- One beat takes a step, and the others stay as they are. -/
theorem fits_set {xs : List Stage} {k : Nat} {s s' : Stage} {own' : Nat → Option Outcome}
    (h : ∀ n, Fits point xs[n]? (own n)) (hk : xs[k]? = some s)
    (hown : ∀ n, n ≠ k → own' n = own n) (hs : Fits point (some s') (own' k)) (n : Nat) :
    Fits point (xs.set k s')[n]? (own' n) := by
  by_cases hn : n = k
  · subst hn
    rw [List.getElem?_set_self (List.getElem?_eq_some_iff.mp hk).1]
    exact hs
  · rw [List.getElem?_set_ne (Ne.symm hn), hown n hn]
    exact h n

namespace Ledger

theorem begin (h : Ledger point m own) : Ledger point (m.move id point .begin) own where
  ticks := by rw [Pulse.move, List.length_append, ← h.ticks]; rfl
  succeeded := by rw [Pulse.move, List.countP_append]; exact h.succeeded
  failed := by rw [Pulse.move, List.countP_append]; exact h.failed
  fits n := by
    rcases Nat.lt_trichotomy n m.beats.length with hn | rfl | hn
    · rw [Pulse.move, List.getElem?_append_left hn]
      exact h.fits n
    · have hnone := h.fits m.beats.length
      rw [List.getElem?_eq_none le_rfl] at hnone
      rw [Pulse.move, List.getElem?_concat_length]
      exact hnone
    · have hnone := h.fits n
      rw [List.getElem?_eq_none hn.le] at hnone
      rw [Pulse.move, List.getElem?_eq_none (by rw [List.length_append]; exact hn)]
      exact hnone

/-- A beat in progress takes a step, and its end is counted if that is the step. -/
theorem step (h : Ledger point m own) (s' : Stage) (own' : Nat → Option Outcome) {k : Nat}
    {s : Stage} (hk : m.beats[k]? = some s) (hs : s.isInProgress = true)
    (hown : ∀ n, n ≠ k → own' n = own n) (hs' : Fits point (some s') (own' k)) (q : Host) :
    Ledger point
      ⟨q, ⟨m.stats.ticks, m.stats.succeeded + s'.isSuccess.toNat,
        m.stats.failed + s'.isFailure.toNat⟩, m.beats.set k s'⟩ own' := by
  have hnot : s.isSuccess = false ∧ s.isFailure = false := by
    cases s <;> first | exact ⟨rfl, rfl⟩ | cases hs
  refine ⟨?_, ?_, ?_, fits_set h.fits hk hown hs'⟩
  · rw [List.length_set, h.ticks]
  · rw [countP_set_of_not hk hnot.1, h.succeeded]
  · rw [countP_set_of_not hk hnot.2, h.failed]

/-- **A turn of a beat.**  Only its hit tells a beat anything, and only its end is counted. -/
theorem turn (h : Ledger point m own) (k : Nat) :
    Ledger point (m.turn id point k) fun n => (own n).or (m.hitBy id point n (.turn k)) := by
  have hfits := h.fits k
  cases hk : m.beats[k]? with
  | none =>
      have hsame : m.turn id point k = m := by rw [Pulse.turn, hk]
      rw [or_hitBy_turn (by simp [hk]), hsame]
      exact h
  | some s =>
      rw [hk] at hfits
      cases s with
      | begun =>
          have hown : own k = none := hfits
          have hstep := h.step (.ofOutcome point (m.host.hit id point).1)
            (fun n => (own n).or (m.hitBy id point n (.turn k))) hk rfl ?_ ?_
            (m.host.hit id point).2
          · rw [isSuccess_ofOutcome, isFailure_ofOutcome] at hstep
            rw [Pulse.turn_of_begun hk]
            exact hstep
          · intro n hn
            rw [hitBy_turn_of_begun hk, if_neg hn, Option.or_none]
          · show Fits point _ ((own k).or _)
            rw [hitBy_turn_of_begun hk, if_pos rfl, hown]
            exact fits_ofOutcome point _
      | asleep d =>
          rw [or_hitBy_turn (by simp [hk]), Pulse.turn_of_asleep hk]
          exact h.step (.told (.ok ())) own hk rfl (fun _ _ => rfl) ⟨.delay d, hfits, rfl⟩ m.host
      | told r =>
          have hstep := h.step (.done r) own hk rfl (fun _ _ => rfl) hfits m.host
          rw [or_hitBy_turn (by simp [hk]), Pulse.turn_of_told hk]
          cases r <;> exact hstep
      | done r =>
          rw [or_hitBy_turn (by simp [hk]), Pulse.turn_of_done hk]
          exact h

end Ledger

/-- **A move keeps the invariant.** -/
theorem ledger_move (h : Ledger point m own) (x : Move) :
    Ledger point (m.move id point x) fun n => (own n).or (m.hitBy id point n x) := by
  cases x with
  | turn k => exact h.turn k
  | begin =>
      simp only [Pulse.hitBy, Option.or_none]
      exact h.begin
  | happen s =>
      simp only [Pulse.hitBy, Option.or_none]
      exact ⟨h.ticks, h.succeeded, h.failed, h.fits⟩

/-- **Moves keep the invariant.** -/
theorem ledger_after (h : Ledger point m own) (moves : List Move) :
    Ledger point (m.after id point moves) fun n => (own n).or (m.ownHit id point moves n) := by
  induction moves generalizing m own with
  | nil =>
      simp only [Pulse.ownHit, Option.or_none]
      exact h
  | cons x rest ih =>
      simp only [Pulse.ownHit, ← Option.or_assoc]
      exact ih (ledger_move h x)

/-- **Every state that a heartbeat can reach** satisfies the invariant. -/
theorem ledger_after_start (id : Nat) (point : String) (p : Host) (moves : List Move) :
    Ledger point ((Pulse.start p).after id point moves)
      ((Pulse.start p).ownHit id point moves) := by
  have hledger : Ledger point ((Pulse.start p).after id point moves) _ :=
    ledger_after (ledger_start point p) moves
  simp only [Option.none_or] at hledger
  exact hledger

/-! ## What the ledger tells -/

/-- Every beat is in progress, or has succeeded, or has failed. -/
theorem length_eq_countP (stages : List Stage) :
    stages.length = stages.countP Stage.isSuccess + stages.countP Stage.isFailure +
      stages.countP Stage.isInProgress := by
  induction stages with
  | nil => rfl
  | cons s rest ih =>
      simp only [List.length_cons, List.countP_cons, ih]
      rcases s with _ | _ | _ | (_ | _) <;>
        simp [Stage.isSuccess, Stage.isFailure, Stage.isInProgress] <;> omega

/-- The items of a list that are of a sort can be counted by their places. -/
theorem countP_eq_countP_range {α : Type} {xs : List α} {c : α → Bool} {c' : Nat → Bool}
    (h : ∀ n x, xs[n]? = some x → c x = c' n) :
    xs.countP c = (List.range xs.length).countP c' := by
  induction xs using List.reverseRecOn with
  | nil => rfl
  | append_singleton xs x ih =>
      have hfront : ∀ n y, xs[n]? = some y → c y = c' n := by
        intro n y hy
        have hn := (List.getElem?_eq_some_iff.mp hy).1
        exact h n y ((List.getElem?_append_left hn).trans hy)
      rw [List.countP_append, List.length_append, List.length_singleton, List.range_succ,
        List.countP_append, ih hfront, List.countP_singleton, List.countP_singleton,
        h xs.length x List.getElem?_concat_length]

namespace Ledger

/-- **Beats that have begun are in progress or counted.** -/
theorem balance (h : Ledger point m own) :
    m.stats.ticks = m.stats.succeeded + m.stats.failed + m.inProgress := by
  rw [h.ticks, h.succeeded, h.failed]
  exact length_eq_countP m.beats

/-- What a beat has returned is what its own hit says. -/
theorem returned (h : Ledger point m own) {n : Nat} {r : Except Injected Unit}
    (hr : m.returned? n = some r) : ∃ o, own n = some o ∧ r = o.result point := by
  have hfits := h.fits n
  unfold Pulse.returned? at hr
  split at hr
  · rename_i r' hdone
    obtain rfl : r' = r := Option.some_inj.mp hr
    rw [hdone] at hfits
    exact hfits
  · cases hr

/-- A beat that has had its hit makes no other. -/
theorem hitBy_eq_none (h : Ledger point m own) {n : Nat} {o : Outcome} (ho : own n = some o)
    (x : Move) : m.hitBy id point n x = none := by
  have hfits := h.fits n
  cases x with
  | turn k =>
      by_cases hk : m.beats[k]? = some .begun
      · rw [hitBy_turn_of_begun hk, if_neg]
        rintro rfl
        rw [hk] at hfits
        cases ho.symm.trans hfits
      · rw [Pulse.hitBy]
        split
        · rename_i hbegun
          exact absurd hbegun hk
        · rfl
  | begin => rfl
  | happen s => rfl

/-- Once no beat is in progress, each of them has returned what its own hit says. -/
theorem exists_of_idle (h : Ledger point m own) (hidle : m.inProgress = 0) {n : Nat} {s : Stage}
    (hs : m.beats[n]? = some s) : ∃ o, s = .done (o.result point) ∧ own n = some o := by
  have hdone := List.countP_eq_zero.mp hidle s (List.mem_of_getElem? hs)
  have hfits := h.fits n
  rw [hs] at hfits
  cases s with
  | done r =>
      obtain ⟨o, ho, rfl⟩ := hfits
      exact ⟨o, rfl, ho⟩
  | _ => exact absurd rfl hdone

/-- **Once no beat is in progress, the failed ones are those whose own hit raised a failure.** -/
theorem failed_eq (h : Ledger point m own) (hidle : m.inProgress = 0) :
    m.stats.failed = (List.range m.stats.ticks).countP fun n => own n = some .fail := by
  rw [h.failed, h.ticks]
  refine countP_eq_countP_range fun n s hs => ?_
  obtain ⟨o, rfl, ho⟩ := h.exists_of_idle hidle hs
  rw [ho]
  cases o <;> rfl

/-- **The others have succeeded.** -/
theorem succeeded_eq (h : Ledger point m own) (hidle : m.inProgress = 0) :
    m.stats.succeeded =
      (List.range m.stats.ticks).countP fun n => (own n).any fun o => o ≠ .fail := by
  rw [h.succeeded, h.ticks]
  refine countP_eq_countP_range fun n s hs => ?_
  obtain ⟨o, rfl, ho⟩ := h.exists_of_idle hidle hs
  rw [ho]
  cases o <;> rfl

end Ledger

end

/-! ## One beat at a time -/

namespace Pulse

variable {id : Nat} {point : String}

/-- Only the latest beat may be in progress. -/
def Lone (m : Pulse) : Prop := m.beats.dropLast.countP Stage.isInProgress = 0

theorem Lone.inProgress_le_one {m : Pulse} (h : m.Lone) : m.inProgress ≤ 1 := by
  rcases List.eq_nil_or_concat' m.beats with hnil | ⟨front, s, hbeats⟩
  · simp [inProgress, hnil]
  · rw [Lone, hbeats, List.dropLast_concat] at h
    rw [inProgress, hbeats, List.countP_append, h, Nat.zero_add]
    exact List.countP_le_length

/-- The latest beat takes its turn, and the beats before it stay as they are. -/
theorem exists_turn_concat (id : Nat) (point : String) (p : Host) (st : Stats)
    (front : List Stage) (s : Stage) :
    ∃ s', (Pulse.turn id point ⟨p, st, front ++ [s]⟩ front.length).beats = front ++ [s'] := by
  cases s with
  | begun => exact ⟨_, congrArg Pulse.beats turn_concat_begun⟩
  | asleep d => exact ⟨_, congrArg Pulse.beats (turn_concat_asleep d)⟩
  | told r => exact ⟨_, congrArg Pulse.beats (turn_concat_told r)⟩
  | done r => exact ⟨.done r, congrArg Pulse.beats (turn_of_done List.getElem?_concat_length)⟩

/-- **The next move of a task that waits** leaves the beats before its latest one alone. -/
theorem Lone.move {m : Pulse} (h : m.Lone) : (m.move id point m.next).Lone := by
  obtain ⟨p, st, beats⟩ := m
  rcases List.eq_nil_or_concat' beats with rfl | ⟨front, s, rfl⟩
  · rfl
  · rw [Lone, List.dropLast_concat] at h
    rw [next_concat]
    -- A beat that is over joins the ones before it; any other one takes its turn.
    by_cases hs : s.isInProgress = true
    · obtain ⟨s', hbeats⟩ := exists_turn_concat id point p st front s
      rw [if_pos hs, Pulse.move, Lone, hbeats, List.dropLast_concat, h]
    · rw [if_neg hs, Pulse.move, Lone, List.dropLast_concat, List.countP_append, h,
        List.countP_singleton, if_neg hs]

/-- **A single task never has more than one beat in progress.** -/
theorem Single.lone_after {m : Pulse} {moves : List Move} (h : m.Single id point moves)
    (hlone : m.Lone) : (m.after id point moves).Lone := by
  induction moves generalizing m with
  | nil => exact hlone
  | cons x rest ih =>
      obtain ⟨rfl | ⟨s, rfl⟩, hrest⟩ := h
      · exact ih hrest hlone.move
      · exact ih hrest hlone

end Pulse

end FaultPoints.Heartbeat
