import FaultPoints.Proofs.Heartbeat.Course

/-!
# The pace of a heartbeat

The times of a beat depend on the beat before it only: it is due as the schedule says, and it begins
once it is due and the previous beat has ended.  What the pace of a heartbeat has to satisfy follows
from this recurrence alone, however long the beats last; the recurrence itself holds of every
heartbeat in every course, since nothing that happens in the process reaches its schedule.

A beat that is not more than the tolerance late leaves the schedule as it is, so two beats may begin
a little less than an interval apart, and such delays can add up against the schedule until one of
them exceeds the tolerance and moves it.

## Main Definitions

* `Heartbeat.Follows` — the recurrence
* `Heartbeat.Timeline` — a heartbeat that goes on for ever
* `Heartbeat.Unfolds` — what is shown of a heartbeat by a time
* `Heartbeat.OnSchedule`, `Heartbeat.Loop.InTime` — the invariant

## Main Statements

* `Timeline.gap`, `Timeline.gap_of_late` — how far apart two beats begin
* `Timeline.start_eq_due` — a beat begins when it is due if the previous one has ended in time
* `Timeline.stop_lt_start` — of the beats behind a stall only one can begin at its end
* `Timeline.start_eq_mul` — a heartbeat that never sleeps keeps to the schedule
* `Unfolds.exists_timeline` — what is shown are the first beats of one sequence
* `Loop.kept_inTime`, `Loop.unfolds_lived` — every step keeps the invariant, so a course unfolds
* `Node.paced` — the pace of a node that runs
-/

namespace FaultPoints

open FaultPoints.Fault

namespace Heartbeat

variable {interval : Interval}

/-! ## The recurrence -/

/-- When the beat after another one is due, or the first one. -/
def dueAfter (interval : Interval) : Option Beat → Nat
  | none => 0
  | some b => nextDue interval b.due b.start

/-- When another beat has ended. -/
def freeAfter : Option Beat → Nat
  | none => 0
  | some b => b.stop

/-- **A beat follows another one**, or it is the first one. -/
structure Follows (interval : Interval) (previous : Option Beat) (b : Beat) : Prop where
  /-- It is due as the schedule says. -/
  due : b.due = dueAfter interval previous
  /-- It begins once it is due and the previous one has ended. -/
  start : b.start = max b.due (freeAfter previous)
  /-- It ends at once if it need not sleep. -/
  stop : b.stop = b.start + b.outcome.waitMillis

namespace Follows

variable {previous : Option Beat} {b b' : Beat}

theorem due_le_start (h : Follows interval previous b) : b.due ≤ b.start :=
  h.start ▸ Nat.le_max_left _ _

theorem start_le_stop (h : Follows interval previous b) : b.start ≤ b.stop :=
  h.stop ▸ Nat.le_add_right _ _

theorem free_le_start (h : Follows interval previous b) : freeAfter previous ≤ b.start :=
  h.start ▸ Nat.le_max_right _ _

/-- When a beat begins is settled by the previous one. -/
theorem start_eq (h : Follows interval previous b) :
    b.start = max (dueAfter interval previous) (freeAfter previous) := by
  rw [h.start, h.due]

/-- The schedule allows for an interval, of which the tolerance may be lost. -/
theorem add_le_due (h : Follows interval (some b) b') :
    b.start + interval.val ≤ b'.due + tolerance := by
  rw [h.due, dueAfter, nextDue]
  split <;> omega

/-- The schedule moves with a beat that is too late. -/
theorem due_of_late (h : Follows interval (some b) b') (hlate : b.due + tolerance < b.start) :
    b'.due = b.start + interval.val := by
  rw [h.due, dueAfter, nextDue, if_pos hlate]

/-- The schedule stays as it is after a beat in time. -/
theorem due_of_not_late (h : Follows interval (some b) b') (hlate : b.start ≤ b.due + tolerance) :
    b'.due = b.due + interval.val := by
  rw [h.due, dueAfter, nextDue, if_neg (Nat.not_lt.mpr hlate)]

end Follows

/-! ## Heartbeats that go on for ever -/

/-- **A heartbeat that goes on for ever**, as the sequence of its beats. -/
structure Timeline (interval : Interval) (beats : Nat → Beat) : Prop where
  /-- There is none before the first one. -/
  first : Follows interval none (beats 0)
  /-- Each of the others follows the one before it. -/
  next : ∀ k, Follows interval (some (beats k)) (beats (k + 1))

namespace Timeline

variable {beats : Nat → Beat}

/-- Each beat follows another one or is the first one. -/
theorem follows (h : Timeline interval beats) (k : Nat) :
    ∃ previous, Follows interval previous (beats k) := by
  cases k with
  | zero => exact ⟨none, h.first⟩
  | succ k => exact ⟨some (beats k), h.next k⟩

/-- The first beat is due at once, and begins at once. -/
theorem due_zero (h : Timeline interval beats) : (beats 0).due = 0 := h.first.due

theorem start_zero (h : Timeline interval beats) : (beats 0).start = 0 := h.first.start_eq

theorem stop_eq (h : Timeline interval beats) (k : Nat) :
    (beats k).stop = (beats k).start + (beats k).outcome.waitMillis := by
  obtain ⟨previous, hfollows⟩ := h.follows k
  exact hfollows.stop

/-- **Two beats do not overlap.** -/
theorem stop_le_start (h : Timeline interval beats) (k : Nat) :
    (beats k).stop ≤ (beats (k + 1)).start := (h.next k).free_le_start

theorem start_mono (h : Timeline interval beats) : Monotone fun k => (beats k).start := by
  refine monotone_nat_of_le_succ fun k => ?_
  obtain ⟨previous, hfollows⟩ := h.follows k
  exact hfollows.start_le_stop.trans (h.stop_le_start k)

/-- **Two beats begin an interval apart**, of which the tolerance may be lost. -/
theorem gap (h : Timeline interval beats) (k : Nat) :
    (beats k).start + interval.val ≤ (beats (k + 1)).start + tolerance :=
  (h.next k).add_le_due.trans (Nat.add_le_add_right (h.next k).due_le_start tolerance)

/-- **Behind a beat that is too late there is a whole interval.** -/
theorem gap_of_late (h : Timeline interval beats) {k : Nat}
    (hlate : (beats k).due + tolerance < (beats k).start) :
    (beats k).start + interval.val ≤ (beats (k + 1)).start :=
  (h.next k).due_of_late hlate ▸ (h.next k).due_le_start

/-- **A beat begins when it is due** if the previous one has ended in time. -/
theorem start_eq_due (h : Timeline interval beats) {k : Nat}
    (hstop : (beats k).stop + tolerance ≤ (beats k).start + interval.val) :
    (beats (k + 1)).start = (beats (k + 1)).due := by
  have hdue := (h.next k).add_le_due
  have hfree : (beats k).stop ≤ (beats (k + 1)).due := by omega
  rw [(h.next k).start]
  exact Nat.max_eq_left hfree

/-- **No burst**: of the beats behind a stall only the first one can begin at its end. -/
theorem stop_lt_start (h : Timeline interval beats) (hlong : tolerance < interval.val) {k j : Nat}
    (hj : k + 1 < j) : (beats k).stop < (beats j).start := by
  have hmono : (beats (k + 1 + 1)).start ≤ (beats j).start := h.start_mono hj
  have hstop := h.stop_le_start k
  have hgap := h.gap (k + 1)
  omega

/-- **A heartbeat keeps to the schedule** as long as it has not slept. -/
theorem start_eq_mul (h : Timeline interval beats) {k : Nat}
    (hwake : ∀ j < k, ∀ d, (beats j).outcome ≠ .delay d) :
    (beats k).due = k * interval.val ∧ (beats k).start = k * interval.val := by
  induction k with
  | zero => simp [h.due_zero, h.start_zero]
  | succ k ih =>
      obtain ⟨hdue, hstart⟩ := ih fun j hj => hwake j (Nat.lt_succ_of_lt hj)
      have hstop : (beats k).stop = (beats k).start := by
        have hsame := hwake k (Nat.lt_succ_self k)
        rw [h.stop_eq k]
        cases houtcome : (beats k).outcome with
        | delay d => exact absurd houtcome (hsame d)
        | _ => rfl
      have hnext : (beats (k + 1)).due = (k + 1) * interval.val := by
        rw [(h.next k).due_of_not_late (by omega), hdue, Nat.succ_mul]
      refine ⟨hnext, ?_⟩
      rw [(h.next k).start, freeAfter, hstop, hnext, hstart]
      exact Nat.max_eq_left (Nat.mul_le_mul_right _ (Nat.le_succ k))

end Timeline

/-! ## What is shown of a heartbeat -/

/-- **What is shown of a heartbeat by a time**: the beats that have begun, the first one first. -/
structure Unfolds (interval : Interval) (shown : Nat → List Beat) : Prop where
  /-- Each beat follows the one before it. -/
  follows : ∀ {time k b}, (shown time)[k]? = some b →
    Follows interval ((shown time).take k).getLast? b
  /-- At a later time the same beats are shown, and then others. -/
  mono : ∀ {time time'}, time ≤ time' → shown time <+: shown time'
  /-- All beats whose time has come are shown. -/
  lt_next : ∀ time, time < max (dueAfter interval (shown time).getLast?)
    (freeAfter (shown time).getLast?)

namespace Unfolds

variable {shown : Nat → List Beat}

/-- What is shown once is shown for ever. -/
theorem getElem?_of_le (h : Unfolds interval shown) {time time' : Nat} (hle : time ≤ time')
    {k : Nat} {b : Beat} (hb : (shown time)[k]? = some b) : (shown time')[k]? = some b := by
  obtain ⟨hk, rfl⟩ := List.getElem?_eq_some_iff.mp hb
  exact List.prefix_iff_getElem?.mp (h.mono hle) k hk

/-- What is shown at two times is the same. -/
theorem unique (h : Unfolds interval shown) {time time' k : Nat} {b b' : Beat}
    (hb : (shown time)[k]? = some b) (hb' : (shown time')[k]? = some b') : b = b' := by
  rcases Nat.le_total time time' with hle | hle
  · exact Option.some_inj.mp ((h.getElem?_of_le hle hb).symm.trans hb')
  · exact Option.some_inj.mp (hb.symm.trans (h.getElem?_of_le hle hb'))

/-- **A heartbeat goes on**: there is a time by which it has beaten once more. -/
theorem exists_length_lt (h : Unfolds interval shown) (time : Nat) :
    ∃ time', (shown time).length < (shown time').length := by
  let next := max (dueAfter interval (shown time).getLast?) (freeAfter (shown time).getLast?)
  refine ⟨next, Nat.lt_of_not_le fun hlength => ?_⟩
  -- Otherwise nothing has changed by then, although the time of the next beat has come.
  have hsame := (h.mono (h.lt_next time).le).eq_of_length_le hlength
  have hnext := h.lt_next next
  rw [← hsame] at hnext
  exact lt_irrefl next hnext

/-- Every beat is shown at some time. -/
theorem exists_shown (h : Unfolds interval shown) (k : Nat) :
    ∃ time b, (shown time)[k]? = some b := by
  have hlong : ∃ time, k < (shown time).length := by
    induction k with
    | zero =>
        obtain ⟨time, hlt⟩ := h.exists_length_lt 0
        exact ⟨time, Nat.zero_lt_of_lt hlt⟩
    | succ k ih =>
        obtain ⟨time, hk⟩ := ih
        obtain ⟨time', hlt⟩ := h.exists_length_lt time
        exact ⟨time', lt_of_le_of_lt hk hlt⟩
  obtain ⟨time, hk⟩ := hlong
  exact ⟨time, (shown time)[k], List.getElem?_eq_getElem hk⟩

/-- **The whole sequence of beats.**  What is shown by a time are the first ones of it, namely those
whose time has come. -/
theorem exists_timeline (h : Unfolds interval shown) :
    ∃ beats : Nat → Beat, Timeline interval beats ∧
      (∀ time k b, (shown time)[k]? = some b → b = beats k) ∧
      ∀ time k, (beats k).start ≤ time → k < (shown time).length := by
  choose enough beats hbeats using h.exists_shown
  have henough : ∀ k, k < (shown (enough k)).length := fun k =>
    (List.getElem?_eq_some_iff.mp (hbeats k)).1
  have hshown : ∀ time k b, (shown time)[k]? = some b → b = beats k := fun time k b hb =>
    h.unique hb (hbeats k)
  have htimeline : Timeline interval beats := by
    refine ⟨h.follows (hbeats 0), fun k => ?_⟩
    have hfollows := h.follows (hbeats (k + 1))
    have hk := List.getElem?_eq_getElem (Nat.lt_of_succ_lt (henough (k + 1)))
    rw [hshown _ k _ hk] at hk
    rwa [List.getLast?_take, if_neg (Nat.succ_ne_zero k), Nat.add_sub_cancel, hk,
      Option.some_or] at hfollows
  refine ⟨beats, htimeline, hshown, fun time k hstart => Nat.lt_of_not_le fun hk => ?_⟩
  -- The first beat that is not shown begins later, and so does every beat behind it.
  have hmono : (beats (shown time).length).start ≤ (beats k).start := htimeline.start_mono hk
  have hle : time ≤ enough (shown time).length :=
    (Nat.le_total _ _).resolve_right fun hle =>
      absurd (h.mono hle).length_le (Nat.not_le.mpr (henough _))
  have hfollows := h.follows (hbeats (shown time).length)
  rw [← List.prefix_iff_eq_take.mp (h.mono hle)] at hfollows
  have hlt := h.lt_next time
  rw [← hfollows.start_eq] at hlt
  exact absurd (hlt.trans_le hmono) (Nat.not_lt.mpr hstart)

end Unfolds

/-! ## The beats of a heartbeat -/

/-- The beats of a heartbeat, the latest first, follow one another. -/
inductive OnSchedule (interval : Interval) : List Beat → Prop where
  /-- Before the first beat. -/
  | nil : OnSchedule interval []
  /-- One more beat. -/
  | cons {b : Beat} {beats : List Beat} (earlier : OnSchedule interval beats)
      (follows : Follows interval beats.head? b) : OnSchedule interval (b :: beats)

namespace OnSchedule

variable {beats : List Beat}

/-- Each beat follows the one before it in the order of time. -/
theorem follows (h : OnSchedule interval beats) {k : Nat} {b : Beat}
    (hb : beats.reverse[k]? = some b) :
    Follows interval (beats.reverse.take k).getLast? b := by
  induction h with
  | nil => cases hb
  | @cons latest beats earlier hlatest ih =>
      rw [List.reverse_cons] at hb ⊢
      rcases Nat.lt_trichotomy k beats.reverse.length with hk | rfl | hk
      · rw [List.getElem?_append_left hk] at hb
        rw [List.take_append_of_le_length hk.le]
        exact ih hb
      · rw [List.getElem?_concat_length] at hb
        obtain rfl : latest = b := Option.some_inj.mp hb
        rw [List.take_left, List.getLast?_reverse]
        exact hlatest
      · rw [List.getElem?_eq_none (by rw [List.length_append]; exact hk)] at hb
        cases hb

/-- A beat ends at once if it need not sleep. -/
theorem stop_eq (h : OnSchedule interval beats) {b : Beat} (hb : b ∈ beats) :
    b.stop = b.start + b.outcome.waitMillis := by
  obtain ⟨k, hk⟩ := List.mem_iff_getElem?.mp (List.mem_reverse.mpr hb)
  exact (h.follows hk).stop

/-- No beat ends behind the latest one. -/
theorem stop_le_free (h : OnSchedule interval beats) {b : Beat} (hb : b ∈ beats) :
    b.stop ≤ freeAfter beats.head? := by
  induction h with
  | nil => cases hb
  | @cons latest beats earlier hlatest ih =>
      rcases List.mem_cons.mp hb with rfl | hb
      · exact le_rfl
      · exact (ih hb).trans (hlatest.free_le_start.trans hlatest.start_le_stop)

end OnSchedule

namespace Loop

variable {id : Nat} {point : String} {now : Nat} {l : Loop}

/-- **The invariant**: the beats are on schedule, and so is the next one. -/
structure InTime (interval : Interval) (now : Nat) (l : Loop) : Prop where
  /-- The beats follow one another. -/
  schedule : OnSchedule interval l.beats
  /-- The next one is due as the schedule says. -/
  due : l.due = dueAfter interval l.beats.head?
  /-- All of them have begun. -/
  begun : ∀ b ∈ l.beats, b.start ≤ now
  /-- The beat in progress is the latest one. -/
  serving : ∀ b, l.serving = some b → l.beats.head? = some b
  /-- If there is none, the latest one has ended. -/
  free : l.serving = none → l.free = freeAfter l.beats.head? ∧ l.free ≤ now

theorem inTime_start (interval : Interval) (p : Host) (s : Stats) :
    InTime interval 0 (.start p s) where
  schedule := .nil
  due := rfl
  begun := by intro b hb; cases hb
  serving := by intro b hb; cases hb
  free _ := ⟨rfl, le_rfl⟩

namespace InTime

theorem settle (h : InTime interval now l) : InTime interval now (l.settle now) := by
  rcases l.settle_cases now with ⟨hsame, -⟩ | ⟨b, hb, hstop, hended⟩
  · rw [hsame]
    exact h
  · rw [hended]
    refine ⟨h.schedule, h.due, h.begun, ?_, fun _ => ⟨?_, hstop⟩⟩
    · intro b' hb'
      cases hb'
    · show b.stop = freeAfter l.beats.head?
      rw [h.serving b hb]
      rfl

theorem begin (h : InTime interval now l) (hidle : l.serving = none) (hstart : l.nextStart ≤ now) :
    InTime interval now (l.begin interval id point) where
  schedule := .cons h.schedule ⟨h.due, by rw [← (h.free hidle).1]; rfl, rfl⟩
  due := rfl
  begun := by
    intro b hb
    rcases List.mem_cons.mp hb with rfl | hb
    · exact hstart
    · exact h.begun b hb
  serving _ hb := hb
  free hnone := by cases hnone

theorem elapse {now' : Nat} (h : InTime interval now l) (hle : now ≤ now') :
    InTime interval now' l :=
  ⟨h.schedule, h.due, fun b hb => (h.begun b hb).trans hle, h.serving,
    fun hnone => ⟨(h.free hnone).1, (h.free hnone).2.trans hle⟩⟩

end InTime

/-- **Every step of a heartbeat keeps it on schedule**, whatever happens in its process. -/
theorem kept_inTime : Kept interval id point (InTime interval) where
  settle h := h.settle
  begin hidle hstart h := h.begin hidle hstart
  elapse hle h := h.elapse hle
  happen _ h := ⟨h.schedule, h.due, h.begun, h.serving, h.free⟩

/-- A heartbeat that waits has begun all beats whose time has come. -/
theorem InTime.lt_of_rests (h : InTime interval now l) (hrests : Rests now l) :
    now < max (dueAfter interval l.beats.head?) (freeAfter l.beats.head?) := by
  cases hserving : l.serving with
  | none =>
      rw [← h.due, ← (h.free hserving).1]
      exact hrests.idle hserving
  | some b =>
      rw [h.serving b hserving]
      exact lt_max_of_lt_right (hrests.serving b hserving)

/-! ## What a course shows -/

theorem beats_settle (now : Nat) (l : Loop) : (l.settle now).beats = l.beats := by
  rcases l.settle_cases now with ⟨hsame, -⟩ | ⟨b, -, -, hended⟩
  · rw [hsame]
  · rw [hended]

/-- Time adds to the beats. -/
theorem beats_suffix_advance (now : Nat) (l : Loop) :
    l.beats <:+ (l.advance interval id point now).beats := by
  fun_induction advance interval id point now l with
  | case1 l settled h ih =>
      have hbeats : settled.beats = l.beats := l.beats_settle now
      rw [← hbeats]
      exact (List.suffix_cons _ _).trans ih
  | case2 l settled h => exact (l.beats_settle now).symm ▸ List.suffix_rfl

/-- **A heartbeat in a course** is on schedule and waits. -/
theorem inTime_lived (interval : Interval) (id : Nat) (point : String) (incidents : List Incident)
    (p : Host) (s : Stats) (horizon : Nat) :
    let x := (Loop.start p s).lived interval id point incidents horizon
    InTime interval x.1 x.2 ∧ Rests x.1 x.2 ∧ horizon ≤ x.1 :=
  ⟨kept_inTime.lived incidents horizon (inTime_start interval p s), rests_advance _ _,
    Nat.le_max_right _ _⟩

/-- **A heartbeat in a course shows its beats** one after another. -/
theorem unfolds_lived (interval : Interval) (id : Nat) (point : String) (incidents : List Incident)
    (p : Host) (s : Stats) :
    Unfolds interval fun horizon =>
      ((Loop.start p s).lived interval id point incidents horizon).2.beats.reverse where
  follows hb := (inTime_lived interval id point incidents p s _).1.schedule.follows hb
  mono hle := by
    refine List.reverse_prefix.mpr ?_
    simp only [lived]
    rw [← advance_advance (max_le_max_left _ hle)]
    exact beats_suffix_advance _ _
  lt_next horizon := by
    obtain ⟨hin, hrests, hle⟩ := inTime_lived interval id point incidents p s horizon
    rw [List.getLast?_reverse]
    exact hle.trans_lt (hin.lt_of_rests hrests)

end Loop

end Heartbeat

namespace Node

open Heartbeat

/-- **The pace of a node that runs.** -/
theorem paced {n : Node} (hbeats : n.beats = true) (hinterval : 0 < n.interval.toNat) (p : Host)
    (s : Stats) (orders : List Order) :
    ∃ beats : Nat → Beat,
      Timeline ⟨n.interval.toNat, hinterval⟩ beats ∧
      (∀ horizon k b, (n.run p s orders horizon).final.beats.reverse[k]? = some b → b = beats k) ∧
      (∀ horizon k, (beats k).start ≤ horizon →
        k < (n.run p s orders horizon).final.beats.length) ∧
      (beats 0).start = 0 ∧
      (∀ k, (beats k).stop = (beats k).start + (beats k).outcome.waitMillis ∧
        (beats k).stop ≤ (beats (k + 1)).start ∧
        (beats k).start + n.interval.toNat ≤ (beats (k + 1)).start + 5 ∧
        ((beats k).due + 5 < (beats k).start →
          (beats k).start + n.interval.toNat ≤ (beats (k + 1)).start) ∧
        ((beats k).stop + 5 ≤ (beats k).start + n.interval.toNat →
          (beats (k + 1)).start = (beats (k + 1)).due)) ∧
      (5 < n.interval.toNat → ∀ k j, k + 1 < j → (beats k).stop < (beats j).start) ∧
      ∀ m, (∀ k < m, ∀ d, (beats k).outcome ≠ .delay d) →
        ∀ k ≤ m, (beats k).start = k * n.interval.toNat := by
  have hbeating : n.beating = some ⟨n.interval.toNat, hinterval⟩ := dif_pos ⟨hbeats, hinterval⟩
  obtain ⟨beats, htimeline, hshown, hbegun⟩ :=
    (Loop.unfolds_lived ⟨n.interval.toNat, hinterval⟩ n.heartbeat n.point (n.incidents orders) p
      s).exists_timeline
  simp only [List.length_reverse, ← final_run_eq hbeating p s orders] at hshown hbegun
  refine ⟨beats, htimeline, hshown, hbegun, htimeline.start_zero, fun k => ?_, ?_, ?_⟩
  · exact ⟨htimeline.stop_eq k, htimeline.stop_le_start k, htimeline.gap k,
      htimeline.gap_of_late, htimeline.start_eq_due⟩
  · exact fun hlong k j hj => htimeline.stop_lt_start hlong hj
  · exact fun m hwake k hk => (htimeline.start_eq_mul fun j hj => hwake j (hj.trans_le hk)).2

/-- A node that beats every ten milliseconds. -/
def stallingNode : Node := ⟨"n1", 0, 0, 0, true, 10, "disk"⟩

/-- A host with a point that sleeps for twenty-five milliseconds at its second hit. -/
def stallingHost : Host :=
  Run.final .start [.arm 0 "disk" .sleep ⟨some 2, some 2, Duration.ofNanos? 25000000⟩]

/-- The beat behind the stall is late, begins at its end, and moves the schedule. -/
theorem paced_stalling :
    stallingNode.beats = true ∧ 0 < stallingNode.interval.toNat ∧
      ∃ beats : Nat → Beat, Timeline ⟨10, by decide⟩ beats ∧
        (beats 1).start = 10 ∧ (beats 1).stop = 35 ∧ (beats 2).due = 20 ∧ (beats 2).start = 35 ∧
        (beats 3).start = 45 := by
  have hinterval : 0 < stallingNode.interval.toNat := by decide
  have hrun : (stallingNode.run stallingHost .zero [] 50).final.beats.reverse.map
      (fun b => (b.due, b.start, b.stop)) =
      [(0, 0, 0), (10, 10, 35), (20, 35, 35), (45, 45, 45)] := by decide +kernel
  obtain ⟨beats, htimeline, hshown, -⟩ := paced rfl hinterval stallingHost .zero []
  have htimes : ∀ k x, [(0, 0, 0), (10, 10, 35), (20, 35, 35), (45, 45, 45)][k]? = some x →
      ((beats k).due, (beats k).start, (beats k).stop) = x := by
    intro k x hx
    rw [← hrun, List.getElem?_map] at hx
    obtain ⟨b, hb, rfl⟩ := Option.map_eq_some_iff.mp hx
    rw [hshown 50 k b hb]
  refine ⟨rfl, hinterval, beats, htimeline, ?_⟩
  have hsecond := htimes 1 _ rfl
  have hthird := htimes 2 _ rfl
  have hfourth := htimes 3 _ rfl
  simp only [Prod.mk.injEq] at hsecond hthird hfourth
  exact ⟨hsecond.2.1, hsecond.2.2, hthird.1, hthird.2.1, hfourth.2.1⟩

end Node

end FaultPoints
