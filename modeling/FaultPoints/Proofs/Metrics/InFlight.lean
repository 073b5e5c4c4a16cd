import FaultPoints.Proofs.Metrics.Counters
import FaultPoints.Proofs.Run.Threads

/-!
# The counters while hits are in flight

The counters that all registries share are raised after a hit has given back the lock.  At every
moment of every interleaving they lag behind the decisions by exactly the hits that are between
their decision and the step that raises the counter, and once there are no such hits they tell how
often the points were hit while they were armed, and how many of these hits were the work of a
fault.  What happens to a point while its hits are in flight makes no difference, since a hit takes
along what was decided for it.

The invariant is a ledger of all hits that were decided (`Ledger`): each of them waits, or is
counted but not yet counted as the work of a fault, or has returned.  The counters of hits have
those of the second and of the third sort, the counters of the work of faults those of the third.
Every turn moves at most one hit from one sort to another and raises the counter that belongs to the
move.

## Main Definitions

* `Run.Ledger`, `Run.Accounted` — what has become of the hits, and what the counters tell of them
* `Tally.triggeredInAll` — the counters of the work of faults on a point, taken together
* `Metrics.Lags` — how far the counters are behind

## Main Statements

* `Ledger.decide`, `Ledger.count`, `Ledger.pass`, `Ledger.fire` — the moves of a hit
* `Ledger.takes` — what a thread does to the ledger
* `accounted_turn`, `accounted_after` — a turn keeps the ledger, and so does a schedule
* `counters_lag` — the counters at every moment of every interleaving
-/

namespace FaultPoints

open FaultPoints.Fault

namespace Fault.Tally

theorem hitsOf_countTrigger (t : Tally) (tag : Tag) (point point' : String) :
    (t.countTrigger tag point).hitsOf point' = t.hitsOf point' := rfl

end Fault.Tally

namespace Run

/-! ## The ledger -/

/-- **The ledger of hits**: what has become of the hits that were decided, and what the counters
tell of them beyond their base. -/
structure Ledger (base : Tally) (decisions : List Hit) (tally : Tally)
    (waiting counted returned : List Hit) : Prop where
  /-- Each decided hit waits, is counted, or has returned. -/
  kept : decisions.Perm (waiting ++ counted ++ returned)
  /-- Only the work of faults is still to be counted as that. -/
  faults : ∀ h ∈ counted, h.isFault = true
  /-- The hits that no longer wait have raised the counter of hits. -/
  hits : ∀ point, tally.hitsOf point =
    base.hitsOf point + counted.countP (Hit.names point) + returned.countP (Hit.names point)
  /-- Those that have returned have raised the counter of the work of faults, if they were that. -/
  triggered : ∀ tag point, tally.triggeredOf tag point =
    base.triggeredOf tag point + returned.countP (Hit.fires tag point)

namespace Ledger

variable {base tally : Tally} {ds waiting counted returned : List Hit} {h : Hit}

/-- The order in which the hits stand in the ledger does not matter. -/
theorem perm {waiting' counted' returned' : List Hit}
    (l : Ledger base ds tally waiting counted returned) (hwaiting : waiting.Perm waiting')
    (hcounted : counted.Perm counted') (hreturned : returned.Perm returned') :
    Ledger base ds tally waiting' counted' returned' where
  kept := l.kept.trans ((hwaiting.append hcounted).append hreturned)
  faults h hmem := l.faults h (hcounted.mem_iff.mpr hmem)
  hits point := by rw [l.hits, hcounted.countP_eq, hreturned.countP_eq]
  triggered tag point := by rw [l.triggered, hreturned.countP_eq]

/-- A hit is decided. -/
theorem decide (l : Ledger base ds tally waiting counted returned) (h : Hit) :
    Ledger base (ds ++ [h]) tally (h :: waiting) counted returned where
  kept := (List.perm_append_singleton h ds).trans (l.kept.cons h)
  faults := l.faults
  hits := l.hits
  triggered := l.triggered

/-- A hit is counted that is the work of a fault. -/
theorem count (l : Ledger base ds tally (h :: waiting) counted returned)
    (hfault : h.isFault = true) :
    Ledger base ds (tally.countHit h.point) waiting (h :: counted) returned where
  kept := by
    refine l.kept.trans (List.Perm.append_right returned ?_)
    exact List.perm_middle.symm
  faults := List.forall_mem_cons.mpr ⟨hfault, l.faults⟩
  hits point := by
    rw [Tally.hitsOf_countHit, l.hits, List.countP_cons]
    simp only [Hit.names, decide_eq_true_eq]
    omega
  triggered := l.triggered

/-- A hit is counted that is not, and returns. -/
theorem pass (l : Ledger base ds tally (h :: waiting) counted returned)
    (hfault : h.isFault = false) :
    Ledger base ds (tally.countHit h.point) waiting counted (h :: returned) where
  kept := l.kept.trans List.perm_middle.symm
  faults := l.faults
  hits point := by
    rw [Tally.hitsOf_countHit, l.hits, List.countP_cons]
    simp only [Hit.names, decide_eq_true_eq]
    omega
  triggered tag point := by
    have hnot : ¬ h.fires tag point = true := by simp [Hit.fires, hfault]
    rw [List.countP_cons_of_neg hnot]
    exact l.triggered tag point

/-- A hit is counted as the work of a fault, and returns. -/
theorem fire (l : Ledger base ds tally waiting (h :: counted) returned) :
    Ledger base ds (tally.countTrigger h.strike.tag h.point) waiting counted (h :: returned) where
  kept := by
    refine l.kept.trans ?_
    rw [List.append_assoc, List.append_assoc]
    exact List.Perm.append_left waiting List.perm_middle.symm
  faults := fun h' hmem => l.faults h' (List.mem_cons_of_mem h hmem)
  hits point := by
    have hhits := l.hits point
    rw [List.countP_cons] at hhits ⊢
    rw [Tally.hitsOf_countTrigger, hhits]
    omega
  triggered tag point := by
    have hfault := l.faults h List.mem_cons_self
    rw [Tally.triggeredOf_countTrigger, l.triggered, List.countP_cons]
    simp only [Hit.fires, Hit.names, hfault, Bool.and_true, Bool.and_eq_true, decide_eq_true_eq]
    omega

end Ledger

/-! ## Every turn keeps the ledger -/

/-- **The ledger of a pool**, by the hits that were decided. -/
def Accounted (base : Tally) (decisions : List Hit) (m : Pool) : Prop :=
  Ledger base decisions m.host.tally m.waiting m.counted m.returned

/-- An operation that decides no hit leaves the counters as they are. -/
theorem tally_perform_of_decideHit {p : Host} {op : Operation} (h : op.decideHit p = none) :
    (perform p op).2.tally = p.tally := by
  cases op with
  | strike way id name =>
      have hname : p.decideHit id name = none := h
      rw [perform, strike_eq, Host.hit_eq, hname]
  | _ => exact tally_perform rfl

/-- A hit leaves the counters as they are while it is decided. -/
theorem tally_of_decideHit {p q : Host} {op : Operation} {h : Hit}
    (hop : op.decideHit p = some (h, q)) : q.tally = p.tally := by
  obtain ⟨way, id, name, d, -, -, -, rfl⟩ := decideHit_eq_some_iff.mp hop
  rfl

theorem accounted_start (p : Host) (programs : List (List Operation)) :
    Accounted p.tally [] (Pool.start p programs) := by
  have hnone : ∀ f : Thread → List Hit, (∀ program, f (.start program) = []) →
      (Pool.start p programs).threads.flatMap f = [] := fun f hf => by
    simp [Pool.start, List.flatMap_map, hf]
  have hwaiting := hnone Thread.waiting fun _ => rfl
  have hcounted := hnone Thread.counted fun _ => rfl
  have hreturned := hnone Thread.returned fun _ => rfl
  rw [Accounted, Pool.waiting, Pool.counted, Pool.returned, hwaiting, hcounted, hreturned]
  exact
    { kept := .nil
      faults := by simp
      hits := fun _ => rfl
      triggered := fun _ _ => rfl }

/-- A thread that takes a turn moves its hit in the ledger. -/
theorem Ledger.takes {base : Tally} {ds waiting counted returned : List Hit} {p q : Host}
    {t t' : Thread} {decision : Option Hit} (htakes : t.Takes p decision q t')
    (l : Ledger base ds p.tally (t.waiting ++ waiting) (t.counted ++ counted)
      (t.returned ++ returned)) :
    Ledger base (ds ++ decision.toList) q.tally (t'.waiting ++ waiting) (t'.counted ++ counted)
      (t'.returned ++ returned) := by
  cases htakes
  case decide hop =>
    rw [tally_of_decideHit hop]
    exact l.decide _
  -- In all other turns no hit is decided.
  all_goals rw [Option.toList_none, List.append_nil]
  case idle => exact l
  case act hop =>
    rw [tally_perform_of_decideHit hop]
    exact l
  case count hfault => exact l.count hfault
  case pass hfault => exact l.pass hfault
  case fire => exact l.fire

/-- **A turn keeps the ledger.** -/
theorem accounted_turn {base : Tally} {ds : List Hit} {m : Pool} (h : Accounted base ds m)
    (i : Nat) : Accounted base (ds ++ (m.decision i).toList) (m.turn i) := by
  rcases m.turn_cases i with ⟨hturn, hnone⟩ | ⟨t, t', others, htakes, hbefore, hafter⟩
  · rw [hturn, hnone, Option.toList_none, List.append_nil]
    exact h
  · -- The thread whose turn it is stands in front, before and after.
    have hl := Ledger.perm h (hbefore.flatMap_right Thread.waiting)
      (hbefore.flatMap_right Thread.counted) (hbefore.flatMap_right Thread.returned)
    exact (hl.takes htakes).perm (hafter.flatMap_right Thread.waiting).symm
      (hafter.flatMap_right Thread.counted).symm (hafter.flatMap_right Thread.returned).symm

/-- **A schedule keeps the ledger.** -/
theorem accounted_after {base : Tally} {ds : List Hit} {m : Pool} (h : Accounted base ds m)
    (schedule : List Nat) : Accounted base (ds ++ m.decisions schedule) (m.after schedule) := by
  induction schedule generalizing m ds with
  | nil => simpa [Pool.decisions, Pool.after] using h
  | cons i rest ih =>
      rw [Pool.decisions, Pool.after, ← List.append_assoc]
      exact ih (accounted_turn h i)

/-! ## Counting hits -/

/-- The hit is on a point of that name and the work of a fault. -/
def Hit.works (point : String) (h : Hit) : Bool := h.names point && h.isFault

/-- The hit is on a point of that name and no work of a fault. -/
def Hit.passes (point : String) (h : Hit) : Bool := h.names point && !h.isFault

/-- A hit that is the work of a fault is that of a fault of one sort. -/
theorem countP_fires_add (point : String) (hits : List Hit) :
    hits.countP (Hit.fires .marker point) + hits.countP (Hit.fires .exception point) +
      hits.countP (Hit.fires .sleep point) = hits.countP (Hit.works point) := by
  induction hits with
  | nil => rfl
  | cons h hits ih =>
      have hone : (if h.fires .marker point then 1 else 0) +
          (if h.fires .exception point then 1 else 0) + (if h.fires .sleep point then 1 else 0) =
            if h.works point then 1 else 0 := by
        unfold Hit.fires Hit.works
        cases h.names point <;> cases h.isFault <;> cases h.strike.tag <;> rfl
      simp only [List.countP_cons]
      omega

theorem countP_works_add_passes (point : String) (hits : List Hit) :
    hits.countP (Hit.works point) + hits.countP (Hit.passes point) =
      hits.countP (Hit.names point) := by
  induction hits with
  | nil => rfl
  | cons h hits ih =>
      have hone : (if h.works point then 1 else 0) + (if h.passes point then 1 else 0) =
          if h.names point then 1 else 0 := by
        unfold Hit.works Hit.passes
        cases h.names point <;> cases h.isFault <;> rfl
      simp only [List.countP_cons]
      omega

/-- There is no hit of a sort on a point if there is none on it at all. -/
theorem countP_fires_eq_zero {tag : Tag} {point : String} {hits : List Hit}
    (h : ∀ hit ∈ hits, hit.point ≠ point) : hits.countP (Hit.fires tag point) = 0 :=
  List.countP_eq_zero.mpr fun hit hmem => by simp [Hit.fires, Hit.names, h hit hmem]

theorem countP_names_eq_zero {point : String} {hits : List Hit}
    (h : ∀ hit ∈ hits, hit.point ≠ point) : hits.countP (Hit.names point) = 0 :=
  List.countP_eq_zero.mpr fun hit hmem => by simp [Hit.names, h hit hmem]

end Run

/-- How many hits on a point were the work of a fault, of whatever sort. -/
def Fault.Tally.triggeredInAll (t : Tally) (point : String) : Nat :=
  t.triggeredOf .marker point + t.triggeredOf .exception point + t.triggeredOf .sleep point

/-! ## The law -/

namespace Metrics

open Run

/-- **How far the counters are behind** the hits that were decided, and that they are behind by no
more and no less than the hits in flight. -/
structure Lags (m : Pool) (decisions : List Hit) : Prop where
  /-- The counter of hits is behind by the hits that wait. -/
  hits : ∀ point, m.host.tally.hitsOf point + m.waiting.countP (Hit.names point) =
    decisions.countP (Hit.names point)
  /-- A counter of the work of faults is behind by such hits that are in flight. -/
  triggered : ∀ tag point,
    m.host.tally.triggeredOf tag point + m.inFlight.countP (Hit.fires tag point) =
      decisions.countP (Hit.fires tag point)
  /-- Between them are the hits that are counted only as hits, and those that were no work of a
  fault. -/
  between : ∀ point,
    m.host.tally.triggeredInAll point + m.counted.countP (Hit.names point) +
      m.returned.countP (Hit.passes point) = m.host.tally.hitsOf point
  /-- All hits that are still to be counted as the work of faults are that. -/
  works : ∀ h ∈ m.counted, h.isFault = true
  /-- The counters never run ahead. -/
  ordered : ∀ point, m.host.tally.triggeredInAll point ≤ m.host.tally.hitsOf point ∧
    m.host.tally.hitsOf point ≤ decisions.countP (Hit.names point)
  /-- While no hit on a point is in flight, its counters tell exactly. -/
  settled : ∀ point, (∀ h ∈ m.inFlight, h.point ≠ point) →
    m.host.tally.hitsOf point = decisions.countP (Hit.names point) ∧
      ∀ tag, m.host.tally.triggeredOf tag point = decisions.countP (Hit.fires tag point)
  /-- No counter overflows as long as the hits can be numbered. -/
  fits : decisions.length < 2 ^ 64 → ∀ point, m.host.tally.hitsOf point < 2 ^ 64 ∧
    ∀ tag, m.host.tally.triggeredOf tag point < 2 ^ 64

/-- What the ledger of a pool tells that began with no hit counted. -/
theorem lags_of_accounted {m : Pool} {decisions : List Hit}
    (h : Accounted .empty decisions m) : Lags m decisions := by
  have hkept : ∀ q : Hit → Bool, decisions.countP q =
      m.waiting.countP q + m.counted.countP q + m.returned.countP q := fun q => by
    rw [h.kept.countP_eq, List.countP_append, List.countP_append]
  have hflight : ∀ q : Hit → Bool, m.inFlight.countP q = m.waiting.countP q + m.counted.countP q :=
    fun q => List.countP_append
  have hhits : ∀ point, m.host.tally.hitsOf point =
      m.counted.countP (Hit.names point) + m.returned.countP (Hit.names point) := fun point => by
    have hbase : Tally.empty.hitsOf point = 0 := rfl
    rw [h.hits, hbase, Nat.zero_add]
  have htriggered : ∀ tag point, m.host.tally.triggeredOf tag point =
      m.returned.countP (Hit.fires tag point) := fun tag point => by
    have hbase : Tally.empty.triggeredOf tag point = 0 := rfl
    rw [h.triggered, hbase, Nat.zero_add]
  have hinAll : ∀ point, m.host.tally.triggeredInAll point =
      m.returned.countP (Hit.works point) := fun point => by
    rw [Tally.triggeredInAll, htriggered, htriggered, htriggered, countP_fires_add]
  exact
    { hits := fun point => by
        rw [hhits, hkept]
        omega
      triggered := fun tag point => by
        rw [htriggered, hflight, hkept]
        omega
      between := fun point => by
        have hsplit := countP_works_add_passes point m.returned
        rw [hinAll, hhits]
        omega
      works := h.faults
      ordered := fun point => by
        have hsplit := countP_works_add_passes point m.returned
        rw [hinAll, hhits, hkept]
        omega
      settled := fun point hnone => by
        have hnames := countP_names_eq_zero hnone
        rw [hflight] at hnames
        refine ⟨by rw [hhits, hkept]; omega, fun tag => ?_⟩
        have hfires : m.inFlight.countP (Hit.fires tag point) = 0 := countP_fires_eq_zero hnone
        rw [hflight] at hfires
        rw [htriggered, hkept]
        omega
      fits := fun hlength point => by
        have hle : ∀ q : Hit → Bool, decisions.countP q ≤ decisions.length := fun q =>
          List.countP_le_length
        refine ⟨?_, fun tag => ?_⟩
        · have hnames := hle (Hit.names point)
          rw [hkept] at hnames
          rw [hhits]
          omega
        · have hfires := hle (Hit.fires tag point)
          rw [hkept] at hfires
          rw [htriggered]
          omega }

/-- **The counters under concurrency.**  Whatever programs the threads of a process work through,
and in whatever order their steps are taken, at every moment the counters are behind the decisions
by exactly the hits in flight.  Decided are the hits that find their point armed, by what the point
is armed with at that moment. -/
theorem counters_lag (programs : List (List Operation)) (schedule : List Nat) :
    let m := (Pool.start .start programs).after schedule
    Lags m ((Pool.start .start programs).decisions schedule) ∧
      ∀ (i : Nat) (way : Way) (id : Nat) (name : String) (rest : List Operation)
        (returned : List Hit),
        m.threads[i]? = some ⟨.free, .strike way id name :: rest, returned⟩ →
          m.decision i = (m.host.entry id name).map fun d => d.decided id name := by
  intro m
  refine ⟨?_, ?_⟩
  · exact lags_of_accounted (accounted_after (accounted_start .start programs) schedule)
  · intro i way id name rest returned hthread
    exact Pool.decision_strike hthread

end Metrics

end FaultPoints
