import FaultPoints.Proofs.Metrics.InFlight
import FaultPoints.Proofs.Run.Hits

/-!
# Many threads hit one point

Threads that hit one armed point contend for the lock of its registry, and nobody can foresee which
of them gets it first.  It makes no difference to what is decided.  The hits that are decided in the
course of a schedule are those that the descriptor would see if a single thread made them all, in
their order.  The schedule only decides which thread is handed which of them.

The invariant (`Contest`) keeps three things together: the descriptor after the hits so far, the
decisions so far, and how many hits the threads are still to make.  When all threads are through,
every hit has returned to one of them, since none is lost on its way (`Ledger`).

## Main Definitions

* `Run.Contest` — the invariant
* `Run.Contended` — what has come of it when all threads are through

## Main Statements

* `Contest.decide`, `Contest.act` — a hit that is decided, and all other operations
* `contest_turn`, `contest_after` — a turn keeps the invariant, and so does a schedule
* `hits_contended` — how often the point was hit in the end, and which of the hits were the work of
  the fault
-/

namespace FaultPoints

open FaultPoints.Fault

namespace Run

namespace Hit

/-- The hit is on the point of a registry and the work of a fault. -/
def faultsOn (id : Nat) (point : String) (h : Hit) : Bool := h.isFault && h.isOn id point

theorem isOn_iff {id : Nat} {point : String} {h : Hit} :
    h.isOn id point = true ↔ h.id = id ∧ h.point = point := by
  simp [isOn]

end Hit

/-! ## The invariant -/

/-- **The invariant of a contest** in which a number of hits are made in all, after the first of
them: the descriptor and the decisions are those of a single thread that made them, and the threads
have the others still before them. -/
structure Contest (id : Nat) (name : String) (d : Descriptor) (total n : Nat)
    (decisions : List Hit) (p : Host) (rest : List Operation) : Prop where
  /-- The descriptor has seen the hits so far. -/
  entry : p.entry id name = some (d.after n)
  /-- They were decided in their order. -/
  decided : decisions.filter (Hit.isOn id name) = d.nextHits id name n
  /-- The others are still to be made. -/
  left : n + rest.countP (Operation.isHitOn id name) = total
  /-- Nothing else will be done to the point. -/
  contends : ∀ op ∈ rest, op.Contends id name

namespace Contest

variable {id : Nat} {name : String} {d : Descriptor} {total n : Nat} {decisions : List Hit}
  {p q : Host} {op : Operation} {rest : List Operation}

/-- The order in which the threads are enumerated does not matter. -/
theorem perm {rest' : List Operation} (c : Contest id name d total n decisions p rest)
    (h : rest.Perm rest') : Contest id name d total n decisions p rest' where
  entry := c.entry
  decided := c.decided
  left := by rw [← h.countP_eq, c.left]
  contends op hop := c.contends op (h.mem_iff.mpr hop)

/-- Raising counters leaves the contest as it is. -/
theorem of_registries (c : Contest id name d total n decisions p rest)
    (h : q.registries = p.registries) : Contest id name d total n decisions q rest where
  entry := by
    have hentry : q.entry id name = p.entry id name := by
      rw [Host.entry, Host.registry, h]
      rfl
    rw [hentry, c.entry]
  decided := c.decided
  left := c.left
  contends := c.contends

/-- A hit is decided: it is the next one on the point, or one on another. -/
theorem decide {hit : Hit} (c : Contest id name d total n decisions p (op :: rest))
    (hop : op.decideHit p = some (hit, q)) :
    ∃ n', Contest id name d total n' (decisions ++ [hit]) q rest := by
  obtain ⟨way, id', name', d', rfl, hentry, rfl, rfl⟩ := decideHit_eq_some_iff.mp hop
  have hcontends := fun op hop => c.contends op (List.mem_cons_of_mem _ hop)
  have hafter : ({ p with registries := (p.hit id' name').2.registries } : Host).entry id name =
      if id = id' ∧ name = name' then (p.entry id' name').map Descriptor.struck
      else p.entry id name := p.entry_hit id' id name' name
  have hleft := c.left
  rw [List.countP_cons] at hleft
  by_cases hsame : id = id' ∧ name = name'
  · obtain ⟨rfl, rfl⟩ := hsame
    obtain rfl : d.after n = d' := Option.some_inj.mp (c.entry.symm.trans hentry)
    have hon : Hit.isOn id name ((d.after n).decided id name) = true :=
      Hit.isOn_iff.mpr ⟨rfl, rfl⟩
    have hhit : (Operation.strike way id name).isHitOn id name = true :=
      Operation.isHitOn_strike_iff.mpr ⟨rfl, rfl⟩
    rw [if_pos hhit] at hleft
    refine ⟨n + 1, ?_, ?_, by omega, hcontends⟩
    · rw [hafter, if_pos ⟨rfl, rfl⟩, hentry]
      rfl
    · rw [List.filter_append, c.decided, List.filter_singleton, hon, d.nextHits_succ]
      rfl
  · have hother : ¬ (id' = id ∧ name' = name) := fun h => hsame ⟨h.1.symm, h.2.symm⟩
    have hon : Hit.isOn id name (d'.decided id' name') = false :=
      Bool.eq_false_iff.mpr (mt Hit.isOn_iff.mp hother)
    have hhit : ¬ (Operation.strike way id' name').isHitOn id name = true :=
      mt Operation.isHitOn_strike_iff.mp hother
    rw [if_neg hhit] at hleft
    refine ⟨n, ?_, ?_, hleft, hcontends⟩
    · rw [hafter, if_neg hsame, c.entry]
    · rw [List.filter_append, c.decided, List.filter_singleton, hon]
      exact List.append_nil _

/-- An operation that decides no hit is none on the point, since the point is armed. -/
theorem act (c : Contest id name d total n decisions p (op :: rest))
    (hop : op.decideHit p = none) : Contest id name d total n decisions (perform p op).2 rest := by
  have hhit : ¬ op.isHitOn id name = true := by
    intro hhit
    cases op with
    | strike way id' name' =>
        obtain ⟨rfl, rfl⟩ := Operation.isHitOn_strike_iff.mp hhit
        have hsome := decideHit_eq_some_iff.mpr ⟨way, id', name', _, rfl, c.entry, rfl, rfl⟩
        rw [hop] at hsome
        cases hsome
    | _ => cases hhit
  have hconcerns := (c.contends op List.mem_cons_self).resolve_left hhit
  refine ⟨?_, c.decided, ?_, fun op hop => c.contends op (List.mem_cons_of_mem _ hop)⟩
  · rw [entry_perform_of_not_concerns hconcerns, c.entry]
  · have hleft := c.left
    rwa [List.countP_cons_of_neg hhit] at hleft

/-- What a thread does to the contest. -/
theorem takes {t t' : Thread} {decision : Option Hit} (htakes : t.Takes p decision q t')
    (c : Contest id name d total n decisions p (t.rest ++ rest)) :
    ∃ n', Contest id name d total n' (decisions ++ decision.toList) q (t'.rest ++ rest) := by
  cases htakes
  case decide hop => exact c.decide hop
  -- In all other turns no hit is decided.
  all_goals rw [Option.toList_none, List.append_nil]
  case idle => exact ⟨n, c⟩
  case act hop => exact ⟨n, c.act hop⟩
  case count => exact ⟨n, c.of_registries rfl⟩
  case pass => exact ⟨n, c.of_registries rfl⟩
  case fire => exact ⟨n, c.of_registries rfl⟩

end Contest

/-! ## Every turn keeps the invariant -/

/-- The operations that the threads are still to begin. -/
def Pool.pending (m : Pool) : List Operation := m.threads.flatMap Thread.rest

section

variable {id : Nat} {name : String} {d : Descriptor} {total n : Nat} {decisions : List Hit}
  {m : Pool}

theorem contest_start {p : Host} (hentry : p.entry id name = some d)
    {programs : List (List Operation)}
    (hcontends : ∀ program ∈ programs, ∀ op ∈ program, op.Contends id name) :
    Contest id name d ((programs.map (List.countP (Operation.isHitOn id name))).sum) 0 []
      (Pool.start p programs).host (Pool.start p programs).pending := by
  have hpending : (Pool.start p programs).pending = programs.flatten := by
    rw [Pool.pending, Pool.start, List.flatMap_map]
    exact List.flatMap_id
  refine ⟨hentry, rfl, ?_, ?_⟩
  · rw [hpending, List.countP_flatten, Nat.zero_add]
  · intro op hop
    rw [hpending] at hop
    obtain ⟨program, hprogram, hop⟩ := List.mem_flatten.mp hop
    exact hcontends program hprogram op hop

/-- **A turn keeps the invariant.** -/
theorem contest_turn (c : Contest id name d total n decisions m.host m.pending) (i : Nat) :
    ∃ n', Contest id name d total n' (decisions ++ (m.decision i).toList) (m.turn i).host
      (m.turn i).pending := by
  rcases m.turn_cases i with ⟨hturn, hnone⟩ | ⟨t, t', others, htakes, hbefore, hafter⟩
  · rw [hturn, hnone, Option.toList_none, List.append_nil]
    exact ⟨n, c⟩
  · obtain ⟨n', c'⟩ := (c.perm (hbefore.flatMap_right Thread.rest)).takes htakes
    exact ⟨n', c'.perm (hafter.flatMap_right Thread.rest).symm⟩

/-- **A schedule keeps the invariant.** -/
theorem contest_after (c : Contest id name d total n decisions m.host m.pending)
    (schedule : List Nat) :
    ∃ n', Contest id name d total n' (decisions ++ m.decisions schedule) (m.after schedule).host
      (m.after schedule).pending := by
  induction schedule generalizing m n decisions with
  | nil =>
      rw [Pool.decisions, Pool.after, List.append_nil]
      exact ⟨n, c⟩
  | cons i rest ih =>
      obtain ⟨n', c'⟩ := contest_turn c i
      rw [Pool.decisions, Pool.after, ← List.append_assoc]
      exact ih c'

end

/-! ## When all threads are through -/

namespace Pool.Finished

variable {m : Pool}

theorem pending (h : m.Finished) : m.pending = [] :=
  List.flatMap_eq_nil_iff.mpr fun t ht => (h t ht).2

theorem waiting (h : m.Finished) : m.waiting = [] :=
  List.flatMap_eq_nil_iff.mpr fun t ht => by rw [Thread.waiting, (h t ht).1]

theorem counted (h : m.Finished) : m.counted = [] :=
  List.flatMap_eq_nil_iff.mpr fun t ht => by rw [Thread.counted, (h t ht).1]

end Pool.Finished

/-- **What has come of it when threads contend** for a point: it was hit so many times more, and the
hits that have returned to the threads are numbered on from those before. -/
structure Contended (p : Host) (id : Nat) (name : String) (d : Descriptor) (total : Nat)
    (m : Pool) : Prop where
  /-- The point is armed as it was, and every hit is counted once. -/
  entry : ∃ hits, m.host.entry id name = some { d with hits } ∧
    hits.toNat = d.hits.toNat + total
  /-- That is what can be asked for. -/
  hitCount : ((m.host.registry id).hitCount? name).map UInt64.toNat =
    some (d.hits.toNat + total)
  /-- Each number was given to one hit. -/
  numbers : ((m.returned.filter (Hit.isOn id name)).map Hit.number).Perm
    (List.range' (d.hits.toNat + 1) total)
  /-- By the number it was decided what a hit returned. -/
  outcome : ∀ h ∈ m.returned, h.isOn id name = true →
    h.strike.outcome = d.plan.outcome h.strike.number
  /-- A marker makes no faults. -/
  marker : d.plan.effect = .marker → m.returned.countP (Hit.faultsOn id name) = 0
  /-- Everything else makes as many as there are numbers of hits in its window. -/
  faults : d.plan.effect ≠ .marker → (m.returned.countP (Hit.faultsOn id name) : ℤ) =
    max (0 : ℤ) ((d.plan.window.lastOf (d.hits.toNat + total) : ℤ) -
      (max d.plan.window.start.toNat (d.hits.toNat + 1) : ℕ) + 1)
  /-- Each of these numbers belongs to one hit, and that is the work of the fault. -/
  once : d.plan.effect ≠ .marker → ∀ k,
    max d.plan.window.start.toNat (d.hits.toNat + 1) ≤ k →
      k ≤ d.plan.window.lastOf (d.hits.toNat + total) →
        m.returned.countP (fun h => h.faultsOn id name && h.number = k) = 1
  /-- A single thread that makes all the hits comes to the same. -/
  race : (p.race id name total).1 = m.returned.countP (Hit.faultsOn id name) ∧
    (p.race id name total).2.entry id name = m.host.entry id name

/-- What is known about the hits that have returned, if they are those of a single thread in some
order. -/
theorem contended_of_perm {p : Host} {id : Nat} {name : String} {d : Descriptor} {total : Nat}
    {m : Pool} (hentry : p.entry id name = some d)
    (hafter : m.host.entry id name = some (d.after total))
    (hreturned : (m.returned.filter (Hit.isOn id name)).Perm (d.nextHits id name total))
    (hfits : d.hits.toNat + total ≤ 2 ^ 64 - 1) : Contended p id name d total m := by
  have hfaults : (m.returned.filter (Hit.faultsOn id name)).Perm
      ((d.nextHits id name total).filter Hit.isFault) := by
    have hsplit : m.returned.filter (Hit.faultsOn id name) =
        (m.returned.filter (Hit.isOn id name)).filter Hit.isFault := by
      rw [List.filter_filter]
      rfl
    rw [hsplit]
    exact hreturned.filter Hit.isFault
  have hcount : m.returned.countP (Hit.faultsOn id name) =
      (d.nextHits id name total).countP Hit.isFault := by
    rw [List.countP_eq_length_filter, List.countP_eq_length_filter, hfaults.length_eq]
  have hdescriptor : d.after total = { d with hits := (d.after total).hits } := by
    rw [← d.name_after total, ← d.plan_after total]
  have hhits := Descriptor.hits_after_of_le hfits
  exact
    { entry := ⟨(d.after total).hits, by rw [hafter, ← hdescriptor], hhits⟩
      hitCount := by
        have hcount : (m.host.registry id).hitCount? name =
            (m.host.entry id name).map (·.hits) := rfl
        rw [hcount, hafter, ← hhits]
        rfl
      numbers := by
        rw [← Descriptor.map_number_nextHits id name hfits]
        exact hreturned.map Hit.number
      outcome := by
        intro h hmem hon
        exact Descriptor.outcome_of_mem_nextHits
          (hreturned.mem_iff.mp (List.mem_filter.mpr ⟨hmem, hon⟩))
      marker := by
        intro hmarker
        rw [hcount, List.countP_eq_length_filter,
          Descriptor.filter_isFault_nextHits_marker hmarker]
        rfl
      faults := by
        intro heffect
        have hnumbers := congrArg List.length
          (Descriptor.map_number_filter_isFault id name hfits heffect)
        rw [List.length_map, List.length_range', ← List.countP_eq_length_filter] at hnumbers
        rw [hcount, hnumbers]
        omega
      once := by
        intro heffect k hfirst hlast
        have hnumbers := (hfaults.map Hit.number).count_eq k
        rw [Descriptor.map_number_filter_isFault id name hfits heffect,
          List.count_eq_one_of_mem List.nodup_range' (List.mem_range'_1.mpr (by omega)),
          List.count_eq_countP, List.countP_map, List.countP_filter] at hnumbers
        rw [← hnumbers]
        refine List.countP_congr ?_
        intro h _
        simp [and_comm]
      race := by
        obtain ⟨hrace, hentry⟩ := Host.race_eq hentry total
        exact ⟨hrace.trans hcount.symm, hentry.trans hafter.symm⟩ }

/-- **Contended hits are neither lost nor made twice, and the schedule does not matter.**  When
threads have hit an armed point, and done whatever they liked to all others, the point was hit as
often as all of them together hit it; the numbers of their hits are the next ones, and those in the
window are the work of the fault. -/
theorem hits_contended {p : Host} {id : Nat} {name : String} {d : Descriptor}
    (hentry : p.entry id name = some d) {programs : List (List Operation)}
    (hcontends : ∀ program ∈ programs, ∀ op ∈ program, op.Contends id name)
    (hfits : d.hits.toNat + (programs.map (List.countP (Operation.isHitOn id name))).sum ≤
      2 ^ 64 - 1)
    {schedule : List Nat} (hfinished : ((Pool.start p programs).after schedule).Finished) :
    Contended p id name d (programs.map (List.countP (Operation.isHitOn id name))).sum
      ((Pool.start p programs).after schedule) := by
  obtain ⟨n, c⟩ := contest_after (contest_start hentry hcontends) schedule
  have hn : n = (programs.map (List.countP (Operation.isHitOn id name))).sum := by
    have hleft := c.left
    rwa [hfinished.pending, List.countP_nil, Nat.add_zero] at hleft
  have hkept := (accounted_after (accounted_start p programs) schedule).kept
  rw [hfinished.waiting, hfinished.counted, List.nil_append, List.nil_append] at hkept
  rw [← hn] at hfits ⊢
  refine contended_of_perm hentry c.entry ?_ hfits
  rw [← c.decided]
  exact (hkept.filter (Hit.isOn id name)).symm

/-- A host with a point that was hit once and fails at its third and its fourth hit. -/
def diskHost : Host :=
  final .start [.arm 0 "disk" .exception ⟨some 3, some 4, none⟩, .strike .hit 0 "disk"]

/-- Two threads hit the point.  One of them makes a registry between its hits, the other one arms
another point and hits it. -/
def diskPrograms : List (List Operation) :=
  [[.strike .hit 0 "disk", .found, .strike .hit 0 "disk"],
    [.strike .inject 0 "disk", .arm 0 "net" .marker ⟨none, none, none⟩, .strike .hit 0 "net",
      .strike .hit 0 "disk"]]

/-- A schedule in which hits of both threads are in flight at once. -/
def diskSchedule : List Nat := [1, 0, 0, 1, 1, 1, 1, 0, 0, 0, 1, 0, 1, 1, 0, 1, 1]

theorem hits_contended_disk :
    let m := (Pool.start diskHost diskPrograms).after diskSchedule
    let d : Descriptor := ⟨"disk", ⟨.exception, ⟨3, some 4⟩⟩, 1⟩
    let total := (diskPrograms.map (List.countP (Operation.isHitOn 0 "disk"))).sum
    diskHost.entry 0 "disk" = some d ∧
      (∀ program ∈ diskPrograms, ∀ op ∈ program, op.Contends 0 "disk") ∧
      d.hits.toNat + total ≤ 2 ^ 64 - 1 ∧ m.Finished ∧
      Contended diskHost 0 "disk" d total m ∧ total = 4 ∧
      m.returned.countP (Hit.faultsOn 0 "disk") = 2 := by
  intro m d total
  have hentry : diskHost.entry 0 "disk" = some d := by decide +kernel
  have hcontends : ∀ program ∈ diskPrograms, ∀ op ∈ program, op.Contends 0 "disk" := by
    decide +kernel
  have hfits : d.hits.toNat + total ≤ 2 ^ 64 - 1 := by decide +kernel
  have hfinished : m.Finished := by decide +kernel
  have h := hits_contended hentry hcontends hfits hfinished
  exact ⟨hentry, hcontends, hfits, hfinished, h, by decide +kernel, by decide +kernel⟩

end Run

end FaultPoints
