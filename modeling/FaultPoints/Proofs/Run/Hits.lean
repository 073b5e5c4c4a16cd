import FaultPoints.Proofs.Run.History
import FaultPoints.Proofs.Run.Threads

/-!
# Hits on one point

As long as a point is only hit, its descriptor keeps its plan and counts.  So what becomes of the
next hits is settled by the descriptor, and nothing that is done to other points between them makes
a difference.  The hits are numbered on from those before, and the ones that are the work of a fault
are those whose number lies in the window.

## Main Definitions

* `Window.spans`, `Window.lastOf` — a window as a range of numbers, and its last one among the first
* `Descriptor.after`, `Descriptor.nextHits` — a descriptor after hits on it, and these hits
* `Operation.isHitOn`, `Operation.Contends` — an operation is a hit on a point; it is that or leaves
  the point alone

## Main Statements

* `filter_spans` — the part of a window that a range of numbers covers
* `map_number_nextHits`, `map_number_filter_isFault` — the numbers of the next hits, and of those
  among them that are the work of a fault
* `race_eq` — a single thread that makes the next hits
* `entry_final_of_contends` — a run in which nothing else is done to the point
-/

namespace FaultPoints

open FaultPoints.Fault

/-- The number of the hit at its point. -/
def Run.Hit.number (h : Hit) : Nat := h.strike.number.toNat

namespace Fault

/-! ## The numbers in a window -/

namespace Window

/-- Whether a window reaches over a number. -/
def spans (w : Window) (k : Nat) : Bool := w.start.toNat ≤ k && w.stop.all (k ≤ ·.toNat)

/-- The last of the first hits that a window can contain. -/
def lastOf (w : Window) (n : Nat) : Nat := w.stop.elim n fun last => min last.toNat n

theorem contains_eq_spans (w : Window) (n : UInt64) : w.contains n = w.spans n.toNat := by
  rw [Bool.eq_iff_iff, contains_iff]
  cases hstop : w.stop <;> simp [spans, hstop, UInt64.le_iff_toNat_le]

/-- **The part of a window that a range of numbers covers** is a range of numbers. -/
theorem filter_spans (w : Window) (h n : Nat) :
    (List.range' (h + 1) n).filter w.spans =
      List.range' (max w.start.toNat (h + 1))
        (w.lastOf (h + n) + 1 - max w.start.toNat (h + 1)) := by
  induction n with
  | zero =>
      have hle : w.lastOf (h + 0) ≤ h := by
        cases hstop : w.stop <;> simp [lastOf, hstop]
      have hzero : w.lastOf (h + 0) + 1 - max w.start.toNat (h + 1) = 0 := by omega
      rw [hzero]
      rfl
  | succ n ih =>
      rw [List.range'_1_concat, List.filter_append, ih]
      -- The last number lies in the window, or the window has ended or is yet to begin.
      cases hspans : w.spans (h + 1 + n) with
      | true =>
          have hin : w.start.toNat ≤ h + 1 + n ∧ w.lastOf (h + n) = h + n ∧
              w.lastOf (h + (n + 1)) = h + (n + 1) := by
            cases hstop : w.stop <;> simp [spans, lastOf, hstop] at hspans ⊢ <;> omega
          obtain ⟨hstart, hlast, hlast'⟩ := hin
          have hlength : w.lastOf (h + (n + 1)) + 1 - max w.start.toNat (h + 1) =
              (w.lastOf (h + n) + 1 - max w.start.toNat (h + 1)) + 1 := by omega
          have hnumber : max w.start.toNat (h + 1) +
              (w.lastOf (h + n) + 1 - max w.start.toNat (h + 1)) = h + 1 + n := by omega
          rw [hlength, List.range'_1_concat, hnumber, List.filter_singleton, hspans]
          rfl
      | false =>
          have hout : w.lastOf (h + (n + 1)) + 1 - max w.start.toNat (h + 1) =
              w.lastOf (h + n) + 1 - max w.start.toNat (h + 1) := by
            cases hstop : w.stop <;> simp [spans, lastOf, hstop] at hspans ⊢ <;> omega
          rw [hout, List.filter_singleton, hspans]
          exact List.append_nil _

end Window

/-- A plan makes a fault of a hit iff it is no marker and the hit lies in its window. -/
theorem isFault_outcome_iff (plan : Plan) (n : UInt64) :
    (plan.outcome n).isFault = true ↔ plan.effect ≠ .marker ∧ plan.window.contains n = true := by
  unfold Plan.outcome
  cases plan.window.contains n <;> cases plan.effect <;> simp [Effect.outcome, Outcome.isFault]

/-! ## Hits on a descriptor -/

namespace Descriptor

/-- A descriptor after a number of hits. -/
def after (d : Descriptor) : Nat → Descriptor
  | 0 => d
  | n + 1 => (d.after n).struck

/-- The next hits on a descriptor, in their order. -/
def nextHits (d : Descriptor) (id : Nat) (name : String) (n : Nat) : List Run.Hit :=
  (List.range n).map fun k => (d.after k).decided id name

theorem plan_after (d : Descriptor) (n : Nat) : (d.after n).plan = d.plan := by
  induction n with
  | zero => rfl
  | succ n ih => exact ih

theorem name_after (d : Descriptor) (n : Nat) : (d.after n).name = d.name := by
  induction n with
  | zero => rfl
  | succ n ih => exact ih

theorem hits_after (d : Descriptor) (n : Nat) :
    (d.after n).hits.toNat = min (d.hits.toNat + n) (2 ^ 64 - 1) := by
  induction n with
  | zero =>
      have hlt := d.hits.toNat_lt
      rw [after]
      omega
  | succ n ih =>
      have hgreatest : greatestCount.toNat = 2 ^ 64 - 1 := rfl
      rw [after, struck, countHit_toNat, ih, hgreatest]
      omega

/-- As long as the greatest count is not exceeded, every hit is counted. -/
theorem hits_after_of_le {d : Descriptor} {n : Nat} (h : d.hits.toNat + n ≤ 2 ^ 64 - 1) :
    (d.after n).hits.toNat = d.hits.toNat + n := by
  rw [hits_after, min_eq_left h]

theorem after_struck (d : Descriptor) (n : Nat) : d.struck.after n = d.after (n + 1) := by
  induction n with
  | zero => rfl
  | succ n ih => exact congrArg struck ih

theorem nextHits_succ (d : Descriptor) (id : Nat) (name : String) (n : Nat) :
    d.nextHits id name (n + 1) = d.nextHits id name n ++ [(d.after n).decided id name] := by
  rw [nextHits, List.range_succ, List.map_append]
  rfl

theorem nextHits_succ_eq_cons (d : Descriptor) (id : Nat) (name : String) (n : Nat) :
    d.nextHits id name (n + 1) = d.decided id name :: d.struck.nextHits id name n := by
  rw [nextHits, List.range_succ_eq_map, List.map_cons, List.map_map]
  refine congrArg (d.decided id name :: ·) (List.map_congr_left fun k _ => ?_)
  rw [after_struck]
  rfl

/-- A hit on a descriptor is decided by the plan and its number. -/
theorem outcome_of_mem_nextHits {d : Descriptor} {id : Nat} {name : String} {n : Nat}
    {h : Run.Hit} (hmem : h ∈ d.nextHits id name n) :
    h.strike.outcome = d.plan.outcome h.strike.number := by
  obtain ⟨k, -, rfl⟩ := List.mem_map.mp hmem
  rw [← plan_after d k]
  rfl

/-- **The hits on a descriptor are numbered** on from those before. -/
theorem map_number_nextHits {d : Descriptor} {n : Nat} (id : Nat) (name : String)
    (h : d.hits.toNat + n ≤ 2 ^ 64 - 1) :
    (d.nextHits id name n).map Run.Hit.number = List.range' (d.hits.toNat + 1) n := by
  induction n with
  | zero => rfl
  | succ n ih =>
      have hnumber : ((d.after n).decided id name).number = d.hits.toNat + 1 + n := by
        have hlast : ((d.after n).decided id name).number = (d.after (n + 1)).hits.toNat := rfl
        rw [hlast, hits_after_of_le h]
        omega
      rw [nextHits_succ, List.map_append, ih (by omega), List.map_singleton, hnumber,
        List.range'_1_concat]

/-- No hit on a marker is the work of a fault. -/
theorem filter_isFault_nextHits_marker {d : Descriptor} (hmarker : d.plan.effect = .marker)
    (id : Nat) (name : String) (n : Nat) :
    (d.nextHits id name n).filter Run.Hit.isFault = [] := by
  refine List.filter_eq_nil_iff.mpr ?_
  intro h hmem hfault
  rw [Run.Hit.isFault, outcome_of_mem_nextHits hmem, isFault_outcome_iff] at hfault
  exact hfault.1 hmarker

/-- **The hits that are the work of a fault** are those whose number lies in the window. -/
theorem map_number_filter_isFault {d : Descriptor} {n : Nat} (id : Nat) (name : String)
    (h : d.hits.toNat + n ≤ 2 ^ 64 - 1) (heffect : d.plan.effect ≠ .marker) :
    ((d.nextHits id name n).filter Run.Hit.isFault).map Run.Hit.number =
      List.range' (max d.plan.window.start.toNat (d.hits.toNat + 1))
        (d.plan.window.lastOf (d.hits.toNat + n) + 1 -
          max d.plan.window.start.toNat (d.hits.toNat + 1)) := by
  have hfilter : (d.nextHits id name n).filter Run.Hit.isFault =
      (d.nextHits id name n).filter (d.plan.window.spans ∘ Run.Hit.number) := by
    refine List.filter_congr ?_
    intro h hmem
    have hspans := d.plan.window.contains_eq_spans h.strike.number
    rw [Run.Hit.isFault, outcome_of_mem_nextHits hmem, Bool.eq_iff_iff, isFault_outcome_iff,
      hspans]
    exact and_iff_right heffect
  rw [hfilter, ← List.filter_map, map_number_nextHits id name h, Window.filter_spans]

end Descriptor

namespace Host

/-- A single thread that makes hits on an armed point, beginning with a count of faults. -/
theorem hits_eq {p : Host} {id : Nat} {name : String} {d : Descriptor}
    (hentry : p.entry id name = some d) (faults n : Nat) :
    (hits id name n (faults, p)).1 = faults + (d.nextHits id name n).countP Run.Hit.isFault ∧
      (hits id name n (faults, p)).2.entry id name = some (d.after n) := by
  induction n generalizing p d faults with
  | zero => exact ⟨rfl, hentry⟩
  | succ n ih =>
      have hstruck : (p.hit id name).2.entry id name = some d.struck := by
        rw [entry_hit, if_pos ⟨rfl, rfl⟩, hentry]
        rfl
      have hfault : (p.hit id name).1.isFault = (d.decided id name).isFault := by
        rw [(hit_of_some hentry).1]
        rfl
      obtain ⟨hcount, hafter⟩ := ih hstruck
        (if (p.hit id name).1.isFault then faults + 1 else faults)
      refine ⟨?_, ?_⟩
      · rw [hits, hcount, hfault, d.nextHits_succ_eq_cons, List.countP_cons]
        split <;> omega
      · rw [hits, hafter, d.after_struck]

/-- **A single thread that makes all the hits.** -/
theorem race_eq {p : Host} {id : Nat} {name : String} {d : Descriptor}
    (hentry : p.entry id name = some d) (n : Nat) :
    (p.race id name n).1 = (d.nextHits id name n).countP Run.Hit.isFault ∧
      (p.race id name n).2.entry id name = some (d.after n) := by
  have h := hits_eq hentry 0 n
  rwa [Nat.zero_add] at h

end Host

end Fault

namespace Run

/-! ## Runs in which a point is only hit -/

/-- The operation is a hit on the point of a registry. -/
def Operation.isHitOn (id : Nat) (name : String) : Operation → Bool
  | .strike _ id' name' => id' = id && name' = name
  | _ => false

theorem Operation.isHitOn_strike_iff {way : Way} {id id' : Nat} {name name' : String} :
    (Operation.strike way id' name').isHitOn id name = true ↔ id' = id ∧ name' = name := by
  simp [isHitOn]

/-- The operation is a hit on the point, or it leaves the point alone. -/
def Operation.Contends (id : Nat) (name : String) (op : Operation) : Prop :=
  op.isHitOn id name = true ∨ ¬ op.Concerns id name

instance (id : Nat) (name : String) (op : Operation) : Decidable (op.Contends id name) :=
  inferInstanceAs (Decidable (_ ∨ _))

/-- An operation that leaves a point alone leaves its entry as it was. -/
theorem entry_perform_of_not_concerns {op : Operation} {id : Nat} {name : String}
    (h : ¬ op.Concerns id name) (p : Host) : (perform p op).2.entry id name = p.entry id name := by
  rw [entry_perform, eventFor, if_neg h]
  rfl

theorem entry_perform_of_isHitOn {op : Operation} {id : Nat} {name : String}
    (h : op.isHitOn id name = true) (p : Host) :
    (perform p op).2.entry id name = (p.entry id name).map Descriptor.struck := by
  cases op with
  | strike way id' name' =>
      obtain ⟨rfl, rfl⟩ := Operation.isHitOn_strike_iff.mp h
      rw [perform, strike_eq, Host.entry_hit, if_pos ⟨rfl, rfl⟩]
  | _ => cases h

/-- A run of hits on an armed point and of operations that leave it alone. -/
theorem entry_final_of_contends {p : Host} {id : Nat} {name : String} {d : Descriptor}
    (hentry : p.entry id name = some d) {ops : List Operation}
    (hops : ∀ op ∈ ops, op.Contends id name) :
    (final p ops).entry id name = some (d.after (ops.countP (Operation.isHitOn id name))) := by
  induction ops generalizing p d with
  | nil => exact hentry
  | cons op rest ih =>
      have hrest := fun op hop => hops op (List.mem_cons_of_mem _ hop)
      by_cases hhit : op.isHitOn id name = true
      · have hstruck : (perform p op).2.entry id name = some d.struck := by
          rw [entry_perform_of_isHitOn hhit, hentry]
          rfl
        rw [final, ih hstruck hrest, d.after_struck, List.countP_cons_of_pos hhit]
      · have hconcerns := (hops op List.mem_cons_self).resolve_left hhit
        rw [final, ih ((entry_perform_of_not_concerns hconcerns p).trans hentry) hrest,
          List.countP_cons_of_neg hhit]

end Run

end FaultPoints
