import FaultPoints.Proofs.Run.Process
import Mathlib.Data.List.Perm.Basic

/-!
# Threads at work on one host

A host serves many threads at once.  Every operation on a registry holds the lock of the registry
while it reads or writes the table, and it is one step as far as other threads can tell, with one
exception: a hit gives the lock back once it is counted at its point and its outcome is decided, and
only then raises the counters that all registries share.  Between its steps any other thread may
have any number of turns, in which the point is armed anew, disarmed or hit again.

Each thread works through a program of operations, and a schedule tells whose turn it is.  All
interleavings of the steps are those of some schedule.

## Main Definitions

* `Run.Hit` — a hit on an armed point, with what was decided
* `Host.decideHit`, `Descriptor.decided` — the part of a hit that holds the lock, and what is
  decided in it
* `Run.Thread`, `Run.Thread.turn` — a thread, and one step of it
* `Run.Pool`, `Run.Pool.after` — a host with its threads, and what a schedule makes of them
* `Run.Pool.decisions` — the hits that were decided in the course of a schedule

## Main Statements

* `hit_eq` — the steps of a hit, taken together, are a hit of the host
* `decideHit_eq` — what is decided, by the entry of the point
* `exists_turns_eq` — a thread that is left alone performs its operations as a run does
* `takes_turn`, `turn_cases` — what a turn can be
* `decision_strike` — which turns decide hits
* `exists_finished` — no thread is held up
-/

namespace FaultPoints

open FaultPoints.Fault

namespace Run

/-! ## Hits that take their time -/

/-- A hit on an armed point. -/
structure Hit where
  /-- The number of the registry. -/
  id : Nat
  /-- The name of the point. -/
  point : String
  /-- What was decided when it was counted at its point. -/
  strike : Registry.Strike

namespace Hit

/-- The hit is on a point of that name, of whatever registry. -/
def names (point : String) (h : Hit) : Bool := h.point = point

/-- The hit is on the point of a registry. -/
def isOn (id : Nat) (point : String) (h : Hit) : Bool := h.id = id && h.point = point

/-- The hit is the work of a fault. -/
def isFault (h : Hit) : Bool := h.strike.outcome.isFault

/-- The hit is on a point of that name and the work of a fault of a sort. -/
def fires (tag : Tag) (point : String) (h : Hit) : Bool :=
  h.names point && h.isFault && h.strike.tag = tag

end Hit

end Run

/-- The next hit on an armed point, as it is decided by what the registry holds for the name. -/
def Fault.Descriptor.decided (d : Descriptor) (id : Nat) (name : String) : Run.Hit :=
  ⟨id, name, ⟨d.plan.outcome d.struck.hits, d.plan.effect.tag, d.struck.hits⟩⟩

namespace Fault.Host

open Run

/-- **The part of a hit that holds the lock.**  Where the point is armed, the hit is counted at it
and its outcome is decided.  The counters that the registries share are not raised yet. -/
def decideHit (p : Host) (id : Nat) (name : String) : Option (Hit × Host) :=
  ((p.registry id).hit name).map fun x =>
    (⟨id, name, x.1⟩, { p with registries := p.registries.insert id x.2 })

/-- The host with one more hit on a point counted. -/
def countHit (p : Host) (h : Hit) : Host := { p with tally := p.tally.countHit h.point }

/-- The host with one more hit counted as the work of a fault. -/
def countTrigger (p : Host) (h : Hit) : Host :=
  { p with tally := p.tally.countTrigger h.strike.tag h.point }

/-- **The steps of a hit, taken together, are a hit.** -/
theorem hit_eq (p : Host) (id : Nat) (name : String) :
    p.hit id name =
      match p.decideHit id name with
      | none => (.proceed, p)
      | some (h, q) =>
        (h.strike.outcome,
          if h.isFault then (q.countHit h).countTrigger h else q.countHit h) := by
  unfold hit decideHit
  cases (p.registry id).hit name with
  | none => rfl
  | some x =>
      obtain ⟨s, r⟩ := x
      by_cases hfault : s.outcome.isFault = true
      · simp [Tally.record, Run.Hit.isFault, hfault, countHit, countTrigger]
      · simp [Tally.record, Run.Hit.isFault, hfault, countHit]

/-- **What is decided is what the entry of the point says.**  The table becomes what a whole hit
makes of it. -/
theorem decideHit_eq (p : Host) (id : Nat) (name : String) :
    p.decideHit id name = (p.entry id name).map fun d =>
      (d.decided id name, { p with registries := (p.hit id name).2.registries }) := by
  cases h : p.entry id name with
  | none =>
      have hfind : (p.registry id).points.find? name = none := h
      simp [decideHit, Registry.hit, hfind]
  | some d =>
      have hfind : (p.registry id).points.find? name = some d := h
      simp [decideHit, Registry.hit, hfind, (hit_of_some h).2, Descriptor.struck,
        Descriptor.decided]

end Fault.Host

namespace Run

/-! ## Threads -/

/-- How far a thread has come with its operation. -/
inductive Phase where
  /-- It has none on its hands. -/
  | free
  /-- Its hit is decided, and no counter is raised for it. -/
  | decided (h : Hit)
  /-- Its hit is counted as one; it is the work of a fault, and not yet counted as that. -/
  | counted (h : Hit)

/-- A thread. -/
structure Thread where
  /-- How far it has come. -/
  phase : Phase
  /-- The operations that it will perform. -/
  rest : List Operation
  /-- The hits on armed points that have returned to it, the latest first. -/
  returned : List Hit

/-- The part of an operation that decides a hit, if it is a hit on an armed point. -/
def Operation.decideHit (p : Host) : Operation → Option (Hit × Host)
  | .strike _ id name => p.decideHit id name
  | _ => none

/-- What is decided by an operation that is a hit on an armed point. -/
theorem decideHit_eq_some_iff {p q : Host} {op : Operation} {hit : Hit} :
    op.decideHit p = some (hit, q) ↔ ∃ way id name d, op = .strike way id name ∧
      p.entry id name = some d ∧ hit = d.decided id name ∧
      q = { p with registries := (p.hit id name).2.registries } := by
  constructor
  · intro h
    cases op with
    | strike way id name =>
        have hname : p.decideHit id name = some (hit, q) := h
        rw [Host.decideHit_eq] at hname
        obtain ⟨d, hentry, hd⟩ := Option.map_eq_some_iff.mp hname
        obtain ⟨rfl, rfl⟩ := Prod.mk.inj hd
        exact ⟨way, id, name, d, rfl, hentry, rfl, rfl⟩
    | _ => cases h
  · rintro ⟨way, id, name, d, rfl, hentry, rfl, rfl⟩
    have hname : p.decideHit id name = _ := p.decideHit_eq id name
    rw [hentry] at hname
    exact hname

namespace Thread

/-- A thread at its start. -/
def start (program : List Operation) : Thread := ⟨.free, program, []⟩

/-- The thread after its hit has returned to it. -/
def handed (t : Thread) (h : Hit) : Thread :=
  { t with phase := .free, returned := h :: t.returned }

/-- The hit that the thread decides if it has the next turn. -/
def decision (p : Host) (t : Thread) : Option Hit :=
  match t.phase, t.rest with
  | .free, op :: _ => (op.decideHit p).map (·.1)
  | _, _ => none

/-- **One step of a thread.**  All operations but hits on armed points are done in one. -/
def turn (p : Host) (t : Thread) : Host × Thread :=
  match t.phase with
  | .counted h => (p.countTrigger h, t.handed h)
  | .decided h => (p.countHit h, if h.isFault then { t with phase := .counted h } else t.handed h)
  | .free =>
    match t.rest with
    | [] => (p, t)
    | op :: rest =>
      match op.decideHit p with
      | some (h, q) => (q, { t with phase := .decided h, rest })
      | none => ((perform p op).2, { t with rest })

/-- Its hit if no counter is raised for it. -/
def waiting (t : Thread) : List Hit :=
  match t.phase with
  | .decided h => [h]
  | _ => []

/-- Its hit if it is still to be counted as the work of a fault. -/
def counted (t : Thread) : List Hit :=
  match t.phase with
  | .counted h => [h]
  | _ => []

/-- The thread has done all that it has to do. -/
def Finished (t : Thread) : Prop := t.phase = .free ∧ t.rest = []

instance (t : Thread) : Decidable t.Finished :=
  match t with
  | ⟨.free, [], _⟩ => .isTrue ⟨rfl, rfl⟩
  | ⟨.free, _ :: _, _⟩ => .isFalse fun h => nomatch h.2
  | ⟨.decided _, _, _⟩ => .isFalse fun h => nomatch h.1
  | ⟨.counted _, _, _⟩ => .isFalse fun h => nomatch h.1

/-- **What a turn can be**: the host and the thread before it, the hit that is decided in it, and
the host and the thread after it. -/
inductive Takes (p : Host) : Thread → Option Hit → Host → Thread → Prop where
  /-- There is nothing to do. -/
  | idle {returned : List Hit} : Takes p ⟨.free, [], returned⟩ none p ⟨.free, [], returned⟩
  /-- An operation is done that is no hit, or a hit on a point that is not armed. -/
  | act {op : Operation} {rest : List Operation} {returned : List Hit}
      (h : op.decideHit p = none) :
      Takes p ⟨.free, op :: rest, returned⟩ none (perform p op).2 ⟨.free, rest, returned⟩
  /-- A hit is decided. -/
  | decide {op : Operation} {rest : List Operation} {returned : List Hit} {hit : Hit} {q : Host}
      (h : op.decideHit p = some (hit, q)) :
      Takes p ⟨.free, op :: rest, returned⟩ (some hit) q ⟨.decided hit, rest, returned⟩
  /-- A hit is counted that is the work of a fault. -/
  | count {hit : Hit} {rest : List Operation} {returned : List Hit} (h : hit.isFault = true) :
      Takes p ⟨.decided hit, rest, returned⟩ none (p.countHit hit) ⟨.counted hit, rest, returned⟩
  /-- A hit is counted that is not, and returns. -/
  | pass {hit : Hit} {rest : List Operation} {returned : List Hit} (h : hit.isFault = false) :
      Takes p ⟨.decided hit, rest, returned⟩ none (p.countHit hit)
        ⟨.free, rest, hit :: returned⟩
  /-- A hit is counted as the work of a fault, and returns. -/
  | fire {hit : Hit} {rest : List Operation} {returned : List Hit} :
      Takes p ⟨.counted hit, rest, returned⟩ none (p.countTrigger hit)
        ⟨.free, rest, hit :: returned⟩

theorem takes_turn (p : Host) (t : Thread) :
    Takes p t (t.decision p) (t.turn p).1 (t.turn p).2 := by
  obtain ⟨phase, rest, returned⟩ := t
  cases phase with
  | counted h => exact .fire
  | decided h =>
      cases hfault : h.isFault with
      | true => simpa [turn, decision, hfault] using Takes.count hfault
      | false => simpa [turn, decision, hfault, handed] using Takes.pass hfault
  | free =>
      cases rest with
      | nil => exact .idle
      | cons op rest =>
          cases hop : op.decideHit p with
          | none => simpa [turn, decision, hop] using Takes.act hop
          | some x => simpa [turn, decision, hop] using Takes.decide hop

end Thread

/-! ## Pools -/

/-- A host with the threads that work on it. -/
structure Pool where
  /-- The host. -/
  host : Host
  /-- The threads. -/
  threads : List Thread

namespace Pool

/-- A host with threads at the start of their programs. -/
def start (p : Host) (programs : List (List Operation)) : Pool := ⟨p, programs.map .start⟩

/-- A thread has a turn. -/
def turn (m : Pool) (i : Nat) : Pool :=
  match m.threads[i]? with
  | some t => ⟨(t.turn m.host).1, m.threads.set i (t.turn m.host).2⟩
  | none => m

/-- The hit that is decided if a thread has the next turn. -/
def decision (m : Pool) (i : Nat) : Option Hit := m.threads[i]?.bind (·.decision m.host)

/-- **What a schedule makes of a pool.** -/
def after : Pool → List Nat → Pool
  | m, [] => m
  | m, i :: rest => (m.turn i).after rest

/-- **The hits that are decided in the course of a schedule**, in their order: the steps that hold
the lock and find the point armed. -/
def decisions : Pool → List Nat → List Hit
  | _, [] => []
  | m, i :: rest => (m.decision i).toList ++ (m.turn i).decisions rest

/-- The hits that are decided while no counter is raised for them. -/
def waiting (m : Pool) : List Hit := m.threads.flatMap Thread.waiting

/-- The hits that are counted but not yet counted as the work of faults. -/
def counted (m : Pool) : List Hit := m.threads.flatMap Thread.counted

/-- The hits on armed points that have returned to the threads. -/
def returned (m : Pool) : List Hit := m.threads.flatMap Thread.returned

/-- The hits between the step that decides them and their last one. -/
def inFlight (m : Pool) : List Hit := m.waiting ++ m.counted

/-- All threads have done what they have to do. -/
def Finished (m : Pool) : Prop := ∀ t ∈ m.threads, t.Finished

instance (m : Pool) : Decidable m.Finished :=
  inferInstanceAs (Decidable (∀ t ∈ m.threads, t.Finished))

end Pool

/-- A list with an item replaced, as both are enumerated with that item in front. -/
theorem exists_perm_set {α : Type} {xs : List α} {i : Nat} {x : α} (h : xs[i]? = some x) (y : α) :
    ∃ others, xs.Perm (x :: others) ∧ (xs.set i y).Perm (y :: others) := by
  obtain ⟨hi, rfl⟩ := List.getElem?_eq_some_iff.mp h
  refine ⟨xs.take i ++ xs.drop (i + 1), ?_, ?_⟩
  · have hsplit : xs = xs.take i ++ xs[i] :: xs.drop (i + 1) := by simp
    exact (List.Perm.of_eq hsplit).trans List.perm_middle
  · rw [List.set_eq_take_append_cons_drop, if_pos hi]
    exact List.perm_middle

namespace Pool

/-- **What a turn of a pool can be**: one of its threads takes a turn and the others stay as they
are, or there is no thread of that number. -/
theorem turn_cases (m : Pool) (i : Nat) :
    (m.turn i = m ∧ m.decision i = none) ∨
      ∃ t t' others, t.Takes m.host (m.decision i) (m.turn i).host t' ∧
        m.threads.Perm (t :: others) ∧ (m.turn i).threads.Perm (t' :: others) := by
  cases hthread : m.threads[i]? with
  | none => exact Or.inl ⟨by rw [turn, hthread], by rw [decision, hthread]; rfl⟩
  | some t =>
      obtain ⟨others, hbefore, hafter⟩ := exists_perm_set hthread (t.turn m.host).2
      have hturn : m.turn i = ⟨(t.turn m.host).1, m.threads.set i (t.turn m.host).2⟩ := by
        rw [turn, hthread]
      have hdecision : m.decision i = t.decision m.host := by rw [decision, hthread]; rfl
      refine Or.inr ⟨t, (t.turn m.host).2, others, ?_, hbefore, ?_⟩
      · rw [hturn, hdecision]
        exact t.takes_turn m.host
      · rw [hturn]
        exact hafter

/-- **A thread that is about to hit a point decides a hit iff the point is armed**, by what the
registry holds for it. -/
theorem decision_strike {m : Pool} {i : Nat} {way : Way} {id : Nat} {name : String}
    {rest : List Operation} {returned : List Hit}
    (h : m.threads[i]? = some ⟨.free, .strike way id name :: rest, returned⟩) :
    m.decision i = (m.host.entry id name).map fun d => d.decided id name := by
  have hdecision : m.decision i = (m.host.decideHit id name).map (·.1) := by
    rw [decision, h]
    rfl
  rw [hdecision, Host.decideHit_eq, Option.map_map]
  rfl

theorem after_append (m : Pool) (before after : List Nat) :
    m.after (before ++ after) = (m.after before).after after := by
  induction before generalizing m with
  | nil => rfl
  | cons i rest ih => exact ih (m.turn i)

end Pool

/-! ## Threads that are left alone -/

/-- A hit that is decided becomes a whole one by its other steps. -/
theorem perform_of_decideHit {p q : Host} {op : Operation} {h : Hit}
    (hop : op.decideHit p = some (h, q)) :
    (perform p op).2 = if h.isFault then (q.countHit h).countTrigger h else q.countHit h := by
  obtain ⟨way, id, name, -, rfl, -, -, -⟩ := decideHit_eq_some_iff.mp hop
  have hname : p.decideHit id name = some (h, q) := hop
  rw [perform, strike_eq, Host.hit_eq, hname]

namespace Pool

theorem turn_of_getElem? {m : Pool} {i : Nat} {t : Thread} (h : m.threads[i]? = some t) :
    m.turn i = ⟨(t.turn m.host).1, m.threads.set i (t.turn m.host).2⟩ := by
  rw [turn, h]

/-- A thread that is left alone with an operation performs it as a run does. -/
theorem exists_turns_eq {m : Pool} {i : Nat} {op : Operation} {rest : List Operation}
    {returned : List Hit} (h : m.threads[i]? = some ⟨.free, op :: rest, returned⟩) :
    ∃ n returned', m.after (List.replicate n i) =
      ⟨(perform m.host op).2, m.threads.set i ⟨.free, rest, returned'⟩⟩ := by
  have hi := (List.getElem?_eq_some_iff.mp h).1
  -- The thread itself is what the set list holds at its place, turn after turn.
  have hset : ∀ (q : Host) (t : Thread),
      Pool.turn ⟨q, m.threads.set i t⟩ i =
        ⟨(t.turn q).1, m.threads.set i (t.turn q).2⟩ := fun q t => by
    rw [turn_of_getElem? (List.getElem?_set_self hi), List.set_set]
  cases hop : op.decideHit m.host with
  | none =>
      refine ⟨1, returned, ?_⟩
      rw [List.replicate_one, after, turn_of_getElem? h, after]
      simp only [Thread.turn, hop]
  | some x =>
      obtain ⟨hit, q⟩ := x
      have hfirst : m.turn i = ⟨q, m.threads.set i ⟨.decided hit, rest, returned⟩⟩ := by
        rw [turn_of_getElem? h]
        simp only [Thread.turn, hop]
      rw [perform_of_decideHit hop]
      cases hfault : hit.isFault with
      | false =>
          refine ⟨2, hit :: returned, ?_⟩
          simp [List.replicate_succ, after, hfirst, hset, Thread.turn, hfault, Thread.handed]
      | true =>
          refine ⟨3, hit :: returned, ?_⟩
          simp [List.replicate_succ, after, hfirst, hset, Thread.turn, hfault, Thread.handed]

/-- **A thread that is left alone performs its program as a run does.** -/
theorem exists_turns_eq_final {m : Pool} {i : Nat} {ops : List Operation} {returned : List Hit}
    (h : m.threads[i]? = some ⟨.free, ops, returned⟩) :
    ∃ n returned', m.after (List.replicate n i) =
      ⟨final m.host ops, m.threads.set i ⟨.free, [], returned'⟩⟩ := by
  induction ops generalizing m returned with
  | nil =>
      obtain ⟨hi, hthread⟩ := List.getElem?_eq_some_iff.mp h
      refine ⟨0, returned, ?_⟩
      rw [List.replicate_zero, after, ← hthread, List.set_getElem_self hi]
      rfl
  | cons op rest ih =>
      have hi := (List.getElem?_eq_some_iff.mp h).1
      obtain ⟨n, returned', hfirst⟩ := exists_turns_eq h
      have hthread : (m.after (List.replicate n i)).threads[i]? =
          some ⟨.free, rest, returned'⟩ := by
        rw [hfirst]
        exact List.getElem?_set_self hi
      obtain ⟨n', returned'', hrest⟩ := ih hthread
      refine ⟨n + n', returned'', ?_⟩
      rw [← List.replicate_append_replicate, after_append, hrest, hfirst, List.set_set]
      rfl

end Pool

/-! ## No thread is held up -/

/-- How many turns a thread can need at most. -/
def Thread.work (t : Thread) : Nat :=
  3 * t.rest.length +
    match t.phase with
    | .free => 0
    | .counted _ => 1
    | .decided _ => 2

/-- Every turn of a thread that has something to do brings it nearer to its end. -/
theorem Thread.Takes.work_lt {p q : Host} {t t' : Thread} {decision : Option Hit}
    (htakes : t.Takes p decision q t') (hnot : ¬ t.Finished) : t'.work < t.work := by
  cases htakes with
  | idle => exact absurd ⟨rfl, rfl⟩ hnot
  | act => simp [work]
  | decide =>
      simp only [work, List.length_cons]
      omega
  | count => simp [work]
  | pass => simp [work]
  | fire => simp [work]

namespace Pool

/-- How many turns the threads can need at most. -/
def work (m : Pool) : Nat := (m.threads.map Thread.work).sum

theorem work_turn_lt {m : Pool} {i : Nat} {t : Thread} (h : m.threads[i]? = some t)
    (hnot : ¬ t.Finished) : (m.turn i).work < m.work := by
  obtain ⟨others, hbefore, hafter⟩ := exists_perm_set h (t.turn m.host).2
  have hlt := (t.takes_turn m.host).work_lt hnot
  rw [turn_of_getElem? h, work, work, (hbefore.map _).sum_eq, (hafter.map _).sum_eq]
  simpa using hlt

/-- **No thread is held up.**  At every moment there is a schedule by which all threads come to
their ends. -/
theorem exists_finished (m : Pool) : ∃ schedule, (m.after schedule).Finished := by
  induction hwork : m.work using Nat.strong_induction_on generalizing m with
  | h n ih =>
      by_cases hfinished : m.Finished
      · exact ⟨[], hfinished⟩
      · obtain ⟨t, ht, hnot⟩ : ∃ t ∈ m.threads, ¬ t.Finished := by
          simpa [Finished] using hfinished
        obtain ⟨i, hi⟩ := List.mem_iff_getElem?.mp ht
        obtain ⟨schedule, hschedule⟩ := ih _ (hwork ▸ work_turn_lt hi hnot) (m.turn i) rfl
        exact ⟨i :: schedule, hschedule⟩

end Pool

end Run

end FaultPoints
