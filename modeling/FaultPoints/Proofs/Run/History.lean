import FaultPoints.Proofs.Run.Operation

/-!
# The history of a point decides its hits

A registry keeps a table of descriptors.  Whoever reaches a point does not see the table, but only
what was done to the point before: when it was armed last, and with what; whether it was disarmed
since; how often it was hit since.  This file states the outcome of a hit by that history and proves
that the table always agrees with it.

The invariant is that the descriptor of a point is what is left when its history is replayed from
nothing (`entry_final`).  The history is read off the trace of a run.  It holds only what concerns
the point: an operation that was refused, a question, an operation on another name or on another
registry leave no event in it.

## Main Definitions

* `Run.Event`, `Run.history` — what happened to a point in a run
* `Run.Idle` — a history after which a point is not armed
* `Run.Arming.verdict` — what becomes of a hit with a given number
* `Run.Decides` — the outcome of the next hit, by the history of its point

## Main Statements

* `entry_perform`, `entry_final` — the descriptor of a point is the replay of its history
* `decides_iff` — the outcome that a history decides is the one that its replay leads to
* `history_law` — every hit of every run has the outcome that the history of its point decides
-/

namespace FaultPoints.Run

open FaultPoints.Fault

/-! ## Histories -/

/-- What a point was armed with: a sort of fault, and a window whose ends may be open. -/
structure Arming where
  /-- What happens at a hit inside the window. -/
  kind : Effect
  /-- The first hit of the window. -/
  start : Option UInt64
  /-- The last hit of the window. -/
  stop : Option UInt64

/-- What can happen to a point. -/
inductive Event where
  /-- It is armed. -/
  | armed (arming : Arming)
  /-- It is disarmed. -/
  | disarmed
  /-- It is hit. -/
  | hit

/-- The sort of fault that a tag and a sleeping time stand for. -/
def kindOf : Tag → Option Duration → Effect
  | .exception, _ => .exception
  | .sleep, some d => .sleep d
  | _, _ => .marker

/-- What parameters arm a point with. -/
def Arming.ofParams (tag : Tag) (params : Params) : Arming :=
  ⟨kindOf tag params.duration, params.start, params.stop⟩

/-- What a plan arms a point with. -/
def Arming.ofPlan (plan : Plan) : Arming :=
  ⟨plan.effect, some plan.window.start, plan.window.stop⟩

/-- What a request arms a point with. -/
def Arming.ofRequest (r : Request) : Arming :=
  ⟨kindOf r.tag (r.seconds.bind Duration.ofSeconds?), r.start, r.stop⟩

/-- Whether an operation concerns a point of a registry. -/
def Operation.Concerns (id : Nat) (name : String) : Operation → Prop
  | .arm id' name' _ _ => id = id' ∧ name = name'
  | .activate id' name' _ => id = id' ∧ name = name'
  | .apply id' r => id = id' ∧ name = r.name
  | .command id' (.inject r) => id = id' ∧ name = r.name
  | .command id' (.deactivate name') => id = id' ∧ name = name'
  | .command id' .deactivateAll => id = id'
  | .deactivate id' name' => id = id' ∧ name = name'
  | .deactivateAll id' => id = id'
  | .strike _ id' name' => id = id' ∧ name = name'
  | _ => False

instance (id : Nat) (name : String) (op : Operation) : Decidable (op.Concerns id name) := by
  unfold Operation.Concerns
  split <;> infer_instance

/-- What an operation does to the points that it concerns, by its answer: an operation that is
refused does nothing. -/
def eventOf : Operation → Answer → Option Event
  | .arm _ _ tag params, .armed (.ok _) => some (.armed (.ofParams tag params))
  | .activate _ _ plan, .armed (.ok _) => some (.armed (.ofPlan plan))
  | .apply _ r, .armed (.ok _) => some (.armed (.ofRequest r))
  | .command _ (.inject r), .response (.ok _) => some (.armed (.ofRequest r))
  | .command _ (.deactivate _), _ => some .disarmed
  | .command _ .deactivateAll, _ => some .disarmed
  | .deactivate _ _, _ => some .disarmed
  | .deactivateAll _, _ => some .disarmed
  | .strike _ _ _, _ => some .hit
  | _, _ => none

/-- What happened to a point of a registry in the course of a run, the oldest first. -/
def history (id : Nat) (name : String) (steps : List (Operation × Answer)) : List Event :=
  steps.filterMap fun step => if step.1.Concerns id name then eventOf step.1 step.2 else none

/-- After the history a point is not armed: each time it was armed it was disarmed later. -/
def Idle (h : List Event) : Prop :=
  ∀ before a since, h = before ++ .armed a :: since → .disarmed ∈ since

/-- **What becomes of a hit with a given number.**  Nothing happens at a marker, before the first
hit of the window and after its last one. -/
def Arming.verdict (a : Arming) (k : Nat) : Outcome :=
  if k < a.start.elim 1 UInt64.toNat then .proceed
  else if a.stop.any fun last => last.toNat < k then .proceed
  else match a.kind with
    | .marker => .proceed
    | .exception => .fail
    | .sleep d => .delay d

/-- **The outcome of the next hit, by the history of its point.**  A point that is not armed lets
every hit proceed.  Otherwise what it was armed with last decides by the number of the hit, counted
since then; the greatest number of sixty-four bits is not exceeded. -/
inductive Decides : List Event → Outcome → Prop where
  /-- The point is not armed. -/
  | idle {h : List Event} (hidle : Idle h) : Decides h .proceed
  /-- The point was armed, and it was only hit since. -/
  | standing {before since : List Event} {a : Arming} (hsince : ∀ e ∈ since, e = .hit) :
      Decides (before ++ .armed a :: since) (a.verdict (min (1 + since.length) (2 ^ 64 - 1)))

/-! ## Replaying a history -/

/-- The plan that a point is armed with. -/
def Arming.plan (a : Arming) : Plan := ⟨a.kind, ⟨a.start.getD 1, a.stop⟩⟩

/-- What an event makes of the descriptor of a point. -/
def Event.change (name : String) (d : Option Descriptor) : Event → Option Descriptor
  | .armed a => some ⟨name, a.plan, 0⟩
  | .disarmed => none
  | .hit => d.map Descriptor.struck

/-- The descriptor of a point after a history, by what it was before. -/
def replay (name : String) (d : Option Descriptor) (h : List Event) : Option Descriptor :=
  h.foldl (Event.change name) d

theorem replay_append (name : String) (d : Option Descriptor) (before after : List Event) :
    replay name d (before ++ after) = replay name (replay name d before) after :=
  List.foldl_append

theorem kindOf_eq {e : Effect} {tag : Tag} {duration : Option Duration} (htag : e.tag = tag)
    (hduration : e.duration? = duration) : kindOf tag duration = e := by
  subst htag hduration
  cases e <;> rfl

theorem plan_ofParams {tag : Tag} {params : Params} {plan : Plan}
    (h : Plan.ofParams tag params = .ok plan) : (Arming.ofParams tag params).plan = plan := by
  obtain ⟨htag, hduration, hwindow, -⟩ := (ofParams_eq_ok_iff tag params plan).mp h
  simp only [Arming.plan, Arming.ofParams, kindOf_eq htag hduration, ← hwindow]

theorem plan_ofRequest {r : Request} {plan : Plan} (h : r.Describes plan) :
    (Arming.ofRequest r).plan = plan := by
  have hduration : plan.effect.duration? = r.seconds.bind Duration.ofSeconds? := by
    have hlasts := h.lasts
    cases heffect : plan.effect.duration? with
    | none =>
        rw [heffect] at hlasts
        rw [show r.seconds = none from hlasts]
        rfl
    | some d =>
        rw [heffect] at hlasts
        obtain ⟨x, hx, hd⟩ := hlasts
        rw [hx, Option.bind_some, (Duration.ofSeconds?_eq_some_iff x d).mpr hd]
  simp only [Arming.plan, Arming.ofRequest, kindOf_eq h.tag hduration, ← h.window]

/-! ## The table agrees with the histories -/

/-- The event that a step of a run leaves in the history of a point, if it leaves one. -/
def eventFor (id : Nat) (name : String) (op : Operation) (answer : Answer) : Option Event :=
  if op.Concerns id name then eventOf op answer else none

theorem replay_eventFor {op : Operation} {answer : Answer} {e : Event}
    (h : eventOf op answer = some e) (id : Nat) (name : String) (d : Option Descriptor) :
    replay name d (eventFor id name op answer).toList =
      if op.Concerns id name then e.change name d else d := by
  by_cases hconcerns : op.Concerns id name <;> simp [eventFor, hconcerns, h, replay]

theorem replay_eventFor_of_none {op : Operation} {answer : Answer}
    (h : eventOf op answer = none) (id : Nat) (name : String) (d : Option Descriptor) :
    replay name d (eventFor id name op answer).toList = d := by
  by_cases hconcerns : op.Concerns id name <;> simp [eventFor, hconcerns, h, replay]

/-- An operation that arms a point, whether this one or another. -/
theorem entry_armed_event {op : Operation} {answer : Answer} {a : Arming}
    (h : eventOf op answer = some (.armed a)) {id id' : Nat} {name name' : String}
    (hconcerns : op.Concerns id name ↔ id = id' ∧ name = name') (p : Host) :
    (p.armed id' name' a.plan).entry id name =
      replay name (p.entry id name) (eventFor id name op answer).toList := by
  rw [replay_eventFor h, Host.entry_armed]
  by_cases hsame : id = id' ∧ name = name'
  · rw [if_pos hsame, if_pos (hconcerns.mpr hsame), hsame.2]
    rfl
  · rw [if_neg hsame, if_neg (mt hconcerns.mp hsame)]

/-- An operation that takes a point out of the table, whether this one or another. -/
theorem entry_disarmed_event {op : Operation} {answer : Answer}
    (h : eventOf op answer = some .disarmed) {p q : Host} {id : Nat} {name : String}
    {c : Prop} [Decidable c] (hconcerns : op.Concerns id name ↔ c)
    (hq : q.entry id name = if c then none else p.entry id name) :
    q.entry id name = replay name (p.entry id name) (eventFor id name op answer).toList := by
  rw [replay_eventFor h, hq]
  exact if_congr hconcerns.symm rfl rfl

/-- **One step.**  The descriptor of a point changes by the event that the operation leaves in its
history, and it does not change where the operation leaves none. -/
theorem entry_perform (p : Host) (op : Operation) (id : Nat) (name : String) :
    (perform p op).2.entry id name =
      replay name (p.entry id name) (eventFor id name op (perform p op).1).toList := by
  cases op with
  | found =>
      rw [replay_eventFor_of_none rfl]
      exact Host.entry_found p id name
  | arm id' name' tag params =>
      simp only [perform]
      cases harm : p.arm id' name' tag params with
      | error e => rw [commit, replay_eventFor_of_none rfl]
      | ok q =>
          obtain ⟨-, plan, hplan, rfl⟩ := (Host.arm_eq_ok_iff _ _ _ _ _ _).mp harm
          rw [← plan_ofParams hplan]
          exact entry_armed_event rfl Iff.rfl p
  | activate id' name' plan =>
      simp only [perform]
      cases hactivate : p.activate id' name' plan with
      | error e => rw [commit, replay_eventFor_of_none rfl]
      | ok q =>
          obtain ⟨-, rfl⟩ := (Host.activate_eq_ok_iff _ _ _ _ _).mp hactivate
          exact entry_armed_event (a := .ofPlan plan) rfl Iff.rfl p
  | apply id' r =>
      simp only [perform]
      cases happly : p.apply id' r with
      | error e => rw [commit, replay_eventFor_of_none rfl]
      | ok q =>
          obtain ⟨-, plan, hplan, rfl⟩ := (Host.apply_eq_ok_iff _ _ _ _).mp happly
          rw [← plan_ofRequest hplan]
          exact entry_armed_event rfl Iff.rfl p
  | command id' c =>
      cases c with
      | inject r =>
          simp only [perform, Control.handle]
          cases happly : p.apply id' r with
          | error e => rw [replay_eventFor_of_none rfl]
          | ok q =>
              obtain ⟨-, plan, hplan, rfl⟩ := (Host.apply_eq_ok_iff _ _ _ _).mp happly
              rw [← plan_ofRequest hplan]
              exact entry_armed_event rfl Iff.rfl p
      | deactivate name' =>
          exact entry_disarmed_event rfl Iff.rfl (Host.entry_deactivate p id' id name' name)
      | deactivateAll =>
          exact entry_disarmed_event rfl Iff.rfl (Host.entry_deactivateAll p id' id name)
      | query name' =>
          rw [replay_eventFor_of_none rfl]
          rfl
      | queryAll =>
          rw [replay_eventFor_of_none rfl]
          rfl
      | describe =>
          rw [replay_eventFor_of_none rfl]
          rfl
  | deactivate id' name' =>
      exact entry_disarmed_event rfl Iff.rfl (Host.entry_deactivate p id' id name' name)
  | deactivateAll id' =>
      exact entry_disarmed_event rfl Iff.rfl (Host.entry_deactivateAll p id' id name)
  | strike way id' name' =>
      rw [replay_eventFor rfl, perform, strike_eq, Host.entry_hit]
      refine (ite_congr rfl (fun hsame => ?_) fun _ => rfl).trans (if_congr Iff.rfl rfl rfl)
      rw [hsame.1, hsame.2]
      rfl
  | ask id' query =>
      rw [replay_eventFor_of_none rfl]
      rfl

/-- **A whole run.**  The descriptor of a point is the replay of its history. -/
theorem entry_final (p : Host) (ops : List Operation) (id : Nat) (name : String) :
    (final p ops).entry id name =
      replay name (p.entry id name) (history id name (trace p ops)) := by
  induction ops generalizing p with
  | nil => rfl
  | cons op rest ih =>
      have hhistory : history id name (trace p (op :: rest)) =
          (eventFor id name op (perform p op).1).toList ++
            history id name (trace (perform p op).2 rest) := by
        simp only [history, trace, List.filterMap_cons]
        unfold eventFor
        split <;> rename_i h <;> rw [h] <;> rfl
      rw [final, ih, entry_perform, hhistory, replay_append]

/-! ## What the replay leaves -/

/-- A point that was armed and only hit since has its plan still and as many hits as it was hit. -/
theorem replay_hits (name : String) (plan : Plan) {since : List Event}
    (hsince : ∀ e ∈ since, e = .hit) (n : UInt64) :
    ∃ m : UInt64, replay name (some ⟨name, plan, n⟩) since = some ⟨name, plan, m⟩ ∧
      m.toNat = min (n.toNat + since.length) greatestCount.toNat := by
  induction since generalizing n with
  | nil =>
      have hle : n.toNat ≤ greatestCount.toNat := Nat.le_of_lt_succ n.toNat_lt
      exact ⟨n, rfl, by simpa using hle⟩
  | cons e rest ih =>
      rw [hsince e List.mem_cons_self]
      obtain ⟨m, hm, hcount⟩ := ih (fun e he => hsince e (List.mem_cons_of_mem _ he)) (countHit n)
      refine ⟨m, hm, ?_⟩
      rw [hcount, countHit_toNat, List.length_cons]
      omega

/-- An event at the end of a history in which the point was armed is one of those since, unless the
point is armed by it. -/
theorem eq_append_of_append_singleton {h before since : List Event} {a : Arming} {e : Event}
    (he : ∀ a, e ≠ .armed a) (heq : h ++ [e] = before ++ .armed a :: since) :
    ∃ since', since = since' ++ [e] ∧ h = before ++ .armed a :: since' := by
  rcases List.eq_nil_or_concat since with rfl | ⟨since', e', rfl⟩
  · obtain ⟨-, hlast⟩ := List.append_inj' heq rfl
    exact absurd (List.singleton_inj.mp hlast) (he a)
  · have hassoc : h ++ [e] = (before ++ .armed a :: since') ++ [e'] := by simpa using heq
    obtain ⟨hinit, hlast⟩ := List.append_inj' hassoc rfl
    obtain rfl := List.singleton_inj.mp hlast
    exact ⟨since', List.concat_eq_append, hinit⟩

/-- After every history a point is idle and has no descriptor, or it was armed and only hit
since. -/
theorem idle_or_standing (name : String) (h : List Event) :
    (Idle h ∧ replay name none h = none) ∨
      ∃ before a since, h = before ++ .armed a :: since ∧ ∀ e ∈ since, e = .hit := by
  -- The last event decides: one that arms or disarms does so whatever came before it.
  induction h using List.reverseRecOn with
  | nil =>
      refine Or.inl ⟨fun before a since heq => ?_, rfl⟩
      simp at heq
  | append_singleton h e ih =>
      cases e with
      | armed a => exact Or.inr ⟨h, a, [], rfl, by simp⟩
      | disarmed =>
          refine Or.inl ⟨fun before a since heq => ?_, by simp [replay, Event.change]⟩
          obtain ⟨since', rfl, -⟩ := eq_append_of_append_singleton (by simp) heq
          simp
      | hit =>
          rcases ih with ⟨hidle, hreplay⟩ | ⟨before, a, since, rfl, hsince⟩
          · refine Or.inl ⟨fun before a since heq => ?_, ?_⟩
            · obtain ⟨since', rfl, hh⟩ := eq_append_of_append_singleton (by simp) heq
              exact List.mem_append_left _ (hidle before a since' hh)
            · rw [replay_append, hreplay]
              rfl
          · refine Or.inr ⟨before, a, since ++ [.hit], by simp, fun e he => ?_⟩
            rcases List.mem_append.mp he with he | he
            · exact hsince e he
            · exact List.mem_singleton.mp he

/-- The window of a plan contains a hit as the verdict on it says. -/
theorem contains_plan_iff (a : Arming) (n : UInt64) :
    a.plan.window.contains n = true ↔
      ¬ n.toNat < a.start.elim 1 UInt64.toNat ∧
        ¬ (a.stop.any fun last => last.toNat < n.toNat) = true := by
  have hstart : a.plan.window.start.toNat = a.start.elim 1 UInt64.toNat := by
    cases hstart : a.start <;> simp [Arming.plan, hstart]
  have hstop : (∀ last, a.plan.window.stop = some last → n ≤ last) ↔
      ¬ (a.stop.any fun last => last.toNat < n.toNat) = true := by
    cases hstop : a.stop <;> simp [Arming.plan, hstop, UInt64.le_iff_toNat_le]
  rw [Window.contains_iff, hstop, not_lt, ← hstart]
  rfl

/-- The plan that a point is armed with decides a hit as the verdict says. -/
theorem outcome_plan (a : Arming) (n : UInt64) : a.plan.outcome n = a.verdict n.toNat := by
  unfold Plan.outcome Arming.verdict
  by_cases hstart : n.toNat < a.start.elim 1 UInt64.toNat
  · rw [if_pos hstart, if_neg fun h => ((contains_plan_iff a n).mp h).1 hstart]
  · rw [if_neg hstart]
    by_cases hstop : (a.stop.any fun last => last.toNat < n.toNat) = true
    · rw [if_pos hstop, if_neg fun h => ((contains_plan_iff a n).mp h).2 hstop]
    · rw [if_neg hstop, if_pos ((contains_plan_iff a n).mpr ⟨hstart, hstop⟩)]
      cases hkind : a.kind <;> simp [Arming.plan, hkind, Effect.outcome]

/-! ## The law -/

/-- The outcome of the next hit after a history, by the replay of it. -/
theorem decides_iff (name : String) (h : List Event) (o : Outcome) :
    Decides h o ↔
      o = (replay name none h).elim .proceed fun d => d.plan.outcome d.struck.hits := by
  have hstanding : ∀ before a since, (∀ e ∈ since, e = Event.hit) →
      (replay name none (before ++ .armed a :: since)).elim .proceed
          (fun d => d.plan.outcome d.struck.hits) =
        a.verdict (min (1 + since.length) (2 ^ 64 - 1)) := by
    intro before a since hsince
    obtain ⟨m, hm, hcount⟩ := replay_hits name a.plan hsince 0
    have hreplay : replay name none (before ++ .armed a :: since) = some ⟨name, a.plan, m⟩ := by
      rw [replay_append, ← hm]
      rfl
    have hnumber : (countHit m).toNat = min (1 + since.length) (2 ^ 64 - 1) := by
      have hgreatest : greatestCount.toNat = 2 ^ 64 - 1 := rfl
      rw [countHit_toNat, hcount, hgreatest, UInt64.toNat_zero]
      omega
    rw [hreplay, Option.elim_some, Descriptor.struck, outcome_plan, hnumber]
  constructor
  · rintro (⟨hidle⟩ | ⟨hsince⟩)
    · rcases idle_or_standing name h with ⟨-, hreplay⟩ | ⟨before, a, since, rfl, hsince⟩
      · rw [hreplay]
        rfl
      · have hmem := hsince _ (hidle before a since rfl)
        cases hmem
    · exact (hstanding _ _ _ hsince).symm
  · rintro rfl
    rcases idle_or_standing name h with ⟨hidle, hreplay⟩ | ⟨before, a, since, rfl, hsince⟩
    · rw [hreplay]
      exact .idle hidle
    · rw [hstanding _ _ _ hsince]
      exact .standing hsince

/-- What a run leaves of a point that no host has armed before the run. -/
theorem entry_final_start (ops : List Operation) (id : Nat) (name : String) :
    (final .start ops).entry id name = replay name none (history id name (trace .start ops)) :=
  entry_final .start ops id name

/-- **The law of histories.**  Wherever a point is reached in a run, and however it is reached, the
outcome is the one that the history of the point decides; there is only one such outcome.  Where
the history leaves the point idle, nothing is counted and nothing else changes. -/
theorem history_law (before after : List Operation) (way : Way) (id : Nat) (name : String) :
    let p := final .start before
    let h := history id name (trace .start before)
    let step := perform p (.strike way id name)
    ∃ o, Decides h o ∧ (∀ o', Decides h o' → o' = o) ∧
      step.1 = way.answer name o ∧
      trace .start (before ++ .strike way id name :: after) =
        trace .start before ++ (.strike way id name, step.1) :: trace step.2 after ∧
      (Idle h → step.2 = p) := by
  intro p h step
  have hentry : p.entry id name = replay name none h := entry_final_start before id name
  have hstep : step = (way.answer name (p.hit id name).1, (p.hit id name).2) :=
    strike_eq way p id name
  refine ⟨(p.hit id name).1, ?_, fun o' ho' => ?_, by rw [hstep], ?_, fun hidle => ?_⟩
  · rw [decides_iff name, Host.outcome_hit, hentry]
  · rw [(decides_iff name h o').mp ho', Host.outcome_hit, hentry]
  · rw [trace_append]
    rfl
  · rcases idle_or_standing name h with ⟨-, hreplay⟩ | ⟨before', a, since, heq, hsince⟩
    · rw [hstep, Host.hit_of_none (by rw [hentry, hreplay])]
    · have hmem := hsince _ (hidle before' a since heq)
      cases hmem

end FaultPoints.Run
