import FaultPoints.Proofs.Metrics.Counters

/-!
# What the gauge shows

All registries of a process write to one gauge, each of them the size of its own table, and only
where it is changed: when a point is armed, when one is disarmed, whether it was armed or not, and
when all are.  So the gauge tells of the registry that was changed last, and it tells what that
registry holds now: whatever happens to a registry without being such a change leaves the size of
its table as it is.

A hit is the one step that writes to a table and not to the gauge.  It writes in the place of a
descriptor that is there, which leaves the size as it is in a table that is in order; so the order
of the tables is carried along.

## Main Definitions

* `Run.Operation.changes`, `Run.Step.changes` — the registry that a step changes
* `Run.changed` — the registries that were changed in a run, the latest one at the end
* `Run.Shows` — the gauge shows the registry that was changed last

## Main Statements

* `Shows.trans`, `shows_next`, `shows_ending` — a step, and a run
* `gauge_law` — what the gauge shows after every run of a process
-/

namespace FaultPoints

open FaultPoints.Fault

namespace Run

/-! ## What is changed -/

/-- The registry that an operation changes, by its answer: an operation that is refused changes
none, and disarming a point is a change also where it was not armed. -/
def Operation.changes : Operation → Answer → Option Nat
  | .arm id _ _ _, .armed (.ok _) => some id
  | .activate id _ _, .armed (.ok _) => some id
  | .apply id _, .armed (.ok _) => some id
  | .command id (.inject _), .response (.ok _) => some id
  | .command id (.deactivate _), _ => some id
  | .command id .deactivateAll, _ => some id
  | .deactivate id _, _ => some id
  | .deactivateAll id, _ => some id
  | _, _ => none

/-- The registry that an operation changes in a host. -/
def Operation.changesIn (p : Host) (op : Operation) : Option Nat := op.changes (perform p op).1

/-- The registry that a step changes.  A build changes its registry if it tells of points that it
armed. -/
def Step.changes (p : Host) : Step → Option Nat
  | operation op => op.changesIn p
  | text id cs =>
    match Control.Command.parse cs with
    | .ok c => (Operation.command id c).changesIn p
    | .error _ => none
  | request _ id r =>
    match Control.Http.firstOf r Control.Http.routes with
    | .ok c => (Operation.command id c).changesIn p
    | .error _ => none
  | build a e => if (a.build e p).2.2.isEmpty then none else some (target a p).1

/-- The registry that is changed at a moment. -/
def Moment.changes (m : Moment) : Option Nat := m.step.changes m.host

/-- The registries that are changed in a run, one after the other. -/
def changed (p : Host) (steps : List Step) : List Nat :=
  (moments p steps).filterMap Moment.changes

end Run

namespace Fault.Host

/-- All tables of a host are in order. -/
def InOrder (p : Host) : Prop := ∀ id, (p.registry id).points.Ordered

theorem inOrder_start : start.InOrder := fun _ => Catalog.ordered_empty

theorem InOrder.changed {p : Host} (h : p.InOrder) {r : Registry} (hr : r.points.Ordered)
    (id : Nat) : (p.changed id r).InOrder := by
  intro id'
  rw [registry_changed]
  split
  · exact hr
  · exact h id'

/-- What a hit makes of the registries. -/
theorem registry_hit_of_some {p : Host} {id : Nat} {name : String} {d : Descriptor}
    (h : p.entry id name = some d) (id' : Nat) :
    (p.hit id name).2.registry id' =
      if id' = id then ⟨(p.registry id).points.insert name d.struck⟩ else p.registry id' := by
  rw [registry, (hit_of_some h).2, Catalog.find?_insert]
  split <;> rfl

/-- A hit does not change the gauge. -/
theorem gauge_hit (p : Host) (id : Nat) (name : String) : (p.hit id name).2.gauge = p.gauge := by
  unfold hit
  split <;> rfl

end Fault.Host

namespace Run

/-! ## One step -/

/-- Between two hosts some registries were changed one after the other: the gauge shows the size
that the last one has, and the registries that were not changed are of the same size. -/
structure Shows (p : Host) (ids : List Nat) (q : Host) : Prop where
  /-- The tables are in order. -/
  inOrder : q.InOrder
  /-- The gauge shows the size of the registry that was changed last. -/
  gauge : q.gauge = ids.getLast?.elim p.gauge fun id => (q.registry id).size
  /-- Registries that were not changed are of the same size. -/
  size : ∀ id, id ∉ ids → (q.registry id).size = (p.registry id).size

theorem Shows.refl {p : Host} (h : p.InOrder) : Shows p [] p := ⟨h, rfl, fun _ _ => rfl⟩

theorem Shows.trans {p q s : Host} {ids ids' : List Nat} (h : Shows p ids q)
    (h' : Shows q ids' s) : Shows p (ids ++ ids') s where
  inOrder := h'.inOrder
  gauge := by
    rw [h'.gauge, List.getLast?_append]
    cases hlast : ids'.getLast? with
    | some id => rfl
    | none =>
        -- Nothing was changed behind the first part, so its last registry has kept its size.
        have hnil : ids' = [] := List.getLast?_eq_none_iff.mp hlast
        have hsize : ∀ id, (s.registry id).size = (q.registry id).size := fun id =>
          h'.size id (by simp [hnil])
        simp only [Option.elim_none, Option.none_or, hsize, h.gauge]
  size id hid := by
    rw [List.mem_append, not_or] at hid
    rw [h'.size id hid.2, h.size id hid.1]

/-- Changes of one registry count as one. -/
theorem Shows.once {p q : Host} {id : Nat} (h : Shows p [id, id] q) : Shows p [id] q :=
  ⟨h.inOrder, h.gauge, fun id' hid => h.size id' (by simpa using hid)⟩

theorem shows_changed {p : Host} (h : p.InOrder) {r : Registry} (hr : r.points.Ordered)
    (id : Nat) : Shows p [id] (p.changed id r) where
  inOrder := h.changed hr id
  gauge := by
    rw [List.getLast?_singleton, Option.elim_some, Host.registry_changed, if_pos rfl]
    rfl
  size id' hid := by
    rw [Host.registry_changed, if_neg (List.mem_singleton.not.mp hid)]

theorem shows_armed {p : Host} (h : p.InOrder) (id : Nat) (name : String) (plan : Plan) :
    Shows p [id] (p.armed id name plan) :=
  shows_changed h (Catalog.ordered_insert (h id) name _) id

theorem shows_deactivate {p : Host} (h : p.InOrder) (id : Nat) (name : String) :
    Shows p [id] (p.deactivate id name).2 :=
  shows_changed h (Catalog.ordered_erase (h id) name) id

theorem shows_found {p : Host} (h : p.InOrder) : Shows p [] p.found.2 where
  inOrder id := by
    rw [Host.registry_found]
    exact h id
  gauge := rfl
  size id _ := by rw [Host.registry_found]

/-- A hit changes no registry, although it writes to the table of one. -/
theorem shows_hit {p : Host} (h : p.InOrder) (id : Nat) (name : String) :
    Shows p [] (p.hit id name).2 := by
  cases hentry : p.entry id name with
  | none =>
      rw [Host.hit_of_none hentry]
      exact .refl h
  | some d =>
      refine ⟨fun id' => ?_, Host.gauge_hit p id name, fun id' _ => ?_⟩
      · rw [Host.registry_hit_of_some hentry]
        split
        · exact Catalog.ordered_insert (h id) name d.struck
        · exact h id'
      · rw [Host.registry_hit_of_some hentry]
        split
        · rename_i hid
          rw [hid]
          exact Catalog.size_insert_of_find? (h id) hentry d.struck
        · rfl

theorem shows_apply {p q : Host} (h : p.InOrder) {id : Nat} {r : Request}
    (hq : p.apply id r = .ok q) : Shows p [id] q := by
  obtain ⟨-, plan, -, rfl⟩ := (Host.apply_eq_ok_iff p q id r).mp hq
  exact shows_armed h id r.name plan

theorem shows_command {p : Host} (h : p.InOrder) (id : Nat) (c : Control.Command) :
    Shows p ((Operation.command id c).changesIn p).toList (Control.handle p id c).2 := by
  cases c with
  | inject r =>
      simp only [Operation.changesIn, perform, Control.handle]
      cases happly : p.apply id r with
      | ok q => exact shows_apply h happly
      | error why => exact .refl h
  | deactivate name => exact shows_deactivate h id name
  | deactivateAll => exact shows_changed h Catalog.ordered_empty id
  | query name => exact .refl h
  | queryAll => exact .refl h
  | describe => exact .refl h

theorem shows_perform {p : Host} (h : p.InOrder) (op : Operation) :
    Shows p (op.changesIn p).toList (perform p op).2 := by
  cases op with
  | found => exact shows_found h
  | arm id name tag params =>
      simp only [Operation.changesIn, perform]
      cases harm : p.arm id name tag params with
      | error why => exact .refl h
      | ok q =>
          obtain ⟨-, plan, -, rfl⟩ := (Host.arm_eq_ok_iff p q id name tag params).mp harm
          exact shows_armed h id name plan
  | activate id name plan =>
      simp only [Operation.changesIn, perform]
      cases hactivate : p.activate id name plan with
      | error why => exact .refl h
      | ok q =>
          obtain ⟨-, rfl⟩ := (Host.activate_eq_ok_iff p q id name plan).mp hactivate
          exact shows_armed h id name plan
  | apply id r =>
      simp only [Operation.changesIn, perform]
      cases happly : p.apply id r with
      | error why => exact .refl h
      | ok q => exact shows_apply h happly
  | command id c => exact shows_command h id c
  | deactivate id name => exact shows_deactivate h id name
  | deactivateAll id => exact shows_changed h Catalog.ordered_empty id
  | strike way id name =>
      rw [perform, strike_eq]
      exact shows_hit h id name
  | ask id query => exact .refl h

/-- A build that has armed points has told of them. -/
theorem shows_armAll {p : Host} (h : p.InOrder) (id : Nat) (member : String) (rs : List Request) :
    Shows p (if (Node.Assembly.armAll id member rs p).2.2.isEmpty then [] else [id])
      (Node.Assembly.armAll id member rs p).2.1 := by
  induction rs generalizing p with
  | nil => exact .refl h
  | cons r rest ih =>
      rw [Node.Assembly.armAll]
      split
      · exact .refl h
      · rename_i q told harm
        rw [Node.Assembly.arm, bind_eq_ok_iff] at harm
        obtain ⟨q', happly, hpure⟩ := harm
        obtain ⟨rfl, rfl⟩ := Prod.mk.inj (Except.ok.inj hpure)
        have hfirst := shows_apply h happly
        have hrest := hfirst.trans (ih hfirst.inOrder)
        split at hrest
        · exact hrest
        · exact hrest.once

theorem shows_build {p : Host} (h : p.InOrder) (a : Node.Assembly) (e : Settings.Environment) :
    Shows p ((Step.build a e).changes p).toList (a.build e p).2.1 := by
  have htarget : Shows p [] (target a p).2 := by
    unfold target
    split
    · exact .refl h
    · exact shows_found h
  cases hfaults : Settings.startFaults a.settings e with
  | error why =>
      rw [Step.changes, snd_build_of_error hfaults]
      exact htarget
  | ok faults =>
      rw [Step.changes, snd_build_of_ok hfaults]
      have hshows := htarget.trans
        (shows_armAll htarget.inOrder (target a p).1 a.settings.node.name faults)
      split <;> rename_i htold
      · rw [if_pos htold] at hshows
        exact hshows
      · rw [if_neg htold] at hshows
        exact hshows

/-- **One step.**  The gauge changes with the registry that the step changes. -/
theorem shows_next {p : Host} (h : p.InOrder) (s : Step) :
    Shows p (s.changes p).toList (s.next p) := by
  cases s with
  | operation op => exact shows_perform h op
  | text id cs =>
      simp only [Step.changes, Step.next, Control.execute]
      cases Control.Command.parse cs with
      | error f => exact .refl h
      | ok c => exact shows_command h id c
  | request w id r =>
      simp only [Step.changes, Step.next, Control.Http.respond]
      cases Control.Http.firstOf r Control.Http.routes with
      | error rejections => exact .refl h
      | ok c => exact shows_command h id c
  | build a e => exact shows_build h a e

/-- **A whole run.**  The gauge shows the registry that the run changed last. -/
theorem shows_ending {p : Host} (h : p.InOrder) (steps : List Step) :
    Shows p (changed p steps) (ending p steps) := by
  induction steps generalizing p with
  | nil => exact .refl h
  | cons s rest ih =>
      have hfirst := shows_next h s
      have hchanged : changed p (s :: rest) = (s.changes p).toList ++ changed (s.next p) rest := by
        rw [changed, moments, List.filterMap_cons, Moment.changes]
        cases s.changes p <;> rfl
      rw [hchanged]
      exact hfirst.trans (ih hfirst.inOrder)

end Run

namespace Metrics

open Run

/-- The gauge is exposed in one line. -/
theorem gaugeLine_mem_iff (p : Host) (n : Nat) : gaugeLine n ∈ exposition p ↔ n = p.gauge := by
  rw [mem_exposition_iff]
  constructor
  · rintro (hline | hline | hline)
    · rcases (Family.mem_lines_iff _ _).mp hline with ⟨-, heq | heq⟩ | ⟨s, hs, heq⟩
      · have hcomment := (gaugeFamily p).isComment_helpLine
        rw [← heq, ← sample_gauge p] at hcomment
        exact absurd hcomment ((gaugeFamily_begins p).not_isComment_sample _)
      · have hcomment := (gaugeFamily p).isComment_typeLine
        rw [← heq, ← sample_gauge p] at hcomment
        exact absurd hcomment ((gaugeFamily_begins p).not_isComment_sample _)
      · obtain rfl := List.mem_singleton.mp hs
        rw [sample_gauge] at heq
        have htext := congrArg String.toList ((String.append_right_inj _).mp heq)
        rw [Text.natural, Text.natural, String.toList_ofList, String.toList_ofList] at htext
        exact digits_injective htext
    · have htoken := (hitFamily_begins p).token_of_mem hline
      rw [token_gaugeLine] at htoken
      exact absurd htoken (by decide)
    · have htoken := (triggerFamily_begins p).token_of_mem hline
      rw [token_gaugeLine] at htoken
      exact absurd htoken (by decide)
  · rintro rfl
    exact Or.inl ((Family.mem_lines_iff _ _).mpr
      (Or.inr ⟨_, List.mem_singleton_self _, (sample_gauge p p.gauge).symm⟩))

/-- An operation that is refused changes no registry. -/
theorem changesIn_of_refused {p : Host} {op : Operation} {why : Refusal}
    (h : (perform p op).1 = .armed (.error why) ∨ (perform p op).1 = .response (.error why)) :
    op.changesIn p = none := by
  unfold Operation.changesIn
  cases op with
  | command id c =>
      cases c with
      | inject r => rcases h with h | h <;> rw [h] <;> rfl
      | _ => rcases h with h | h <;> cases h
  | deactivate id name => rcases h with h | h <;> cases h
  | deactivateAll id => rcases h with h | h <;> cases h
  | _ => rcases h with h | h <;> rw [h] <;> rfl

theorem length_activeNames (r : Registry) : r.activeNames.length = r.size := List.length_map _

/-- **What the gauge shows** of a host whose registries were changed one after the other. -/
structure ShowsLatest (p : Host) (ids : List Nat) : Prop where
  /-- It shows the entries that the registry changed last has now, and none before any change. -/
  latest : p.gauge = ids.getLast?.elim 0 fun id => (p.registry id).size
  /-- It is exposed, with no other value beside it. -/
  line : ∀ n, gaugeLine n ∈ exposition p ↔ n = p.gauge
  /-- No step that changes no registry changes it. -/
  kept : ∀ s : Step, s.changes p = none → (s.next p).gauge = p.gauge
  /-- Such are the foundation of a registry, -/
  found : (perform p .found).2.gauge = p.gauge
  /-- reaching a point in whatever way, -/
  strike : ∀ way id name, (perform p (.strike way id name)).2.gauge = p.gauge
  /-- asking, -/
  ask : ∀ id query, (perform p (.ask id query)).2.gauge = p.gauge
  /-- and whatever is refused. -/
  refused : ∀ op why, (perform p op).1 = .armed (.error why) ∨
    (perform p op).1 = .response (.error why) → (perform p op).2.gauge = p.gauge
  /-- Where only one registry is changed, it shows how many points of that one are armed. -/
  alone : ∀ id, (∀ id' ∈ ids, id' = id) → p.gauge = (p.registry id).activeNames.length

/-- **The gauge tells of the registry that was changed last**, after every run of a process and
over any number of registries. -/
theorem gauge_law (steps : List Step) :
    ShowsLatest (ending .start steps) (changed .start steps) := by
  have hrun := shows_ending Host.inOrder_start steps
  have hkept : ∀ s : Step, s.changes (ending .start steps) = none →
      (s.next (ending .start steps)).gauge = (ending .start steps).gauge := fun s hs => by
    have hstep := (shows_next hrun.inOrder s).gauge
    rwa [hs] at hstep
  exact
    { latest := hrun.gauge
      line := gaugeLine_mem_iff _
      kept := hkept
      found := hkept (.operation .found) rfl
      strike := fun way id name => hkept (.operation (.strike way id name)) rfl
      ask := fun id query => hkept (.operation (.ask id query)) rfl
      refused := fun op why hwhy => hkept (.operation op) (changesIn_of_refused hwhy)
      alone := fun id hid => by
        rw [length_activeNames, hrun.gauge]
        cases hlast : (changed .start steps).getLast? with
        | some id' => rw [hid id' (List.mem_of_getLast? hlast), Option.elim_some]
        | none =>
            have hnil := List.getLast?_eq_none_iff.mp hlast
            rw [hrun.size id (by simp [hnil])]
            rfl }

end Metrics

end FaultPoints
