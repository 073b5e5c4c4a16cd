import FaultPoints.Control.Http
import FaultPoints.Node.Assembly
import FaultPoints.Proofs.Run.Operation
import Mathlib.Data.String.Basic

/-!
# Reachable hosts and their invariant

A host is changed by operations, by commands that arrive as texts, by requests over HTTP and by
building a node.  Whatever the order, each registry keeps its table in order, and each descriptor
in it has the name under which it is found and a name that the check of names accepts.

A plan comes into the table in one of two ways.  Most operations make it from parameters, which are
checked.  One operation puts a plan in force as it is given: it asks for a plan that has been
checked before, and it does not check it again.  So a plan in the table can come out of the checks,
or it was handed over in this way, and the hosts that can be reached are told together with the
plans that were.

## Main Definitions

* `Run.Operation.direct` — the plan that an operation puts in force as it is
* `Run.Reachable` — the hosts that can be reached from the start
* `Registry.Valid`, `Host.Valid` — the invariant

## Main Statements

* `Reachable.final` — a run of operations from a host that can be reached
* `valid_perform`, `valid_execute`, `valid_respond`, `valid_build` — each change keeps it
* `valid_of_reachable` — all reachable hosts have it
-/

namespace FaultPoints

open FaultPoints.Fault

namespace Fault

/-! ## The invariant -/

/-- A descriptor fits the name under which it is found, where plans were put in force as they
are. -/
structure Descriptor.Fits (direct : List Plan) (d : Descriptor) (name : String) : Prop where
  /-- It has that name. -/
  name_eq : d.name = name
  /-- The name may name a point. -/
  isName : IsName name
  /-- Its plan can come out of the checks, or it was put in force as it is. -/
  plan : d.plan.Sound ∨ d.plan ∈ direct

/-- The table of a registry is in order, and its descriptors fit their names. -/
structure Registry.Valid (direct : List Plan) (r : Registry) : Prop where
  /-- The table is in order. -/
  ordered : r.points.Ordered
  /-- The descriptors fit their names. -/
  fits : ∀ name d, r.points.find? name = some d → d.Fits direct name

/-- All registries of a host are valid. -/
def Host.Valid (direct : List Plan) (p : Host) : Prop := ∀ id, (p.registry id).Valid direct

variable {direct : List Plan}

theorem Registry.valid_empty : Registry.empty.Valid direct :=
  ⟨Catalog.ordered_empty, fun name d h => by simp [Registry.empty] at h⟩

theorem Registry.Valid.insert {r : Registry} (h : r.Valid direct) {name : String} {d : Descriptor}
    (hd : d.Fits direct name) : Registry.Valid direct ⟨r.points.insert name d⟩ where
  ordered := Catalog.ordered_insert h.ordered name d
  fits name' d' hfind := by
    rw [Catalog.find?_insert] at hfind
    split at hfind
    · rename_i hname
      obtain rfl := Option.some_inj.mp hfind
      rw [hname]
      exact hd
    · exact h.fits name' d' hfind

theorem Registry.Valid.erase {r : Registry} (h : r.Valid direct) (name : String) :
    (r.deactivate name).Valid direct where
  ordered := Catalog.ordered_erase h.ordered name
  fits name' d hfind := by
    rw [Registry.deactivate, Catalog.find?_erase] at hfind
    split at hfind
    · cases hfind
    · exact h.fits name' d hfind

namespace Host

theorem valid_start : Host.start.Valid direct := fun _ => Registry.valid_empty

/-- The more plans were put in force as they are, the less is known. -/
theorem Valid.mono {p : Host} {more : List Plan} (h : p.Valid direct) (hsub : direct ⊆ more) :
    p.Valid more := by
  refine fun id => ⟨(h id).ordered, fun name d hfind => ?_⟩
  obtain ⟨hname, hisName, hplan⟩ := (h id).fits name d hfind
  exact ⟨hname, hisName, hplan.imp_right fun hmem => hsub hmem⟩

theorem Valid.changed {p : Host} (h : p.Valid direct) {r : Registry} (hr : r.Valid direct)
    (id : Nat) : (p.changed id r).Valid direct := by
  intro id'
  rw [registry_changed]
  split
  · exact hr
  · exact h id'

theorem Valid.found {p : Host} (h : p.Valid direct) : p.found.2.Valid direct := by
  intro id
  rw [registry_found]
  exact h id

theorem Valid.armed {p : Host} (h : p.Valid direct) (id : Nat) {name : String} {plan : Plan}
    (hname : IsName name) (hplan : plan.Sound ∨ plan ∈ direct) :
    (p.armed id name plan).Valid direct := by
  have hfits : Descriptor.Fits direct ⟨name, plan, 0⟩ name := ⟨rfl, hname, hplan⟩
  exact h.changed ((h id).insert hfits) id

theorem Valid.activate {p q : Host} (h : p.Valid direct) {id : Nat} {name : String} {plan : Plan}
    (hplan : plan ∈ direct) (hq : p.activate id name plan = .ok q) : q.Valid direct := by
  obtain ⟨hname, rfl⟩ := (activate_eq_ok_iff _ _ _ _ _).mp hq
  exact h.armed id hname (Or.inr hplan)

theorem Valid.arm {p q : Host} (h : p.Valid direct) {id : Nat} {name : String} {tag : Tag}
    {params : Params} (hq : p.arm id name tag params = .ok q) : q.Valid direct := by
  obtain ⟨hname, plan, hplan, rfl⟩ := (arm_eq_ok_iff _ _ _ _ _ _).mp hq
  exact h.armed id hname (Or.inl ((ofParams_eq_ok_iff _ _ _).mp hplan).2.2.2)

theorem Valid.apply {p q : Host} (h : p.Valid direct) {id : Nat} {r : Request}
    (hq : p.apply id r = .ok q) : q.Valid direct := by
  obtain ⟨hname, plan, hplan, rfl⟩ := (apply_eq_ok_iff _ _ _ _).mp hq
  exact h.armed id hname (Or.inl hplan.sound)

theorem Valid.deactivate {p : Host} (h : p.Valid direct) (id : Nat) (name : String) :
    (p.deactivate id name).2.Valid direct := h.changed ((h id).erase name) id

theorem Valid.deactivateAll {p : Host} (h : p.Valid direct) (id : Nat) :
    (p.deactivateAll id).Valid direct :=
  h.changed Registry.valid_empty id

theorem Valid.hit {p : Host} (h : p.Valid direct) (id : Nat) (name : String) :
    (p.hit id name).2.Valid direct := by
  cases hentry : p.entry id name with
  | none =>
      rw [hit_of_none hentry]
      exact h
  | some d =>
      have hregistries := (hit_of_some hentry).2
      have hfits := (h id).fits name d hentry
      have hstruck : d.struck.Fits direct name := ⟨hfits.name_eq, hfits.isName, hfits.plan⟩
      intro id'
      have hregistry := h.changed ((h id).insert hstruck) id id'
      simpa only [registry, Host.changed, hregistries] using hregistry

end Host

end Fault

namespace Run

/-! ## Reachable hosts -/

/-- The plan that an operation puts in force as it is, if it does. -/
def Operation.direct : Operation → List Plan
  | .activate _ _ plan => [plan]
  | _ => []

/-- **The hosts that can be reached** from the start by operations, by commands that arrive as
texts, by requests over HTTP and by building nodes, in any order, with the plans that were put in
force as they are on the way. -/
inductive Reachable : List Plan → Host → Prop where
  /-- The start. -/
  | start : Reachable [] .start
  /-- After an operation. -/
  | perform {direct : List Plan} {p : Host} (h : Reachable direct p) (op : Operation) :
      Reachable (direct ++ op.direct) (perform p op).2
  /-- After a text has arrived that may be a command. -/
  | execute {direct : List Plan} {p : Host} (h : Reachable direct p) (id : Nat)
      (text : List Glyph) : Reachable direct (Control.execute p id text).2
  /-- After a request. -/
  | respond {direct : List Plan} {p : Host} (h : Reachable direct p) (w : Control.Http.Wording)
      (id : Nat) (r : Control.Http.Request) : Reachable direct (Control.Http.respond w p id r).2
  /-- After a node has been built, or the attempt has failed. -/
  | build {direct : List Plan} {p : Host} (h : Reachable direct p) (a : Node.Assembly)
      (e : Settings.Environment) : Reachable direct (a.build e p).2.1

variable {direct : List Plan}

/-- **A run of operations** leads from a host that can be reached to another one. -/
theorem Reachable.final {p : Host} (h : Reachable direct p) (ops : List Operation) :
    Reachable (direct ++ ops.flatMap Operation.direct) (final p ops) := by
  induction ops generalizing direct p with
  | nil =>
      rw [List.flatMap_nil, List.append_nil]
      exact h
  | cons op rest ih =>
      rw [List.flatMap_cons, ← List.append_assoc]
      exact ih (h.perform op)

theorem reachable_final (ops : List Operation) :
    Reachable (ops.flatMap Operation.direct) (final .start ops) := Reachable.start.final ops

/-! ## The invariant is kept -/

theorem valid_handle {p : Host} (h : p.Valid direct) (id : Nat) (c : Control.Command) :
    (Control.handle p id c).2.Valid direct := by
  cases c with
  | inject r =>
      simp only [Control.handle]
      cases happly : p.apply id r with
      | ok q => exact h.apply happly
      | error e => exact h
  | deactivate name => exact h.deactivate id name
  | deactivateAll => exact h.deactivateAll id
  | query name => exact h
  | queryAll => exact h
  | describe => exact h

theorem valid_commit {p : Host} (h : p.Valid direct) {x : Except Refusal Host}
    (hx : ∀ q, x = .ok q → q.Valid direct) : (commit p x).2.Valid direct := by
  cases x with
  | ok q => exact hx q rfl
  | error e => exact h

theorem valid_perform {p : Host} (h : p.Valid direct) (op : Operation) :
    (perform p op).2.Valid (direct ++ op.direct) := by
  have hmore : p.Valid (direct ++ op.direct) := h.mono (List.subset_append_left _ _)
  cases op with
  | found => exact hmore.found
  | arm id name tag params => exact valid_commit hmore fun q hq => hmore.arm hq
  | activate id name plan =>
      exact valid_commit hmore fun q hq =>
        hmore.activate (List.mem_append_right _ (List.mem_singleton_self plan)) hq
  | apply id r => exact valid_commit hmore fun q hq => hmore.apply hq
  | command id c => exact valid_handle hmore id c
  | deactivate id name => exact hmore.deactivate id name
  | deactivateAll id => exact hmore.deactivateAll id
  | strike way id name =>
      rw [perform, strike_eq]
      exact hmore.hit id name
  | ask id query => exact hmore

theorem valid_execute {p : Host} (h : p.Valid direct) (id : Nat) (text : List Glyph) :
    (Control.execute p id text).2.Valid direct := by
  unfold Control.execute
  split
  · exact h
  · exact valid_handle h id _

theorem valid_respond {p : Host} (h : p.Valid direct) (w : Control.Http.Wording) (id : Nat)
    (r : Control.Http.Request) : (Control.Http.respond w p id r).2.Valid direct := by
  unfold Control.Http.respond
  split
  · exact valid_handle h id _
  · exact h

/-- Arming the points of requests one by one keeps the invariant, wherever it ends. -/
theorem valid_armAll {p : Host} (h : p.Valid direct) (id : Nat) (member : String)
    (requests : List Request) : (Node.Assembly.armAll id member requests p).2.1.Valid direct := by
  induction requests generalizing p with
  | nil => exact h
  | cons r rest ih =>
      rw [Node.Assembly.armAll]
      split
      · exact h
      · rename_i q told harm
        rw [Node.Assembly.arm, bind_eq_ok_iff] at harm
        obtain ⟨q', happly, hpure⟩ := harm
        obtain ⟨rfl, -⟩ := Prod.mk.inj (Except.ok.inj hpure)
        exact ih (h.apply happly)

/-- The registry that a build acts on, and the host with it. -/
def target (a : Node.Assembly) (p : Host) : Nat × Host :=
  match a.supplied with
  | some id => (id, p)
  | none => p.found

/-- Where the faults of the start cannot be told, none of them is armed. -/
theorem snd_build_of_error {a : Node.Assembly} {e : Settings.Environment}
    {why : Settings.BootError} (h : Settings.startFaults a.settings e = .error why) (p : Host) :
    (a.build e p).2 = ((target a p).2, []) := by
  cases hsupplied : a.supplied <;> simp only [Node.Assembly.build, target, hsupplied, h]

/-- Otherwise they are armed, and told of, as far as the build comes. -/
theorem snd_build_of_ok {a : Node.Assembly} {e : Settings.Environment} {faults : List Request}
    (h : Settings.startFaults a.settings e = .ok faults) (p : Host) :
    (a.build e p).2 =
      (Node.Assembly.armAll (target a p).1 a.settings.node.name faults (target a p).2).2 := by
  cases hsupplied : a.supplied <;> simp only [Node.Assembly.build, target, hsupplied, h]
  all_goals split <;> rename_i heq <;> rw [heq]

theorem host_build_of_error {a : Node.Assembly} {e : Settings.Environment}
    {why : Settings.BootError} (h : Settings.startFaults a.settings e = .error why) (p : Host) :
    (a.build e p).2.1 = (target a p).2 := congrArg Prod.fst (snd_build_of_error h p)

theorem host_build_of_ok {a : Node.Assembly} {e : Settings.Environment} {faults : List Request}
    (h : Settings.startFaults a.settings e = .ok faults) (p : Host) :
    (a.build e p).2.1 =
      (Node.Assembly.armAll (target a p).1 a.settings.node.name faults (target a p).2).2.1 :=
  congrArg Prod.fst (snd_build_of_ok h p)

theorem valid_build {p : Host} (h : p.Valid direct) (a : Node.Assembly)
    (e : Settings.Environment) : (a.build e p).2.1.Valid direct := by
  have htarget : (target a p).2.Valid direct := by
    unfold target
    split
    · exact h
    · exact h.found
  cases hfaults : Settings.startFaults a.settings e with
  | error why =>
      rw [host_build_of_error hfaults]
      exact htarget
  | ok faults =>
      rw [host_build_of_ok hfaults]
      exact valid_armAll htarget _ _ _

/-- **Every reachable host is valid.** -/
theorem valid_of_reachable {p : Host} (h : Reachable direct p) : p.Valid direct := by
  induction h with
  | start => exact Host.valid_start
  | perform _ op ih => exact valid_perform ih op
  | execute _ id text ih => exact valid_execute ih id text
  | respond _ w id r ih => exact valid_respond ih w id r
  | build _ a e ih => exact valid_build ih a e

end Run

end FaultPoints
