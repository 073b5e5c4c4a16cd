import FaultPoints.Proofs.Node.LastWins
import FaultPoints.Proofs.Run.Past

/-!
# An assembly step by step

The steps of an assembly can be taken in any order and as often as one likes, and between them the
process goes on: points are armed and hit, commands arrive, other nodes are built.  A failure ends
the assembly.

Steps are looked at from both ends.  Whatever comes later leaves the settings alone and forgets no
registry (`Onward`); and what there is after steps can be told by the last of them, so that a law of
all steps follows from a law of one (`after_induct`).

## Main Definitions

* `Run.Touches` — what an operation can do to a host
* `Host.Knows` — a registry exists
* `Assembly.Step`, `Assembly.Step.next` — the steps of an assembly, and what comes of one
* `Assembly.after` — what comes of steps
* `Assembly.Leads` — what a step can do
* `Assembly.Onward` — what all steps keep

## Main Statements

* `touches_perform` — the ways in which an operation changes a host
* `Knows.next` — a registry that exists goes on existing
* `leads_of_next` — the ways in which a step can end well
* `after_induct` — from one step to all
* `onward_of_after` — what all steps keep
-/

namespace FaultPoints

open FaultPoints.Fault

namespace Run

/-! ## What an operation does to a host -/

/-- **What an operation can do to a host.** -/
inductive Touches (p : Host) : Host → Prop where
  /-- Nothing. -/
  | nothing : Touches p p
  /-- A registry is made. -/
  | found : Touches p p.found.2
  /-- A registry is changed. -/
  | changed (id : Nat) (r : Registry) : Touches p (p.changed id r)
  /-- A point is hit. -/
  | hit (id : Nat) (name : String) : Touches p (p.hit id name).2

theorem touches_commit {p : Host} {x : Except Refusal Host} (hx : ∀ q, x = .ok q → Touches p q) :
    Touches p (commit p x).2 := by
  cases x with
  | ok q => exact hx q rfl
  | error why => exact .nothing

theorem touches_apply {p q : Host} {id : Nat} {r : Request} (h : p.apply id r = .ok q) :
    Touches p q := by
  obtain ⟨-, plan, -, rfl⟩ := (Host.apply_eq_ok_iff p q id r).mp h
  exact .changed id _

theorem touches_handle (p : Host) (id : Nat) (c : Control.Command) :
    Touches p (Control.handle p id c).2 := by
  cases c with
  | inject r =>
      simp only [Control.handle]
      cases happly : p.apply id r with
      | ok q => exact touches_apply happly
      | error why => exact .nothing
  | deactivate name => exact .changed id _
  | deactivateAll => exact .changed id _
  | _ => exact .nothing

theorem touches_perform (p : Host) (op : Operation) : Touches p (perform p op).2 := by
  cases op with
  | found => exact .found
  | arm id name tag params =>
      refine touches_commit fun q hq => ?_
      obtain ⟨-, plan, -, rfl⟩ := (Host.arm_eq_ok_iff p q id name tag params).mp hq
      exact .changed id _
  | activate id name plan =>
      refine touches_commit fun q hq => ?_
      obtain ⟨-, rfl⟩ := (Host.activate_eq_ok_iff p q id name plan).mp hq
      exact .changed id _
  | apply id r => exact touches_commit fun q hq => touches_apply hq
  | command id c => exact touches_handle p id c
  | deactivate id name => exact .changed id _
  | deactivateAll id => exact .changed id _
  | strike way id name =>
      rw [perform, strike_eq]
      exact .hit id name
  | ask id query => exact .nothing

end Run

namespace Fault.Host

/-! ## The registries that there are -/

/-- A registry exists: it was made, or something was done to it. -/
def Knows (p : Host) (id : Nat) : Prop := (p.registries.find? id).isSome = true

instance (p : Host) (id : Nat) : Decidable (p.Knows id) := by
  unfold Knows
  infer_instance

/-- A registry that is made is a new one. -/
theorem not_knows_unused (p : Host) : ¬ p.Knows p.unused := by
  simp [Knows, find?_unused p]

theorem knows_found_iff (p : Host) (id : Nat) :
    p.found.2.Knows id ↔ id = p.unused ∨ p.Knows id := by
  simp only [Knows, found, Catalog.find?_insert]
  split <;> simp_all

variable {p : Host} {id : Nat}

theorem Knows.changed (h : p.Knows id) (id' : Nat) (r : Registry) : (p.changed id' r).Knows id := by
  simp only [Knows, Host.changed, Catalog.find?_insert]
  split
  · rfl
  · exact h

theorem Knows.hit (h : p.Knows id) (id' : Nat) (name : String) : (p.hit id' name).2.Knows id := by
  cases hentry : p.entry id' name with
  | none =>
      rw [hit_of_none hentry]
      exact h
  | some d =>
      rw [Knows, (hit_of_some hentry).2]
      exact h.changed id' _

theorem Knows.touches (h : p.Knows id) {q : Host} (hq : Run.Touches p q) : q.Knows id := by
  cases hq with
  | nothing => exact h
  | found => exact (knows_found_iff _ _).mpr (Or.inr h)
  | changed id' r => exact h.changed id' r
  | hit id' name => exact h.hit id' name

theorem Knows.final (h : p.Knows id) (ops : List Run.Operation) : (Run.final p ops).Knows id := by
  induction ops generalizing p with
  | nil => exact h
  | cons op rest ih => exact ih (h.touches (Run.touches_perform p op))

/-- **A registry that exists goes on existing**, whatever happens in the process. -/
theorem Knows.next (h : p.Knows id) (s : Run.Step) : (s.next p).Knows id := by
  rw [Run.next_eq_final]
  exact h.final _

/-- A build that is not supplied with a registry makes one. -/
theorem knows_unused_build {a : Node.Assembly} (hsupplied : a.supplied = none)
    (e : Settings.Environment) (p : Host) : (a.build e p).2.1.Knows p.unused := by
  have hfound : p.found.2.Knows p.unused := (knows_found_iff _ _).mpr (Or.inl rfl)
  have hbuild : (a.build e p).2.1 = (Run.Step.build a e).next p := rfl
  rw [hbuild, Run.next_eq_final, Run.Step.operations, Run.final_append, ← Run.host_target,
    Run.target, hsupplied]
  exact hfound.final _

end Fault.Host

namespace Node.Assembly

/-! ## Steps -/

/-- The steps of an assembly. -/
inductive Step where
  /-- A registry is supplied. -/
  | supply (id : Nat)
  /-- The node is built. -/
  | build (e : Settings.Environment)
  /-- Queries of metrics are listened for. -/
  | expose
  /-- Commands are listened for, while some addresses are taken. -/
  | listen (taken : Net.Endpoint → Bool)
  /-- Something else happens in the process. -/
  | meanwhile (s : Run.Step)

namespace Step

/-- The assembly and the host after a step.  The server of the metrics knows nothing of the
registries. -/
def next (a : Assembly) (p : Host) : Step → Except Failure (Assembly × Host)
  | supply id => .ok (a.supply id, p)
  | build e =>
    let (result, q, _) := a.build e p
    result.map fun b => (b, q)
  | expose => .ok (a, p)
  | listen taken => (a.listen taken).map fun heard => (heard.1, p)
  | meanwhile s => .ok (a, s.next p)

/-- Whether a step supplies a registry. -/
def supplies : Step → Bool
  | supply _ => true
  | _ => false

/-- Whether a step builds the node. -/
def builds : Step → Bool
  | build _ => true
  | _ => false

/-- Whether a registry that was supplied before a step no longer waits behind it: another one is
supplied, or it is used up. -/
def spends (x : Step) : Bool := x.supplies || x.builds

/-- Whether a step listens for commands. -/
def listens : Step → Bool
  | listen _ => true
  | _ => false

end Step

/-- The assembly and the host after steps, unless one of them fails. -/
def after : Assembly → Host → List Step → Except Failure (Assembly × Host)
  | a, p, [] => .ok (a, p)
  | a, p, x :: rest => x.next a p >>= fun made => after made.1 made.2 rest

theorem after_append_eq_ok_iff {a : Assembly} {p : Host} {steps more : List Step}
    {made : Assembly × Host} :
    a.after p (steps ++ more) = .ok made ↔
      ∃ b q, a.after p steps = .ok (b, q) ∧ b.after q more = .ok made := by
  induction steps generalizing a p with
  | nil => simp [after]
  | cons x rest ih =>
      simp only [List.cons_append, after, bind_eq_ok_iff, ih]
      constructor
      · rintro ⟨made', hx, b, q, hrest, hmore⟩
        exact ⟨b, q, ⟨made', hx, hrest⟩, hmore⟩
      · rintro ⟨b, q, ⟨made', hx, hrest⟩, hmore⟩
        exact ⟨made', hx, b, q, hrest, hmore⟩

/-- Once the first steps are taken, the others go on from there. -/
theorem after_append_of_ok {a b : Assembly} {p q : Host} {steps : List Step}
    (h : a.after p steps = .ok (b, q)) (more : List Step) :
    a.after p (steps ++ more) = b.after q more := by
  induction steps generalizing a p with
  | nil =>
      cases h
      rfl
  | cons x rest ih =>
      obtain ⟨⟨b', q'⟩, hx, hrest⟩ := bind_eq_ok_iff.mp h
      rw [List.cons_append, after, hx]
      exact ih hrest

theorem after_singleton (a : Assembly) (p : Host) (x : Step) : a.after p [x] = x.next a p := by
  rw [after]
  cases x.next a p <;> rfl

/-- **What a step can do**, if it does not fail. -/
inductive Leads (a : Assembly) (p : Host) : Step → Assembly → Host → Prop where
  /-- A registry waits for the next build. -/
  | supply (id : Nat) : Leads a p (.supply id) (a.supply id) p
  /-- There is a node, and the registry that was supplied is used up. -/
  | build (e : Settings.Environment) :
      Leads a p (.build e)
        { a with supplied := none, node := some (nodeOf a.settings (Run.target a p).1) }
        (a.build e p).2.1
  /-- Nothing changes. -/
  | expose : Leads a p .expose a p
  /-- The settings want nothing to be listened for. -/
  | silent (taken : Net.Endpoint → Bool) (hoff : a.settings.control.enabled = false) :
      Leads a p (.listen taken) a p
  /-- There is a node, and one more channel for its controller. -/
  | listen (taken : Net.Endpoint → Bool) {n : Node} (hon : a.settings.control.enabled = true)
      (hnode : a.node = some n) :
      Leads a p (.listen taken)
        { a with channels := ⟨a.settings.control.address, n.controller⟩ :: a.channels } p
  /-- Only the host changes. -/
  | meanwhile (s : Run.Step) : Leads a p (.meanwhile s) a (s.next p)

variable {a b : Assembly} {p q : Host} {x : Step}

theorem leads_of_next (h : x.next a p = .ok (b, q)) : Leads a p x b q := by
  cases x with
  | supply id =>
      cases h
      exact .supply id
  | build e =>
      obtain ⟨b', hb', hmade⟩ := map_eq_ok_iff.mp h
      obtain ⟨rfl, rfl⟩ := Prod.mk.inj hmade
      obtain ⟨-, -, -, rfl⟩ := build_eq_ok_iff.mp hb'
      exact .build e
  | expose =>
      cases h
      exact .expose
  | listen taken =>
      obtain ⟨⟨b', heard⟩, hlisten, hmade⟩ := map_eq_ok_iff.mp h
      obtain ⟨rfl, rfl⟩ := Prod.mk.inj hmade
      cases hon : a.settings.control.enabled with
      | false =>
          simp only [Assembly.listen, hon, Bool.not_false, if_true] at hlisten
          cases hlisten
          exact .silent taken hon
      | true =>
          simp only [Assembly.listen, hon, Bool.not_true, Bool.false_eq_true, if_false] at hlisten
          split at hlisten
          · cases hlisten
          · rename_i n hnode
            split at hlisten
            · cases hlisten
            · cases hlisten
              exact .listen taken hon hnode
  | meanwhile s =>
      cases h
      exact .meanwhile s

/-- **From one step to all**: what there is at the start, and after a step if it was there before
the step, is there after all steps. -/
theorem after_induct {P : List Step → Assembly → Host → Prop} (hstart : P [] a p)
    (hstep : ∀ {steps b q x b' q'}, a.after p steps = .ok (b, q) → P steps b q →
      Leads b q x b' q' → P (steps ++ [x]) b' q')
    {steps : List Step} (h : a.after p steps = .ok (b, q)) : P steps b q := by
  induction steps using List.reverseRecOn generalizing b q with
  | nil =>
      cases h
      exact hstart
  | append_singleton steps x ih =>
      obtain ⟨b', q', hsteps, hx⟩ := after_append_eq_ok_iff.mp h
      rw [after_singleton] at hx
      exact hstep hsteps (ih hsteps) (leads_of_next hx)

/-! ## What all steps keep -/

/-- **What all steps keep.** -/
structure Onward (a : Assembly) (p : Host) (b : Assembly) (q : Host) : Prop where
  /-- The settings stay as they are. -/
  settings : b.settings = a.settings
  /-- No registry is forgotten. -/
  knows : ∀ id, p.Knows id → q.Knows id

theorem Leads.onward (h : Leads a p x b q) : Onward a p b q := by
  cases h with
  | build e => exact ⟨rfl, fun id hid => hid.next (.build a e)⟩
  | meanwhile s => exact ⟨rfl, fun id hid => hid.next s⟩
  | _ => exact ⟨rfl, fun _ hid => hid⟩

theorem onward_of_after {steps : List Step} (h : a.after p steps = .ok (b, q)) :
    Onward a p b q := by
  refine after_induct (P := fun _ b q => Onward a p b q) ⟨rfl, fun _ hid => hid⟩ ?_ h
  intro steps b q x b' q' _ hkept hx
  exact ⟨hx.onward.settings.trans hkept.settings,
    fun id hid => hx.onward.knows id (hkept.knows id hid)⟩

end Node.Assembly

end FaultPoints
