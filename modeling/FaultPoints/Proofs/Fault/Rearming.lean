import FaultPoints.Proofs.Fault.Frame
import Mathlib.Data.String.Basic

/-!
# Arming points as they are armed elsewhere

The descriptors of one registry are put in force in another, one after the other and in any order.
Each name comes to have the plan of its descriptor, with no hits, and the other names are left as
they were; once that is so, doing it again changes nothing that can be told.

## Main Definitions

* `Host.rearmed` — a host with points armed under the plans of descriptors
* `Host.Alike` — hosts that differ in nothing that can be told

## Main Statements

* `entry_rearmed_of_mem`, `entry_rearmed_of_not_mem` — what the registry holds afterwards
* `alike_rearmed` — arming the points again changes nothing
-/

namespace FaultPoints.Fault

namespace Host

/-- A host with points armed one after another under the plans of descriptors. -/
def rearmed (p : Host) (id : Nat) : List Descriptor → Host
  | [] => p
  | d :: ds => (p.armed id d.name d.plan).rearmed id ds

/-- Two hosts that differ in nothing that can be told. -/
structure Alike (p q : Host) : Prop where
  /-- The registries are the same. -/
  registry : ∀ id, p.registry id = q.registry id
  /-- The counters are. -/
  tally : p.tally = q.tally
  /-- The gauge is. -/
  gauge : p.gauge = q.gauge

theorem Alike.refl (p : Host) : p.Alike p := ⟨fun _ => rfl, rfl, rfl⟩

theorem Alike.trans {p q s : Host} (h : p.Alike q) (h' : q.Alike s) : p.Alike s :=
  ⟨fun id => (h.registry id).trans (h'.registry id), h.tally.trans h'.tally,
    h.gauge.trans h'.gauge⟩

theorem Alike.entry {p q : Host} (h : p.Alike q) (id : Nat) (name : String) :
    p.entry id name = q.entry id name := by
  rw [Host.entry, h.registry id, Host.entry]

/-! ## What is armed afterwards -/

theorem entry_rearmed_of_not_mem {id : Nat} {name : String} {ds : List Descriptor}
    (h : name ∉ ds.map (·.name)) (p : Host) :
    (p.rearmed id ds).entry id name = p.entry id name := by
  induction ds generalizing p with
  | nil => rfl
  | cons d ds ih =>
      rw [List.map_cons, List.mem_cons, not_or] at h
      rw [rearmed, ih h.2, entry_armed, if_neg fun hname => h.1 hname.2]

/-- Each name comes to have the plan of its descriptor, with no hits. -/
theorem entry_rearmed_of_mem {id : Nat} {d : Descriptor} {ds : List Descriptor}
    (hnodup : (ds.map (·.name)).Nodup) (hd : d ∈ ds) (p : Host) :
    (p.rearmed id ds).entry id d.name = some ⟨d.name, d.plan, 0⟩ := by
  induction ds generalizing p with
  | nil => cases hd
  | cons d' ds ih =>
      rw [List.map_cons, List.nodup_cons] at hnodup
      rcases List.mem_cons.mp hd with rfl | hd
      · rw [rearmed, entry_rearmed_of_not_mem hnodup.1, entry_armed, if_pos ⟨rfl, rfl⟩]
      · exact ih hnodup.2 hd _

theorem ordered_rearmed {p : Host} {id : Nat} (h : (p.registry id).points.Ordered)
    (ds : List Descriptor) : ((p.rearmed id ds).registry id).points.Ordered := by
  induction ds generalizing p with
  | nil => exact h
  | cons d ds ih =>
      refine ih ?_
      rw [armed, registry_changed, if_pos rfl]
      exact Catalog.ordered_insert h _ _

/-- The gauge shows the registry that was changed last. -/
theorem gauge_armed (p : Host) (id : Nat) (name : String) (plan : Plan) :
    (p.armed id name plan).gauge = ((p.armed id name plan).registry id).size := by
  rw [armed, registry_changed, if_pos rfl]
  rfl

theorem gauge_rearmed {p : Host} {id : Nat} (h : p.gauge = (p.registry id).size)
    (ds : List Descriptor) : (p.rearmed id ds).gauge = ((p.rearmed id ds).registry id).size := by
  induction ds generalizing p with
  | nil => exact h
  | cons d ds ih => exact ih (gauge_armed p id d.name d.plan)

theorem gauge_rearmed_cons (p : Host) (id : Nat) (d : Descriptor) (ds : List Descriptor) :
    (p.rearmed id (d :: ds)).gauge = ((p.rearmed id (d :: ds)).registry id).size :=
  gauge_rearmed (gauge_armed p id d.name d.plan) ds

/-! ## Arming the points again -/

/-- Arming a point that is armed under the plan already, and not hit since, changes nothing. -/
theorem alike_armed {p : Host} {id : Nat} {name : String} {plan : Plan}
    (hordered : (p.registry id).points.Ordered) (hentry : p.entry id name = some ⟨name, plan, 0⟩)
    (hgauge : p.gauge = (p.registry id).size) : (p.armed id name plan).Alike p := by
  have hregistry : (p.armed id name plan).registry id = p.registry id := by
    rw [armed, registry_changed, if_pos rfl]
    exact congrArg Registry.mk (Catalog.insert_of_find? hordered hentry)
  refine ⟨fun id' => ?_, rfl, ?_⟩
  · by_cases hid : id' = id
    · rw [hid, hregistry]
    · rw [armed, registry_changed, if_neg hid]
  · rw [gauge_armed, hregistry, hgauge]

/-- **Arming points again changes nothing.** -/
theorem alike_rearmed {p : Host} {id : Nat} {ds : List Descriptor}
    (hordered : (p.registry id).points.Ordered)
    (hentries : ∀ d ∈ ds, p.entry id d.name = some ⟨d.name, d.plan, 0⟩)
    (hgauge : ds ≠ [] → p.gauge = (p.registry id).size) : (p.rearmed id ds).Alike p := by
  induction ds generalizing p with
  | nil => exact .refl p
  | cons d ds ih =>
      obtain ⟨hentry, hentries⟩ := List.forall_mem_cons.mp hentries
      have halike := alike_armed hordered hentry (hgauge (List.cons_ne_nil d ds))
      refine (ih ?_ (fun d' hd' => ?_) fun _ => gauge_armed p id d.name d.plan).trans halike
      · rw [halike.registry id]
        exact hordered
      · rw [halike.entry]
        exact hentries d' hd'

end Host

end FaultPoints.Fault
