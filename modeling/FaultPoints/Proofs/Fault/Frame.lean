import FaultPoints.Fault.Host
import FaultPoints.Proofs.Catalog
import FaultPoints.Proofs.Fault.Acceptance

/-!
# What the operations of a host change

Everything that a hit can learn about a point is what its registry holds for the name of the point.
Each operation of a host is described here by what it makes of that entry and of all the others:
the operations that arm a point all come down to one change of the table, and none of the operations
reaches another registry.

## Main Definitions

* `Host.entry` — what a registry holds for a name
* `Host.armed` — a host with a point armed
* `Descriptor.struck` — a descriptor after one more hit

## Main Statements

* `activate_eq_ok_iff`, `arm_eq_ok_iff`, `apply_eq_ok_iff` — when a point is armed, and with which
  plan
* `entry_found`, `entry_armed`, `entry_deactivate`, `entry_deactivateAll`, `entry_hit` — each
  operation as `entry` sees it
* `outcome_hit` — what a hit returns, by the entry of its point
-/

namespace FaultPoints.Fault

/-- A descriptor after one more hit. -/
def Descriptor.struck (d : Descriptor) : Descriptor := { d with hits := countHit d.hits }

namespace Host

/-- What a registry holds for a name. -/
def entry (p : Host) (id : Nat) (name : String) : Option Descriptor :=
  (p.registry id).points.find? name

/-! ## Registries -/

@[simp] theorem registry_changed (p : Host) (id id' : Nat) (r : Registry) :
    (p.changed id r).registry id' = if id' = id then r else p.registry id' := by
  simp only [registry, changed, Catalog.find?_insert]
  split <;> rfl

@[simp] theorem entry_changed (p : Host) (id id' : Nat) (r : Registry) (name : String) :
    (p.changed id r).entry id' name =
      if id' = id then r.points.find? name else p.entry id' name := by
  rw [entry, registry_changed]
  split <;> rfl

/-- A number that is not below a fold of bounds is above every bound. -/
theorem lt_foldl_max (keys : List Nat) (start k : Nat) (h : k ∈ keys ∨ k < start) :
    k < keys.foldl (fun n k => max n (k + 1)) start := by
  induction keys generalizing start with
  | nil => simpa using h
  | cons k' rest ih =>
      apply ih
      rcases h with h | h
      · rcases List.mem_cons.mp h with rfl | h
        · exact Or.inr (Nat.lt_of_lt_of_le (Nat.lt_succ_self k) (Nat.le_max_right _ _))
        · exact Or.inl h
      · exact Or.inr (Nat.lt_of_lt_of_le h (Nat.le_max_left _ _))

/-- The number of a new registry is none of those that there are. -/
theorem find?_unused (p : Host) : p.registries.find? p.unused = none := by
  apply Catalog.find?_eq_none_of_not_mem
  intro hmem
  exact lt_irrefl _ (lt_foldl_max _ 0 _ (Or.inl hmem))

/-- The number of a new registry is not in use. -/
@[simp] theorem registry_unused (p : Host) : p.registry p.unused = .empty := by
  simp [registry, find?_unused p]

/-- A new registry is as empty as it was before it was used. -/
@[simp] theorem registry_found (p : Host) (id : Nat) : p.found.2.registry id = p.registry id := by
  have hfound : p.found.2.registry id = if id = p.unused then .empty else p.registry id := by
    simp only [registry, found, Catalog.find?_insert]
    split <;> rfl
  rw [hfound]
  split
  · rename_i h
    rw [h, registry_unused]
  · rfl

@[simp] theorem entry_found (p : Host) (id : Nat) (name : String) :
    p.found.2.entry id name = p.entry id name := by
  rw [entry, registry_found, entry]

/-! ## Arming a point -/

/-- A host with a point armed, whether it was before or not. -/
def armed (p : Host) (id : Nat) (name : String) (plan : Plan) : Host :=
  p.changed id ⟨(p.registry id).points.insert name ⟨name, plan, 0⟩⟩

/-- A plan can be put in force under every name. -/
theorem activate_eq_ok_iff (p q : Host) (id : Nat) (name : String) (plan : Plan) :
    p.activate id name plan = .ok q ↔ IsName name ∧ q = p.armed id name plan := by
  rw [← checkName_eq_ok_iff]
  simp only [activate, Registry.activate, bind_eq_ok_iff, pure, Except.pure, Except.ok.injEq]
  constructor
  · rintro ⟨_, ⟨_, hname, rfl⟩, rfl⟩
    exact ⟨hname, rfl⟩
  · rintro ⟨hname, rfl⟩
    exact ⟨_, ⟨(), hname, rfl⟩, rfl⟩

/-- A plan that is computed first is put in force iff there is one. -/
theorem bind_activate_eq_ok_iff (p q : Host) (id : Nat) (name : String) (x : Except Refusal Plan) :
    x >>= p.activate id name = .ok q ↔
      IsName name ∧ ∃ plan, x = .ok plan ∧ q = p.armed id name plan := by
  rw [bind_eq_ok_iff]
  constructor
  · rintro ⟨plan, hplan, hq⟩
    obtain ⟨hname, rfl⟩ := (activate_eq_ok_iff _ _ _ _ _).mp hq
    exact ⟨hname, plan, hplan, rfl⟩
  · rintro ⟨hname, plan, hplan, rfl⟩
    exact ⟨plan, hplan, (activate_eq_ok_iff _ _ _ _ _).mpr ⟨hname, rfl⟩⟩

/-- Parameters are armed by putting their plan in force. -/
theorem arm_eq (p : Host) (id : Nat) (name : String) (tag : Tag) (params : Params) :
    p.arm id name tag params = Plan.ofParams tag params >>= p.activate id name := by
  unfold arm Registry.arm
  cases Plan.ofParams tag params <;> rfl

/-- A request is applied by putting its plan in force. -/
theorem apply_eq (p : Host) (id : Nat) (r : Request) :
    p.apply id r = r.plan >>= p.activate id r.name := by
  unfold apply Registry.apply
  cases r.plan <;> rfl

/-- Parameters are armed successfully iff the name is one and they have a plan; then the point is
armed with that plan. -/
theorem arm_eq_ok_iff (p q : Host) (id : Nat) (name : String) (tag : Tag) (params : Params) :
    p.arm id name tag params = .ok q ↔
      IsName name ∧ ∃ plan, Plan.ofParams tag params = .ok plan ∧ q = p.armed id name plan := by
  rw [arm_eq, bind_activate_eq_ok_iff]

/-- A request is applied successfully iff its name is one and it describes a plan; then the point
is armed with that plan. -/
theorem apply_eq_ok_iff (p q : Host) (id : Nat) (r : Request) :
    p.apply id r = .ok q ↔
      IsName r.name ∧ ∃ plan, r.Describes plan ∧ q = p.armed id r.name plan := by
  simp only [apply_eq, bind_activate_eq_ok_iff, plan_eq_ok_iff]

/-- Where a request has parameters, applying it is arming them. -/
theorem apply_eq_arm {r : Request} {params : Params} (h : r.params = .ok params) (p : Host)
    (id : Nat) : p.apply id r = p.arm id r.name r.tag params := by
  rw [apply_eq, arm_eq, Request.plan, h]
  rfl

@[simp] theorem entry_armed (p : Host) (id id' : Nat) (name name' : String) (plan : Plan) :
    (p.armed id name plan).entry id' name' =
      if id' = id ∧ name' = name then some ⟨name, plan, 0⟩ else p.entry id' name' := by
  rw [armed, entry_changed, Catalog.find?_insert]
  by_cases hid : id' = id
  · subst hid
    by_cases hname : name' = name <;> simp [hname, entry]
  · simp [hid]

/-! ## Disarming points -/

@[simp] theorem entry_deactivate (p : Host) (id id' : Nat) (name name' : String) :
    (p.deactivate id name).2.entry id' name' =
      if id' = id ∧ name' = name then none else p.entry id' name' := by
  simp only [deactivate, entry_changed, Registry.deactivate, Catalog.find?_erase]
  by_cases hid : id' = id
  · subst hid
    by_cases hname : name' = name <;> simp [hname, entry]
  · simp [hid]

@[simp] theorem entry_deactivateAll (p : Host) (id id' : Nat) (name : String) :
    (p.deactivateAll id).entry id' name = if id' = id then none else p.entry id' name := by
  rw [deactivateAll, entry_changed]
  rfl

/-! ## Hits -/

/-- A hit on a point that is not armed changes nothing. -/
theorem hit_of_none {p : Host} {id : Nat} {name : String} (h : p.entry id name = none) :
    p.hit id name = (.proceed, p) := by
  have hfind : (p.registry id).points.find? name = none := h
  simp [hit, Registry.hit, hfind]

/-- A hit on an armed point is counted first and decided by the count. -/
theorem hit_of_some {p : Host} {id : Nat} {name : String} {d : Descriptor}
    (h : p.entry id name = some d) :
    (p.hit id name).1 = d.plan.outcome d.struck.hits ∧
      (p.hit id name).2.registries =
        p.registries.insert id ⟨(p.registry id).points.insert name d.struck⟩ := by
  have hfind : (p.registry id).points.find? name = some d := h
  simp [hit, Registry.hit, hfind, Descriptor.struck]

theorem entry_hit (p : Host) (id id' : Nat) (name name' : String) :
    (p.hit id name).2.entry id' name' =
      if id' = id ∧ name' = name then (p.entry id name).map Descriptor.struck
      else p.entry id' name' := by
  cases h : p.entry id name with
  | none =>
      rw [hit_of_none h]
      split
      · rename_i hsame
        rw [hsame.1, hsame.2, h]
        rfl
      · rfl
  | some d =>
      have hregistries := (hit_of_some h).2
      by_cases hid : id' = id
      · subst hid
        by_cases hname : name' = name
        · simp [entry, registry, hregistries, Catalog.find?_insert, hname]
        · simp [entry, registry, hregistries, Catalog.find?_insert, hname]
      · simp [entry, registry, hregistries, Catalog.find?_insert, hid]

/-- What a hit returns, by the entry of its point. -/
theorem outcome_hit (p : Host) (id : Nat) (name : String) :
    (p.hit id name).1 =
      (p.entry id name).elim .proceed fun d => d.plan.outcome d.struck.hits := by
  cases h : p.entry id name with
  | none => rw [hit_of_none h]; rfl
  | some d => exact (hit_of_some h).1

end Host

end FaultPoints.Fault
