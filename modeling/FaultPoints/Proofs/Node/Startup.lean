import FaultPoints.Proofs.Run.Reachable

/-!
# What the check of settings means for a start

Settings are checked before a node is built of them.  The check makes the plan of each fault that
is to be armed at the start, so no plan is refused later; but it does not look at names.  So a node
is built of checked settings iff the names of all faults may name points, and the first name that
may not is all that can be wrong.  In the same way the check only asks of the point of the
heartbeat that it is not blank, and there are texts that are not blank and name no point.

## Main Definitions

* `checkNames` — the first of the names that is none

## Main Statements

* `checkFaults_eq_ok_iff` — faults are sound iff each of them describes a plan
* `build_eq_ok_iff` — when a node is built at all
* `build_eq` — what comes of building a node of faults that describe plans
* `build_of_checked` — when a node is built of checked settings, and when its heartbeat can be
  reached
-/

namespace FaultPoints

open FaultPoints.Fault

namespace Settings

/-- Faults to arm at the start are sound iff each of them describes a plan. -/
theorem checkFaults_eq_ok_iff (rs : List Request) :
    checkFaults rs = .ok () ↔ ∀ r ∈ rs, ∃ plan, r.Describes plan := by
  induction rs with
  | nil => simp [checkFaults]
  | cons r rs ih =>
      have hfault : checkFault r = .ok () ↔ ∃ plan, r.Describes plan := by
        simp only [← plan_eq_ok_iff]
        unfold checkFault
        cases r.plan <;> simp
      rw [checkFaults, bind_eq_ok_iff, List.forall_mem_cons, ← ih, ← hfault]
      constructor
      · rintro ⟨_, hr, hrs⟩
        exact ⟨hr, hrs⟩
      · rintro ⟨hr, hrs⟩
        exact ⟨(), hr, hrs⟩

end Settings

namespace Node

/-- The first of the names of requests that may not name a point is refused. -/
def checkNames : List Request → Except Refusal Unit
  | [] => .ok ()
  | r :: rest => checkName r.name >>= fun _ => checkNames rest

theorem checkNames_eq_ok_iff (rs : List Request) :
    checkNames rs = .ok () ↔ ∀ r ∈ rs, IsName r.name := by
  induction rs with
  | nil => simp [checkNames]
  | cons r rs ih =>
      rw [checkNames, bind_eq_ok_iff, List.forall_mem_cons, ← ih, ← checkName_eq_ok_iff]
      constructor
      · rintro ⟨_, hr, hrs⟩
        exact ⟨hr, hrs⟩
      · rintro ⟨hr, hrs⟩
        exact ⟨(), hr, hrs⟩

theorem exists_of_checkNames_eq_error {rs : List Request} {why : Refusal}
    (h : checkNames rs = .error why) : ∃ r ∈ rs, checkName r.name = .error why := by
  induction rs with
  | nil => cases h
  | cons r rs ih =>
      cases hr : checkName r.name with
      | error why' =>
          rw [checkNames, hr] at h
          exact ⟨r, List.mem_cons_self, hr.trans h⟩
      | ok =>
          rw [checkNames, hr] at h
          obtain ⟨r', hr', hwhy⟩ := ih h
          exact ⟨r', List.mem_cons_of_mem _ hr', hwhy⟩

namespace Assembly

/-- Requests that describe plans are armed until a name is refused. -/
theorem armAll_eq {rs : List Request} (h : ∀ r ∈ rs, ∃ plan, r.Describes plan) (id : Nat)
    (member : String) (p : Host) : (armAll id member rs p).1 = checkNames rs := by
  induction rs generalizing p with
  | nil => rfl
  | cons r rs ih =>
      obtain ⟨plan, hplan⟩ := h r List.mem_cons_self
      have hrest := ih fun r' hr' => h r' (List.mem_cons_of_mem _ hr')
      have happly : p.apply id r = checkName r.name >>= fun _ => .ok (p.armed id r.name plan) := by
        rw [Host.apply_eq, (plan_eq_ok_iff r plan).mpr hplan]
        cases hname : checkName r.name <;>
          simp [Host.activate, Registry.activate, Host.armed, hname, bind, Except.bind, pure,
            Except.pure]
      cases hname : checkName r.name with
      | error why =>
          simp [armAll, arm, happly, checkNames, hname, bind, Except.bind]
      | ok =>
          simp [armAll, arm, happly, checkNames, hname, hrest, bind, Except.bind, pure,
            Except.pure]

/-- What comes of a build, by what comes of arming the faults of the start. -/
theorem build_of_startFaults {a : Assembly} {e : Settings.Environment} {faults : List Request}
    (h : Settings.startFaults a.settings e = .ok faults) (p : Host) :
    (a.build e p).1 =
      (((armAll (Run.target a p).1 a.settings.node.name faults (Run.target a p).2).1.mapError
        Failure.refused).map fun _ =>
          { a with supplied := none, node := some (nodeOf a.settings (Run.target a p).1) }) := by
  cases hsupplied : a.supplied <;> simp only [build, Run.target, hsupplied, h]
  all_goals
    split <;> rename_i heq <;> rw [heq]
    all_goals rfl

/-- **When a node is built**, and what the assembly is then. -/
theorem build_eq_ok_iff {a b : Assembly} {e : Settings.Environment} {p : Host} :
    (a.build e p).1 = .ok b ↔ ∃ faults, Settings.startFaults a.settings e = .ok faults ∧
      (armAll (Run.target a p).1 a.settings.node.name faults (Run.target a p).2).1 = .ok () ∧
      b = { a with supplied := none, node := some (nodeOf a.settings (Run.target a p).1) } := by
  cases hfaults : Settings.startFaults a.settings e with
  | error why =>
      have hbuild : (a.build e p).1 = .error (.ofBoot why) := by
        cases hsupplied : a.supplied <;> simp only [build, hsupplied, hfaults]
      simp [hbuild]
  | ok faults =>
      rw [build_of_startFaults hfaults, map_eq_ok_iff]
      simp only [mapError_eq_ok_iff, Except.ok.injEq, exists_eq_left']
      constructor
      · rintro ⟨_, harmed, rfl⟩
        exact ⟨harmed, rfl⟩
      · rintro ⟨harmed, rfl⟩
        exact ⟨(), harmed, rfl⟩

/-- What comes of building a node where each fault of the settings describes a plan and the
environment describes none. -/
theorem build_eq {a : Assembly} {e : Settings.Environment}
    (h : ∀ r ∈ a.settings.faults, ∃ plan, r.Describes plan)
    (he : e.trimmed? "FAULT_POINT" = none) (p : Host) :
    (a.build e p).1 =
      ((checkNames a.settings.faults).mapError Failure.refused).map fun _ =>
        { a with supplied := none, node := some (nodeOf a.settings (Run.target a p).1) } := by
  have hfaults : Settings.startFaults a.settings e = .ok a.settings.faults := by
    rw [Settings.startFaults, (Settings.Environment.fault_none_iff e).mpr he]
    simp [bind, Except.bind, pure, Except.pure]
  rw [build_of_startFaults hfaults, armAll_eq h]

/-- **Building from checked settings.**  Where the environment describes no fault, a node is built
of checked settings iff the names of their faults may name points; otherwise one of the names is
refused.  Under parameters that have a plan the point of the heartbeat is armed iff it may name a
point. -/
theorem build_of_checked {a : Assembly} (hcheck : a.settings.check = .ok ())
    {e : Settings.Environment} (he : e.trimmed? "FAULT_POINT" = none) (p : Host) :
    ((∃ b, (a.build e p).1 = .ok b) ↔ ∀ r ∈ a.settings.faults, IsName r.name) ∧
      (∀ failure, (a.build e p).1 = .error failure →
        ∃ r ∈ a.settings.faults, ∃ why, checkName r.name = .error why ∧
          failure = .refused why) ∧
      ∀ (id : Nat) (tag : Tag) (params : Params) (plan : Plan),
        Plan.ofParams tag params = .ok plan →
          ((∃ q, p.arm id a.settings.heartbeat.point tag params = .ok q) ↔
            IsName a.settings.heartbeat.point) := by
  have hplans := (Settings.checkFaults_eq_ok_iff a.settings.faults).mp
    ((Settings.check_ok_iff a.settings).mp hcheck).2.2.2.2
  rw [build_eq hplans he]
  refine ⟨?_, fun failure hfailure => ?_, fun id tag params plan hplan => ?_⟩
  · rw [← checkNames_eq_ok_iff]
    cases checkNames a.settings.faults <;> simp [Except.map, Except.mapError]
  · cases hnames : checkNames a.settings.faults with
    | error why =>
        rw [hnames] at hfailure
        obtain ⟨r, hr, hwhy⟩ := exists_of_checkNames_eq_error hnames
        exact ⟨r, hr, why, hwhy, (Except.error.inj hfailure).symm⟩
    | ok =>
        rw [hnames] at hfailure
        cases hfailure
  · constructor
    · rintro ⟨q, hq⟩
      exact ((Host.arm_eq_ok_iff _ _ _ _ _ _).mp hq).1
    · intro hname
      exact ⟨_, (Host.arm_eq_ok_iff _ _ _ _ _ _).mpr ⟨hname, plan, hplan, rfl⟩⟩

/-- Settings that are sound, with a fault and a heartbeat at points that have no names. -/
def namelessSettings : Settings :=
  { Settings.default with
    heartbeat := { Settings.HeartbeatSection.default with point := "ha cycle" }
    faults := [⟨"bad name", .exception, none, none, none⟩] }

theorem build_of_checked_nameless :
    namelessSettings.check = .ok () ∧
      (((start namelessSettings).supply 0).build [] .start).1 =
        .error (.refused (.nameCharacter "bad name" ' ')) ∧
      ¬ ∃ q, Host.start.arm 0 "ha cycle" .marker ⟨none, none, none⟩ = .ok q := by
  have hcheck : ((start namelessSettings).supply 0).settings.check = .ok () := by decide +kernel
  have hpoint := (build_of_checked hcheck (e := []) rfl .start).2.2
  refine ⟨hcheck, by decide +kernel, fun harmed => ?_⟩
  have hname := (hpoint 0 .marker ⟨none, none, none⟩ ⟨.marker, .all⟩ rfl).mp harmed
  exact absurd ((checkName_eq_ok_iff _).mpr hname) (by decide +kernel)

/-- Not every node can be built of checked settings. -/
theorem not_built_of_checked :
    ¬ ∀ (s : Settings) (id : Nat) (p : Host), s.check = .ok () →
      ∃ b, (((start s).supply id).build [] p).1 = .ok b := by
  intro h
  obtain ⟨b, hb⟩ := h namelessSettings 0 .start (by decide +kernel)
  have hrefused : (((start namelessSettings).supply 0).build [] .start).1 =
      .error (.refused (.nameCharacter "bad name" ' ')) := by decide +kernel
  rw [hrefused] at hb
  cases hb

end Assembly

end Node

end FaultPoints
