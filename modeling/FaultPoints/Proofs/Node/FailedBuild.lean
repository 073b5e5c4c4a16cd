import FaultPoints.Proofs.Node.LastWins

/-!
# What a failed build leaves behind

A build arms the faults of the start one after another, and the first one that is refused ends it.
Nothing is taken back: whatever was armed before stays armed in the registry that was supplied, and
a point that was in use before the build has lost its plan and its hits to a request of the same
name.  Only where the environment cannot be read, or where the very first fault is refused, is
nothing armed at all.

So a failed build does to a registry exactly what a build of the faults before the refused one would
have done, and the registry is as it was iff these faults were in force before and had no hits.

## Main Definitions

* `Request.Refuses` — a request cannot be applied
* `Assembly.Fails` — why a build fails, and which requests it has applied by then
* `Assembly.Leaves` — what stands in the registries after a failed build

## Main Statements

* `exists_split_of_armAll` — arming the points of requests one by one ends at the first refusal
* `LastWins.intact_iff` — when requests leave a registry as it was
* `failed_build` — why a build fails, and what it leaves behind
-/

namespace FaultPoints

open FaultPoints.Fault

/-- A request is refused: for its parameters, or for its name where its parameters are sound. -/
def Fault.Request.Refuses (r : Request) (why : Refusal) : Prop :=
  r.plan = .error why ∨ (∃ plan, r.plan = .ok plan) ∧ checkName r.name = .error why

/-- Whether a request is refused does not depend on the registry. -/
theorem Fault.Host.apply_eq_error_iff (p : Host) (id : Nat) (r : Request) (why : Refusal) :
    p.apply id r = .error why ↔ r.Refuses why := by
  rw [Host.apply_eq, Request.Refuses]
  cases hplan : r.plan with
  | error why' => simp [bind, Except.bind]
  | ok plan =>
      cases hname : checkName r.name <;>
        simp [bind, Except.bind, Host.activate, Registry.activate, hname, pure, Except.pure]

namespace Node

/-- **When requests leave a registry as it was**: if what they arm was in force before, without
hits. -/
theorem LastWins.intact_iff {rs : List Request} {was : String → Option Descriptor} {id : Nat}
    {q : Host} (h : LastWins rs was id q) :
    (∀ name, q.entry id name = was name) ↔
      ∀ name r, lastFor name rs = some r →
        ∃ plan, r.plan = .ok plan ∧ was name = some ⟨name, plan, 0⟩ := by
  constructor
  · intro hintact name r hlast
    obtain ⟨plan, hplan, hentry⟩ := h.listed name r hlast
    exact ⟨plan, hplan, (hintact name).symm.trans hentry⟩
  · intro hforce name
    cases hlast : lastFor name rs with
    | none => exact h.unlisted name ((lastFor_eq_none_iff name rs).mp hlast)
    | some r =>
        obtain ⟨plan, hplan, hentry⟩ := h.listed name r hlast
        obtain ⟨plan', hplan', hwas⟩ := hforce name r hlast
        obtain rfl : plan = plan' := Except.ok.inj (hplan.symm.trans hplan')
        rw [hentry, hwas]

namespace Assembly

/-- **Arming ends at the first refusal**, and what was armed before stays armed. -/
theorem exists_split_of_armAll {id : Nat} {member : String} {rs : List Request} {p : Host}
    {why : Refusal} (h : (armAll id member rs p).1 = .error why) :
    ∃ applied r rest, rs = applied ++ r :: rest ∧ r.Refuses why ∧
      (armAll id member applied p).1 = .ok () ∧
      (armAll id member rs p).2.1 = (armAll id member applied p).2.1 := by
  induction rs generalizing p with
  | nil => cases h
  | cons r rs ih =>
      cases happly : p.apply id r with
      | error why' =>
          have harm : arm p id member r = .error why' := by rw [arm, happly]; rfl
          rw [armAll, harm] at h ⊢
          obtain rfl : why' = why := Except.error.inj h
          exact ⟨[], r, rs, rfl, (p.apply_eq_error_iff id r why').mp happly, rfl, rfl⟩
      | ok q =>
          -- The first request is applied, so the refused one is among the others.
          obtain ⟨told, harm⟩ : ∃ told, arm p id member r = .ok (q, told) := by
            rw [arm, happly]
            exact ⟨_, rfl⟩
          have hcons : ∀ rs', (armAll id member (r :: rs') p).1 = (armAll id member rs' q).1 ∧
              (armAll id member (r :: rs') p).2.1 = (armAll id member rs' q).2.1 := by
            intro rs'
            rw [armAll, harm]
            exact ⟨rfl, rfl⟩
          obtain ⟨applied, r', rest, rfl, hrefuses, hok, hhost⟩ := ih ((hcons rs).1 ▸ h)
          refine ⟨r :: applied, r', rest, rfl, hrefuses, ?_, ?_⟩
          · rw [(hcons applied).1, hok]
          · rw [(hcons _).2, (hcons applied).2, hhost]

/-- **Why a build fails**, with the requests that it has applied by then. -/
inductive Fails (a : Assembly) (e : Settings.Environment) : List Request → Failure → Prop where
  /-- The environment describes a fault that cannot be read. -/
  | environment {why : Settings.BootError} (fault : e.fault = .error why) :
      Fails a e [] (.ofBoot why)
  /-- One of the faults of the start is refused, and all those before it are not. -/
  | refused {extra : Option Request} {applied : List Request} {r : Request}
      {rest : List Request} {why : Refusal} (fault : e.fault = .ok extra)
      (split : a.settings.faults ++ extra.toList = applied ++ r :: rest)
      (refuses : r.Refuses why) : Fails a e applied (.refused why)

/-- **What a failed build leaves behind**, by the requests that it has applied. -/
structure Leaves (a : Assembly) (p : Host) (applied : List Request) (q : Host) : Prop where
  /-- In the registry that was supplied the last of these requests for a name wins, and the other
  names keep what they had. -/
  wins : LastWins applied (fun name => a.supplied.bind fun id => p.entry id name)
    (a.supplied.getD p.unused) q
  /-- No other registry has changed. -/
  elsewhere : ∀ id, id ≠ a.supplied.getD p.unused → q.registry id = p.registry id
  /-- The registry that was supplied is as it was iff what these requests arm was in force before,
  without hits. -/
  intact : ∀ id, a.supplied = some id →
    ((∀ name, q.entry id name = p.entry id name) ↔
      ∀ name r, lastFor name applied = some r →
        ∃ plan, r.plan = .ok plan ∧ p.entry id name = some ⟨name, plan, 0⟩)
  /-- If none was applied, every registry is as it was. -/
  untouched : applied = [] → ∀ id, q.registry id = p.registry id

/-- What the requests that a build has applied make of the registries. -/
theorem leaves_armAll {a : Assembly} {p : Host} (member : String) {applied : List Request}
    (h : (armAll (Run.target a p).1 member applied (Run.target a p).2).1 = .ok ()) :
    Leaves a p applied (armAll (Run.target a p).1 member applied (Run.target a p).2).2.1 := by
  obtain ⟨hid, hwas, hregistry⟩ := target_spec a p
  obtain ⟨hwins, hothers⟩ := lastWins_armAll h
  have hnone : applied = [] → (armAll (Run.target a p).1 member applied (Run.target a p).2).2.1 =
      (Run.target a p).2 := by
    rintro rfl
    rfl
  generalize (armAll (Run.target a p).1 member applied (Run.target a p).2).2.1 = q
    at hwins hothers hnone
  rw [hwas, hid] at hwins
  refine ⟨hwins, ?_, ?_, ?_⟩
  · intro id hne
    rw [hothers id (hid ▸ hne), hregistry id]
  · intro id hsupplied
    simp only [hsupplied, Option.getD_some, Option.bind_some] at hwins
    exact hwins.intact_iff
  · intro hempty id
    rw [hnone hempty, hregistry id]

/-- Where the environment cannot be read, the build fails for that reason. -/
theorem fst_build_of_error {a : Assembly} {e : Settings.Environment} {why : Settings.BootError}
    (h : Settings.startFaults a.settings e = .error why) (p : Host) :
    (a.build e p).1 = .error (.ofBoot why) := by
  cases hsupplied : a.supplied <;> simp only [build, hsupplied, h]

/-- **A failed build.**  It fails because the environment cannot be read or because one of the
faults of the start is refused, and it leaves behind what it has applied by then. -/
theorem failed_build {a : Assembly} {e : Settings.Environment} {p : Host} {failure : Failure}
    (h : (a.build e p).1 = .error failure) :
    ∃ applied, Fails a e applied failure ∧ Leaves a p applied (a.build e p).2.1 := by
  cases hfault : e.fault with
  | error why =>
      have hfaults : Settings.startFaults a.settings e = .error why := by
        rw [Settings.startFaults, hfault]
        rfl
      obtain rfl : Failure.ofBoot why = failure := by
        rw [fst_build_of_error hfaults] at h
        exact Except.error.inj h
      rw [Run.host_build_of_error hfaults]
      exact ⟨[], .environment hfault, leaves_armAll a.settings.node.name rfl⟩
  | ok extra =>
      have hfaults : Settings.startFaults a.settings e =
          .ok (a.settings.faults ++ extra.toList) := by
        rw [Settings.startFaults, hfault]
        rfl
      rw [build_of_startFaults hfaults] at h
      rw [Run.host_build_of_ok hfaults]
      cases harmed : (armAll (Run.target a p).1 a.settings.node.name
          (a.settings.faults ++ extra.toList) (Run.target a p).2).1 with
      | ok =>
          rw [harmed] at h
          cases h
      | error why =>
          rw [harmed] at h
          obtain rfl : Failure.refused why = failure := Except.error.inj h
          obtain ⟨applied, r, rest, hsplit, hrefuses, hok, hhost⟩ := exists_split_of_armAll harmed
          rw [hhost]
          exact ⟨applied, .refused hfault hsplit hrefuses, leaves_armAll _ hok⟩

/-- Settings with a fault that is sound, and one that has no time to sleep. -/
def sleeplessSettings : Settings :=
  { Settings.default with
    faults :=
      [⟨"dcs_write", .exception, some 2, none, none⟩, ⟨"promote", .sleep, none, none, none⟩] }

/-- A host with a registry in which the first of these points was armed and hit. -/
def sharedHost : Host :=
  Run.final .start [.arm 0 "dcs_write" .marker ⟨none, none, none⟩, .strike .hit 0 "dcs_write"]

theorem failed_build_sleepless :
    let a := (start sleeplessSettings).supply 0
    (a.build [] sharedHost).1 = .error (.refused .sleepMissing) ∧
      ∃ applied, Fails a [] applied (.refused .sleepMissing) ∧
        Leaves a sharedHost applied (a.build [] sharedHost).2.1 := by
  intro a
  have herror : (a.build [] sharedHost).1 = .error (.refused .sleepMissing) := by decide +kernel
  exact ⟨herror, failed_build herror⟩

/-- Not every failed build leaves the registry that was supplied as it was. -/
theorem not_intact_of_failed :
    ¬ ∀ (s : Settings) (e : Settings.Environment) (id : Nat) (p : Host) (failure : Failure),
      (((start s).supply id).build e p).1 = .error failure →
        ∀ name, (((start s).supply id).build e p).2.1.entry id name = p.entry id name := by
  intro h
  have herror : (((start sleeplessSettings).supply 0).build [] sharedHost).1 =
      .error (.refused .sleepMissing) := by decide +kernel
  have hkept := h sleeplessSettings [] 0 sharedHost _ herror "dcs_write"
  have hbefore : sharedHost.entry 0 "dcs_write" = some ⟨"dcs_write", ⟨.marker, .all⟩, 1⟩ := by
    decide +kernel
  have hafter : (((start sleeplessSettings).supply 0).build [] sharedHost).2.1.entry 0 "dcs_write" =
      some ⟨"dcs_write", ⟨.exception, ⟨2, none⟩⟩, 0⟩ := by decide +kernel
  rw [hbefore, hafter] at hkept
  cases hkept

end Assembly

end Node

end FaultPoints
