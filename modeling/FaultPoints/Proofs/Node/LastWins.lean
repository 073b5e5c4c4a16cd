import FaultPoints.Proofs.Node.Startup
import FaultPoints.Proofs.Run.Hits

/-!
# What stands in the registry of a node that was built

Building a node arms the points of requests one by one.  Several of them may be for one name, the
registry may have been in use before, and the environment may add a request of its own at the end.
Each request replaces what stood under its name, hits included, and leaves all other names as they
were.  So the last request for a name decides, and a name for which there is none keeps what it had.

Since the hits of a point begin anew when it is armed, what becomes of the hits after the build is
told by the last request alone.

## Main Definitions

* `lastFor` — the last of the requests for a name
* `LastWins` — a registry is what requests make of one
* `Assembly.Built` — what stands in the registries after a build

## Main Statements

* `lastWins_armAll` — arming the points of requests one by one
* `LastWins.outcome_hit` — what becomes of the hits on a point that was armed
* `build_last_wins` — the registry of a node that was built
-/

namespace FaultPoints

open FaultPoints.Fault

namespace Node

/-- The last of the requests for a name. -/
def lastFor (name : String) (rs : List Request) : Option Request :=
  rs.reverse.find? fun r => r.name = name

theorem lastFor_cons (name : String) (r : Request) (rs : List Request) :
    lastFor name (r :: rs) = (lastFor name rs).or (if r.name = name then some r else none) := by
  rw [lastFor, List.reverse_cons, List.find?_append, List.find?_singleton]
  simp only [decide_eq_true_eq]
  rfl

/-- There is a last request for every name that occurs. -/
theorem lastFor_eq_none_iff (name : String) (rs : List Request) :
    lastFor name rs = none ↔ ∀ r ∈ rs, r.name ≠ name := by
  simp [lastFor]

/-- **The last request for a name wins**: under each name that occurs in requests the registry has
the plan of the last of them, and it counts from zero; under all other names it has what was there
before. -/
structure LastWins (rs : List Request) (was : String → Option Descriptor) (id : Nat)
    (q : Host) : Prop where
  /-- The last request for a name that occurs has armed it. -/
  listed : ∀ name r, lastFor name rs = some r →
    ∃ plan, r.plan = .ok plan ∧ q.entry id name = some ⟨name, plan, 0⟩
  /-- The other names are left alone. -/
  unlisted : ∀ name, (∀ r ∈ rs, r.name ≠ name) → q.entry id name = was name

theorem lastWins_nil (id : Nat) (p : Host) : LastWins [] (p.entry id) id p where
  listed _ _ h := by cases h
  unlisted _ _ := rfl

/-- A request that is applied counts for its name unless there is a later one for it. -/
theorem LastWins.cons {r : Request} {rs : List Request} {id : Nat} {p p' q : Host}
    (happly : p.apply id r = .ok p') (h : LastWins rs (p'.entry id) id q) :
    LastWins (r :: rs) (p.entry id) id q := by
  obtain ⟨-, plan, hplan, rfl⟩ := (Host.apply_eq_ok_iff p p' id r).mp happly
  refine ⟨?_, ?_⟩
  · intro name last hlast
    rw [lastFor_cons] at hlast
    cases hrest : lastFor name rs with
    | some later =>
        obtain rfl : later = last := by simpa [hrest] using hlast
        exact h.listed name later hrest
    | none =>
        rw [hrest, Option.none_or] at hlast
        obtain ⟨rfl, rfl⟩ : r.name = name ∧ r = last := by simpa using hlast
        refine ⟨plan, (plan_eq_ok_iff r plan).mpr hplan, ?_⟩
        rw [h.unlisted r.name ((lastFor_eq_none_iff _ _).mp hrest), Host.entry_armed,
          if_pos ⟨rfl, rfl⟩]
  · intro name hnone
    obtain ⟨hname, hrest⟩ := List.forall_mem_cons.mp hnone
    rw [h.unlisted name hrest, Host.entry_armed, if_neg fun hsame => hname hsame.2.symm]

namespace Assembly

/-- If the points of all requests are armed, the first one is and then the others are. -/
theorem armAll_cons_eq_ok {id : Nat} {member : String} {r : Request} {rs : List Request}
    {p : Host} (h : (armAll id member (r :: rs) p).1 = .ok ()) :
    ∃ q, p.apply id r = .ok q ∧ (armAll id member rs q).1 = .ok () ∧
      (armAll id member (r :: rs) p).2.1 = (armAll id member rs q).2.1 := by
  cases happly : p.apply id r with
  | error why =>
      rw [armAll, arm, happly] at h
      cases h
  | ok q =>
      rw [armAll, arm, happly] at h ⊢
      exact ⟨q, rfl, h, rfl⟩

/-- **Arming the points of requests one by one.** -/
theorem lastWins_armAll {id : Nat} {member : String} {rs : List Request} {p : Host}
    (h : (armAll id member rs p).1 = .ok ()) :
    LastWins rs (p.entry id) id (armAll id member rs p).2.1 ∧
      ∀ id', id' ≠ id → (armAll id member rs p).2.1.registry id' = p.registry id' := by
  induction rs generalizing p with
  | nil => exact ⟨lastWins_nil id p, fun _ _ => rfl⟩
  | cons r rs ih =>
      obtain ⟨q, happly, hrest, hhost⟩ := armAll_cons_eq_ok h
      obtain ⟨hwins, hothers⟩ := ih hrest
      rw [hhost]
      refine ⟨hwins.cons happly, ?_⟩
      intro id' hid
      obtain ⟨-, plan, -, rfl⟩ := (Host.apply_eq_ok_iff p q id r).mp happly
      rw [hothers id' hid, Host.armed, Host.registry_changed, if_neg hid]

/-- The registry of a build, and what stands in the registries before the first fault is armed. -/
theorem target_spec (a : Assembly) (p : Host) :
    (Run.target a p).1 = a.supplied.getD p.unused ∧
      (Run.target a p).2.entry (Run.target a p).1 =
        (fun name => a.supplied.bind fun id => p.entry id name) ∧
      ∀ id, (Run.target a p).2.registry id = p.registry id := by
  cases hsupplied : a.supplied with
  | some id =>
      have htarget : Run.target a p = (id, p) := by rw [Run.target, hsupplied]
      rw [htarget]
      exact ⟨rfl, rfl, fun _ => rfl⟩
  | none =>
      have htarget : Run.target a p = p.found := by rw [Run.target, hsupplied]
      rw [htarget]
      refine ⟨rfl, ?_, p.registry_found⟩
      funext name
      have hunused : p.found.1 = p.unused := rfl
      rw [Host.entry_found, hunused, Host.entry, Host.registry_unused]
      rfl

end Assembly

/-! ## Hits after the build -/

/-- **What becomes of the hits on a point that was armed by a request**, as long as nothing else is
done to the point: the verdict of the request on the number of the hit. -/
theorem LastWins.outcome_hit {rs : List Request} {was : String → Option Descriptor} {id : Nat}
    {q : Host} (h : LastWins rs was id q) {name : String} {r : Request}
    (hlast : lastFor name rs = some r) {ops : List Run.Operation}
    (hops : ∀ op ∈ ops, op.Contends id name) :
    ((Run.final q ops).hit id name).1 =
      (Run.Arming.ofRequest r).verdict
        (min (ops.countP (Run.Operation.isHitOn id name) + 1) (2 ^ 64 - 1)) := by
  obtain ⟨plan, hplan, hentry⟩ := h.listed name r hlast
  generalize hn : ops.countP (Run.Operation.isHitOn id name) = n
  have hafter := Run.entry_final_of_contends hentry hops
  rw [hn] at hafter
  have hnumber : (Descriptor.after ⟨name, plan, 0⟩ (n + 1)).hits.toNat =
      min (n + 1) (2 ^ 64 - 1) := by
    rw [Descriptor.hits_after, UInt64.toNat_zero, Nat.zero_add]
  have harming : (Run.Arming.ofRequest r).plan = plan :=
    Run.plan_ofRequest ((plan_eq_ok_iff r plan).mp hplan)
  rw [Host.outcome_hit, hafter, Option.elim_some, Descriptor.plan_after, ← hnumber,
    ← Run.outcome_plan, harming]
  rfl

/-! ## The law -/

namespace Assembly

/-- **What stands in the registries after a build** by which requests were armed. -/
structure Built (a : Assembly) (p : Host) (rs : List Request) (node : Node) (q : Host) :
    Prop where
  /-- The registry of the node is the one that was supplied, or a new one. -/
  registry : node.registry = a.supplied.getD p.unused
  /-- In it the last request for a name wins, and the other names keep what the registry that was
  supplied had under them. -/
  wins : LastWins rs (fun name => a.supplied.bind fun id => p.entry id name) node.registry q
  /-- From the first hit on, the last request for a name decides the hits on the point, whatever is
  done to other points. -/
  hits : ∀ (name : String) (r : Request), lastFor name rs = some r →
    ∀ ops : List Run.Operation, (∀ op ∈ ops, op.Contends node.registry name) →
      ((Run.final q ops).hit node.registry name).1 =
        (Run.Arming.ofRequest r).verdict
          (min (ops.countP (Run.Operation.isHitOn node.registry name) + 1) (2 ^ 64 - 1))
  /-- No other registry has changed. -/
  elsewhere : ∀ id, id ≠ node.registry → q.registry id = p.registry id

/-- **The registry of a node that was built.**  The requests are the faults of the settings, and
then the one of the environment if it describes one. -/
theorem build_last_wins {a b : Assembly} {e : Settings.Environment} {p : Host}
    (h : (a.build e p).1 = .ok b) :
    ∃ extra node, e.fault = .ok extra ∧ b.node = some node ∧
      Built a p (a.settings.faults ++ extra.toList) node (a.build e p).2.1 := by
  obtain ⟨hid, hwas, hregistry⟩ := target_spec a p
  obtain ⟨faults, hfaults, harmed, rfl⟩ := build_eq_ok_iff.mp h
  obtain ⟨extra, hextra, rfl⟩ : ∃ extra, e.fault = .ok extra ∧
      a.settings.faults ++ extra.toList = faults := by
    simpa only [Settings.startFaults, bind_eq_ok_iff, pure_eq_ok_iff] using hfaults
  obtain ⟨hwins, hothers⟩ := lastWins_armAll harmed
  rw [hwas] at hwins
  refine ⟨extra, nodeOf a.settings (Run.target a p).1, hextra, rfl, ?_⟩
  rw [Run.host_build_of_ok hfaults]
  exact
    { registry := hid
      wins := hwins
      hits := fun name r hlast ops hops => hwins.outcome_hit hlast hops
      elsewhere := fun id hne => (hothers id hne).trans (hregistry id) }

/-- Settings with two faults at one point. -/
def doubledSettings : Settings :=
  { Settings.default with
    faults := [⟨"disk", .marker, none, none, none⟩, ⟨"net", .exception, none, none, none⟩,
      ⟨"disk", .exception, some 2, some 3, none⟩] }

/-- Variables that describe another fault at a point of these settings. -/
def doubledVariables : Settings.Environment :=
  [("FAULT_POINT", " net "), ("FAULT_TYPE", "marker"), ("FAULT_START_FROM", "4")]

/-- A host with a registry in which two points were armed and hit. -/
def doubledHost : Host :=
  Run.final .start
    [.arm 0 "disk" .exception ⟨none, none, none⟩, .strike .hit 0 "disk",
      .arm 0 "log" .marker ⟨none, none, none⟩, .strike .hit 0 "log"]

theorem build_last_wins_doubled :
    let a := (start doubledSettings).supply 0
    let q := (a.build doubledVariables doubledHost).2.1
    (∃ b, (a.build doubledVariables doubledHost).1 = .ok b ∧
      (∃ node, b.node = some node ∧ node.registry = 0)) ∧
      q.entry 0 "disk" = some ⟨"disk", ⟨.exception, ⟨2, some 3⟩⟩, 0⟩ ∧
      q.entry 0 "net" = some ⟨"net", ⟨.marker, ⟨4, none⟩⟩, 0⟩ ∧
      q.entry 0 "log" = some ⟨"log", ⟨.marker, .all⟩, 1⟩ := by
  intro a q
  obtain ⟨b, hb⟩ : ∃ b, (a.build doubledVariables doubledHost).1 = .ok b := by
    have hok : (a.build doubledVariables doubledHost).1.isOk = true := by decide +kernel
    cases hbuild : (a.build doubledVariables doubledHost).1 with
    | ok b => exact ⟨b, rfl⟩
    | error why =>
        rw [hbuild] at hok
        cases hok
  obtain ⟨extra, node, hextra, hnode, hbuilt⟩ := build_last_wins hb
  have hnet : doubledVariables.fault = .ok (some ⟨"net", .marker, some 4, none, none⟩) := by
    decide +kernel
  obtain rfl := Except.ok.inj (hextra.symm.trans hnet)
  have hregistry : node.registry = 0 := hbuilt.registry
  have hwins := hbuilt.wins
  rw [hregistry] at hwins
  refine ⟨⟨b, hb, node, hnode, hregistry⟩, ?_, ?_, ?_⟩
  · obtain ⟨plan, hplan, hentry⟩ := hwins.listed "disk" ⟨"disk", .exception, some 2, some 3, none⟩
      (by decide +kernel)
    obtain rfl : (⟨.exception, ⟨2, some 3⟩⟩ : Plan) = plan := Except.ok.inj hplan
    exact hentry
  · obtain ⟨plan, hplan, hentry⟩ := hwins.listed "net" ⟨"net", .marker, some 4, none, none⟩
      (by decide +kernel)
    obtain rfl : (⟨.marker, ⟨4, none⟩⟩ : Plan) = plan := Except.ok.inj hplan
    exact hentry
  · have hlog : doubledHost.entry 0 "log" = some ⟨"log", ⟨.marker, .all⟩, 1⟩ := by
      decide +kernel
    exact (hwins.unlisted "log" (by decide +kernel)).trans hlog

end Assembly

end Node

end FaultPoints
