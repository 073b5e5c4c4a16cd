import FaultPoints.Proofs.Heartbeat.Course
import FaultPoints.Proofs.Node.Steps

/-!
# One registry for a node

A build hands one registry to the node, to its controller and to its heartbeat, so whatever the node
does while it runs happens in that registry.  Which one it is depends on the steps before.  The
registry that was supplied is used up by a build: it waits for the next build only, and a build for
which none waits makes a new one.  A channel keeps the controller of the node that was there when it
was opened, and a later build opens no channel anew.

So a node that was built again has lost the registry that was supplied to the first build, unless it
is supplied once more; and the channels of the first build go on acting on that registry.  Where a
node is built only once, it shares its registry with whoever supplied it and with all its channels.

## Main Definitions

* `Assembly.Latest`, `Assembly.Waits` — a registry was supplied latest, and waits for a build
* `Assembly.LastBuild`, `Assembly.Opened` — the steps from which a node and a channel come
* `Assembly.KnownSupplies` — the registries that are supplied exist
* `Assembly.Shares` — what a node shares with its parts, with its channels and with others

## Main Statements

* `entry_run_of_ne` — a run of a node leaves other registries alone
* `supplied_iff_waits` — which registry waits
* `exists_last_build`, `exists_opened` — where nodes and channels come from
* `target_eq_iff_waits` — a registry that exists is that of a build iff it waits for it
* `registry_eq_iff` — when a node on the way has the registry of the node at the end
* `one_registry` — the registry of a node that is ready
-/

namespace FaultPoints

open FaultPoints.Fault

namespace Node

/-! ## What a run of a node reaches -/

/-- Beats leave other registries alone. -/
theorem entry_advance_of_ne {id id' : Nat} (h : id ≠ id') (interval : Heartbeat.Interval)
    (point name : String) (now : Nat) (l : Heartbeat.Loop) :
    (l.advance interval id' point now).host.entry id name = l.host.entry id name := by
  have hsettle : ∀ l : Heartbeat.Loop, (l.settle now).host = l.host := by
    intro l
    rcases l.settle_cases now with ⟨hsame, -⟩ | ⟨b, -, -, hended⟩
    · rw [hsame]
    · rw [hended]
  fun_induction Heartbeat.Loop.advance interval id' point now l with
  | case1 l settled _ ih =>
      have hbegin : (settled.begin interval id' point).host.entry id name =
          settled.host.entry id name :=
        (settled.host.entry_hit id' id point name).trans (if_neg fun hsame => h hsame.1)
      rw [ih, hbegin, hsettle]
  | case2 l settled _ => rw [hsettle]

/-- Orders leave other registries alone. -/
theorem entry_execute_of_ne {id id' : Nat} (h : id ≠ id') (p : Host) (text : List Glyph)
    (name : String) : (Control.execute p id' text).2.entry id name = p.entry id name := by
  unfold Control.execute
  split
  · rfl
  · rename_i c _
    have hconcerns : ¬ (Run.Operation.command id' c).Concerns id name := by
      cases c <;> simp [Run.Operation.Concerns, h]
    have hentry := Run.entry_perform p (.command id' c) id name
    rw [Run.eventFor, if_neg hconcerns] at hentry
    exact hentry

/-- **A run of a node leaves other registries alone** if its controller and its heartbeat have the
same one. -/
theorem entry_run_of_ne {n : Node} (hparts : n.heartbeat = n.controller) {id : Nat}
    (h : id ≠ n.controller) (p : Host) (s : Heartbeat.Stats) (orders : List Order) (horizon : Nat)
    (name : String) :
    (n.run p s orders horizon).final.host.entry id name = p.entry id name := by
  have helapse : ∀ now l, (n.elapse now l).host.entry id name = l.host.entry id name := by
    intro now l
    unfold elapse
    split
    · exact entry_advance_of_ne (hparts ▸ h) _ _ _ _ _
    · rfl
  have hfollow : ∀ now l, (n.follow now orders l).2.2.host.entry id name =
      l.host.entry id name := by
    induction orders with
    | nil => exact fun _ _ => rfl
    | cons o rest ih =>
        intro now l
        rw [follow]
        exact (ih _ _).trans ((entry_execute_of_ne h _ _ _).trans (helapse _ _))
  exact (helapse _ _).trans (hfollow 0 (.start p s))

namespace Assembly

/-! ## Which registry waits -/

/-- The supply of a registry stands after steps: none of those behind it ends it. -/
def Stands (ends : Step → Bool) (steps : List Step) (id : Nat) : Prop :=
  ∃ before since, steps = before ++ .supply id :: since ∧ ∀ x ∈ since, ends x = false

/-- A registry was supplied latest. -/
def Latest (steps : List Step) (id : Nat) : Prop := Stands Step.supplies steps id

/-- A registry waits for a build: it was supplied latest, and nothing was built since. -/
def Waits (steps : List Step) (id : Nat) : Prop := Stands Step.spends steps id

theorem stands_append_singleton_iff (ends : Step → Bool) (steps : List Step) (x : Step) (id : Nat) :
    Stands ends (steps ++ [x]) id ↔ x = .supply id ∨ ends x = false ∧ Stands ends steps id := by
  constructor
  · rintro ⟨before, since, hsteps, hsince⟩
    rcases List.eq_nil_or_concat since with rfl | ⟨front, y, rfl⟩
    · obtain ⟨-, hx⟩ := List.append_inj' hsteps rfl
      exact Or.inl (List.cons.inj hx).1
    · rw [List.concat_eq_append, ← List.cons_append, ← List.append_assoc] at hsteps
      obtain ⟨rfl, hx⟩ := List.append_inj' hsteps rfl
      obtain rfl : x = y := (List.cons.inj hx).1
      rw [List.concat_eq_append, List.forall_mem_append] at hsince
      exact Or.inr ⟨hsince.2 x (List.mem_singleton_self x), before, front, rfl, hsince.1⟩
  · rintro (rfl | ⟨hx, before, since, rfl, hsince⟩)
    · exact ⟨steps, [], rfl, by simp⟩
    · exact ⟨before, since ++ [x], by simp, List.forall_mem_append.mpr ⟨hsince, by simpa using hx⟩⟩

/-- What waits was supplied latest. -/
theorem Waits.latest {steps : List Step} {id : Nat} (h : Waits steps id) : Latest steps id := by
  obtain ⟨before, since, rfl, hsince⟩ := h
  exact ⟨before, since, rfl, fun x hx => (Bool.or_eq_false_iff.mp (hsince x hx)).1⟩

theorem Latest.mem {steps : List Step} {id : Nat} (h : Latest steps id) :
    .supply id ∈ steps := by
  obtain ⟨before, since, rfl, -⟩ := h
  simp

/-- Where nothing was built, the registry that was supplied latest waits. -/
theorem Latest.waits {steps : List Step} {id : Nat} (h : Latest steps id)
    (hbuilds : ∀ x ∈ steps, x.builds = false) : Waits steps id := by
  obtain ⟨before, since, rfl, hsince⟩ := h
  refine ⟨before, since, rfl, fun x hx => ?_⟩
  exact Bool.or_eq_false_iff.mpr ⟨hsince x hx, hbuilds x (by simp [hx])⟩

variable {s : Settings} {a b : Assembly} {p q : Host} {steps : List Step}

/-- **The registry that waits** is the one that the assembly has for the next build. -/
theorem supplied_iff_waits (h : (start s).after p steps = .ok (b, q)) (id : Nat) :
    b.supplied = some id ↔ Waits steps id := by
  refine after_induct (P := fun steps b _ => b.supplied = some id ↔ Waits steps id) ?_ ?_ h
  · simp [start, Waits, Stands]
  · intro steps b q x b' q' _ hsupplied hx
    have hwaits : Waits (steps ++ [x]) id ↔ x = .supply id ∨ x.spends = false ∧ Waits steps id :=
      stands_append_singleton_iff Step.spends steps x id
    rw [hwaits]
    cases hx with
    | supply id' => simp [supply, Step.spends, Step.supplies]
    | build e => simp [Step.spends, Step.builds]
    | _ => simpa [Step.spends, Step.supplies, Step.builds] using hsupplied

/-! ## Where nodes and channels come from -/

/-- **The last build** of steps, with the assembly and the host that it found and the node that it
made. -/
structure LastBuild (s : Settings) (p : Host) (steps before : List Step)
    (e : Settings.Environment) (since : List Step) (made : Assembly) (host : Host) (n : Node) :
    Prop where
  /-- It stands among the steps. -/
  split : steps = before ++ .build e :: since
  /-- No other build follows. -/
  last : ∀ x ∈ since, x.builds = false
  /-- This is what the steps before it led to. -/
  reached : (start s).after p before = .ok (made, host)
  /-- The node has the registry of the build. -/
  node : n = nodeOf s (Run.target made host).1

/-- **A node comes from the last build.** -/
theorem exists_last_build (h : (start s).after p steps = .ok (b, q)) {n : Node}
    (hnode : b.node = some n) :
    ∃ before e since made host, LastBuild s p steps before e since made host n := by
  refine after_induct (P := fun steps b _ => ∀ n, b.node = some n →
    ∃ before e since made host, LastBuild s p steps before e since made host n) ?_ ?_ h n hnode
  · intro n hn
    cases hn
  · intro steps b q x b' q' hsteps hbuilt hx n hn
    by_cases hbuilds : x.builds = true
    · cases hx with
      | build e =>
          obtain rfl := Option.some.inj hn
          refine ⟨steps, e, [], b, q, rfl, by simp, hsteps, ?_⟩
          rw [(onward_of_after hsteps).settings]
          rfl
      | _ => cases hbuilds
    · have hkept : b'.node = b.node := by
        cases hx with
        | build e => exact absurd rfl hbuilds
        | _ => rfl
      obtain ⟨before, e, since, made, host, rfl, hlast, hreached, hnode⟩ := hbuilt n (hkept ▸ hn)
      refine ⟨before, e, since ++ [x], made, host, by simp, ?_, hreached, hnode⟩
      exact List.forall_mem_append.mpr ⟨hlast, by simpa using hbuilds⟩

/-- The parts of a node have one registry. -/
theorem parts_eq (h : (start s).after p steps = .ok (b, q)) {n : Node} (hnode : b.node = some n) :
    n.controller = n.registry ∧ n.heartbeat = n.registry := by
  obtain ⟨before, e, since, made, host, -, -, -, rfl⟩ := exists_last_build h hnode
  exact ⟨rfl, rfl⟩

/-- Steps that build nothing leave the node in place. -/
theorem node_after_of_not_builds (h : a.after p steps = .ok (b, q))
    (hsteps : ∀ x ∈ steps, x.builds = false) : b.node = a.node := by
  refine after_induct (P := fun steps b _ => (∀ x ∈ steps, x.builds = false) → b.node = a.node)
    (fun _ => rfl) ?_ h hsteps
  intro steps b q x b' q' _ hnode hx hsteps
  obtain ⟨hfront, hlast⟩ := List.forall_mem_append.mp hsteps
  cases hx with
  | build e => cases hlast (.build e) (by simp)
  | _ => exact hnode hfront

/-- As many channels are open as there were steps that opened one. -/
theorem length_channels (h : (start s).after p steps = .ok (b, q)) :
    b.channels.length = if s.control.enabled then steps.countP Step.listens else 0 := by
  refine after_induct (P := fun steps b _ => b.channels.length =
    if s.control.enabled then steps.countP Step.listens else 0) (by simp [start]) ?_ h
  intro steps b q x b' q' hsteps hlength hx
  have hsettings : b.settings = s := (onward_of_after hsteps).settings
  rw [List.countP_append, List.countP_singleton]
  cases hx with
  | listen taken hon hnode =>
      rw [hsettings] at hon
      rw [if_pos hon] at hlength ⊢
      simpa [Step.listens] using hlength
  | silent taken hoff =>
      rw [hsettings] at hoff
      simpa [hoff] using hlength
  | supply id => simpa [supply, Step.listens] using hlength
  | _ => simpa [Step.listens] using hlength

/-- **A channel was opened**, as the one of a number, by a step that listens, for the node that was
there then. -/
structure Opened (s : Settings) (p : Host) (steps : List Step) (k : Nat) (c : Channel)
    (early : List Step) (taken : Net.Endpoint → Bool) (late : List Step) (n : Node) : Prop where
  /-- The step stands among the steps. -/
  split : steps = early ++ .listen taken :: late
  /-- So many steps before it listen. -/
  number : early.countP Step.listens = k
  /-- The node was there then. -/
  there : ∃ made host, (start s).after p early = .ok (made, host) ∧ made.node = some n
  /-- The channel is for the controller of that node. -/
  channel : c = ⟨s.control.address, n.controller⟩

section Opened

variable {early late : List Step} {taken : Net.Endpoint → Bool} {n : Node} {k : Nat} {c : Channel}

theorem Opened.append (h : Opened s p steps k c early taken late n) (more : List Step) :
    Opened s p (steps ++ more) k c early taken (late ++ more) n where
  split := by simp [h.split]
  number := h.number
  there := h.there
  channel := h.channel

/-- The controller of a channel acts on the registry of its node. -/
theorem Opened.controller_eq (h : Opened s p steps k c early taken late n) :
    n.controller = n.registry := by
  obtain ⟨made, host, hearly, hnode⟩ := h.there
  exact (parts_eq hearly hnode).1

end Opened

/-- **A channel comes from a step that listens.** -/
theorem exists_opened (h : (start s).after p steps = .ok (b, q)) {k : Nat} {c : Channel}
    (hc : b.channels.reverse[k]? = some c) :
    ∃ early taken late n, Opened s p steps k c early taken late n := by
  refine after_induct (P := fun steps b _ => ∀ k c, b.channels.reverse[k]? = some c →
    ∃ early taken late n, Opened s p steps k c early taken late n) ?_ ?_ h k c hc
  · intro k c hc
    simp [start] at hc
  · intro steps b q x b' q' hsteps hopened hx k c hc
    have hearlier : ∀ {k c}, b.channels.reverse[k]? = some c →
        ∃ early taken late n, Opened s p (steps ++ [x]) k c early taken late n := by
      intro k c hc
      obtain ⟨early, taken, late, n, hc⟩ := hopened k c hc
      exact ⟨early, taken, _, n, hc.append [x]⟩
    cases hx with
    | listen taken hon hnode =>
        rename_i n
        have hsettings : b.settings = s := (onward_of_after hsteps).settings
        rw [hsettings] at hon hc
        have hlength := length_channels hsteps
        rw [if_pos hon] at hlength
        -- The channel is one of those that were open before, or it is the new one.
        rw [List.reverse_cons, List.getElem?_append] at hc
        split at hc
        · exact hearlier hc
        · rename_i hk
          rw [List.length_reverse, hlength] at hc hk
          obtain ⟨hindex, rfl⟩ : k - steps.countP Step.listens = 0 ∧
              ⟨s.control.address, n.controller⟩ = c := by
            simpa [List.getElem?_singleton] using hc
          exact ⟨steps, taken, [], n, rfl, by omega, ⟨b, q, hsteps, hnode⟩, rfl⟩
    | _ => exact hearlier hc

/-! ## Registries that exist -/

/-- Each registry that is supplied exists by then. -/
def KnownSupplies (s : Settings) (p : Host) (steps : List Step) : Prop :=
  ∀ before id since b q, steps = before ++ .supply id :: since →
    (start s).after p before = .ok (b, q) → q.Knows id

theorem KnownSupplies.front {steps more : List Step} (h : KnownSupplies s p (steps ++ more)) :
    KnownSupplies s p steps := by
  rintro before id since b q rfl
  exact h before id (since ++ more) b q (by simp)

/-- A registry that was supplied exists. -/
theorem knows_of_supply (hknown : KnownSupplies s p steps)
    (h : (start s).after p steps = .ok (b, q)) {id : Nat} (hid : .supply id ∈ steps) :
    q.Knows id := by
  obtain ⟨before, since, rfl⟩ := List.append_of_mem hid
  obtain ⟨made, host, hbefore, hsince⟩ := after_append_eq_ok_iff.mp h
  exact (onward_of_after hsince).knows id (hknown before id since made host rfl hbefore)

/-- The registry of a build is the one that waits for it or a new one. -/
theorem target_eq_iff_waits (h : (start s).after p steps = .ok (b, q)) {id : Nat}
    (hid : q.Knows id) : (Run.target b q).1 = id ↔ Waits steps id := by
  rw [← supplied_iff_waits h, (target_spec b q).1]
  cases b.supplied with
  | some id' => simp
  | none =>
      -- A new registry is none of those that exist.
      have hnew : q.unused ≠ id := fun heq => q.not_knows_unused (heq ▸ hid)
      simpa using hnew

/-- The registry of a build for which none waits is a new one. -/
theorem not_knows_target (h : (start s).after p steps = .ok (b, q))
    (hnone : ∀ id, ¬ Waits steps id) : ¬ q.Knows (Run.target b q).1 :=
  fun hexists => hnone _ ((target_eq_iff_waits h hexists).mp rfl)

/-- The registry of a node exists. -/
theorem knows_registry (hknown : KnownSupplies s p steps)
    (h : (start s).after p steps = .ok (b, q)) {n : Node} (hnode : b.node = some n) :
    q.Knows n.registry := by
  obtain ⟨before, e, since, made, host, rfl, -, hbefore, rfl⟩ := exists_last_build h hnode
  have htarget : (nodeOf s (Run.target made host).1).registry =
      made.supplied.getD host.unused := (target_spec made host).1
  rw [htarget]
  cases hsupplied : made.supplied with
  | some id =>
      have hwaits := (supplied_iff_waits hbefore id).mp hsupplied
      exact knows_of_supply hknown h (List.mem_append_left _ hwaits.latest.mem)
  | none =>
      rw [after_append_of_ok hbefore] at h
      obtain ⟨⟨built, host'⟩, hbuild, hsince⟩ := bind_eq_ok_iff.mp h
      have hhost : host' = (made.build e host).2.1 := by
        cases leads_of_next hbuild
        rfl
      exact (onward_of_after hsince).knows _ (hhost ▸ Host.knows_unused_build hsupplied e host)

/-! ## The law -/

/-- **What a node shares** after steps: those before the last build, that build, and those since. -/
structure Shares (s : Settings) (p : Host) (before since : List Step) (e : Settings.Environment)
    (a : Assembly) (node : Node) : Prop where
  /-- Its controller has its registry. -/
  controller : node.controller = node.registry
  /-- Its heartbeat has its registry. -/
  heartbeat : node.heartbeat = node.registry
  /-- Whatever it does while it runs, it does in that registry. -/
  alone : ∀ (p' : Host) (stats : Heartbeat.Stats) (orders : List Order) (horizon id : Nat)
    (name : String), id ≠ node.registry →
      (node.run p' stats orders horizon).final.host.entry id name = p'.entry id name
  /-- A registry that was supplied before the last build is that registry iff it waited for that
  build. -/
  supplied : ∀ id, .supply id ∈ before → (node.registry = id ↔ Waits before id)
  /-- If none waited, it is a new one. -/
  founded : (∀ id, ¬ Waits before id) →
    ∃ b q, (start s).after p before = .ok (b, q) ∧ ¬ q.Knows node.registry
  /-- If the settings want it, each step that listened has opened a channel. -/
  opened : a.channels.length =
    if s.control.enabled then (before ++ .build e :: since).countP Step.listens else 0
  /-- A channel acts on the registry of the node that was there when it was opened.  That is the
  registry of the node iff nothing was built since, or it waited for the last build. -/
  channels : ∀ k c, a.channels.reverse[k]? = some c →
    ∃ early taken late n, Opened s p (before ++ .build e :: since) k c early taken late n ∧
      n.controller = n.registry ∧
      (n.registry = node.registry ↔ (∀ x ∈ late, x.builds = false) ∨ Waits before n.registry)
  /-- If it was built once only, its registry is the one that was supplied latest, and the registry
  of all channels. -/
  once : (∀ x ∈ before, x.builds = false) →
    (∀ id, Latest before id → node.registry = id) ∧ ∀ c ∈ a.channels, c.registry = node.registry

/-- A step that is not the last build was taken before it or since. -/
theorem split_at_build {before since early late : List Step} {e : Settings.Environment} {x : Step}
    (h : before ++ .build e :: since = early ++ x :: late) (hx : x.builds = false) :
    (∃ between, before = early ++ x :: between ∧ late = between ++ .build e :: since) ∨
      ∃ between, early = before ++ .build e :: between ∧ since = between ++ x :: late := by
  rcases List.append_eq_append_iff.mp h with ⟨between, hearly, hlate⟩ | ⟨between, hbefore, hsince⟩
  · cases between with
    | nil =>
        obtain ⟨rfl, -⟩ := List.cons.inj hlate
        cases hx
    | cons y between =>
        obtain ⟨rfl, hrest⟩ := List.cons.inj hlate
        exact Or.inr ⟨between, hearly, hrest⟩
  · cases between with
    | nil =>
        obtain ⟨rfl, -⟩ := List.cons.inj hsince
        cases hx
    | cons y between =>
        obtain ⟨rfl, hrest⟩ := List.cons.inj hsince
        exact Or.inl ⟨between, hbefore, hrest⟩

section Last

variable {before since early late : List Step} {e : Settings.Environment} {made : Assembly}
  {host : Host} {n n' : Node} {taken : Net.Endpoint → Bool} {k : Nat} {c : Channel}

/-- **A node on the way and the node at the end**: they have the same registry iff nothing was built
since, or the registry of the one waited for the last build. -/
theorem registry_eq_iff (hknown : KnownSupplies s p steps)
    (hsteps : (start s).after p steps = .ok (a, q)) (hnode : a.node = some n)
    (hlast : LastBuild s p steps before e since made host n)
    (hopened : Opened s p steps k c early taken late n') :
    n'.registry = n.registry ↔ (∀ x ∈ late, x.builds = false) ∨ Waits before n'.registry := by
  obtain ⟨rfl, hsince, hbefore, htarget⟩ := hlast
  obtain ⟨hsplit, -, ⟨b, q', hearly, hnode'⟩, -⟩ := hopened
  rcases split_at_build hsplit rfl with ⟨between, rfl, rfl⟩ | ⟨between, rfl, rfl⟩
  · -- The last build came later, so the registry of the node on the way existed by then.
    have hlate : ¬ ∀ x ∈ between ++ .build e :: since, x.builds = false := by
      intro hall
      cases hall (.build e) (by simp)
    have hexists : host.Knows n'.registry := by
      rw [after_append_of_ok hearly] at hbefore
      exact (onward_of_after hbefore).knows _ (knows_registry hknown.front.front hearly hnode')
    rw [or_iff_right hlate, htarget, eq_comm]
    exact target_eq_iff_waits hbefore hexists
  · -- Nothing was built later, so it is the node at the end.
    obtain ⟨-, hrest⟩ := List.forall_mem_append.mp hsince
    rw [hsplit, after_append_of_ok hearly] at hsteps
    rw [node_after_of_not_builds hsteps hrest, hnode'] at hnode
    obtain rfl := Option.some.inj hnode
    exact iff_of_true rfl (Or.inl fun y hy => hrest y (List.mem_cons_of_mem _ hy))

/-- Where the last build is the only one, a channel is opened behind it. -/
theorem not_builds_of_opened (hlast : LastBuild s p steps before e since made host n)
    (honce : ∀ x ∈ before, x.builds = false)
    (hopened : Opened s p steps k c early taken late n') : ∀ x ∈ late, x.builds = false := by
  obtain ⟨rfl, hsince, -, -⟩ := hlast
  obtain ⟨hsplit, -, ⟨b, q', hearly, hnode'⟩, -⟩ := hopened
  rcases split_at_build hsplit rfl with ⟨between, rfl, -⟩ | ⟨between, -, rfl⟩
  · -- The channel was opened for a node, and there was none before the only build.
    obtain ⟨before', e', since', made', host', rfl, -⟩ := exists_last_build hearly hnode'
    cases honce (.build e') (by simp)
  · exact fun x hx => hsince x (by simp [hx])

end Last

theorem ready_eq_ok_iff (a : Assembly) (n : Node) : a.ready = .ok n ↔ a.node = some n := by
  unfold ready
  cases a.node <;> simp

/-- **The registry of a node that is ready.** -/
theorem one_registry {s : Settings} {p : Host} {steps : List Step} {a : Assembly} {q : Host}
    {node : Node} (hknown : KnownSupplies s p steps) (hsteps : (start s).after p steps = .ok (a, q))
    (hready : a.ready = .ok node) :
    ∃ before e since, steps = before ++ .build e :: since ∧ (∀ x ∈ since, x.builds = false) ∧
      Shares s p before since e a node := by
  have hnode := (ready_eq_ok_iff a node).mp hready
  obtain ⟨hcontroller, hheartbeat⟩ := parts_eq hsteps hnode
  obtain ⟨before, e, since, made, host, hlast⟩ := exists_last_build hsteps hnode
  obtain ⟨rfl, hsince, hbefore, htarget⟩ := id hlast
  have hregistry : node.registry = (Run.target made host).1 := congrArg Node.registry htarget
  have hsupplied : ∀ id, .supply id ∈ before → (node.registry = id ↔ Waits before id) := by
    intro id hid
    rw [hregistry]
    exact target_eq_iff_waits hbefore (knows_of_supply hknown.front hbefore hid)
  refine ⟨before, e, since, rfl, hsince, ?_⟩
  exact
    { controller := hcontroller
      heartbeat := hheartbeat
      alone := fun p' stats orders horizon id name hne =>
        entry_run_of_ne (hheartbeat.trans hcontroller.symm) (hcontroller ▸ hne) _ _ _ _ _
      supplied := hsupplied
      founded := fun hnone => ⟨made, host, hbefore, hregistry ▸ not_knows_target hbefore hnone⟩
      opened := length_channels hsteps
      channels := by
        intro k c hc
        obtain ⟨early, taken, late, n, hopened⟩ := exists_opened hsteps hc
        exact ⟨early, taken, late, n, hopened, hopened.controller_eq,
          registry_eq_iff hknown hsteps hnode hlast hopened⟩
      once := by
        intro honce
        refine ⟨fun id hlatest => (hsupplied id hlatest.mem).mpr (hlatest.waits honce), ?_⟩
        intro c hc
        obtain ⟨k, hk⟩ := List.mem_iff_getElem?.mp (List.mem_reverse.mpr hc)
        obtain ⟨early, taken, late, n, hopened⟩ := exists_opened hsteps hk
        have hsame : n.registry = node.registry :=
          (registry_eq_iff hknown hsteps hnode hlast hopened).mpr
            (Or.inl (not_builds_of_opened hlast honce hopened))
        rw [hopened.channel]
        exact hopened.controller_eq.trans hsame }

/-- Settings that let any port do for the commands. -/
def freePortSettings : Settings :=
  { Settings.default with control := ⟨true, ⟨.dotted 127 0 0 1, 0, 0⟩⟩ }

/-- A registry is made, supplied and used up, and the node listens. -/
def firstSteps : List Step :=
  [.meanwhile (.operation .found), .supply 0, .build [], .listen fun _ => false, .expose]

/-- The node is built once more, and listens. -/
def rebuiltSteps : List Step := firstSteps ++ .build [] :: [.listen fun _ => false]

theorem knownSupplies_rebuilt : KnownSupplies freePortSettings .start rebuiltSteps := by
  intro before id since b q hsplit hbefore
  obtain ⟨rfl, rfl⟩ : before = [.meanwhile (.operation .found)] ∧ id = 0 := by
    rcases before with _ | ⟨x, _ | ⟨y, rest⟩⟩
    · cases hsplit
    · cases hsplit
      exact ⟨rfl, rfl⟩
    · simp only [rebuiltSteps, firstSteps, List.cons_append, List.nil_append,
        List.cons.injEq] at hsplit
      have hrest : Step.supply id ∈ rest ++ .supply id :: since := by simp
      rw [← hsplit.2.2] at hrest
      simp at hrest
  cases hbefore
  decide +kernel

/-- A node that was built again: its registry is not the one that was supplied, on which its first
channel goes on acting. -/
theorem one_registry_rebuilt :
    KnownSupplies freePortSettings .start rebuiltSteps ∧
      ∃ a q node, (start freePortSettings).after .start rebuiltSteps = .ok (a, q) ∧
        a.ready = .ok node ∧ node.registry = 1 ∧
        a.channels.reverse.map Channel.registry = [0, 1] ∧
        ∃ before e since, rebuiltSteps = before ++ .build e :: since ∧
          (∀ x ∈ since, x.builds = false) ∧ Shares freePortSettings .start before since e a node :=
  ⟨knownSupplies_rebuilt, _, _, _, rfl, rfl, rfl, rfl, one_registry knownSupplies_rebuilt rfl rfl⟩

/-- A node need not have the registry that was supplied latest, nor share it with all channels. -/
theorem not_latest_of_rebuilt :
    ¬ ∀ (s : Settings) (p : Host) (steps : List Step) (a : Assembly) (q : Host) (node : Node),
      KnownSupplies s p steps → (start s).after p steps = .ok (a, q) → a.ready = .ok node →
        node.controller = node.registry ∧ node.heartbeat = node.registry ∧
        (∀ before e since id, steps = before ++ .build e :: since →
          (∀ x ∈ since, x.builds = false) → Latest before id → node.registry = id) ∧
        ∀ c ∈ a.channels, c.registry = node.registry := by
  intro h
  have hnode := (h freePortSettings .start rebuiltSteps _ _ _ knownSupplies_rebuilt rfl rfl).2.2.1
  have hlatest : Latest firstSteps 0 :=
    ⟨[.meanwhile (.operation .found)], [.build [], .listen fun _ => false, .expose], rfl,
      by simp [Step.supplies]⟩
  cases hnode firstSteps [] [.listen fun _ => false] 0 rfl (by simp [Step.builds]) hlatest

end Assembly

end Node

end FaultPoints
