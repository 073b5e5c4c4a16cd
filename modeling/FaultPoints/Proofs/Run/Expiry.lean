import FaultPoints.Proofs.Metrics.Gauge
import FaultPoints.Proofs.Run.Past

/-!
# Expired points

The listing of a registry tells of each point whether it has expired, and a hit tells whether it is
the work of a fault.  The two are decided by different questions about the window of the point: the
listing asks whether the hits so far have left the window behind, a hit whether its own number lies
in it.  This file proves that they fit together over time.

A window that was left behind is left behind at every later number (`isExhausted_of_le`), and the
number never falls as long as the point is neither armed anew nor disarmed.  So a point that is
listed as expired stays so, whatever else happens, also where its hits are not counted any more
because the greatest count is reached.  And the hit that a fault answers is itself in the window, so
that the point cannot be listed as expired before something else happens to it.

## Main Definitions

* `Run.Reports` — what the listing tells of a point
* `Run.Spent` — a point that is armed and has expired

## Main Statements

* `mem_listing_ending_iff` — the entries of the listing are those of the descriptors
* `spent_of_replay` — hits leave an expired point spent
* `expiry_law` — an expired point stays expired, and a point with a fault has not expired
-/

namespace FaultPoints

open FaultPoints.Fault

namespace Fault

/-- A window that a number has left behind is behind every greater one. -/
theorem Window.isExhausted_of_le {w : Window} {n m : UInt64} (h : w.isExhausted n = true)
    (hle : n ≤ m) : w.isExhausted m = true := by
  cases hstop : w.stop with
  | none => simp [isExhausted, hstop] at h
  | some last =>
      have hlast : last < n := by simpa [isExhausted, hstop] using h
      simpa [isExhausted, hstop] using UInt64.lt_of_lt_of_le hlast hle

/-- A hit whose number lies in the window has not left it behind. -/
theorem Window.not_isExhausted_of_contains {w : Window} {n : UInt64} (h : w.contains n = true) :
    w.isExhausted n = false := by
  by_contra hexhausted
  have hnot := not_contains_of_isExhausted (Bool.eq_true_of_not_eq_false hexhausted)
  rw [h] at hnot
  cases hnot

/-- The count of hits never falls. -/
theorem le_countHit (n : UInt64) : n ≤ countHit n := by
  have hlt := n.toNat_lt
  have hgreatest : greatestCount.toNat = 2 ^ 64 - 1 := rfl
  rw [UInt64.le_iff_toNat_le, countHit_toNat, hgreatest]
  omega

end Fault

namespace Run

/-! ## Listings along a run -/

/-- Whether the listing shows a point, and as what. -/
structure Reports (p : Host) (id : Nat) (name : String) (expired : Bool) : Prop where
  /-- The point is listed. -/
  listed : ∃ e ∈ (p.registry id).listing, e.name = name
  /-- Every entry of the point tells whether it has expired. -/
  expired_eq : ∀ e ∈ (p.registry id).listing, e.name = name → e.expired = expired

/-- **The entries of the listing** are those of the descriptors. -/
theorem mem_listing_ending_iff (steps : List Step) (id : Nat) (e : Point) :
    e ∈ ((ending .start steps).registry id).listing ↔
      ∃ d, (ending .start steps).entry id e.name = some d ∧ d.point = e := by
  have hordered := (shows_ending Host.inOrder_start steps).inOrder id
  constructor
  · intro hmem
    obtain ⟨⟨k, d⟩, hentry, rfl⟩ := List.mem_map.mp hmem
    have hfind := (Catalog.mem_entries_iff hordered k d).mp hentry
    have hname : d.name = k := name_entry_ending hfind
    exact ⟨d, (congrArg _ hname).trans hfind, rfl⟩
  · rintro ⟨d, hentry, rfl⟩
    exact List.mem_map.mpr ⟨_, (Catalog.mem_entries_iff hordered _ d).mpr hentry, rfl⟩

/-- What the listing tells of a point, by its descriptor. -/
theorem reports_of_entry {steps : List Step} {id : Nat} {name : String} {d : Descriptor}
    (h : (ending .start steps).entry id name = some d) :
    Reports (ending .start steps) id name (d.plan.window.isExhausted d.hits) := by
  have hname := name_entry_ending h
  refine ⟨⟨d.point, (mem_listing_ending_iff _ _ _).mpr ⟨d, ?_, rfl⟩, hname⟩, ?_⟩
  · rw [← h, ← hname]
    rfl
  · rintro e hmem rfl
    obtain ⟨d', hentry, rfl⟩ := (mem_listing_ending_iff _ _ _).mp hmem
    obtain rfl := Option.some.inj (hentry.symm.trans h)
    rfl

/-! ## Spent points -/

/-- **A point that is armed and has expired**, with the number of its hits. -/
structure Spent (p : Host) (id : Nat) (name : String) (hits : Nat) : Prop where
  /-- The point is armed. -/
  registered : (p.registry id).isActive name = true
  /-- However the point is reached, the hit proceeds. -/
  proceeds : ∀ way, (perform p (.strike way id name)).1 = way.answer name .proceed
  /-- The hits are counted. -/
  counted : ∃ n, (p.registry id).hitCount? name = some n ∧ n.toNat = hits
  /-- The listing shows the point as expired. -/
  reports : Reports p id name true

/-- A descriptor whose window was left behind belongs to a spent point. -/
theorem spent_of_entry {steps : List Step} {id : Nat} {name : String} {d : Descriptor}
    (h : (ending .start steps).entry id name = some d)
    (hexhausted : d.plan.window.isExhausted d.hits = true) :
    Spent (ending .start steps) id name d.hits.toNat where
  registered := by
    rw [Registry.isActive, Catalog.contains]
    exact Option.isSome_iff_exists.mpr ⟨d, h⟩
  proceeds way := by
    -- The next hit is numbered no lower than the last one, so the window is behind it as well.
    have hbehind := Window.isExhausted_of_le hexhausted (le_countHit d.hits)
    have houtcome : d.plan.outcome d.struck.hits = .proceed := by
      rw [Plan.outcome, Descriptor.struck, Window.not_contains_of_isExhausted hbehind]
      rfl
    rw [perform, strike_eq, Host.outcome_hit, h, Option.elim_some, houtcome]
  counted := ⟨d.hits, congrArg (Option.map _) h, rfl⟩
  reports := hexhausted ▸ reports_of_entry h

/-- **Hits leave an expired point spent**, and they are counted up to the greatest count. -/
theorem spent_of_replay {before after : List Step} {id : Nat} {name : String} {d : Descriptor}
    (h : (ending .start before).entry id name = some d)
    (hexhausted : d.plan.window.isExhausted d.hits = true)
    (hhits : ∀ ev ∈ past (ending .start before) id name after, ev = .hit) :
    Spent (ending (ending .start before) after) id name
      (min (d.hits.toNat + after.countP fun s => s.strikes = some (id, name)) (2 ^ 64 - 1)) := by
  obtain rfl := name_entry_ending h
  obtain ⟨m, hreplay, hcount⟩ := replay_hits d.name d.plan hhits d.hits
  have hentry : (ending .start (before ++ after)).entry id d.name = some ⟨d.name, d.plan, m⟩ := by
    rw [ending_append, entry_ending, h]
    exact hreplay
  have hgreatest : greatestCount.toNat = 2 ^ 64 - 1 := rfl
  have hle : d.hits ≤ m := by
    have hlt := d.hits.toNat_lt
    rw [UInt64.le_iff_toNat_le, hcount, hgreatest]
    omega
  rw [← length_past hhits, ← hgreatest, ← hcount, ← ending_append]
  exact spent_of_entry hentry (Window.isExhausted_of_le hexhausted hle)

/-- A hit that is the work of a fault leaves its point in the window. -/
theorem entry_hit_of_isFault {p : Host} {id : Nat} {name : String}
    (h : (p.hit id name).1.isFault = true) :
    ∃ d, (p.hit id name).2.entry id name = some d ∧ d.plan.window.isExhausted d.hits = false := by
  rw [Host.outcome_hit] at h
  cases hentry : p.entry id name with
  | none =>
      rw [hentry] at h
      cases h
  | some d =>
      rw [hentry, Option.elim_some, isFault_outcome_iff] at h
      refine ⟨d.struck, ?_, Window.not_isExhausted_of_contains h.2⟩
      rw [Host.entry_hit, if_pos ⟨rfl, rfl⟩, hentry]
      rfl

/-! ## The law -/

/-- **Expiry is for good, and it is told in time.**  A point that is listed as expired after some
run stays so in whatever way the run goes on, as long as the point is neither armed anew nor
disarmed: it is armed, its hits proceed and are counted, and it is listed as expired.  And where a
hit is the work of a fault, its point is not listed as expired before something else happens to it,
however the run goes on. -/
theorem expiry_law (before : List Step) (id : Nat) (name : String) :
    let p := ending .start before
    (∀ e ∈ (p.registry id).listing, e.name = name → e.expired = true →
        ∀ after, (∀ ev ∈ past p id name after, ev = .hit) →
          Spent (ending p after) id name
            (min (e.hits.toNat + after.countP fun s => s.strikes = some (id, name))
              (2 ^ 64 - 1))) ∧
      ∀ way after, (p.hit id name).1.isFault = true →
        past (perform p (.strike way id name)).2 id name after = [] →
          Reports (ending (perform p (.strike way id name)).2 after) id name false := by
  intro p
  constructor
  · rintro e hmem rfl hexpired after hhits
    obtain ⟨d, hentry, rfl⟩ := (mem_listing_ending_iff before id e).mp hmem
    exact spent_of_replay hentry hexpired hhits
  · intro way after hfault hpast
    obtain ⟨d, hentry, hwithin⟩ := entry_hit_of_isFault hfault
    have hrun : ending (perform p (.strike way id name)).2 after =
        ending .start (before ++ .operation (.strike way id name) :: after) :=
      (ending_append .start before (.operation (.strike way id name) :: after)).symm
    have hlast : (ending (perform p (.strike way id name)).2 after).entry id name = some d := by
      rw [entry_ending, hpast, perform, strike_eq]
      exact hentry
    rw [hrun] at hlast ⊢
    exact hwithin ▸ reports_of_entry hlast

/-- The window of a point is its first two hits.  When a third one has expired it, a request for it
is refused, it is reached twice and the other points are disarmed one by one; when only a second one
was made, its fault was at work and the point has not expired. -/
theorem expiry_law_two_hits :
    let arm : Step := .operation (.arm 0 "disk" .exception ⟨none, some 2, none⟩)
    let hit : Step := .operation (.strike .hit 0 "disk")
    let refused : Step := .operation (.apply 0 ⟨"disk", .exception, some 0, none, none⟩)
    let reached : Step := .operation (.strike .inject 0 "disk")
    let p := ending .start [arm, hit, hit, hit]
    let after := [reached, refused, .operation (.deactivate 0 "net"), reached]
    (⟨"disk", .exception, 1, some 2, none, 3, true⟩ ∈ (p.registry 0).listing ∧
        past p 0 "disk" after = [.hit, .hit] ∧ Spent (ending p after) 0 "disk" 5) ∧
      let q := ending .start [arm, hit]
      (q.hit 0 "disk").1.isFault = true ∧
        Reports (ending (perform q (.strike .hit 0 "disk")).2 [refused]) 0 "disk" false := by
  intro arm hit refused reached p after
  have hmem : ⟨"disk", .exception, 1, some 2, none, 3, true⟩ ∈ (p.registry 0).listing := by
    decide +kernel
  have hpast : past p 0 "disk" after = [.hit, .hit] := by decide +kernel
  refine ⟨⟨hmem, hpast, ?_⟩, ?_⟩
  · exact (expiry_law _ 0 "disk").1 _ hmem rfl rfl after (by rw [hpast]; simp)
  · intro q
    have hfault : (q.hit 0 "disk").1.isFault = true := by decide +kernel
    exact ⟨hfault, (expiry_law _ 0 "disk").2 .hit [refused] hfault (by decide +kernel)⟩

end Run

end FaultPoints
