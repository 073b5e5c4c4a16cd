import FaultPoints.Proofs.Metrics.Lines
import FaultPoints.Proofs.Run.Process

/-!
# The counters count exactly

The counters of a host outlive the points that they count: a point may be replaced, disarmed and
armed again, in one registry or in several, and the hits of its descriptor start anew each time.
The counters do not.  They tell of every run of a process how many of its moments were hits on an
armed point of a name, and how many of these were the work of a fault of a sort.

What is exposed is what is counted: each counter that is not zero has one line, and there are no
other lines of counters.

## Main Definitions

* `Run.Moment.reaches`, `Run.Moment.fires` — the moments that the two families of counters count
* `Fault.Tally.Sound` — a tally that a process can have
* `Exact` — the counters of a host tell of a run

## Main Statements

* `hitsOf_next`, `triggeredOf_next` — what one step adds to the counters
* `hitsOf_ending`, `triggeredOf_ending` — what a run adds to them
* `counters_exact` — the counters and their lines tell of every run of a process
-/

namespace FaultPoints

open FaultPoints.Fault

/-! ## What is counted -/

namespace Run.Moment

/-- The moment is a hit on a point while it is armed. -/
def reaches (point : String) (m : Moment) : Bool :=
  match m.step.strikes with
  | some (id, name) => name = point && (m.host.registry id).isActive name
  | none => false

/-- The moment is a hit on a point that is the work of a fault of a sort. -/
def fires (tag : Tag) (point : String) (m : Moment) : Bool :=
  match m.step.strikes with
  | some (id, name) =>
    name = point && (m.host.hit id name).1.isFault &&
      (m.host.entry id name).any fun d => d.plan.effect.tag = tag
  | none => false

end Run.Moment

namespace Fault

/-! ## One step -/

/-- The effect of a marker is no fault. -/
theorem tag_ne_marker_of_isFault {plan : Plan} {n : UInt64} (h : (plan.outcome n).isFault = true) :
    plan.effect.tag ≠ .marker := by
  intro hmarker
  have heffect : plan.effect = .marker := by
    cases hplan : plan.effect <;> rw [hplan] at hmarker <;> first | rfl | cases hmarker
  unfold Plan.outcome at h
  rw [heffect] at h
  split at h <;> cases h

namespace Host

/-- The tally after a hit on an armed point. -/
theorem tally_hit_of_some {p : Host} {id : Nat} {name : String} {d : Descriptor}
    (h : p.entry id name = some d) :
    (p.hit id name).2.tally =
      p.tally.record name ⟨d.plan.outcome d.struck.hits, d.plan.effect.tag, d.struck.hits⟩ := by
  have hfind : (p.registry id).points.find? name = some d := h
  simp [hit, Registry.hit, hfind, Descriptor.struck]

end Host

theorem tag_name_injective {tag tag' : Tag} (h : tag.name = tag'.name) : tag = tag' := by
  have hread := Tag.read_name tag
  rw [h, Tag.read_name] at hread
  exact (Except.ok.inj hread).symm

namespace Tally

theorem hitsOf_countHit (t : Tally) (point point' : String) :
    (t.countHit point).hitsOf point' = t.hitsOf point' + if point = point' then 1 else 0 := by
  by_cases h : point' = point
  · simp [hitsOf, countHit, Catalog.find?_insert, h]
  · simp [hitsOf, countHit, Catalog.find?_insert, h, Ne.symm h]

theorem triggeredOf_countTrigger (t : Tally) (tag tag' : Tag) (point point' : String) :
    (t.countTrigger tag point).triggeredOf tag' point' =
      t.triggeredOf tag' point' + if point = point' ∧ tag = tag' then 1 else 0 := by
  have hkey : [tag'.name, point'] = [tag.name, point] ↔ point = point' ∧ tag = tag' := by
    constructor
    · intro h
      obtain ⟨htag, hpoint⟩ := List.cons.inj h
      exact ⟨(List.cons.inj hpoint).1.symm, (tag_name_injective htag).symm⟩
    · rintro ⟨rfl, rfl⟩
      rfl
  rw [triggeredOf, countTrigger, Catalog.find?_insert]
  by_cases h : point = point' ∧ tag = tag'
  · obtain ⟨rfl, rfl⟩ := h
    simp
  · rw [if_neg (hkey.not.mpr h), if_neg h]
    rfl

/-- A strike is counted once as a hit. -/
theorem hitsOf_record (t : Tally) (point point' : String) (s : Registry.Strike) :
    (t.record point s).hitsOf point' = t.hitsOf point' + if point = point' then 1 else 0 := by
  rw [← hitsOf_countHit]
  unfold record
  dsimp only
  split <;> rfl

/-- A strike is counted once as the work of a fault if it is that. -/
theorem triggeredOf_record (t : Tally) (tag : Tag) (point point' : String)
    (s : Registry.Strike) :
    (t.record point s).triggeredOf tag point' =
      t.triggeredOf tag point' +
        if point = point' ∧ s.outcome.isFault = true ∧ s.tag = tag then 1 else 0 := by
  unfold record
  dsimp only
  by_cases hfault : s.outcome.isFault = true
  · rw [if_pos hfault, triggeredOf_countTrigger]
    simp only [hfault, true_and]
    rfl
  · rw [if_neg hfault, if_neg fun h => hfault h.2.1]
    rfl

end Tally

end Fault

namespace Run

theorem isActive_iff_entry (p : Host) (id : Nat) (name : String) :
    (p.registry id).isActive name = (p.entry id name).isSome := rfl

/-- **What one step adds to the counter of hits.** -/
theorem hitsOf_next (p : Host) (s : Step) (point : String) :
    (s.next p).tally.hitsOf point =
      p.tally.hitsOf point + if Moment.reaches point ⟨p, s⟩ then 1 else 0 := by
  cases hstrikes : s.strikes with
  | none =>
      rw [tally_next p hstrikes]
      simp [Moment.reaches, hstrikes]
  | some struck =>
      obtain ⟨id, name⟩ := struck
      rw [next_of_strikes p hstrikes]
      cases hentry : p.entry id name with
      | none =>
          rw [Host.hit_of_none hentry]
          simp [Moment.reaches, hstrikes, isActive_iff_entry, hentry]
      | some d =>
          rw [Host.tally_hit_of_some hentry, Tally.hitsOf_record]
          simp [Moment.reaches, hstrikes, isActive_iff_entry, hentry]

/-- **What one step adds to the counter of the work of faults.** -/
theorem triggeredOf_next (p : Host) (s : Step) (tag : Tag) (point : String) :
    (s.next p).tally.triggeredOf tag point =
      p.tally.triggeredOf tag point + if Moment.fires tag point ⟨p, s⟩ then 1 else 0 := by
  cases hstrikes : s.strikes with
  | none =>
      rw [tally_next p hstrikes]
      simp [Moment.fires, hstrikes]
  | some struck =>
      obtain ⟨id, name⟩ := struck
      rw [next_of_strikes p hstrikes]
      cases hentry : p.entry id name with
      | none =>
          rw [Host.hit_of_none hentry]
          simp [Moment.fires, hstrikes, hentry]
      | some d =>
          rw [Host.tally_hit_of_some hentry, Tally.triggeredOf_record]
          simp [Moment.fires, hstrikes, hentry, Host.outcome_hit, and_assoc]

/-! ## Runs -/

/-- **What a run adds to the counter of hits.** -/
theorem hitsOf_ending (p : Host) (steps : List Step) (point : String) :
    (ending p steps).tally.hitsOf point =
      p.tally.hitsOf point + (moments p steps).countP (Moment.reaches point) := by
  induction steps generalizing p with
  | nil => rfl
  | cons s rest ih =>
      rw [ending, ih (s.next p), hitsOf_next, moments, List.countP_cons]
      omega

/-- **What a run adds to the counter of the work of faults.** -/
theorem triggeredOf_ending (p : Host) (steps : List Step) (tag : Tag) (point : String) :
    (ending p steps).tally.triggeredOf tag point =
      p.tally.triggeredOf tag point + (moments p steps).countP (Moment.fires tag point) := by
  induction steps generalizing p with
  | nil => rfl
  | cons s rest ih =>
      rw [ending, ih (s.next p), triggeredOf_next, moments, List.countP_cons]
      omega

end Run

/-! ## Sound tallies -/

namespace Fault

/-- A tally that a process can have: no counter is zero, and none counts markers. -/
structure Tally.Sound (t : Tally) : Prop where
  /-- The counters of hits are in order. -/
  hits : t.hits.Ordered
  /-- None of them is zero. -/
  hits_ne_zero : ∀ e ∈ t.hits.entries, e.2 ≠ 0
  /-- The counters of the work of faults are in order. -/
  triggered : t.triggered.Ordered
  /-- None of them is zero, and each belongs to a sort of fault and a point. -/
  triggered_labels : ∀ e ∈ t.triggered.entries,
    e.2 ≠ 0 ∧ ∃ (tag : Tag) (point : String), tag ≠ .marker ∧ e.1 = [tag.name, point]

namespace Tally

theorem sound_empty : Tally.empty.Sound :=
  ⟨Catalog.ordered_empty, by simp [empty, Catalog.empty], Catalog.ordered_empty,
    by simp [empty, Catalog.empty]⟩

variable {t : Tally}

theorem Sound.countHit (h : t.Sound) (point : String) : (t.countHit point).Sound where
  hits := Catalog.ordered_insert h.hits _ _
  hits_ne_zero e he := by
    rcases Catalog.mem_insertEntry he with rfl | he
    · exact Nat.succ_ne_zero _
    · exact h.hits_ne_zero e he
  triggered := h.triggered
  triggered_labels := h.triggered_labels

theorem Sound.countTrigger (h : t.Sound) {tag : Tag} (htag : tag ≠ .marker) (point : String) :
    (t.countTrigger tag point).Sound where
  hits := h.hits
  hits_ne_zero := h.hits_ne_zero
  triggered := Catalog.ordered_insert h.triggered _ _
  triggered_labels e he := by
    rcases Catalog.mem_insertEntry he with rfl | he
    · exact ⟨Nat.succ_ne_zero _, tag, point, htag, rfl⟩
    · exact h.triggered_labels e he

theorem Sound.record (h : t.Sound) (point : String) {s : Registry.Strike}
    (hs : s.outcome.isFault = true → s.tag ≠ .marker) : (t.record point s).Sound := by
  unfold Tally.record
  dsimp only
  split
  · rename_i hfault
    exact (h.countHit point).countTrigger (hs hfault) point
  · exact h.countHit point

/-- What stands in the table of hits. -/
theorem Sound.mem_hits_iff (h : t.Sound) (point : String) (n : Nat) :
    (point, n) ∈ t.hits.entries ↔ n = t.hitsOf point ∧ n ≠ 0 := by
  constructor
  · intro hmem
    have hfind := (Catalog.mem_entries_iff h.hits point n).mp hmem
    exact ⟨by simp [hitsOf, hfind], h.hits_ne_zero _ hmem⟩
  · rintro ⟨rfl, hne⟩
    rw [Catalog.mem_entries_iff h.hits]
    unfold hitsOf at hne ⊢
    cases hfind : t.hits.find? point with
    | none => simp [hfind] at hne
    | some n => rfl

/-- What stands in the table of the work of faults. -/
theorem Sound.mem_triggered_iff (h : t.Sound) (tag : Tag) (point : String) (n : Nat) :
    ([tag.name, point], n) ∈ t.triggered.entries ↔ n = t.triggeredOf tag point ∧ n ≠ 0 := by
  constructor
  · intro hmem
    have hfind := (Catalog.mem_entries_iff h.triggered _ n).mp hmem
    exact ⟨by simp [triggeredOf, hfind], (h.triggered_labels _ hmem).1⟩
  · rintro ⟨rfl, hne⟩
    rw [Catalog.mem_entries_iff h.triggered]
    unfold triggeredOf at hne ⊢
    cases hfind : t.triggered.find? [tag.name, point] with
    | none => simp [hfind] at hne
    | some n => rfl

theorem Sound.triggeredOf_marker (h : t.Sound) (point : String) :
    t.triggeredOf .marker point = 0 := by
  by_contra hne
  have hmem := (h.mem_triggered_iff .marker point _).mpr ⟨rfl, hne⟩
  obtain ⟨-, tag, point', htag, hkey⟩ := h.triggered_labels _ hmem
  exact htag (tag_name_injective (List.cons.inj hkey).1.symm)

end Tally

end Fault

namespace Run

theorem sound_next {p : Host} (h : p.tally.Sound) (s : Step) : (s.next p).tally.Sound := by
  cases hstrikes : s.strikes with
  | none =>
      rw [tally_next p hstrikes]
      exact h
  | some struck =>
      obtain ⟨id, name⟩ := struck
      rw [next_of_strikes p hstrikes]
      cases hentry : p.entry id name with
      | none =>
          rw [Host.hit_of_none hentry]
          exact h
      | some d =>
          rw [Host.tally_hit_of_some hentry]
          exact h.record name tag_ne_marker_of_isFault

theorem sound_ending {p : Host} (h : p.tally.Sound) (steps : List Step) :
    (ending p steps).tally.Sound := by
  induction steps generalizing p with
  | nil => exact h
  | cons s rest ih => exact ih (sound_next h s)

end Run

/-! ## What is exposed -/

namespace Metrics

/-- The family of the gauge. -/
def gaugeFamily (p : Host) : Family where
  name := "active_fault_points"
  help := "Number of currently activated fault points"
  type := "gauge"
  series := [⟨[], p.gauge⟩]

/-- The family of the hits. -/
def hitFamily (p : Host) : Family where
  name := "fault_point_hits"
  help := "Times an activated fault point was reached"
  type := "counter"
  series := p.tally.hits.entries.map fun e => ⟨[("point", e.1)], e.2⟩

/-- The family of the work of faults. -/
def triggerFamily (p : Host) : Family where
  name := "faults_triggered"
  help := "Times a fault point fired inside its window"
  type := "counter"
  series := p.tally.triggered.entries.map fun e => ⟨["kind", "point"].zip e.1, e.2⟩

theorem mem_exposition_iff (p : Host) (line : String) :
    line ∈ exposition p ↔ line ∈ (gaugeFamily p).lines ∨ line ∈ (hitFamily p).lines ∨
      line ∈ (triggerFamily p).lines := by
  have hfamilies : families p = [gaugeFamily p, hitFamily p, triggerFamily p] := rfl
  simp [exposition, hfamilies]

theorem sample_gauge (p : Host) (n : Nat) : (gaugeFamily p).sample ⟨[], n⟩ = gaugeLine n := rfl

theorem sample_hit (p : Host) (point : String) (n : Nat) :
    (hitFamily p).sample ⟨[("point", point)], n⟩ = hitLine point n := hitLine_eq point n

theorem sample_trigger (p : Host) (tag : Tag) (point : String) (n : Nat) :
    (triggerFamily p).sample ⟨["kind", "point"].zip [tag.name, point], n⟩ =
      triggerLine tag point n := triggerLine_eq tag point n

theorem gaugeFamily_begins (p : Host) : (gaugeFamily p).Begins "active".toList := by
  have hname : "active".toList <+: "active_fault_points".toList := by decide
  exact ⟨hname, by decide, by decide⟩

theorem hitFamily_begins (p : Host) : (hitFamily p).Begins "fault_".toList := by
  have hname : "fault_".toList <+: "fault_point_hits".toList := by decide
  exact ⟨hname, by decide, by decide⟩

theorem triggerFamily_begins (p : Host) : (triggerFamily p).Begins "faults".toList := by
  have hname : "faults".toList <+: "faults_triggered".toList := by decide
  exact ⟨hname, by decide, by decide⟩

theorem token_gaugeLine (n : Nat) : token (gaugeLine n) = "active".toList := by
  rw [← sample_gauge .start, (gaugeFamily_begins .start).token_sample]

theorem token_hitLine (point : String) (n : Nat) :
    token (hitLine point n) = "fault_".toList := by
  rw [← sample_hit .start, (hitFamily_begins .start).token_sample]

theorem token_triggerLine (tag : Tag) (point : String) (n : Nat) :
    token (triggerLine tag point n) = "faults".toList := by
  rw [← sample_trigger .start, (triggerFamily_begins .start).token_sample]

theorem not_isComment_hitLine (point : String) (n : Nat) : ¬ IsComment (hitLine point n) := by
  rw [← sample_hit .start]
  exact (hitFamily_begins .start).not_isComment_sample _

theorem not_isComment_triggerLine (tag : Tag) (point : String) (n : Nat) :
    ¬ IsComment (triggerLine tag point n) := by
  rw [← sample_trigger .start]
  exact (triggerFamily_begins .start).not_isComment_sample _

variable {p : Host} (h : p.tally.Sound)

include h

/-- The series of the hits, by their lines. -/
theorem mem_hit_series_iff (line : String) :
    (∃ s ∈ (hitFamily p).series, line = (hitFamily p).sample s) ↔
      ∃ point n, n = p.tally.hitsOf point ∧ n ≠ 0 ∧ line = hitLine point n := by
  constructor
  · rintro ⟨s, hs, rfl⟩
    obtain ⟨⟨point, n⟩, he, rfl⟩ := List.mem_map.mp hs
    obtain ⟨hn, hne⟩ := (h.mem_hits_iff point n).mp he
    exact ⟨point, n, hn, hne, sample_hit p point n⟩
  · rintro ⟨point, n, hn, hne, rfl⟩
    exact ⟨_, List.mem_map_of_mem ((h.mem_hits_iff point n).mpr ⟨hn, hne⟩),
      (sample_hit p point n).symm⟩

/-- The series of the work of faults, by their lines. -/
theorem mem_trigger_series_iff (line : String) :
    (∃ s ∈ (triggerFamily p).series, line = (triggerFamily p).sample s) ↔
      ∃ tag point n, n = p.tally.triggeredOf tag point ∧ n ≠ 0 ∧
        line = triggerLine tag point n := by
  constructor
  · rintro ⟨s, hs, rfl⟩
    obtain ⟨⟨labels, n⟩, he, rfl⟩ := List.mem_map.mp hs
    obtain ⟨-, tag, point, -, hlabels⟩ := h.triggered_labels _ he
    obtain rfl : labels = [tag.name, point] := hlabels
    obtain ⟨hn, hne⟩ := (h.mem_triggered_iff tag point n).mp he
    exact ⟨tag, point, n, hn, hne, sample_trigger p tag point n⟩
  · rintro ⟨tag, point, n, hn, hne, rfl⟩
    exact ⟨_, List.mem_map_of_mem ((h.mem_triggered_iff tag point n).mpr ⟨hn, hne⟩),
      (sample_trigger p tag point n).symm⟩

/-- Each line is a comment, the gauge or the line of a counter that is not zero. -/
theorem line_cases {line : String} (hline : line ∈ exposition p) (hvalue : ¬ IsComment line) :
    line = gaugeLine p.gauge ∨
      (∃ point n, n = p.tally.hitsOf point ∧ n ≠ 0 ∧ line = hitLine point n) ∨
        ∃ tag point n, n = p.tally.triggeredOf tag point ∧ n ≠ 0 ∧
          line = triggerLine tag point n := by
  have hsample : ∀ f : Family, line ∈ f.lines → ∃ s ∈ f.series, line = f.sample s :=
    fun f hf => by
      rcases (Family.mem_lines_iff f line).mp hf with ⟨-, rfl | rfl⟩ | hs
      · exact absurd f.isComment_helpLine hvalue
      · exact absurd f.isComment_typeLine hvalue
      · exact hs
  rcases (mem_exposition_iff p line).mp hline with hf | hf | hf
  · obtain ⟨s, hs, rfl⟩ := hsample _ hf
    obtain rfl := List.mem_singleton.mp hs
    exact Or.inl (sample_gauge p p.gauge)
  · exact Or.inr (Or.inl ((mem_hit_series_iff h line).mp (hsample _ hf)))
  · exact Or.inr (Or.inr ((mem_trigger_series_iff h line).mp (hsample _ hf)))

/-- **A point has a line of hits iff it was hit.** -/
theorem hitLine_mem_iff (point : String) (n : Nat) :
    hitLine point n ∈ exposition p ↔ n = p.tally.hitsOf point ∧ n ≠ 0 := by
  constructor
  · intro hline
    rcases line_cases h hline (not_isComment_hitLine point n) with
      heq | ⟨point', n', hn, hne, heq⟩ | ⟨tag, point', n', -, -, heq⟩
    · have htoken := congrArg token heq
      rw [token_hitLine, token_gaugeLine] at htoken
      exact absurd htoken (by decide)
    · obtain ⟨rfl, rfl⟩ := hitLine_inj heq
      exact ⟨hn, hne⟩
    · have htoken := congrArg token heq
      rw [token_hitLine, token_triggerLine] at htoken
      exact absurd htoken (by decide)
  · rintro ⟨hn, hne⟩
    refine (mem_exposition_iff p _).mpr (Or.inr (Or.inl ?_))
    exact (Family.mem_lines_iff _ _).mpr
      (Or.inr ((mem_hit_series_iff h _).mpr ⟨point, n, hn, hne, rfl⟩))

/-- **A point has a line for a sort of fault iff a hit was the work of one.** -/
theorem triggerLine_mem_iff (tag : Tag) (point : String) (n : Nat) :
    triggerLine tag point n ∈ exposition p ↔ n = p.tally.triggeredOf tag point ∧ n ≠ 0 := by
  constructor
  · intro hline
    rcases line_cases h hline (not_isComment_triggerLine tag point n) with
      heq | ⟨point', n', -, -, heq⟩ | ⟨tag', point', n', hn, hne, heq⟩
    · have htoken := congrArg token heq
      rw [token_triggerLine, token_gaugeLine] at htoken
      exact absurd htoken (by decide)
    · have htoken := congrArg token heq
      rw [token_triggerLine, token_hitLine] at htoken
      exact absurd htoken (by decide)
    · obtain ⟨rfl, rfl, rfl⟩ := triggerLine_inj heq
      exact ⟨hn, hne⟩
  · rintro ⟨hn, hne⟩
    refine (mem_exposition_iff p _).mpr (Or.inr (Or.inr ?_))
    exact (Family.mem_lines_iff _ _).mpr
      (Or.inr ((mem_trigger_series_iff h _).mpr ⟨tag, point, n, hn, hne, rfl⟩))

theorem nodup_hit_samples : ((hitFamily p).series.map (hitFamily p).sample).Nodup := by
  rw [hitFamily, List.map_map]
  refine List.Nodup.map_on (fun e he e' he' heq => ?_) ?_
  · obtain ⟨hpoint, hn⟩ := hitLine_inj
      ((sample_hit p e.1 e.2).symm.trans (heq.trans (sample_hit p e'.1 e'.2)))
    exact Prod.ext hpoint hn
  · exact (h.hits.imp fun hlt => ne_of_apply_ne Prod.fst (ne_of_lt hlt))

theorem nodup_trigger_samples :
    ((triggerFamily p).series.map (triggerFamily p).sample).Nodup := by
  rw [triggerFamily, List.map_map]
  refine List.Nodup.map_on (fun e he e' he' heq => ?_) ?_
  · obtain ⟨labels, n⟩ := e
    obtain ⟨labels', n'⟩ := e'
    obtain ⟨-, tag, point, -, hlabels⟩ := h.triggered_labels _ he
    obtain ⟨-, tag', point', -, hlabels'⟩ := h.triggered_labels _ he'
    obtain rfl : labels = [tag.name, point] := hlabels
    obtain rfl : labels' = [tag'.name, point'] := hlabels'
    obtain ⟨rfl, rfl, rfl⟩ := triggerLine_inj
      ((sample_trigger p tag point n).symm.trans (heq.trans (sample_trigger p tag' point' n')))
    rfl
  · exact (h.triggered.imp fun hlt => ne_of_apply_ne Prod.fst (ne_of_lt hlt))

/-- No line is exposed twice. -/
theorem nodup_exposition : (exposition p).Nodup := by
  have hfamilies : families p = [gaugeFamily p, hitFamily p, triggerFamily p] := rfl
  have hgauge := gaugeFamily_begins p
  have hhit := hitFamily_begins p
  have htrigger := triggerFamily_begins p
  rw [exposition, hfamilies]
  refine List.nodup_flatMap.mpr ⟨?_, ?_⟩
  · simp only [List.forall_mem_cons, List.not_mem_nil, false_imp_iff, implies_true, and_true]
    exact ⟨hgauge.nodup_lines (List.nodup_singleton _),
      hhit.nodup_lines (nodup_hit_samples h),
      htrigger.nodup_lines (nodup_trigger_samples h)⟩
  · refine List.pairwise_cons.mpr ⟨?_, List.pairwise_pair.mpr ?_⟩
    · simp only [List.forall_mem_cons, List.not_mem_nil, false_imp_iff, implies_true, and_true]
      exact ⟨hgauge.disjoint_lines hhit (by decide),
        hgauge.disjoint_lines htrigger (by decide)⟩
    · exact hhit.disjoint_lines htrigger (by decide)

end Metrics

/-! ## The counters tell of a run -/

namespace Run

/-- A hit is the work of a fault of at most one sort, and only on an armed point. -/
theorem fires_le_reaches (point : String) (m : Moment) :
    (if m.fires .marker point then 1 else 0) + (if m.fires .exception point then 1 else 0) +
        (if m.fires .sleep point then 1 else 0) ≤ if m.reaches point then 1 else 0 := by
  cases hstrikes : m.step.strikes with
  | none => simp [Moment.fires, Moment.reaches, hstrikes]
  | some struck =>
      obtain ⟨id, name⟩ := struck
      cases hentry : m.host.entry id name with
      | none => simp [Moment.fires, hstrikes, hentry]
      | some d =>
          simp only [Moment.fires, Moment.reaches, hstrikes, hentry, isActive_iff_entry]
          by_cases hname : name = point
          · cases (m.host.hit id name).1.isFault <;> cases htag : d.plan.effect.tag <;>
              simp [hname, htag]
          · simp [hname]

theorem countP_fires_le (point : String) (run : List Moment) :
    run.countP (Moment.fires .marker point) + run.countP (Moment.fires .exception point) +
      run.countP (Moment.fires .sleep point) ≤ run.countP (Moment.reaches point) := by
  induction run with
  | nil => simp
  | cons m run ih =>
      have hm := fires_le_reaches point m
      simp only [List.countP_cons]
      omega

end Run

namespace Metrics

open Run

/-- **The counters of a host tell of a run**, and what is exposed tells the counters. -/
structure Exact (p : Host) (run : List Moment) : Prop where
  /-- The hits on a point are those on it while it was armed where it was hit. -/
  hits : ∀ point, p.tally.hitsOf point = run.countP (Moment.reaches point)
  /-- The work of faults of a sort are those of the hits that were that. -/
  triggered : ∀ tag point, p.tally.triggeredOf tag point = run.countP (Moment.fires tag point)
  /-- No hit is the work of a marker. -/
  marker : ∀ point, p.tally.triggeredOf .marker point = 0
  /-- No hit is the work of two sorts of faults. -/
  sum_le : ∀ point, p.tally.triggeredOf .marker point + p.tally.triggeredOf .exception point +
    p.tally.triggeredOf .sleep point ≤ p.tally.hitsOf point
  /-- The line of a point tells its hits, and there is one iff there were any. -/
  hitLine : ∀ point n, hitLine point n ∈ exposition p ↔
    n = run.countP (Moment.reaches point) ∧ n ≠ 0
  /-- The line of a sort and a point tells how many of the hits were that, and there is one iff
  there were any. -/
  triggerLine : ∀ tag point n, triggerLine tag point n ∈ exposition p ↔
    n = run.countP (Moment.fires tag point) ∧ n ≠ 0
  /-- Every line is a comment, that of the gauge or one of these, and none tells of markers. -/
  lines : ∀ line ∈ exposition p, ¬ IsComment line → line = gaugeLine p.gauge ∨
    (∃ point n, line = Metrics.hitLine point n) ∨
      ∃ tag point n, tag ≠ .marker ∧ line = Metrics.triggerLine tag point n
  /-- No line occurs twice. -/
  nodup : (exposition p).Nodup

theorem exact_ending (steps : List Step) :
    Exact (ending .start steps) (moments .start steps) := by
  have hsound : (ending .start steps).tally.Sound := sound_ending Tally.sound_empty steps
  have hhits : ∀ point, (ending .start steps).tally.hitsOf point =
      (moments .start steps).countP (Moment.reaches point) := fun point => by
    rw [hitsOf_ending]
    exact Nat.zero_add _
  have htriggered : ∀ tag point, (ending .start steps).tally.triggeredOf tag point =
      (moments .start steps).countP (Moment.fires tag point) := fun tag point => by
    rw [triggeredOf_ending]
    exact Nat.zero_add _
  exact
    { hits := hhits
      triggered := htriggered
      marker := hsound.triggeredOf_marker
      sum_le := fun point => by
        rw [hhits, htriggered, htriggered, htriggered]
        exact countP_fires_le point _
      hitLine := fun point n => by rw [hitLine_mem_iff hsound, hhits]
      triggerLine := fun tag point n => by rw [triggerLine_mem_iff hsound, htriggered]
      lines := fun line hline hvalue => by
        rcases line_cases hsound hline hvalue with h | ⟨point, n, -, -, h⟩ |
          ⟨tag, point, n, hn, hne, h⟩
        · exact Or.inl h
        · exact Or.inr (Or.inl ⟨point, n, h⟩)
        · refine Or.inr (Or.inr ⟨tag, point, n, ?_, h⟩)
          rintro rfl
          exact hne (hn.trans (hsound.triggeredOf_marker point))
      nodup := nodup_exposition hsound }

/-- **The counters count exactly.**  After every run of a process the counters tell of the run.  No
further run lowers them, and a hit on a point that is not armed changes nothing at all. -/
theorem counters_exact (steps : List Step) :
    Exact (ending .start steps) (moments .start steps) ∧
      (∀ (more : List Step) (tag : Tag) (point : String),
        (ending .start steps).tally.hitsOf point ≤
            (ending .start (steps ++ more)).tally.hitsOf point ∧
          (ending .start steps).tally.triggeredOf tag point ≤
            (ending .start (steps ++ more)).tally.triggeredOf tag point) ∧
      ∀ (way : Way) (id : Nat) (name : String),
        ((ending .start steps).registry id).isActive name = false →
          ending .start (steps ++ [.operation (.strike way id name)]) =
            ending .start steps := by
  refine ⟨exact_ending steps, fun more tag point => ?_, fun way id name hname => ?_⟩
  · rw [ending_append, hitsOf_ending _ more, triggeredOf_ending _ more]
    exact ⟨Nat.le_add_right _ _, Nat.le_add_right _ _⟩
  · have hentry : (ending .start steps).entry id name = none := by
      simpa [isActive_iff_entry] using hname
    have hstrikes : (Step.operation (.strike way id name)).strikes = some (id, name) := rfl
    rw [ending_append, ending, ending, next_of_strikes _ hstrikes, Host.hit_of_none hentry]

end Metrics

end FaultPoints
