import FaultPoints.Failure
import FaultPoints.Proofs.Decimal.Free
import FaultPoints.Proofs.Fault.Acceptance
import FaultPoints.Proofs.Text.Trim

/-!
# The fault that the environment describes

Five variables describe a fault to arm at the start.  A text that is put into such a variable passes
through several special rules: blanks around it are dropped, a blank one counts as none, an end of
zero counts as none, the case of a type does not matter, and what comes out is checked as a whole.
None of them distorts a request that can be carried out.  What is dropped at the ends is nothing
that a name, a count or a number has there, and zero is not the end of any such request.

Conversely nothing else comes out.  What is described is a request that can be carried out, nothing
is described only where the name of the point is missing, and whatever is wrong is told.

## Main Definitions

* `Environment.Sets`, `Environment.Leaves` — a variable holds a text between blanks, or nothing but
  blanks
* `Environment.Conveys`, `Environment.Carries` — the variables tell of an optional part, and of a
  request
* `Environment.Misled` — why no fault comes out although there is a name

## Main Statements

* `said_of_conveys` — a part is read back
* `fault_eq_some_iff` — what it takes for a request to come out
* `fault_of_carries` — a request that can be carried out is read back
* `misled_of_error` — what is wrong otherwise
* `bootstrap_law` — every request that can be carried out gets through, and nothing else does
-/

namespace FaultPoints.Settings.Environment

open FaultPoints.Fault

variable {e : Environment} {r : Request}

/-! ## Variables -/

/-- A variable holds a text, with blanks around it or without. -/
def Sets (e : Environment) (name text : String) : Prop :=
  ∃ v, e.get? name = some v ∧ Text.Pads text v

/-- A variable is not set, or it holds nothing but blanks. -/
def Leaves (e : Environment) (name : String) : Prop :=
  ∀ v, e.get? name = some v → Text.isBlankText v = true

theorem trimmed?_eq_some_iff {name s : String} :
    e.trimmed? name = some s ↔ ∃ v, e.get? name = some v ∧ Text.trim v = s ∧ s ≠ "" := by
  rw [trimmed?, Option.filter_eq_some_iff, Option.map_eq_some_iff]
  constructor
  · rintro ⟨⟨v, hv, htrim⟩, hne⟩
    exact ⟨v, hv, htrim, by simpa using hne⟩
  · rintro ⟨v, hv, htrim, hne⟩
    exact ⟨⟨v, hv, htrim⟩, by simpa using hne⟩

/-- What is left of a variable is trimmed. -/
theorem isTrimmed_of_trimmed? {name s : String} (h : e.trimmed? name = some s) :
    s ≠ "" ∧ Text.IsTrimmed s := by
  obtain ⟨v, -, rfl, hne⟩ := trimmed?_eq_some_iff.mp h
  exact ⟨hne, Text.isTrimmed_trim v⟩

theorem Sets.trimmed? {name text : String} (h : e.Sets name text) (hne : Text.trim text ≠ "") :
    e.trimmed? name = some (Text.trim text) := by
  obtain ⟨v, hv, hpads⟩ := h
  exact trimmed?_eq_some_iff.mpr ⟨v, hv, Text.trim_of_pads hpads, hne⟩

/-- Nothing is left of a variable iff it is unset or blank. -/
theorem trimmed?_eq_none_iff {name : String} : e.trimmed? name = none ↔ e.Leaves name := by
  rw [Option.eq_none_iff_forall_ne_some, Leaves]
  constructor
  · intro h v hv
    by_contra hblank
    have hne := mt (Text.trim_eq_empty_iff v).mp hblank
    exact h _ (trimmed?_eq_some_iff.mpr ⟨v, hv, rfl, hne⟩)
  · intro h s hs
    obtain ⟨v, hv, rfl, hne⟩ := trimmed?_eq_some_iff.mp hs
    exact hne ((Text.trim_eq_empty_iff v).mpr (h v hv))

/-! ## Parts of a request -/

/-- A variable tells of an optional part in one of its spellings. -/
def Conveys {α : Type} (e : Environment) (name : String) (spells : String → α → Prop) :
    Option α → Prop
  | some a => ∃ s, e.Sets name s ∧ spells s a
  | none => e.Leaves name

/-- **A part is read back**, provided that its spellings hold no blanks. -/
theorem said_of_conveys {α : Type} {name : String} {spells : String → α → Prop}
    {read : String → Option α}
    (hread : ∀ s a, spells s a → read s = some a ∧ s ≠ "" ∧ ∀ c ∈ s.toList, Text.isBlank c = false)
    {part : Option α} (h : e.Conveys name spells part) : e.said name read = .ok part := by
  cases part with
  | none => rw [said, trimmed?_eq_none_iff.mpr h]
  | some a =>
      obtain ⟨s, hsets, hspells⟩ := h
      obtain ⟨hok, hne, hblank⟩ := hread s a hspells
      have htrim := Text.trim_eq_self (Text.isTrimmed_of_forall hblank)
      have hleft := hsets.trimmed? (by rwa [htrim])
      rw [htrim] at hleft
      simp only [said, hleft, hok]

/-- A count is read from each of its decimal texts. -/
theorem readCount_of_denotes {s : String} {n : UInt64} (h : Text.Denotes s n) :
    readCount s = some n := by
  rw [readCount, Text.readUnsigned_of_denotes h, Option.map_some, UInt64.ofNat_toNat]

theorem said_count {name : String} {part : Option UInt64}
    (h : e.Conveys name Text.Denotes part) : e.said name readCount = .ok part :=
  said_of_conveys
    (fun _ _ hs => ⟨readCount_of_denotes hs, hs.ne_empty, Text.not_isBlank_of_denotes hs⟩) h

theorem said_number {name : String} {part : Option Binary64}
    (h : e.Conveys name (fun s x => Decimal.read s = some x) part) :
    e.said name Decimal.read = .ok part :=
  said_of_conveys
    (fun _ _ hs => ⟨hs, Decimal.ne_empty_of_read hs, Decimal.not_isBlank_of_read hs⟩) h

/-! ## Requests -/

/-- **The variables tell of a request.**  The type may be left out where it is the usual one. -/
structure Carries (e : Environment) (r : Request) : Prop where
  /-- The name of the point. -/
  point : e.Sets "FAULT_POINT" r.name
  /-- The type, in any spelling that reads as it. -/
  tag : (∃ s, e.Sets "FAULT_TYPE" s ∧ Tag.read s = .ok r.tag) ∨
    r.tag = .exception ∧ e.Leaves "FAULT_TYPE"
  /-- The first hit. -/
  start : e.Conveys "FAULT_START_FROM" Text.Denotes r.start
  /-- The last hit. -/
  stop : e.Conveys "FAULT_END_AFTER" Text.Denotes r.stop
  /-- The sleeping time, in any text that reads as it. -/
  seconds : e.Conveys "FAULT_SLEEP_TIME" (fun s x => Decimal.read s = some x) r.seconds

theorem Carries.tag_eq (h : e.Carries r) : e.tag = .ok r.tag := by
  rcases h.tag with ⟨s, hsets, hread⟩ | ⟨htag, hleaves⟩
  · simp only [Environment.tag, hsets.trimmed? (Text.trim_ne_empty_of_read hread), Text.read_trim,
      hread, Except.mapError]
  · rw [Environment.tag, trimmed?_eq_none_iff.mpr hleaves, htag]

/-- Zero is not the end of a request that can be carried out. -/
theorem filter_stop {plan : Plan} (h : r.plan = .ok plan) : r.stop.filter (· ≠ 0) = r.stop := by
  cases hstop : r.stop with
  | none => rfl
  | some last =>
      have hdescribes := (plan_eq_ok_iff r plan).mp h
      have hpos := hdescribes.sound.window.start_pos
      have hle := UInt64.le_iff_toNat_le.mp
        (hdescribes.sound.window.start_le last (by rw [hdescribes.window, hstop]))
      have hne : last ≠ 0 := by
        rintro rfl
        have hzero : (0 : UInt64).toNat = 0 := rfl
        omega
      exact Option.filter_some_pos (by simpa using hne)

/-- **What it takes for a request to come out**: its parts are read off the variables, and it can be
carried out. -/
theorem fault_eq_some_iff :
    e.fault = .ok (some r) ↔
      e.trimmed? "FAULT_POINT" = some r.name ∧ e.tag = .ok r.tag ∧
        e.said "FAULT_START_FROM" readCount = .ok r.start ∧
        (∃ stop, e.said "FAULT_END_AFTER" readCount = .ok stop ∧
          stop.filter (· ≠ 0) = r.stop) ∧
        e.said "FAULT_SLEEP_TIME" Decimal.read = .ok r.seconds ∧ ∃ plan, r.plan = .ok plan := by
  have hat : ∀ name, e.faultAt name = .ok r ↔ name = r.name ∧ e.tag = .ok r.tag ∧
      e.said "FAULT_START_FROM" readCount = .ok r.start ∧
      (∃ stop, e.said "FAULT_END_AFTER" readCount = .ok stop ∧ stop.filter (· ≠ 0) = r.stop) ∧
      e.said "FAULT_SLEEP_TIME" Decimal.read = .ok r.seconds ∧ ∃ plan, r.plan = .ok plan := by
    intro name
    simp only [faultAt, bind_eq_ok_iff, mapError_eq_ok_iff, pure_eq_ok_iff]
    constructor
    · rintro ⟨tag, htag, start, hstart, stop, hstop, seconds, hseconds, plan, hplan, rfl⟩
      exact ⟨rfl, htag, hstart, ⟨stop, hstop, rfl⟩, hseconds, plan, hplan⟩
    · rintro ⟨rfl, htag, hstart, ⟨stop, hstop, hfilter⟩, hseconds, plan, hplan⟩
      obtain ⟨name, tag, start, stop', seconds⟩ := r
      obtain rfl := hfilter
      exact ⟨tag, htag, start, hstart, stop, hstop, seconds, hseconds, plan, hplan, rfl⟩
  cases hpoint : e.trimmed? "FAULT_POINT" with
  | none => simp [fault, hpoint]
  | some name =>
      simp only [fault, hpoint, map_eq_ok_iff, Option.some.injEq, ← hat]
      simp

/-- **A request that can be carried out is read back.** -/
theorem fault_of_carries {plan : Plan} (hplan : r.plan = .ok plan) (hne : r.name ≠ "")
    (htrimmed : Text.IsTrimmed r.name) (h : e.Carries r) : e.fault = .ok (some r) := by
  have htrim := Text.trim_eq_self htrimmed
  have hpoint := h.point.trimmed? (by rwa [htrim])
  rw [htrim] at hpoint
  exact fault_eq_some_iff.mpr
    ⟨hpoint, h.tag_eq, said_count h.start, ⟨r.stop, said_count h.stop, filter_stop hplan⟩,
      said_number h.seconds, plan, hplan⟩

/-! ## What does not come out -/

/-- **Why no request comes out although there is a name.** -/
inductive Misled (e : Environment) : BootError → Prop where
  /-- There is no such type. -/
  | tag {s : String} {why : Refusal} (hset : e.trimmed? "FAULT_TYPE" = some s)
      (hread : Tag.read s = .error why) : Misled e (.refused why)
  /-- A count or a number cannot be read. -/
  | text {name s : String}
      (hname : name ∈ ["FAULT_START_FROM", "FAULT_END_AFTER", "FAULT_SLEEP_TIME"])
      (hset : e.trimmed? name = some s) : Misled e (.invalid (.variable name s))
  /-- What is described cannot be carried out. -/
  | plan {r : Request} {why : Refusal} (hpoint : e.trimmed? "FAULT_POINT" = some r.name)
      (hplan : r.plan = .error why) : Misled e (.refused why)

/-- A computation of two steps fails iff one of them does. -/
theorem bind_eq_error_iff {ε α β : Type} {x : Except ε α} {f : α → Except ε β} {why : ε} :
    x >>= f = .error why ↔ x = .error why ∨ ∃ a, x = .ok a ∧ f a = .error why := by
  cases x with
  | error why' => simp [bind, Except.bind]
  | ok a => simp [bind, Except.bind]

theorem mapError_eq_error_iff {ε ε' α : Type} {x : Except ε α} {f : ε → ε'} {why : ε'} :
    x.mapError f = .error why ↔ ∃ why', x = .error why' ∧ f why' = why := by
  cases x with
  | error why' => simp [Except.mapError]
  | ok a => simp [Except.mapError]

theorem misled_of_tag {why : BootError} (h : e.tag = .error why) : e.Misled why := by
  unfold Environment.tag at h
  split at h
  · cases h
  · rename_i s hset
    obtain ⟨refusal, hread, rfl⟩ := mapError_eq_error_iff.mp h
    exact .tag hset hread

theorem misled_of_said {α : Type} {name : String} {read : String → Option α} {why : BootError}
    (hname : name ∈ ["FAULT_START_FROM", "FAULT_END_AFTER", "FAULT_SLEEP_TIME"])
    (h : e.said name read = .error why) : e.Misled why := by
  unfold said at h
  split at h
  · cases h
  · rename_i s hset
    split at h
    · cases h
    · cases h
      exact .text hname hset

/-- **What is wrong where no request comes out.** -/
theorem misled_of_error {why : BootError} (h : e.fault = .error why) : e.Misled why := by
  cases hpoint : e.trimmed? "FAULT_POINT" with
  | none =>
      rw [(fault_none_iff e).mpr hpoint] at h
      cases h
  | some name =>
      have hat : e.faultAt name = .error why := by
        cases hat : e.faultAt name with
        | error why' =>
            simp only [fault, hpoint, hat, Except.map, Except.error.injEq] at h
            rw [h]
        | ok r => simp [fault, hpoint, hat, Except.map] at h
      -- The parts are read one after the other, and the first one that fails is told.
      rcases bind_eq_error_iff.mp hat with htag | ⟨tag, -, hat⟩
      · exact misled_of_tag htag
      rcases bind_eq_error_iff.mp hat with hstart | ⟨start, -, hat⟩
      · exact misled_of_said (by simp) hstart
      rcases bind_eq_error_iff.mp hat with hstop | ⟨stop, -, hat⟩
      · exact misled_of_said (by simp) hstop
      rcases bind_eq_error_iff.mp hat with hseconds | ⟨seconds, -, hat⟩
      · exact misled_of_said (by simp) hseconds
      rcases bind_eq_error_iff.mp hat with hchecked | ⟨plan, -, hat⟩
      · obtain ⟨refusal, hplan, rfl⟩ := mapError_eq_error_iff.mp hchecked
        exact .plan hpoint hplan
      · cases hat

/-- **The variables carry every request that can be carried out, and nothing else.**  Where they
tell of such a request under a proper name, it comes out as it is.  Where a request comes out, it
can be carried out and its name is proper.  Nothing comes out iff no name is given, and otherwise
what comes out is that the fault is refused or that a variable is not what it should be. -/
theorem bootstrap_law (e : Environment) :
    (∀ r plan, r.plan = .ok plan → r.name ≠ "" → Text.IsTrimmed r.name → e.Carries r →
        e.fault = .ok (some r)) ∧
      (∀ r, e.fault = .ok (some r) →
        (∃ plan, r.plan = .ok plan) ∧ r.name ≠ "" ∧ Text.IsTrimmed r.name) ∧
      (e.fault = .ok none ↔ e.Leaves "FAULT_POINT") ∧
      ∀ why, e.fault = .error why → e.Misled why ∧
        ((∃ refusal, Failure.ofBoot why = .refused refusal) ∨
          ∃ invalid, Failure.ofBoot why = .invalid invalid) := by
  refine ⟨fun r plan hplan hne htrimmed h => fault_of_carries hplan hne htrimmed h,
    fun r h => ?_, ?_, fun why h => ?_⟩
  · obtain ⟨hpoint, -, -, -, -, hplan⟩ := fault_eq_some_iff.mp h
    exact ⟨hplan, isTrimmed_of_trimmed? hpoint⟩
  · rw [fault_none_iff, trimmed?_eq_none_iff]
  · have hmisled := misled_of_error h
    refine ⟨hmisled, ?_⟩
    cases hmisled with
    | tag hset hread => exact Or.inl ⟨_, rfl⟩
    | text hname hset => exact Or.inr ⟨_, rfl⟩
    | plan hpoint hplan => exact Or.inl ⟨_, rfl⟩

/-- A sleeping fault whose variables are padded, signed and spelled in other ways than one would
write them. -/
theorem bootstrap_law_padded :
    let e : Environment := [("FAULT_POINT", " disk.write\t"), ("FAULT_TYPE", "SLEEP "),
      ("FAULT_START_FROM", "+002"), ("FAULT_END_AFTER", "   "), ("FAULT_SLEEP_TIME", " 25e-2 ")]
    let r : Request := ⟨"disk.write", .sleep, some 2, none, Decimal.read "0.25"⟩
    e.fault = .ok (some r) ∧ (∃ plan, r.plan = .ok plan) ∧
      Environment.Misled [("FAULT_POINT", "x"), ("FAULT_END_AFTER", "-1")]
        (.invalid (.variable "FAULT_END_AFTER" "-1")) := by
  intro e r
  have hplan : r.plan = .ok ⟨.sleep ⟨250000000, by decide⟩, ⟨2, none⟩⟩ := by decide +kernel
  have hcarries : e.Carries r :=
    { point := ⟨_, rfl, " ", "\t", by decide, by decide, by decide⟩
      tag := Or.inl ⟨"SLEEP", ⟨_, rfl, "", " ", by decide, by decide, by decide⟩, by decide +kernel⟩
      start := ⟨"+002", ⟨_, rfl, Text.pads_refl _⟩, ['0', '0', '2'], by decide⟩
      stop := by
        intro v hv
        cases hv
        decide
      seconds := ⟨"25e-2", ⟨_, rfl, " ", " ", by decide, by decide, by decide⟩, by decide +kernel⟩ }
  have htrim : Text.trim r.name = r.name := by decide +kernel
  have htrimmed : Text.IsTrimmed r.name := htrim ▸ Text.isTrimmed_trim r.name
  have hback := (bootstrap_law e).1 r _ hplan (by decide) htrimmed hcarries
  exact ⟨hback, ((bootstrap_law e).2.1 r hback).1,
    ((bootstrap_law _).2.2.2 _ (by decide +kernel)).1⟩

end FaultPoints.Settings.Environment
