import FaultPoints.Fault.Host
import FaultPoints.Proofs.Duration
import FaultPoints.Proofs.Fallible

/-!
# Which requests are accepted

A request to arm a point is checked in three places: its sleeping time is converted, its effect and
its window are made from what it says, and its name is checked when the point is armed.  This file
states the requests that pass all of them by their contents alone, and proves that the checks
accept exactly those.

## Main Definitions

* `IsName` — what may name a point
* `Window.Made`, `Plan.Checked` — windows and plans that have passed their checks
* `Plan.Sound` — a plan that can come out of the checks
* `Request.Describes` — the plan that a request describes
* `Request.Acceptable` — the requests that can be carried out

## Main Statements

* `checkName_eq_ok_iff` — the check of names accepts exactly the names
* `ofParams_eq_ok_iff`, `plan_eq_ok_iff` — which parameters and which requests have a plan, and
  which one
* `acceptable_iff` — a request is acceptable iff its name is one and it describes a plan
-/

namespace FaultPoints

namespace Fault

/-! ## Names -/

/-- An ASCII letter, a digit, an underscore, a hyphen or a full stop. -/
def IsNameCharacter (c : Char) : Prop :=
  ('a' ≤ c ∧ c ≤ 'z') ∨ ('A' ≤ c ∧ c ≤ 'Z') ∨ ('0' ≤ c ∧ c ≤ '9') ∨ c = '_' ∨ c = '-' ∨ c = '.'

/-- A text that may name a point. -/
structure IsName (name : String) : Prop where
  /-- There is at least one character. -/
  nonempty : name ≠ ""
  /-- Each character is one that a name may have. -/
  characters : ∀ c ∈ name.toList, IsNameCharacter c

theorem isNameCharacter_iff (c : Char) : isNameCharacter c = true ↔ IsNameCharacter c := by
  have hdigit : Text.isDigit c = true ↔ '0' ≤ c ∧ c ≤ '9' := by
    rw [Text.isDigit, Bool.and_eq_true, decide_eq_true_eq, decide_eq_true_eq]
    rfl
  simp only [isNameCharacter, IsNameCharacter, Bool.or_eq_true, Bool.and_eq_true,
    decide_eq_true_eq, hdigit, or_assoc]

/-- The check of names accepts exactly the names. -/
theorem checkName_eq_ok_iff (name : String) : checkName name = .ok () ↔ IsName name := by
  have hempty : name.toList.isEmpty = true ↔ name = "" := by
    rw [List.isEmpty_iff, ← String.toList_inj]
    rfl
  unfold checkName
  split
  · rename_i h
    constructor
    · intro hok
      cases hok
    · intro hname
      exact absurd (hempty.mp h) hname.nonempty
  · rename_i h
    split
    · rename_i c hfound
      constructor
      · intro hok
        cases hok
      · intro hname
        have hmem := List.mem_of_find?_eq_some hfound
        have hc := (isNameCharacter_iff c).mpr (hname.characters c hmem)
        have hbad := List.find?_some hfound
        simp [hc] at hbad
    · rename_i hnone
      refine ⟨fun _ => ⟨fun he => h (hempty.mpr he), fun c hc => ?_⟩, fun _ => rfl⟩
      have hgood := List.find?_eq_none.mp hnone c hc
      exact (isNameCharacter_iff c).mp (by simpa using hgood)

/-! ## Plans -/

/-- A window starts at a hit and does not end before it starts. -/
structure Window.Ordered (w : Window) : Prop where
  /-- Hits are counted from one. -/
  start_pos : 1 ≤ w.start.toNat
  /-- The last hit, if there is one, is not before the first. -/
  start_le : ∀ last, w.stop = some last → w.start.toNat ≤ last.toNat

instance (w : Window) : Decidable w.Ordered :=
  decidable_of_iff (1 ≤ w.start.toNat ∧ w.stop.all (w.start.toNat ≤ ·.toNat) = true)
    ⟨fun h => ⟨h.1, by simpa [Option.all_eq_true] using h.2⟩,
      fun h => ⟨h.start_pos, by simpa [Option.all_eq_true] using h.start_le⟩⟩

/-- A sleeping fault sleeps for some time. -/
def Effect.Positive (e : Effect) : Prop := ∀ d, e = .sleep d → 0 < d.nanos

instance : DecidablePred Effect.Positive
  | .marker | .exception => .isTrue fun _ h => nomatch h
  | .sleep d => decidable_of_iff (0 < d.nanos)
      ⟨fun h _ hd => Effect.sleep.inj hd ▸ h, fun h => h d rfl⟩

/-- A plan that can come out of the checks. -/
structure Plan.Sound (plan : Plan) : Prop where
  /-- A sleeping fault sleeps for some time. -/
  effect : plan.effect.Positive
  /-- The window is in order. -/
  window : plan.window.Ordered

instance (plan : Plan) : Decidable plan.Sound :=
  decidable_of_iff (plan.effect.Positive ∧ plan.window.Ordered)
    ⟨fun h => ⟨h.1, h.2⟩, fun h => ⟨h.effect, h.window⟩⟩

/-- An effect is told by its tag and its sleeping time. -/
theorem Effect.eq_of_tag_eq {e e' : Effect} (htag : e.tag = e'.tag)
    (hduration : e.duration? = e'.duration?) : e = e' := by
  cases e <;> cases e' <;> simp_all [Effect.tag, Effect.duration?]

/-- Making an effect accepts a tag and a sleeping time iff they are those of an effect whose
sleeping time is not zero. -/
theorem make_effect_eq_ok_iff (tag : Tag) (duration : Option Duration) (e : Effect) :
    Effect.make tag duration = .ok e ↔ e.tag = tag ∧ e.duration? = duration ∧ e.Positive := by
  cases e with
  | marker =>
      cases tag <;> cases duration <;>
        simp [Effect.make, Effect.tag, Effect.duration?, Effect.Positive]
      split <;> simp
  | exception =>
      cases tag <;> cases duration <;>
        simp [Effect.make, Effect.tag, Effect.duration?, Effect.Positive]
      split <;> simp
  | sleep d =>
      cases tag <;> cases duration <;>
        simp [Effect.make, Effect.tag, Effect.duration?, Effect.Positive]
      rename_i given
      by_cases hzero : given.isZero = true
      · simp only [hzero, ↓reduceIte, reduceCtorEq, false_iff, not_and, not_lt]
        rintro rfl
        exact (beq_iff_eq.mp hzero).le
      · simp only [hzero, Bool.false_eq_true, ↓reduceIte, Except.ok.injEq, Effect.sleep.injEq]
        constructor
        · rintro rfl
          exact ⟨rfl, Nat.pos_of_ne_zero fun h => hzero (beq_iff_eq.mpr h)⟩
        · rintro ⟨rfl, -⟩
          rfl

theorem start_ne_zero_iff (n : UInt64) : n ≠ 0 ↔ 1 ≤ n.toNat := by
  rw [Ne, ← UInt64.toNat_inj, Nat.one_le_iff_ne_zero]
  rfl

/-- Making a window accepts its ends iff they are in order. -/
theorem make_window_eq_ok_iff (start stop : Option UInt64) (w : Window) :
    Window.make start stop = .ok w ↔ w = ⟨start.getD 1, stop⟩ ∧ w.Ordered := by
  unfold Window.make
  dsimp only
  generalize start.getD 1 = first
  by_cases hzero : first = 0
  · rw [if_pos hzero]
    constructor
    · intro hok
      cases hok
    · rintro ⟨rfl, hordered⟩
      exact absurd hzero ((start_ne_zero_iff first).mpr hordered.start_pos)
  · have hpos := (start_ne_zero_iff first).mp hzero
    rw [if_neg hzero]
    cases stop with
    | none =>
        dsimp only
        rw [Except.ok.injEq]
        constructor
        · rintro rfl
          exact ⟨rfl, hpos, by simp⟩
        · rintro ⟨rfl, -⟩
          rfl
    | some last =>
        dsimp only
        by_cases hlt : last < first
        · rw [if_pos hlt]
          constructor
          · intro hok
            cases hok
          · rintro ⟨rfl, hordered⟩
            exact absurd (hordered.start_le last rfl) (not_le.mpr hlt)
        · rw [if_neg hlt, Except.ok.injEq]
          constructor
          · rintro rfl
            refine ⟨rfl, hpos, fun last' hlast => ?_⟩
            cases hlast
            exact not_lt.mp hlt
          · rintro ⟨rfl, -⟩
            rfl

/-- **Parameters that are accepted.**  They are those of a sound plan, and that plan comes out. -/
theorem ofParams_eq_ok_iff (tag : Tag) (params : Params) (plan : Plan) :
    Plan.ofParams tag params = .ok plan ↔
      plan.effect.tag = tag ∧ plan.effect.duration? = params.duration ∧
        plan.window = ⟨params.start.getD 1, params.stop⟩ ∧ plan.Sound := by
  simp only [Plan.ofParams, Plan.make, bind_eq_ok_iff, make_effect_eq_ok_iff,
    make_window_eq_ok_iff, pure, Except.pure, Except.ok.injEq]
  constructor
  · rintro ⟨effect, ⟨htag, hduration, hpositive⟩, window, ⟨hwindow, hordered⟩, rfl⟩
    exact ⟨htag, hduration, hwindow, hpositive, hordered⟩
  · rintro ⟨htag, hduration, hwindow, hsound⟩
    exact ⟨plan.effect, ⟨htag, hduration, hsound.effect⟩, plan.window,
      ⟨hwindow, hsound.window⟩, rfl⟩

/-- A window is the work of its maker.  There is no other way to come by one; the window of all hits
is made of no ends. -/
def Window.Made (w : Window) : Prop := ∃ start stop, Window.make start stop = .ok w

/-- A plan has come out of the checks. -/
def Plan.Checked (plan : Plan) : Prop := ∃ tag params, Plan.ofParams tag params = .ok plan

theorem made_all : Window.all.Made := ⟨none, none, rfl⟩

/-- The windows that are made are those in order. -/
theorem made_iff_ordered (w : Window) : w.Made ↔ w.Ordered := by
  constructor
  · rintro ⟨start, stop, h⟩
    exact ((make_window_eq_ok_iff start stop w).mp h).2
  · intro h
    exact ⟨some w.start, w.stop, (make_window_eq_ok_iff _ _ w).mpr ⟨rfl, h⟩⟩

/-- The sound plans are those that the checks let through. -/
theorem sound_iff_checked (plan : Plan) : plan.Sound ↔ plan.Checked := by
  constructor
  · intro h
    exact ⟨plan.effect.tag, ⟨plan.window.start, plan.window.stop, plan.effect.duration?⟩,
      (ofParams_eq_ok_iff _ _ _).mpr ⟨rfl, rfl, rfl, h⟩⟩
  · rintro ⟨tag, params, h⟩
    exact ((ofParams_eq_ok_iff tag params plan).mp h).2.2.2

/-! ## Requests -/

/-- A request lasts for a duration: its seconds convert to it, and it has seconds only then. -/
def Request.Lasts (r : Request) : Option Duration → Prop
  | none => r.seconds = none
  | some d => ∃ x, r.seconds = some x ∧ Duration.Converts x d

/-- The sleeping time of a request is converted as its seconds are. -/
theorem duration_eq_ok_iff (r : Request) (duration : Option Duration) :
    r.duration = .ok duration ↔ r.Lasts duration := by
  unfold Request.duration
  cases hseconds : r.seconds with
  | none => cases duration <;> simp [Request.Lasts, hseconds]
  | some x =>
      dsimp only
      cases hx : Duration.ofSeconds? x with
      | none =>
          cases duration with
          | none => simp [Request.Lasts, hseconds]
          | some d =>
              simp only [Request.Lasts, hseconds, reduceCtorEq, Option.some.injEq, false_iff]
              rintro ⟨y, rfl, hd⟩
              rw [(Duration.ofSeconds?_eq_some_iff _ _).mpr hd] at hx
              cases hx
      | some d =>
          cases duration with
          | none => simp [Request.Lasts, hseconds]
          | some d' =>
              simp only [Request.Lasts, hseconds, Except.ok.injEq, Option.some.injEq]
              constructor
              · rintro rfl
                exact ⟨x, rfl, (Duration.ofSeconds?_eq_some_iff x d).mp hx⟩
              · rintro ⟨y, rfl, hd⟩
                rw [(Duration.ofSeconds?_eq_some_iff x d').mpr hd, Option.some_inj] at hx
                exact hx.symm

/-- A request lasts for one duration at most. -/
theorem Request.Lasts.unique {r : Request} {t t' : Option Duration} (h : r.Lasts t)
    (h' : r.Lasts t') : t = t' := by
  rw [← duration_eq_ok_iff] at h h'
  exact Except.ok.inj (h.symm.trans h')

/-- A request describes a plan: the effect and the window of the plan are those that the request
names, a window that has no start of its own starting at the first hit. -/
structure Request.Describes (r : Request) (plan : Plan) : Prop where
  /-- The effect is of the sort of the request. -/
  tag : plan.effect.tag = r.tag
  /-- It lasts as long as the request says. -/
  lasts : r.Lasts plan.effect.duration?
  /-- The window is that of the request. -/
  window : plan.window = ⟨r.start.getD 1, r.stop⟩
  /-- The plan is sound. -/
  sound : plan.Sound

/-- The plan of a request is the one that it describes, if it describes one. -/
theorem plan_eq_ok_iff (r : Request) (plan : Plan) : r.plan = .ok plan ↔ r.Describes plan := by
  simp only [Request.plan, Request.params, bind_eq_ok_iff, duration_eq_ok_iff, pure, Except.pure,
    Except.ok.injEq]
  constructor
  · rintro ⟨params, ⟨duration, hlasts, rfl⟩, hplan⟩
    obtain ⟨htag, hduration, hwindow, hsound⟩ := (ofParams_eq_ok_iff _ _ _).mp hplan
    exact ⟨htag, by rw [hduration]; exact hlasts, hwindow, hsound⟩
  · intro h
    exact ⟨_, ⟨_, h.lasts, rfl⟩, (ofParams_eq_ok_iff _ _ _).mpr ⟨h.tag, rfl, h.window, h.sound⟩⟩

/-- **The requests that can be carried out**, by what they say. -/
structure Request.Acceptable (r : Request) : Prop where
  /-- The name is one. -/
  name : IsName r.name
  /-- A sleeping fault has a sleeping time that converts to a duration other than zero. -/
  seconds_of_sleep : r.tag = .sleep →
    ∃ x d, r.seconds = some x ∧ Duration.Converts x d ∧ 0 < d.nanos
  /-- Any other fault has none. -/
  seconds_of_other : r.tag ≠ .sleep → r.seconds = none
  /-- The window starts at the first hit or later. -/
  start_pos : 1 ≤ (r.start.getD 1).toNat
  /-- It does not end before it starts. -/
  start_le : ∀ last, r.stop = some last → (r.start.getD 1).toNat ≤ last.toNat

/-- A request can be carried out iff its name is one and it describes a plan. -/
theorem acceptable_iff (r : Request) :
    r.Acceptable ↔ IsName r.name ∧ ∃ plan, r.Describes plan := by
  constructor
  · intro h
    refine ⟨h.name, ?_⟩
    have hordered : Window.Ordered ⟨r.start.getD 1, r.stop⟩ := ⟨h.start_pos, h.start_le⟩
    cases htag : r.tag with
    | marker =>
        have hnone := h.seconds_of_other (by rw [htag]; decide)
        exact ⟨⟨.marker, _⟩, htag.symm, hnone, rfl, by simp [Effect.Positive], hordered⟩
    | exception =>
        have hnone := h.seconds_of_other (by rw [htag]; decide)
        exact ⟨⟨.exception, _⟩, htag.symm, hnone, rfl, by simp [Effect.Positive], hordered⟩
    | sleep =>
        obtain ⟨x, d, hx, hd, hpos⟩ := h.seconds_of_sleep htag
        refine ⟨⟨.sleep d, _⟩, htag.symm, ⟨x, hx, hd⟩, rfl, ?_, hordered⟩
        intro d' hd'
        cases hd'
        exact hpos
  · rintro ⟨hname, plan, h⟩
    have hwindow := h.sound.window
    rw [h.window] at hwindow
    refine ⟨hname, fun htag => ?_, fun htag => ?_, hwindow.start_pos, hwindow.start_le⟩
    · have hlasts := h.lasts
      have hpositive := h.sound.effect
      rw [← h.tag] at htag
      cases heffect : plan.effect with
      | marker => rw [heffect] at htag; cases htag
      | exception => rw [heffect] at htag; cases htag
      | sleep d =>
          rw [heffect] at hlasts
          obtain ⟨x, hx, hd⟩ := hlasts
          exact ⟨x, d, hx, hd, hpositive d heffect⟩
    · have hlasts := h.lasts
      rw [← h.tag] at htag
      cases heffect : plan.effect with
      | marker => rw [heffect] at hlasts; exact hlasts
      | exception => rw [heffect] at hlasts; exact hlasts
      | sleep d => rw [heffect] at htag; exact absurd rfl htag

end Fault

end FaultPoints
