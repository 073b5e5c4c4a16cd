import FaultPoints.Duration
import FaultPoints.Proofs.Decimal.Rounding

/-!
# Numbers of seconds that are durations

A sleeping time travels as a binary64 number of seconds.  It is a duration iff it is finite, not
below zero and below `2^64`, and then it is the one whose nanoseconds are nearest to it.

That a number below `2^64` never rounds up to `2^64` seconds is not a matter of the rounding: close
to `2^64` the binary64 numbers are `2^11` seconds apart, so the greatest of them leaves room.

## Main Definitions

* `Duration.Converts` — a number of seconds and the duration nearest to it

## Main Statements

* `ofSeconds?_eq_some_iff` — the conversion of the library finds exactly that duration
* `exists_converts_iff` — which numbers of seconds have one
-/

namespace FaultPoints

namespace Duration

/-- A number of seconds converts to a duration: it is one that a duration can hold, and the
duration is the nearest to it. -/
structure Converts (x : Binary64) (d : Duration) : Prop where
  /-- The number is neither infinite nor undefined. -/
  finite : x.isFinite = true
  /-- It is not below zero. -/
  nonneg : 0 ≤ x.value
  /-- Its seconds fit sixty-four bits. -/
  below : x.value < 2 ^ 64
  /-- Its nanoseconds are rounded to the nearest whole number. -/
  nearest : IsNearest (x.value * 1000000000) d.nanos

/-- The nanoseconds of a number that is not below zero, as a quotient. -/
theorem value_mul_eq_ratio {x : Binary64} (h : 0 ≤ x.value) :
    x.value * 1000000000 = ((x.units * nanosPerSecond : ℕ) : ℚ) / Binary64.unitsPerOne := by
  rw [Binary64.value_of_nonneg h, div_mul_eq_mul_div]
  push_cast
  rfl

theorem isNearest_nanosOf_iff {x : Binary64} (h : 0 ≤ x.value) (n : ℕ) :
    IsNearest (x.value * 1000000000) n ↔ nanosOf x = n := by
  rw [value_mul_eq_ratio h, isNearest_ratio_iff Binary64.unitsPerOne_pos, nanosOf]

/-- A number whose nanoseconds fit is below `2^64` seconds. -/
theorem value_lt_of_isNearest {x : Binary64} {n : ℕ}
    (h : IsNearest (x.value * 1000000000) n) (hn : n < nanosLimit) : x.value < 2 ^ 64 := by
  have hle : (n : ℚ) + 1 ≤ 2 ^ 64 * 1000000000 := by
    exact_mod_cast (by simpa [nanosLimit, Text.wordLimit, nanosPerSecond] using hn :
      n + 1 ≤ 2 ^ 64 * 1000000000)
  have hclose := (abs_le.mp h.close).2
  linarith

theorem ofNanos?_eq_some_iff (n : ℕ) (d : Duration) : ofNanos? n = some d ↔ n = d.nanos := by
  unfold ofNanos?
  split
  · rename_i h
    rw [Option.some_inj]
    constructor
    · rintro rfl
      rfl
    · rintro rfl
      rfl
  · rename_i h
    constructor
    · intro hn
      cases hn
    · rintro rfl
      exact absurd d.bounded h

/-- The conversion of the library finds the duration nearest to a number of seconds. -/
theorem ofSeconds?_eq_some_iff (x : Binary64) (d : Duration) :
    ofSeconds? x = some d ↔ Converts x d := by
  have hguard : (!x.isFinite || (x.negative && !x.isZero)) = false ↔
      x.isFinite = true ∧ 0 ≤ x.value := by
    rw [Binary64.value_nonneg_iff]
    cases x.isFinite <;> cases x.negative <;> cases x.isZero <;> simp
  unfold ofSeconds?
  constructor
  · intro h
    split at h
    · cases h
    · rename_i hcond
      obtain ⟨hfinite, hnonneg⟩ := hguard.mp (by simpa using hcond)
      have hnanos := (ofNanos?_eq_some_iff _ _).mp h
      have hnear := (isNearest_nanosOf_iff hnonneg _).mpr hnanos
      exact ⟨hfinite, hnonneg, value_lt_of_isNearest hnear d.bounded, hnear⟩
  · intro h
    rw [hguard.mpr ⟨h.finite, h.nonneg⟩, if_neg Bool.false_ne_true]
    exact (ofNanos?_eq_some_iff _ _).mpr ((isNearest_nanosOf_iff h.nonneg _).mp h.nearest)

/-! ## Which numbers have a duration -/

/-- A significand of fifty-three bits, scaled by a power of two and below `2^64` units of `2^k`,
stays away from that bound by `2^11` units. -/
theorem scaled_le_of_lt {sig scale k : ℕ} (hsig : sig < 2 ^ 53)
    (hnormal : scale ≠ 0 → 2 ^ 52 ≤ sig) (hlt : sig * 2 ^ scale < 2 ^ 64 * 2 ^ k) :
    sig * 2 ^ scale ≤ (2 ^ 64 - 2 ^ 11) * 2 ^ k := by
  by_cases hscale : scale ≤ k + 11
  · have hpow : 2 ^ scale ≤ 2 ^ k * 2 ^ 11 := by
      rw [← pow_add]
      exact Nat.pow_le_pow_right (by decide) hscale
    calc sig * 2 ^ scale ≤ (2 ^ 53 - 1) * (2 ^ k * 2 ^ 11) :=
          Nat.mul_le_mul (by omega) hpow
      _ = (2 ^ 64 - 2 ^ 11) * 2 ^ k := by ring
  · exfalso
    have hpow : 2 ^ k * 2 ^ 12 ≤ 2 ^ scale := by
      rw [← pow_add]
      exact Nat.pow_le_pow_right (by decide) (by omega)
    have hge : 2 ^ 52 * (2 ^ k * 2 ^ 12) ≤ sig * 2 ^ scale :=
      Nat.mul_le_mul (hnormal (by omega)) hpow
    have heq : 2 ^ 52 * (2 ^ k * 2 ^ 12) = 2 ^ 64 * 2 ^ k := by ring
    omega

/-- Of the numbers below `2^64` none is closer to it than `2^11`. -/
theorem value_le_of_lt {x : Binary64} (hnonneg : 0 ≤ x.value) (hlt : x.value < 2 ^ 64) :
    x.value ≤ 2 ^ 64 - 2 ^ 11 := by
  have hfraction := x.fraction.isLt
  have hunits : x.units = x.significand * 2 ^ x.scale := rfl
  obtain ⟨k, hk⟩ : ∃ k, Binary64.unitsPerOne = 2 ^ k := ⟨1074, by decide +kernel⟩
  have hone : (0 : ℚ) < ((2 ^ k : ℕ) : ℚ) := by positivity
  rw [Binary64.value_of_nonneg hnonneg, hk, div_lt_iff₀ hone, hunits] at hlt
  rw [Binary64.value_of_nonneg hnonneg, hk, div_le_iff₀ hone, hunits]
  have hle : x.significand * 2 ^ x.scale ≤ (2 ^ 64 - 2 ^ 11) * 2 ^ k := by
    refine scaled_le_of_lt ?_ ?_ (by exact_mod_cast hlt)
    · unfold Binary64.significand
      split <;> simp only [fractionCount] at hfraction ⊢ <;> omega
    · intro hscale
      have hexponent : x.exponent.val ≠ 0 := by
        intro h
        exact hscale (by simp [Binary64.scale, h])
      simp only [Binary64.significand, hexponent, ↓reduceIte, fractionCount]
      omega
  have hcast : ((x.significand * 2 ^ x.scale : ℕ) : ℚ) ≤
      ((2 ^ 64 - 2 ^ 11 : ℕ) : ℚ) * (2 ^ k : ℕ) := by
    exact_mod_cast hle
  norm_num at hcast ⊢
  exact hcast

/-- **The numbers of seconds that are durations** are the finite ones from zero up to `2^64`. -/
theorem exists_converts_iff (x : Binary64) :
    (∃ d, Converts x d) ↔ x.isFinite = true ∧ 0 ≤ x.value ∧ x.value < 2 ^ 64 := by
  constructor
  · rintro ⟨d, h⟩
    exact ⟨h.finite, h.nonneg, h.below⟩
  · rintro ⟨hfinite, hnonneg, hbelow⟩
    obtain ⟨n, hnear⟩ : ∃ n, IsNearest (x.value * 1000000000) n :=
      ⟨_, (isNearest_nanosOf_iff hnonneg _).mpr rfl⟩
    have hle := value_le_of_lt hnonneg hbelow
    have hroom : n < nanosLimit := by
      have hclose := (abs_le.mp hnear.close).1
      have hlt : (n : ℚ) < 18446744073709551616 * 1000000000 := by linarith
      exact_mod_cast hlt
    exact ⟨⟨n, hroom⟩, hfinite, hnonneg, hbelow, hnear⟩

end Duration

end FaultPoints
