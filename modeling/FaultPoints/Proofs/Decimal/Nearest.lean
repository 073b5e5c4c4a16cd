import FaultPoints.Decimal.Shortest
import FaultPoints.Proofs.Decimal.Rounding

/-!
# The quotients that round to a number

Around every finite number lies an interval of quotients: those whose magnitude is nearer to it
than to its two neighbours, and the ends where its significand is even.  This file proves that
rounding takes each quotient of that interval to the number.

Rounding works in units of `2^-1074`.  It drops as many bits of a quotient as stand beyond the
fifty-third, so what has to be known is that number of bits.  Every quotient of the interval has as
many as the number itself, but for one case: below a power of two the quotients have one bit less.
They round up to a significand of fifty-four bits, and its rank is that of the power of two.

## Main Definitions

* `Decimal.Interval.Holds` — a rational number lies in an interval

## Main Statements

* `isNearest_of_close` — a quotient of the interval has the significand for its nearest number
* `ofRatio_of_holds` — it rounds to the number
-/

namespace FaultPoints

/-- A rational number lies in an interval. -/
def Decimal.Interval.Holds (i : Decimal.Interval) (q : ℚ) : Prop :=
  if i.closed then i.low ≤ q * i.den ∧ q * i.den ≤ i.high
  else i.low < q * i.den ∧ q * i.den < i.high

namespace Binary64

/-! ## Dropping bits -/

/-- How many bits are dropped from a quotient, by the power of two below it. -/
theorem log2_sub_eq {n k : ℕ} (hlow : k = 0 ∨ 2 ^ (52 + k) ≤ n) (hhigh : n < 2 ^ (53 + k)) :
    Nat.log2 n - 52 = k := by
  by_cases hn : n = 0
  · subst hn
    rcases hlow with rfl | hlow
    · rfl
    · exact absurd hlow (not_le.mpr (by positivity))
  · have hlt : Nat.log2 n < 53 + k := (Nat.log2_lt hn).mpr hhigh
    rcases hlow with rfl | hlow
    · omega
    · have hle : 52 + k ≤ Nat.log2 n := (Nat.le_log2 hn).mpr hlow
      omega

/-- The rank of a quotient, by the bits that are dropped and the number nearest to the rest. -/
theorem rankOfRatio_eq {num den k m : ℕ} (hden : 0 < den)
    (hlow : k = 0 ∨ (2 : ℚ) ^ (52 + k) ≤ num / den * unitsPerOne)
    (hhigh : (num : ℚ) / den * unitsPerOne < 2 ^ (53 + k))
    (hnear : IsNearest ((num : ℚ) / den * unitsPerOne / 2 ^ k) m) :
    rankOfRatio num den = k * fractionCount + m := by
  have hpos : (0 : ℚ) < den := by exact_mod_cast hden
  have hunits : (num : ℚ) / den * unitsPerOne = ((num * unitsPerOne : ℕ) : ℚ) / den := by
    push_cast
    ring
  rw [hunits] at hlow hhigh hnear
  have hdropped : Nat.log2 (num * unitsPerOne / den) - 52 = k := by
    refine log2_sub_eq (hlow.imp_right fun h => ?_) ?_
    · rw [Nat.le_div_iff_mul_le hden]
      rw [le_div_iff₀ hpos] at h
      exact_mod_cast h
    · rw [Nat.div_lt_iff_lt_mul hden]
      rw [div_lt_iff₀ hpos] at hhigh
      exact_mod_cast hhigh
  have hround : roundHalfEven (num * unitsPerOne) (den * Nat.pow 2 k) = m := by
    refine (isNearest_ratio_iff (Nat.mul_pos hden (two_pow_pos k))).mp ?_
    rw [div_div] at hnear
    exact_mod_cast hnear
  rw [rankOfRatio, hdropped, hround]

/-! ## The interval of a number -/

/-- What an interval says of the units of a quotient: the number lies between the half of the gap
below it and the half of the gap above it, and on neither end if its significand is odd. -/
structure Close (x : Binary64) (s : ℚ) : Prop where
  /-- It is at most half a gap below the number. -/
  low : (x.units : ℚ) - 2 ^ x.scale / 2 ≤ s
  /-- Below a power of two the gap is half as great. -/
  low_of_power : x.fraction.val = 0 → 1 < x.exponent.val → (x.units : ℚ) - 2 ^ x.scale / 4 ≤ s
  /-- It is at most half a gap above the number. -/
  high : s ≤ (x.units : ℚ) + 2 ^ x.scale / 2
  /-- The ends are left out if the significand is odd. -/
  strict : x.significand % 2 ≠ 0 →
    (x.units : ℚ) - 2 ^ x.scale / 2 < s ∧ s < (x.units : ℚ) + 2 ^ x.scale / 2

/-- The gap below a number, in quarters of a unit. -/
theorem exists_gap (x : Binary64) :
    ∃ gap : ℕ, x.roundingInterval.low = 4 * x.units - gap ∧ 2 ^ x.scale ≤ gap ∧
      gap ≤ 2 * 2 ^ x.scale ∧
        (x.fraction.val = 0 → 1 < x.exponent.val → gap = 2 ^ x.scale) := by
  refine ⟨_, rfl, ?_, ?_, fun hfraction hexponent => if_pos (by simp [hfraction, hexponent])⟩
  · split
    · exact le_rfl
    · exact Nat.le_mul_of_pos_left _ (by decide)
  · split
    · exact Nat.le_mul_of_pos_left _ (by decide)
    · exact le_rfl

theorem high_roundingInterval (x : Binary64) :
    ((x.roundingInterval.high : ℕ) : ℚ) = 4 * x.units + 2 * 2 ^ x.scale := by
  exact_mod_cast (rfl : x.roundingInterval.high = 4 * x.units + 2 * 2 ^ x.scale)

theorem mul_den_roundingInterval (x : Binary64) (q : ℚ) :
    q * (x.roundingInterval.den : ℕ) = 4 * (q * unitsPerOne) := by
  have hden : ((x.roundingInterval.den : ℕ) : ℚ) = 4 * unitsPerOne := by exact_mod_cast rfl
  rw [hden]
  ring

theorem close_of_holds {x : Binary64} {q : ℚ} (h : x.roundingInterval.Holds q) :
    x.Close (q * unitsPerOne) := by
  have hstep : (0 : ℚ) < 2 ^ x.scale := by positivity
  obtain ⟨gap, hlow, -, hle, hpower⟩ := exists_gap x
  have hgap : (4 : ℚ) * x.units - gap ≤ (x.roundingInterval.low : ℕ) := by
    rw [sub_le_iff_le_add, hlow]
    exact_mod_cast le_tsub_add
  have hgap_le : (gap : ℚ) ≤ 2 * 2 ^ x.scale := by exact_mod_cast hle
  have hgap_power : x.fraction.val = 0 → 1 < x.exponent.val → (gap : ℚ) = 2 ^ x.scale :=
    fun hfraction hexponent => by exact_mod_cast hpower hfraction hexponent
  have hclosed : x.roundingInterval.closed = (x.significand % 2 == 0) := rfl
  rw [Decimal.Interval.Holds, hclosed, mul_den_roundingInterval, high_roundingInterval] at h
  by_cases heven : x.significand % 2 = 0
  · rw [if_pos (by simpa using heven)] at h
    exact ⟨by linarith, fun h₁ h₂ => by linarith [hgap_power h₁ h₂], by linarith,
      fun hodd => absurd heven hodd⟩
  · rw [if_neg (by simpa using heven)] at h
    exact ⟨by linarith, fun h₁ h₂ => by linarith [hgap_power h₁ h₂], by linarith,
      fun _ => ⟨by linarith, by linarith⟩⟩

theorem cast_units (x : Binary64) : (x.units : ℚ) = x.significand * 2 ^ x.scale := by
  exact_mod_cast (rfl : x.units = x.significand * 2 ^ x.scale)

/-- A quotient of the interval has the significand for its nearest number. -/
theorem isNearest_of_close {x : Binary64} {s : ℚ} (h : x.Close s) :
    IsNearest (s / 2 ^ x.scale) x.significand := by
  have hstep : (0 : ℚ) < 2 ^ x.scale := by positivity
  have hunits := cast_units x
  have hsub : s / 2 ^ x.scale - x.significand = (s - x.units) / 2 ^ x.scale := by
    rw [hunits]
    field_simp
  have habs : ∀ b : ℚ, |s / 2 ^ x.scale - x.significand| ≤ b ↔
      |s - x.units| ≤ b * 2 ^ x.scale := fun b => by
    rw [hsub, abs_div, abs_of_pos hstep, div_le_iff₀ hstep]
  refine ⟨(habs _).mpr (abs_le.mpr ⟨?_, ?_⟩), fun htie => ?_⟩
  · linarith [h.low]
  · linarith [h.high]
  · by_contra hodd
    obtain ⟨hlow, hhigh⟩ := h.strict hodd
    have hlt : |s - x.units| < 1 / 2 * 2 ^ x.scale :=
      abs_lt.mpr ⟨by linarith, by linarith⟩
    rw [hsub, abs_div, abs_of_pos hstep, div_eq_iff hstep.ne'] at htie
    exact absurd htie hlt.ne

/-! ## Rounding -/

theorem significand_lt (x : Binary64) : x.significand < 2 ^ 53 := by
  have hfraction := x.fraction.isLt
  unfold significand
  split <;> simp only [fractionCount] at hfraction ⊢ <;> omega

/-- The rank of a number, by its significand and the bits that are dropped. -/
theorem rank_eq (x : Binary64) : x.rank = x.scale * fractionCount + x.significand := by
  unfold rank scale significand
  split
  · rename_i hexponent
    rw [hexponent]
  · rename_i hexponent
    obtain ⟨e, he⟩ := Nat.exists_eq_succ_of_ne_zero hexponent
    rw [he]
    simp only [fractionCount, Nat.succ_sub_one]
    omega

/-- Close to a number but below the power of two at which its gaps begin, the number is that
power. -/
theorem Close.eq_power {x : Binary64} {s : ℚ} (h : x.Close s) (hscale : x.scale ≠ 0)
    (hlt : s < 2 ^ (52 + x.scale)) :
    x.significand = fractionCount ∧ x.fraction.val = 0 ∧ 1 < x.exponent.val := by
  have hstep : (0 : ℚ) < 2 ^ x.scale := by positivity
  have hexponent : 1 < x.exponent.val := by
    have : x.scale = x.exponent.val - 1 := rfl
    omega
  have hsignificand : x.significand = fractionCount + x.fraction.val := by
    rw [significand, if_neg (by omega)]
  have hsmall : (x.significand : ℚ) < 2 ^ 52 + 1 := by
    by_contra hge
    have hmul := mul_le_mul_of_nonneg_right (not_lt.mp hge) hstep.le
    have hlow := h.low
    rw [cast_units] at hlow
    rw [pow_add] at hlt
    linarith
  have hsmall : x.significand < 2 ^ 52 + 1 := by exact_mod_cast hsmall
  simp only [fractionCount] at hsignificand ⊢
  omega

/-- Less than half a gap below a power of two, rounding finds the rank of the power. -/
theorem rankOfRatio_of_below_power {num den k : ℕ} (hden : 0 < den)
    (hlow : (2 ^ 53 - 1 / 2) * 2 ^ k ≤ (num : ℚ) / den * unitsPerOne)
    (hhigh : (num : ℚ) / den * unitsPerOne < 2 ^ 53 * 2 ^ k) :
    rankOfRatio num den = k * fractionCount + 2 ^ 53 := by
  have hstep : (0 : ℚ) < 2 ^ k := by positivity
  have hsub : ∀ s : ℚ, s / 2 ^ k - (2 ^ 53 : ℕ) = (s - 2 ^ 53 * 2 ^ k) / 2 ^ k := by
    intro s
    rw [sub_div, mul_div_cancel_right₀ _ hstep.ne']
    norm_num
  refine rankOfRatio_eq hden (Or.inr ?_) ?_ ⟨?_, fun _ => by norm_num⟩
  · rw [pow_add]
    linarith
  · rw [pow_add]
    linarith
  · rw [hsub, abs_div, abs_of_pos hstep, div_le_iff₀ hstep, abs_le]
    exact ⟨by linarith, by linarith⟩

/-- Close to a number, rounding finds its rank. -/
theorem rankOfRatio_of_close {x : Binary64} {num den : ℕ} (hden : 0 < den)
    (h : x.Close ((num : ℚ) / den * unitsPerOne)) : rankOfRatio num den = x.rank := by
  have hstep : (0 : ℚ) < 2 ^ x.scale := by positivity
  have hunits := cast_units x
  have hhigh : (num : ℚ) / den * unitsPerOne < 2 ^ (53 + x.scale) := by
    have hle : x.significand + 1 ≤ 2 ^ 53 := x.significand_lt
    have hle : (x.significand : ℚ) + 1 ≤ 2 ^ 53 := by exact_mod_cast hle
    have hmul := mul_le_mul_of_nonneg_right hle hstep.le
    rw [pow_add]
    linarith [h.high]
  by_cases hlow : x.scale = 0 ∨ (2 : ℚ) ^ (52 + x.scale) ≤ num / den * unitsPerOne
  · rw [rankOfRatio_eq hden hlow hhigh (isNearest_of_close h), rank_eq]
  · -- The quotient lies below a power of two, and the number is that power.
    obtain ⟨hscale, hlt⟩ : x.scale ≠ 0 ∧ (num : ℚ) / den * unitsPerOne < 2 ^ (52 + x.scale) := by
      simpa only [not_or, not_le] using hlow
    obtain ⟨hsignificand, hfraction, hexponent⟩ := h.eq_power hscale hlt
    obtain ⟨k, hk⟩ := Nat.exists_eq_succ_of_ne_zero hscale
    have hpow : (2 : ℚ) ^ x.scale = 2 * 2 ^ k := by
      rw [hk, pow_succ]
      ring
    have hbelow := h.low_of_power hfraction hexponent
    have hpower : (fractionCount : ℚ) = 2 ^ 52 := by norm_num [fractionCount]
    rw [hunits, hsignificand, hpower, hpow] at hbelow
    rw [pow_add, hpow] at hlt
    rw [rankOfRatio_of_below_power hden (k := k) (by linarith) (by linarith), rank_eq, hsignificand,
      hk]
    simp only [fractionCount]
    omega

/-- **The quotients of the interval round to the number.** -/
theorem ofRatio_of_holds {x : Binary64} (hfinite : x.isFinite = true) {num den : ℕ}
    (hden : 0 < den) (h : x.roundingInterval.Holds ((num : ℚ) / den)) :
    ofRatio x.negative num den = x := by
  rw [ofRatio, rankOfRatio_of_close hden (close_of_holds h), ofRank_rank hfinite]

end Binary64

end FaultPoints
