import FaultPoints.Decimal.Reading
import FaultPoints.Proofs.Decimal.Nearest

/-!
# The shortest digits read back

The digits of a number are found by trying decimal grids, a finer one each time, until one has a
point among the quotients that round to the number.  Eighteen digits always suffice: that grid is
so fine that its point just below the number is one of those quotients.  So whatever grid the search
ends on, its digits denote a quotient that rounds to the number.

Trailing zeros, and any other way in which the same decimal number is spelled, make no difference:
what is read depends only on the rational number that the digits denote.

## Main Definitions

* `Digits.value` — the rational number that digits denote

## Main Statements

* `holds_shortest` — the shortest digits denote a quotient that rounds to the number
* `toBinary64_of_value_eq` — every decimal of that value is read as the number
-/

namespace FaultPoints

/-- The rational number that digits denote. -/
def Digits.value (d : Digits) : ℚ := d.coefficient * 10 ^ d.exponent

namespace Decimal

/-! ## Powers of ten -/

theorem length_eq_log (n : ℕ) : length n = Nat.log 10 n + 1 := by
  induction n using Nat.strongRecOn with
  | ind n ih =>
      rw [length]
      split
      · rename_i h
        rw [Nat.log_of_lt h]
      · rename_i h
        rw [ih (n / 10) (by omega), Nat.log_of_one_lt_of_le (by decide) (by omega : 10 ≤ n)]

/-- A number scaled by a power of ten. -/
theorem scaled_eq (n : ℕ) (e : ℤ) :
    0 < (scaled n e).2 ∧ ((scaled n e).1 : ℚ) / (scaled n e).2 = n * 10 ^ e := by
  cases e with
  | ofNat k =>
      refine ⟨Nat.one_pos, ?_⟩
      simp [scaled]
  | negSucc k =>
      refine ⟨Nat.pow_pos (by decide), ?_⟩
      have hcast : ((Nat.pow 10 (k + 1) : ℕ) : ℚ) = 10 ^ (k + 1) := by exact_mod_cast rfl
      simp only [scaled, hcast]
      rw [zpow_negSucc, div_eq_mul_inv]

/-- The decade of a quotient does not lie above it. -/
theorem zpow_decade_le {num den : ℕ} (hnum : 0 < num) (hden : 0 < den) :
    (10 : ℚ) ^ decade num den ≤ num / den := by
  have hnum' : (0 : ℚ) < num := by exact_mod_cast hnum
  have hden' : (0 : ℚ) < den := by exact_mod_cast hden
  rw [decade, length_eq_log, length_eq_log, le_div_iff₀ hden']
  split
  · rename_i h
    have hquot : num / den ≠ 0 := (Nat.div_pos h hden).ne'
    have hpow := Nat.pow_log_le_self 10 hquot
    push_cast
    rw [add_sub_cancel_right, zpow_natCast]
    exact_mod_cast (Nat.le_div_iff_mul_le hden).mp hpow
  · rename_i h
    have hlt := Nat.lt_pow_succ_log_self (by decide : 1 < 10) ((den - 1) / num)
    rw [Nat.div_lt_iff_lt_mul hnum] at hlt
    have hle : den ≤ 10 ^ (Nat.log 10 ((den - 1) / num) + 1) * num := by
      rw [Nat.succ_eq_add_one] at hlt
      omega
    rw [zpow_neg, zpow_natCast, inv_mul_le_iff₀ (by positivity)]
    exact_mod_cast hle

/-! ## The search -/

/-- Whether a decimal number lies in an interval depends on what it denotes. -/
theorem has_iff_holds (i : Interval) (d : Digits) : i.has d = true ↔ i.Holds d.value := by
  have hscaled := scaled_eq d.coefficient d.exponent
  rw [Interval.has, Interval.Holds, Digits.value, ← hscaled.2]
  generalize scaled d.coefficient d.exponent = s at hscaled
  obtain ⟨n, m⟩ := s
  have hpos : (0 : ℚ) < m := by exact_mod_cast hscaled.1
  have hdiv : (n : ℚ) / m * i.den = ((n * i.den : ℕ) : ℚ) / m := by
    push_cast
    ring
  rw [hdiv, le_div_iff₀ hpos, div_le_iff₀ hpos, lt_div_iff₀ hpos, div_lt_iff₀ hpos]
  cases i.closed <;> simp only [Bool.false_eq_true, ↓reduceIte, Bool.and_eq_true,
    decide_eq_true_eq] <;> norm_cast

/-- What a grid yields lies in the interval. -/
theorem has_of_nearestOnGrid {t : Tie} {i : Interval} {num den : ℕ} {e : ℤ} {d : Digits}
    (h : nearestOnGrid t i num den e = some d) : i.has d = true := by
  unfold nearestOnGrid at h
  dsimp only at h
  split at h
  · rename_i hdown hup
    split at h <;> cases h <;> assumption
  · cases h
    assumption
  · cases h
    assumption
  · cases h

/-- The point of a grid below a quotient. -/
def below (num den : ℕ) (e : ℤ) : ℕ := num * (scaled 1 e).2 / (den * (scaled 1 e).1)

/-- It is less than a step of the grid below the quotient. -/
theorem below_spec (num : ℕ) {den : ℕ} (hden : 0 < den) (e : ℤ) :
    (below num den e : ℚ) * 10 ^ e ≤ num / den ∧
      (num : ℚ) / den < (below num den e : ℚ) * 10 ^ e + 10 ^ e := by
  have hscaled := scaled_eq 1 e
  rw [below]
  generalize scaled 1 e = s at hscaled
  obtain ⟨p, q⟩ := s
  obtain ⟨hq, hgrid⟩ := hscaled
  dsimp only at hq hgrid
  have hden' : (0 : ℚ) < den := by exact_mod_cast hden
  have hq' : (0 : ℚ) < q := by exact_mod_cast hq
  rw [Nat.cast_one, one_mul] at hgrid
  have hp : 0 < p := by
    refine Nat.pos_of_ne_zero fun hzero => ?_
    rw [hzero, Nat.cast_zero, zero_div] at hgrid
    exact (zpow_pos (by norm_num : (0 : ℚ) < 10) e).ne hgrid
  have hfloor := Nat.div_mul_le_self (num * q) (den * p)
  have hceil := Nat.lt_mul_div_succ (num * q) (Nat.mul_pos hden hp)
  dsimp only
  generalize num * q / (den * p) = c at hfloor hceil
  rw [← hgrid, ← mul_div_assoc, ← add_div, div_le_div_iff₀ hq' hden', div_lt_div_iff₀ hden' hq']
  constructor
  · exact_mod_cast (by linarith : c * p * den ≤ num * q)
  · exact_mod_cast (by linarith : num * q < (c * p + p) * den)

/-- A grid yields something if its point below the value lies in the interval. -/
theorem isSome_nearestOnGrid {t : Tie} {i : Interval} {num den : ℕ} {e : ℤ}
    (h : i.has ⟨below num den e, e⟩ = true) :
    (nearestOnGrid t i num den e).isSome = true := by
  rw [below] at h
  unfold nearestOnGrid
  dsimp only
  rw [h]
  split
  · split <;> rfl
  · rfl
  · rfl
  · rename_i hfalse _
    cases hfalse

/-- Where one of the grids yields something, so does the search. -/
theorem has_firstHit {t : Tie} {i : Interval} {num den : ℕ} {top : ℤ} {fuel count k : ℕ}
    (hlow : count ≤ k) (hhigh : k < count + fuel)
    (h : (nearestOnGrid t i num den (top - k)).isSome = true) :
    i.has (firstHit t i num den top fuel count) = true := by
  induction fuel generalizing count with
  | zero => omega
  | succ fuel ih =>
      rw [firstHit]
      split
      · rename_i hd
        exact has_of_nearestOnGrid hd
      · rename_i hnone
        refine ih ?_ (by omega)
        rcases Nat.lt_or_eq_of_le hlow with hlt | rfl
        · exact hlt
        · rw [hnone] at h
          cases h

/-- Trailing zeros do not change what digits denote. -/
theorem value_stripZeros (fuel : ℕ) (d : Digits) : (stripZeros fuel d).value = d.value := by
  induction fuel generalizing d with
  | zero => rfl
  | succ fuel ih =>
      rw [stripZeros]
      split
      · rename_i h
        have hmod : d.coefficient % 10 = 0 := by
          simp only [Bool.and_eq_true, decide_eq_true_eq] at h
          exact h.1
        obtain ⟨c, hc⟩ := Nat.dvd_of_mod_eq_zero hmod
        rw [ih, Digits.value, Digits.value, hc, Nat.mul_div_cancel_left _ (by decide),
          zpow_add_one₀ (by decide)]
        push_cast
        ring
      · rfl

end Decimal

namespace Binary64

/-! ## Eighteen digits suffice -/

theorem units_pos {x : Binary64} (h : x.isZero = false) : 0 < x.units :=
  Nat.pos_of_ne_zero fun hzero => by rw [(units_eq_zero_iff x).mp hzero] at h; cases h

theorem step_le_units {x : Binary64} (h : x.isZero = false) : 2 ^ x.scale ≤ x.units := by
  have hpos := units_pos h
  have hunits : x.units = x.significand * 2 ^ x.scale := rfl
  have hsignificand : 0 < x.significand := by
    rw [hunits] at hpos
    exact Nat.pos_of_mul_pos_right hpos
  rw [hunits]
  exact Nat.le_mul_of_pos_left _ hsignificand

/-- A quotient just below a number rounds to it. -/
theorem holds_of_below {x : Binary64} (hzero : x.isZero = false) {q : ℚ}
    (hlow : (x.units : ℚ) - 2 ^ x.scale / 4 < q * unitsPerOne)
    (hhigh : q * unitsPerOne ≤ x.units) : x.roundingInterval.Holds q := by
  have hstep : (0 : ℚ) < 2 ^ x.scale := by positivity
  obtain ⟨gap, heq, hge, hle, -⟩ := exists_gap x
  have hunits := step_le_units hzero
  have hgap : ((x.roundingInterval.low : ℕ) : ℚ) ≤ 4 * x.units - 2 ^ x.scale := by
    have hsum : x.roundingInterval.low + 2 ^ x.scale ≤ 4 * x.units := by omega
    have hcast : ((x.roundingInterval.low : ℕ) : ℚ) + 2 ^ x.scale ≤ 4 * x.units := by
      exact_mod_cast hsum
    linarith
  rw [Decimal.Interval.Holds, mul_den_roundingInterval, high_roundingInterval]
  split
  · exact ⟨by linarith, by linarith⟩
  · exact ⟨by linarith, by linarith⟩

/-- The point just below a number on a grid of eighteen digits rounds to the number. -/
theorem isSome_nearestOnGrid_eighteen (t : Decimal.Tie) (x : Binary64) (hzero : x.isZero = false) :
    (Decimal.nearestOnGrid t x.roundingInterval x.units unitsPerOne
      (Decimal.decade x.units unitsPerOne - (17 : ℕ))).isSome = true := by
  have hone : (0 : ℚ) < unitsPerOne := by exact_mod_cast unitsPerOne_pos
  have hdecade := Decimal.zpow_decade_le (units_pos hzero) unitsPerOne_pos
  apply Decimal.isSome_nearestOnGrid
  rw [Decimal.has_iff_holds, Digits.value]
  generalize Decimal.decade x.units unitsPerOne = top at hdecade ⊢
  obtain ⟨hlow, hhigh⟩ := Decimal.below_spec x.units unitsPerOne_pos (top - (17 : ℕ))
  have hstep : (0 : ℚ) < 2 ^ x.scale := by positivity
  have hspacing : (10 : ℚ) ^ (top - (17 : ℕ)) ≤ x.units / unitsPerOne / 10 ^ 17 := by
    rw [zpow_sub₀ (by norm_num), zpow_natCast]
    exact div_le_div_of_nonneg_right hdecade (by norm_num)
  have hsignificand : (x.significand : ℚ) < 2 ^ 53 := by exact_mod_cast significand_lt x
  -- Four times the greatest significand is less than `10^17`.
  have hunits : (x.units : ℚ) / 10 ^ 17 < 2 ^ x.scale / 4 := by
    have hmul := mul_lt_mul_of_pos_right hsignificand hstep
    rw [cast_units]
    linarith
  dsimp only
  generalize (Decimal.below x.units unitsPerOne (top - (17 : ℕ)) : ℚ) *
    10 ^ (top - (17 : ℕ)) = q at hlow hhigh ⊢
  generalize (10 : ℚ) ^ (top - (17 : ℕ)) = g at hspacing hhigh
  rw [le_div_iff₀ hone] at hlow
  rw [div_lt_iff₀ hone] at hhigh
  rw [div_div, div_mul_eq_div_div_swap, le_div_iff₀ hone] at hspacing
  exact holds_of_below hzero (by linarith) hlow

/-- **The shortest digits denote a quotient that rounds to the number.** -/
theorem holds_shortest (t : Decimal.Tie) {x : Binary64} (hzero : x.isZero = false) :
    x.roundingInterval.Holds (x.shortest t).value := by
  rw [shortest, if_neg (by simp [hzero])]
  dsimp only
  rw [Decimal.value_stripZeros, ← Decimal.has_iff_holds]
  exact Decimal.has_firstHit (Nat.zero_le _) (by decide : 17 < 0 + 18)
    (isSome_nearestOnGrid_eighteen t x hzero)

/-! ## Reading -/

/-- A quotient that rounds to a number other than zero lies above the bound below which a decimal is
not even converted. -/
theorem zpow_lt_of_holds {x : Binary64} (hzero : x.isZero = false) {q : ℚ}
    (h : x.roundingInterval.Holds q) : (10 : ℚ) ^ (-324 : ℤ) < q := by
  have hone : (0 : ℚ) < unitsPerOne := by exact_mod_cast unitsPerOne_pos
  have hstep : (1 : ℚ) ≤ 2 ^ x.scale := one_le_pow₀ (by norm_num)
  have hunits : ((2 ^ x.scale : ℕ) : ℚ) ≤ x.units := by exact_mod_cast step_le_units hzero
  push_cast at hunits
  have hsmall : (2 : ℚ) * unitsPerOne < 10 ^ 324 := by
    exact_mod_cast (by decide +kernel : 2 * unitsPerOne < 10 ^ 324)
  have hhalf : (1 : ℚ) / 2 ≤ q * unitsPerOne := by linarith [(close_of_holds h).low]
  have hcast : (10 : ℚ) ^ (324 : ℤ) = 10 ^ 324 := zpow_natCast 10 324
  rw [zpow_neg, ← mul_lt_mul_iff_left₀ hone]
  refine lt_of_lt_of_le ?_ hhalf
  rw [inv_mul_lt_iff₀ (by positivity), hcast, ← div_eq_mul_one_div, lt_div_iff₀ (by norm_num),
    mul_comm]
  exact hsmall

/-- One that rounds to a finite number lies below the bound above which none is. -/
theorem lt_zpow_of_holds {x : Binary64} (hfinite : x.isFinite = true) {q : ℚ}
    (h : x.roundingInterval.Holds q) : q < 10 ^ (309 : ℤ) := by
  have hone : (0 : ℚ) < unitsPerOne := by exact_mod_cast unitsPerOne_pos
  have hstep : (1 : ℚ) ≤ 2 ^ x.scale := one_le_pow₀ (by norm_num)
  have hscale : x.scale ≤ 2045 := by
    have hexponent := x.exponent.isLt
    have hne : x.exponent.val ≠ 2047 := by simpa [isFinite] using hfinite
    simp only [scale]
    omega
  have hpow : (2 : ℚ) ^ x.scale ≤ 2 ^ 2045 := pow_le_pow_right₀ (by norm_num) hscale
  have hbig : (2 : ℚ) ^ 53 * 2 ^ 2045 ≤ 10 ^ 309 * unitsPerOne := by
    exact_mod_cast (by decide +kernel : 2 ^ 53 * 2 ^ 2045 ≤ 10 ^ 309 * unitsPerOne)
  have hsignificand : (x.significand : ℚ) + 1 ≤ 2 ^ 53 := by exact_mod_cast significand_lt x
  have hlt : q * unitsPerOne < 2 ^ 53 * 2 ^ x.scale := by
    have hmul := mul_le_mul_of_nonneg_right hsignificand (by positivity : (0 : ℚ) ≤ 2 ^ x.scale)
    have hhigh := (close_of_holds h).high
    rw [cast_units] at hhigh
    linarith
  have hcast : (10 : ℚ) ^ (309 : ℤ) = 10 ^ 309 := zpow_natCast 10 309
  rw [hcast, ← mul_lt_mul_iff_left₀ hone]
  exact (hlt.trans_le (mul_le_mul_of_nonneg_left hpow (by positivity))).trans_le hbig

end Binary64

/-- The decimal places of a decimal number. -/
theorem Digits.value_bounds {d : Digits} (h : d.coefficient ≠ 0) :
    (10 : ℚ) ^ ((Decimal.length d.coefficient : ℤ) + d.exponent - 1) ≤ d.value ∧
      d.value < 10 ^ ((Decimal.length d.coefficient : ℤ) + d.exponent) := by
  have hscale : (0 : ℚ) < 10 ^ d.exponent := by positivity
  have hlow := Nat.pow_log_le_self 10 h
  have hhigh := Nat.lt_pow_succ_log_self (by decide : 1 < 10) d.coefficient
  have hsplit : (Nat.log 10 d.coefficient : ℤ) + 1 + d.exponent - 1 =
      Nat.log 10 d.coefficient + d.exponent := by ring
  rw [Decimal.length_eq_log, Digits.value]
  push_cast
  rw [hsplit, zpow_add₀ (by norm_num), zpow_add₀ (by norm_num), zpow_natCast,
    mul_le_mul_iff_left₀ hscale, mul_lt_mul_iff_left₀ hscale]
  exact ⟨by exact_mod_cast hlow, by exact_mod_cast hhigh⟩

namespace Binary64

theorem eq_zero_of_isZero {x : Binary64} (h : x.isZero = true) : x = zero x.negative := by
  obtain ⟨negative, exponent, fraction⟩ := x
  simp only [isZero, Bool.and_eq_true, beq_iff_eq] at h
  rw [zero, Binary64.mk.injEq]
  exact ⟨rfl, Fin.ext h.1, Fin.ext h.2⟩

/-- A decimal that denotes a quotient of the interval is read as the number. -/
theorem toBinary64_of_holds {x : Binary64} (hfinite : x.isFinite = true) (hzero : x.isZero = false)
    {d : Digits} (h : x.roundingInterval.Holds d.value) : d.toBinary64 x.negative = x := by
  have hlow := zpow_lt_of_holds hzero h
  have hhigh := lt_zpow_of_holds hfinite h
  have hne : d.coefficient ≠ 0 := by
    intro hcoefficient
    rw [Digits.value, hcoefficient, Nat.cast_zero, zero_mul] at hlow
    exact absurd hlow (not_lt.mpr (by positivity))
  obtain ⟨hge, hlt⟩ := Digits.value_bounds hne
  have htop : (Decimal.length d.coefficient : ℤ) + d.exponent - 1 < 309 :=
    (zpow_lt_zpow_iff_right₀ (by norm_num : (1 : ℚ) < 10)).mp (hge.trans_lt hhigh)
  have hbottom : -324 < (Decimal.length d.coefficient : ℤ) + d.exponent :=
    (zpow_lt_zpow_iff_right₀ (by norm_num : (1 : ℚ) < 10)).mp (hlow.trans hlt)
  obtain ⟨hden, hvalue⟩ := Decimal.scaled_eq d.coefficient d.exponent
  rw [Digits.value, ← hvalue] at h
  rw [Digits.toBinary64, if_neg hne]
  dsimp only
  rw [if_neg (by omega), if_neg (by omega)]
  exact ofRatio_of_holds hfinite hden h

/-- **Every decimal of that value is read as the number.** -/
theorem toBinary64_of_value_eq {t : Decimal.Tie} {x : Binary64} (hfinite : x.isFinite = true)
    {d : Digits} (h : d.value = (x.shortest t).value) : d.toBinary64 x.negative = x := by
  cases hzero : x.isZero with
  | false => exact toBinary64_of_holds hfinite hzero (by rw [h]; exact holds_shortest t hzero)
  | true =>
      have hvalue : (x.shortest t).value = 0 := by
        rw [shortest, if_pos hzero]
        simp [Digits.value]
      have hcoefficient : d.coefficient = 0 := by
        rw [hvalue, Digits.value, mul_eq_zero] at h
        exact_mod_cast h.resolve_right (zpow_ne_zero _ (by norm_num))
      rw [Digits.toBinary64, if_pos hcoefficient]
      exact (eq_zero_of_isZero hzero).symm

end Binary64

end FaultPoints
