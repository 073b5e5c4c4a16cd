import FaultPoints.Duration
import FaultPoints.Proofs.Decimal.Nearest

/-!
# Quotients of moderate size are finite

Rounding a quotient to a number of the format can only reach the infinite magnitude from far above
every duration.  The rank of the rounded number is bounded by the power of two above the quotient,
and the units of a number by its rank; so a sum of rounded numbers is bounded in its turn.

## Main Statements

* `isFinite_ofRatio`, `units_ofRatio_lt` — a quotient below a power of two rounds to a finite
  number, whose units lie below the next one but one
* `isFinite_toSeconds` — the seconds of a duration are a finite number
-/

namespace FaultPoints

namespace Binary64

theorem roundHalfEven_le (num den : ℕ) : roundHalfEven num den ≤ num / den + 1 := by
  simp only [roundHalfEven]
  split
  · omega
  · split <;> omega

/-- Dropping all but fifty-three bits leaves a number of as many bits, up to the rounding. -/
theorem roundHalfEven_dropped_le {scaled den k : ℕ} (h : Nat.log2 (scaled / den) ≤ 52 + k) :
    roundHalfEven scaled (den * Nat.pow 2 k) ≤ 2 ^ 53 := by
  have hrest : scaled / den / 2 ^ k < 2 ^ 53 := by
    rw [Nat.div_lt_iff_lt_mul (by positivity), ← pow_add]
    exact Nat.lt_log2_self.trans_le (Nat.pow_le_pow_right (by decide) (by omega))
  have hround := roundHalfEven_le scaled (den * 2 ^ k)
  rw [← Nat.div_div_eq_div_mul] at hround
  exact hround.trans hrest

/-- Together with the number of dropped bits, this bounds the rank. -/
theorem rank_dropped_le {scaled den e : ℕ} (h : scaled / den < 2 ^ (53 + e)) :
    (Nat.log2 (scaled / den) - 52) * fractionCount +
        roundHalfEven scaled (den * Nat.pow 2 (Nat.log2 (scaled / den) - 52)) ≤
      (e + 2) * fractionCount := by
  have hlog : Nat.log2 (scaled / den) < 53 + e := by
    by_cases hzero : scaled / den = 0
    · rw [hzero]
      exact Nat.lt_add_right e (by decide)
    · exact (Nat.log2_lt hzero).mpr h
  have hround : roundHalfEven scaled (den * Nat.pow 2 (Nat.log2 (scaled / den) - 52)) ≤ 2 ^ 53 :=
    roundHalfEven_dropped_le (by omega)
  have hmul : (Nat.log2 (scaled / den) - 52) * fractionCount ≤ e * fractionCount :=
    Nat.mul_le_mul_right _ (by omega)
  rw [Nat.add_mul]
  exact Nat.add_le_add hmul hround

/-- The rank of a quotient is bounded by the power of two above it. -/
theorem rankOfRatio_le {num den e : ℕ} (h : num * unitsPerOne < 2 ^ (53 + e) * den) :
    rankOfRatio num den ≤ (e + 2) * fractionCount := by
  have hden : 0 < den := Nat.pos_of_mul_pos_left (Nat.zero_lt_of_lt h)
  exact rank_dropped_le ((Nat.div_lt_iff_lt_mul hden).mpr h)

theorem rank_ofRatio_le {num den e : ℕ} (negative : Bool) (he : e + 2 < 2047)
    (h : num * unitsPerOne < 2 ^ (53 + e) * den) :
    (ofRatio negative num den).rank ≤ (e + 2) * fractionCount := by
  have hle := rankOfRatio_le h
  have hlt : (e + 2) * fractionCount < infiniteRank := Nat.mul_lt_mul_of_pos_right he (by decide)
  rw [ofRatio, rank_ofRank (hle.trans_lt hlt)]
  exact hle

/-- A quotient below a power of two rounds to a finite number. -/
theorem isFinite_ofRatio {num den e : ℕ} (negative : Bool) (he : e + 2 < 2047)
    (h : num * unitsPerOne < 2 ^ (53 + e) * den) : (ofRatio negative num den).isFinite = true := by
  have hle := rank_ofRatio_le negative he h
  have hfraction := (ofRatio negative num den).fraction.isLt
  simp only [rank, fractionCount, isFinite, bne_iff_ne, ne_eq] at hle hfraction ⊢
  omega

/-- The units of a quotient lie below the power of two next but one above it. -/
theorem units_ofRatio_lt {num den e : ℕ} (negative : Bool) (he : e + 2 < 2047)
    (h : num * unitsPerOne < 2 ^ (53 + e) * den) :
    (ofRatio negative num den).units < 2 ^ (54 + e) := by
  set x := ofRatio negative num den with hx
  have hle : x.rank ≤ (e + 2) * fractionCount := rank_ofRatio_le negative he h
  have hscale : x.scale ≤ e + 1 := by
    simp only [rank, fractionCount] at hle
    unfold scale
    omega
  calc x.units = x.significand * 2 ^ x.scale := rfl
    _ < 2 ^ 53 * 2 ^ x.scale := Nat.mul_lt_mul_of_pos_right x.significand_lt (by positivity)
    _ ≤ 2 ^ 53 * 2 ^ (e + 1) :=
      Nat.mul_le_mul_left _ (Nat.pow_le_pow_right (by decide) hscale)
    _ = 2 ^ (54 + e) := by rw [← pow_add]; congr 1; omega

end Binary64

namespace Duration

open Binary64

/-- One has a power of two of units, which is not a number to compute with. -/
theorem exists_unitsPerOne_eq : ∃ k, k + 68 < 2047 ∧ unitsPerOne = 2 ^ (53 + k) :=
  ⟨1021, by decide, by decide +kernel⟩

/-- **The seconds of a duration are a finite number.**  There are less than `2^64` of them. -/
theorem isFinite_toSeconds (d : Duration) : d.toSeconds.isFinite = true := by
  obtain ⟨k, hk, hunits⟩ := exists_unitsPerOne_eq
  have hseconds : d.wholeSeconds < 2 ^ 64 :=
    Nat.div_lt_of_lt_mul (d.bounded.trans_eq (Nat.mul_comm _ _))
  have hnanos : d.subsecondNanos < nanosPerSecond := Nat.mod_lt _ (by decide)
  have hwhole : (ofNatural d.wholeSeconds).units < 2 ^ (54 + (k + 64)) := by
    refine units_ofRatio_lt false ((Nat.add_le_add_left (by decide) k).trans_lt hk) ?_
    calc d.wholeSeconds * unitsPerOne < 2 ^ 64 * 2 ^ (53 + k) := by
          rw [hunits]
          exact Nat.mul_lt_mul_of_pos_right hseconds (by positivity)
      _ = 2 ^ (53 + (k + 64)) * 1 := by ring
  have hpart : (ofRatio false d.subsecondNanos nanosPerSecond).units < 2 ^ (54 + k) := by
    refine units_ofRatio_lt false ((Nat.add_le_add_left (by decide) k).trans_lt hk) ?_
    rw [hunits, Nat.mul_comm]
    exact Nat.mul_lt_mul_of_pos_left hnanos (by positivity)
  have hsum : (ofNatural d.wholeSeconds).units +
      (ofRatio false d.subsecondNanos nanosPerSecond).units < 2 ^ (53 + (k + 66)) :=
    calc _ < 2 ^ (54 + (k + 64)) + 2 ^ (54 + k) := Nat.add_lt_add hwhole hpart
      _ ≤ 2 ^ (54 + (k + 64)) + 2 ^ (54 + (k + 64)) :=
        Nat.add_le_add_left (Nat.pow_le_pow_right (by decide) (Nat.add_le_add_left
          (Nat.le_add_right _ _) _)) _
      _ = 2 ^ (53 + (k + 66)) := by ring
  rw [toSeconds, add]
  exact isFinite_ofRatio false hk (Nat.mul_lt_mul_of_pos_right hsum unitsPerOne_pos)

end Duration

end FaultPoints
