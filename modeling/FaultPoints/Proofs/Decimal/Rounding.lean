import FaultPoints.Decimal.Binary64
import Mathlib.Algebra.Order.Archimedean.Basic
import Mathlib.Data.Rat.Cast.Order
import Mathlib.Tactic

/-!
# What rounding to nearest means

The arithmetic of `FaultPoints.Decimal.Binary64` is exact arithmetic on natural numbers with one
rounding at the end.  This file says what the number fields and that rounding denote, on the
rational numbers and without reference to quotients and remainders.

## Main Definitions

* `Binary64.value` — the rational number that a finite number denotes
* `IsNearest` — a natural number is nearest to a rational one, a tie going to the even neighbour

## Main Statements

* `isNearest_ratio_iff` — `roundHalfEven` finds the nearest natural number, and no other is
  nearest
* `value_nonneg_iff` — a finite number is below zero iff its sign is set and it is not a zero
-/

namespace FaultPoints

/-! ## Rounding a quotient -/

/-- `n` is nearest to `q`: no further away than a half, and even where it is exactly a half. -/
structure IsNearest (q : ℚ) (n : ℕ) : Prop where
  /-- It is no further away than a half. -/
  close : |q - n| ≤ 1 / 2
  /-- Of two neighbours that are equally near it is the even one. -/
  even_of_tie : |q - n| = 1 / 2 → n % 2 = 0

/-- A quotient, split into its whole part and the rest. -/
theorem ratio_eq_whole_add (num : ℕ) {den : ℕ} (hden : 0 < den) :
    (num : ℚ) / den = (num / den : ℕ) + ((num % den : ℕ) : ℚ) / den := by
  have hne : (den : ℚ) ≠ 0 := by exact_mod_cast hden.ne'
  rw [div_eq_iff hne, add_mul, div_mul_cancel₀ _ hne]
  exact_mod_cast (Nat.div_add_mod' num den).symm

/-- `roundHalfEven` rounds to nearest.  The three branches are the three ways in which the rest of
the quotient compares with a half. -/
theorem isNearest_roundHalfEven (num : ℕ) {den : ℕ} (hden : 0 < den) :
    IsNearest ((num : ℚ) / den) (roundHalfEven num den) := by
  have hpos : (0 : ℚ) < den := by exact_mod_cast hden
  rw [ratio_eq_whole_add num hden]
  set rest : ℚ := ((num % den : ℕ) : ℚ) / den with hrest
  have hrest0 : 0 ≤ rest := by positivity
  have hrest1 : rest < 1 := by
    rw [hrest, div_lt_one hpos]
    exact_mod_cast Nat.mod_lt num hden
  unfold roundHalfEven
  dsimp only
  split
  · rename_i h
    have hhalf : rest < 1 / 2 := by
      rw [hrest, div_lt_div_iff₀ hpos (by norm_num)]
      exact_mod_cast (by omega : num % den * 2 < 1 * den)
    have habs : |((num / den : ℕ) : ℚ) + rest - ((num / den : ℕ) : ℚ)| = rest := by
      rw [add_sub_cancel_left, abs_of_nonneg hrest0]
    exact ⟨by rw [habs]; exact hhalf.le, fun htie => absurd htie (by rw [habs]; exact hhalf.ne)⟩
  · split
    · rename_i h
      have hhalf : 1 / 2 < rest := by
        rw [hrest, div_lt_div_iff₀ (by norm_num) hpos]
        exact_mod_cast (by omega : 1 * den < num % den * 2)
      have habs : |((num / den : ℕ) : ℚ) + rest - ((num / den + 1 : ℕ) : ℚ)| = 1 - rest := by
        rw [abs_of_nonpos (by push_cast; linarith)]
        push_cast
        ring
      exact ⟨by rw [habs]; linarith, fun htie => absurd htie (by rw [habs]; linarith)⟩
    · -- The rest is exactly a half: the even one of the two neighbours is taken.
      rename_i hlt hgt
      have hhalf : rest = 1 / 2 := by
        rw [hrest, div_eq_div_iff hpos.ne' (by norm_num)]
        exact_mod_cast (by omega : num % den * 2 = 1 * den)
      rcases Nat.mod_two_eq_zero_or_one (num / den) with heven | hodd
      · rw [heven, Nat.add_zero, hhalf]
        exact ⟨by norm_num, fun _ => heven⟩
      · rw [hodd, hhalf]
        refine ⟨?_, fun _ => by omega⟩
        push_cast
        norm_num

/-- At most one natural number is nearest: two of them would be neighbours with the same distance
of a half, and neighbours are not both even. -/
theorem IsNearest.unique {q : ℚ} {m n : ℕ} (hm : IsNearest q m) (hn : IsNearest q n) : m = n := by
  wlog hlt : m < n generalizing m n
  · rcases Nat.lt_trichotomy m n with h | h | h
    · exact absurd h hlt
    · exact h
    · exact (this hn hm h).symm
  exfalso
  have hgap : (m : ℚ) + 1 ≤ n := by exact_mod_cast hlt
  have hlow := (abs_le.mp hm.close).2
  have hhigh := (abs_le.mp hn.close).1
  have hmid : q = m + 1 / 2 := by linarith
  have hsucc : (n : ℚ) = m + 1 := by linarith
  have hm2 := hm.even_of_tie (by rw [hmid]; norm_num)
  have hn2 := hn.even_of_tie (by rw [hmid, hsucc]; norm_num)
  have : n = m + 1 := by exact_mod_cast hsucc
  omega

/-- **Rounding to nearest.**  The number that `roundHalfEven` finds is the only one that is
nearest. -/
theorem isNearest_ratio_iff {num den n : ℕ} (hden : 0 < den) :
    IsNearest ((num : ℚ) / den) n ↔ roundHalfEven num den = n := by
  constructor
  · intro h
    exact (isNearest_roundHalfEven num hden).unique h
  · rintro rfl
    exact isNearest_roundHalfEven num hden

/-! ## What the fields denote -/

namespace Binary64

theorem two_pow_pos (n : ℕ) : 0 < Nat.pow 2 n := Nat.pow_pos (by decide)

theorem unitsPerOne_pos : 0 < unitsPerOne := by decide +kernel

/-- The rational number that a finite number denotes. -/
def value (x : Binary64) : ℚ := (if x.negative then -1 else 1) * (x.units / unitsPerOne)

theorem units_eq_zero_iff (x : Binary64) : x.units = 0 ↔ x.isZero = true := by
  have hpow : Nat.pow 2 x.scale ≠ 0 := (two_pow_pos x.scale).ne'
  simp only [units, Nat.mul_eq_zero, hpow, or_false, significand, isZero, Bool.and_eq_true,
    beq_iff_eq]
  split
  · rename_i h
    simp [h]
  · rename_i h
    simp [h, fractionCount]

/-- A finite number is not below zero iff its sign is not set or it is a zero. -/
theorem value_nonneg_iff (x : Binary64) :
    0 ≤ x.value ↔ (x.negative = true → x.isZero = true) := by
  rw [← units_eq_zero_iff]
  unfold value
  have hone := unitsPerOne_pos
  -- The number of units in one is only ever divided by; its size would only be in the way.
  generalize unitsPerOne = one at hone ⊢
  have hdiv : (0 : ℚ) ≤ x.units / one := by positivity
  cases x.negative with
  | false => simpa using hdiv
  | true =>
      have hne : (one : ℚ) ≠ 0 := by exact_mod_cast hone.ne'
      simp only [↓reduceIte, forall_const, neg_mul, one_mul, Left.nonneg_neg_iff]
      constructor
      · intro h
        have hzero : (x.units : ℚ) / one = 0 := le_antisymm h hdiv
        simpa [hne] using hzero
      · intro h
        simp [h]

/-- A number that is not below zero denotes its magnitude. -/
theorem value_of_nonneg {x : Binary64} (h : 0 ≤ x.value) : x.value = x.units / unitsPerOne := by
  rw [value_nonneg_iff, ← units_eq_zero_iff] at h
  unfold value
  generalize unitsPerOne = one
  cases hn : x.negative with
  | false => simp
  | true => simp [h hn]

end Binary64

end FaultPoints
