import FaultPoints.Net.Address
import Mathlib.Tactic

/-!
# Numbers in addresses

The numbers of an address are written in base ten or sixteen and read back by taking all digits at
the front of a list.  Both ways of writing follow the same recursion on the quotient, so one
induction shows for either base that what is written is a numeral, and one lemma that a numeral is
read back, with limits on its value and on its length and with leading zeros forbidden.

## Main Definitions

* `Net.IsNumeral` — a list of digits that stands for a number
* `Net.Ends` — what may follow a numeral

## Main Statements

* `isNumeral_digits`, `isNumeral_hexDigits` — what is written is a numeral
* `IsNumeral.number_append` — a numeral is read back
-/

namespace FaultPoints.Net

/-- The number that digits of a base stand for. -/
def numeralValue (base : Nat) (ds : List Char) : Nat :=
  ds.foldl (fun n c => base * n + (digitIn base c).getD 0) 0

/-- A list of digits that stands for a number, as it is written. -/
structure IsNumeral (base n : Nat) (ds : List Char) : Prop where
  /-- The base is one. -/
  one_lt : 1 < base
  /-- There is a digit. -/
  ne_nil : ds ≠ []
  /-- There are only digits. -/
  digits : ∀ c ∈ ds, (digitIn base c).isSome = true
  /-- They stand for the number. -/
  value : numeralValue base ds = n
  /-- There are no more of them than the number needs. -/
  length : ∀ k, n < base ^ (k + 1) → ds.length ≤ k + 1
  /-- The first of them is not zero unless the number is. -/
  leading : n ≠ 0 → ds.head? ≠ some '0'

/-- What follows a numeral does not go on with a digit. -/
def Ends (base : Nat) (rest : List Char) : Prop :=
  ∀ c, rest.head? = some c → digitIn base c = none

/-- Writing by recursion on the quotient writes numerals. -/
theorem isNumeral_of_recursion {base : Nat} (hbase : 1 < base) (digit : Nat → Char)
    (hdigit : ∀ d < base, digitIn base (digit d) = some d) {write : Nat → List Char}
    (hwrite : ∀ n, write n =
      if n < base then [digit n] else write (n / base) ++ [digit (n % base)]) (n : Nat) :
    IsNumeral base n (write n) := by
  have hzero : ∀ c, digitIn base c ≠ some 0 → c ≠ '0' := by
    rintro c hc rfl
    refine hc ?_
    have hval : digitIn base '0' = (some 0).filter (· < base) := rfl
    rw [hval, Option.filter_some_pos (by simp; omega)]
  induction n using Nat.strongRecOn with
  | ind n ih =>
      rw [hwrite]
      split
      · rename_i hlt
        have hsome := hdigit n hlt
        refine ⟨hbase, by simp, by simp [hsome], by simp [numeralValue, hsome], by simp,
          fun hn => ?_⟩
        simpa using hzero _ (by simpa [hsome] using hn)
      · rename_i hge
        have hmod : n % base < base := Nat.mod_lt _ (by omega)
        have hsome := hdigit _ hmod
        obtain ⟨-, hne, hdigits, hvalue, hlength, hleading⟩ :=
          ih (n / base) (Nat.div_lt_self (by omega) hbase)
        refine ⟨hbase, by simp, fun c hc => ?_, ?_, fun k hk => ?_, fun _ => ?_⟩
        · rcases List.mem_append.mp hc with hc | hc
          · exact hdigits c hc
          · rw [List.mem_singleton.mp hc, hsome]
            rfl
        · rw [numeralValue] at hvalue
          rw [numeralValue, List.foldl_append, hvalue]
          simpa [hsome] using Nat.div_add_mod n base
        · cases k with
          | zero => rw [Nat.zero_add, Nat.pow_one] at hk; omega
          | succ k =>
              have hquotient : n / base < base ^ (k + 1) :=
                Nat.div_lt_of_lt_mul (by rwa [← Nat.pow_succ'])
              have hle := hlength k hquotient
              rw [List.length_append, List.length_singleton]
              omega
        · have hpos : n / base ≠ 0 := Nat.div_ne_zero_iff.mpr ⟨by omega, by omega⟩
          rw [List.head?_append_of_ne_nil _ hne]
          exact hleading hpos

theorem isNumeral_digits (n : Nat) : IsNumeral 10 n (Text.digits n) := by
  refine isNumeral_of_recursion (by decide) Text.digitChar ?_ ?_ n
  · decide
  · intro n
    rw [Text.digits]

theorem isNumeral_hexDigits (n : Nat) : IsNumeral 16 n (Text.hexDigits n) := by
  refine isNumeral_of_recursion (by decide) Nat.digitChar ?_ ?_ n
  · decide
  · intro n
    exact Nat.toDigits_eq_if (by decide)

/-! ## Reading a numeral -/

/-- Where no digit is at the front, none is taken. -/
theorem takeWhile_of_ends {base : Nat} {rest : List Char} (h : Ends base rest) :
    rest.takeWhile (fun c => (digitIn base c).isSome) = [] ∧
      rest.dropWhile (fun c => (digitIn base c).isSome) = rest := by
  cases rest with
  | nil => exact ⟨rfl, rfl⟩
  | cons c rest =>
      have hc : (digitIn base c).isSome = false := by simp [h c rfl]
      exact ⟨List.takeWhile_cons_of_neg (by simp [hc]), List.dropWhile_cons_of_neg (by simp [hc])⟩

/-- All digits at the front are taken, and nothing else. -/
theorem takeWhile_digits {base : Nat} {ds rest : List Char}
    (hds : ∀ c ∈ ds, (digitIn base c).isSome = true) (hrest : Ends base rest) :
    (ds ++ rest).takeWhile (fun c => (digitIn base c).isSome) = ds ∧
      (ds ++ rest).dropWhile (fun c => (digitIn base c).isSome) = rest := by
  obtain ⟨htake, hdrop⟩ := takeWhile_of_ends hrest
  exact ⟨by rw [List.takeWhile_append_of_pos hds, htake, List.append_nil],
    by rw [List.dropWhile_append_of_pos hds, hdrop]⟩

/-- A numeral is read back if its value and its length are within the limits. -/
theorem IsNumeral.number_append {base n : Nat} {ds : List Char} (h : IsNumeral base n ds)
    {limit : Nat} (hlimit : n < limit) (most : Option Nat)
    (hmost : ∀ m, most = some m → ds.length ≤ m) (leadingZeros : Bool) {rest : List Char}
    (hrest : Ends base rest) :
    number base limit most leadingZeros (ds ++ rest) = some (n, rest) := by
  obtain ⟨htake, hdrop⟩ := takeWhile_digits h.digits hrest
  have hvalue := h.value
  rw [numeralValue] at hvalue
  -- A zero is written with one digit, and every other number with another one in front.
  have hlead : (ds.head? == some '0' && decide (1 < ds.length)) = false := by
    by_cases hn : n = 0
    · have hlen := h.length 0 (by rw [hn]; exact Nat.pow_pos (Nat.zero_lt_of_lt h.one_lt))
      rw [Nat.zero_add] at hlen
      simp [Nat.not_lt.mpr hlen]
    · simp [h.leading hn]
  have hempty : ds.isEmpty = false := by simpa using h.ne_nil
  have hlimit' : ¬ limit ≤ n := Nat.not_le.mpr hlimit
  cases most with
  | none =>
      simp [number, htake, hdrop, hvalue, hempty, hlimit', Bool.and_assoc, hlead]
  | some m =>
      have hm : ¬ m < ds.length := Nat.not_lt.mpr (hmost m rfl)
      simp [number, htake, hdrop, hvalue, hempty, hlimit', Bool.and_assoc, hlead, hm]

/-- Where there is no digit there is no number. -/
theorem number_eq_none {base : Nat} {cs : List Char} (h : Ends base cs) (limit : Nat)
    (most : Option Nat) (leadingZeros : Bool) : number base limit most leadingZeros cs = none := by
  simp [number, (takeWhile_of_ends h).1]

end FaultPoints.Net
