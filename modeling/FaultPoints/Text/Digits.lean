/-!
# Decimal digits

Counts, ports and exponents are written in decimal without leading zeros and read
back digit by digit.

## Main Definitions

* `Text.digits` — the decimal digits of a natural number
* `Text.ofDigits` — the number that a list of digits denotes
* `Text.readNatural` — a non-empty list of digits, nothing else
* `Text.readUnsigned` — the same with an optional plus sign and an upper limit
* `Text.readSigned` — the same with either sign and limits at both ends
* `Text.padded` — digits with leading zeros up to a width

## Main Statements

* `ofDigits_digits` — writing then reading a number gives it back
* `readNatural_digits`, `readUnsigned_digits` — the same through the readers that check every
  character
-/

namespace FaultPoints.Text

/-- The character that stands for a digit below ten. -/
def digitChar (d : Nat) : Char := Char.ofNat (48 + d)

/-- Whether a character is one of the ten ASCII digits. -/
def isDigit (c : Char) : Bool := 48 ≤ c.toNat && c.toNat ≤ 57

/-- What an ASCII digit stands for. -/
def digitValue (c : Char) : Nat := c.toNat - 48

/-- The decimal digits of a number, the leading one first. -/
def digits (n : Nat) : List Char :=
  if n < 10 then [digitChar n] else digits (n / 10) ++ [digitChar (n % 10)]
termination_by n

/-- The decimal text of a number. -/
def natural (n : Nat) : String := String.ofList (digits n)

/-- The decimal text of an integer, with a minus sign where it is negative. -/
def integer : Int → String
  | .ofNat n => natural n
  | .negSucc n => "-" ++ natural (n + 1)

/-- The number that digits denote, the leading one first. -/
def ofDigits (cs : List Char) : Nat :=
  cs.foldl (fun n c => 10 * n + digitValue c) 0

/-- A number written in digits alone, at least one of them. -/
def readNatural (cs : List Char) : Option Nat :=
  if cs.isEmpty || !cs.all isDigit then none else some (ofDigits cs)

/-- The first number that sixty-four bits do not hold. -/
abbrev wordLimit : Nat := 18446744073709551616

/-- The first number that sixty-four bits with a sign do not hold. -/
abbrev signedLimit : Nat := 9223372036854775808

/-- A number below a limit, with a plus sign allowed in front. -/
def readUnsigned (limit : Nat) (cs : List Char) : Option Nat :=
  let body := match cs with
    | '+' :: rest => rest
    | _ => cs
  (readNatural body).filter (· < limit)

/-- An integer of sixty-four bits, with either sign allowed in front. -/
def readSigned (cs : List Char) : Option Int :=
  match cs with
  | '-' :: rest => (readNatural rest).bind fun n =>
      if n ≤ signedLimit then some (-(n : Int)) else none
  | _ => (readUnsigned signedLimit cs).map fun n => (n : Int)

/-- Digits with zeros in front up to a width. -/
def padded (width n : Nat) : String :=
  let ds := digits n
  String.ofList (List.replicate (width - ds.length) '0' ++ ds)

theorem digitValue_digitChar {d : Nat} (h : d < 10) : digitValue (digitChar d) = d := by
  have : d = 0 ∨ d = 1 ∨ d = 2 ∨ d = 3 ∨ d = 4 ∨ d = 5 ∨ d = 6 ∨ d = 7 ∨ d = 8 ∨ d = 9 := by omega
  rcases this with rfl | rfl | rfl | rfl | rfl | rfl | rfl | rfl | rfl | rfl <;> decide

theorem isDigit_digitChar {d : Nat} (h : d < 10) : isDigit (digitChar d) = true := by
  have : d = 0 ∨ d = 1 ∨ d = 2 ∨ d = 3 ∨ d = 4 ∨ d = 5 ∨ d = 6 ∨ d = 7 ∨ d = 8 ∨ d = 9 := by omega
  rcases this with rfl | rfl | rfl | rfl | rfl | rfl | rfl | rfl | rfl | rfl <;> decide

theorem digits_ne_nil (n : Nat) : digits n ≠ [] := by
  unfold digits
  split <;> simp

/-- Every character of a written number is a digit. -/
theorem all_isDigit_digits (n : Nat) : (digits n).all isDigit = true := by
  induction n using Nat.strongRecOn with
  | ind n ih =>
    unfold digits
    split
    · rename_i h
      simp [isDigit_digitChar h]
    · rename_i h
      have := ih (n / 10) (by omega)
      simp only [List.all_append, this, Bool.true_and]
      simp [isDigit_digitChar (Nat.mod_lt n (by omega : 10 > 0))]

/-- Reading the digits of a number gives the number. -/
theorem ofDigits_digits (n : Nat) : ofDigits (digits n) = n := by
  induction n using Nat.strongRecOn with
  | ind n ih =>
    unfold digits
    split
    · rename_i h
      simp [ofDigits, digitValue_digitChar h]
    · rename_i h
      have hi := ih (n / 10) (by omega)
      simp only [ofDigits, List.foldl_append, List.foldl_cons, List.foldl_nil] at hi ⊢
      rw [hi, digitValue_digitChar (Nat.mod_lt n (by omega : 10 > 0))]
      omega

/-- The reader that checks every character accepts the digits of a number. -/
theorem readNatural_digits (n : Nat) : readNatural (digits n) = some n := by
  simp [readNatural, digits_ne_nil, all_isDigit_digits, ofDigits_digits]

/-- The reader that allows a sign accepts them, too, below its limit. -/
theorem readUnsigned_digits {limit n : Nat} (h : n < limit) :
    readUnsigned limit (digits n) = some n := by
  have hbody : readUnsigned limit (digits n) = (readNatural (digits n)).filter (· < limit) := by
    unfold readUnsigned
    split
    · rename_i rest hplus
      have hdigit := all_isDigit_digits n
      rw [hplus, List.all_cons] at hdigit
      cases hdigit
    · rfl
  rw [hbody, readNatural_digits, Option.filter_some_pos (by simpa using h)]

end FaultPoints.Text
