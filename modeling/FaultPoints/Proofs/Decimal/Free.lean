import FaultPoints.Decimal.Reading
import FaultPoints.Text.Blank
import Mathlib.Data.List.TakeWhile
import Mathlib.Tactic

/-!
# Numbers in free form

The free form of a number is generous about signs, points, exponents and the case of letters.  It is
strict about everything else: each character of a text that reads as a number is a digit, a sign, a
point or one of the letters that occur in exponents and in the names of the values that are not
finite.  In particular no blank is among them.

## Main Definitions

* `Decimal.isNumberChar` — the characters that can occur in a number
* `Decimal.parted`, `Decimal.readParted` — a number is read in two steps, its sign first

## Main Statements

* `isNumberChar_of_readSigned`, `isNumberChar_of_read` — the characters of a text that reads as an
  integer or as a number
* `not_isBlank_of_read` — none of them is a blank
-/

namespace FaultPoints.Decimal

open FaultPoints.Text

/-- The characters that can occur in a number. -/
def isNumberChar (c : Char) : Bool :=
  isDigit c || ['+', '-', '.', 'e', 'i', 'n', 'f', 't', 'y', 'a'].contains c.toLower

theorem isNumberChar_of_isDigit {c : Char} (h : isDigit c = true) : isNumberChar c = true := by
  rw [isNumberChar, h, Bool.true_or]

/-! ## Integers and exponents -/

theorem isNumberChar_of_readNatural {cs : List Char} {n : Nat} (h : readNatural cs = some n) :
    ∀ c ∈ cs, isNumberChar c = true := by
  intro c hc
  rw [readNatural, Option.ite_none_left_eq_some] at h
  have hdigits : cs ≠ [] ∧ ∀ c ∈ cs, isDigit c = true := by simpa using h.1
  exact isNumberChar_of_isDigit (hdigits.2 c hc)

theorem isNumberChar_of_readUnsigned {limit n : Nat} {cs : List Char}
    (h : readUnsigned limit cs = some n) : ∀ c ∈ cs, isNumberChar c = true := by
  unfold readUnsigned at h
  split at h
  · have hdigits := isNumberChar_of_readNatural (Option.filter_eq_some_iff.mp h).1
    exact List.forall_mem_cons.mpr ⟨by decide, hdigits⟩
  · exact isNumberChar_of_readNatural (Option.filter_eq_some_iff.mp h).1

/-- The characters of a text that reads as an integer. -/
theorem isNumberChar_of_readSigned {cs : List Char} {i : Int} (h : readSigned cs = some i) :
    ∀ c ∈ cs, isNumberChar c = true := by
  unfold readSigned at h
  split at h
  · obtain ⟨n, hn, -⟩ := Option.bind_eq_some_iff.mp h
    exact List.forall_mem_cons.mpr ⟨by decide, isNumberChar_of_readNatural hn⟩
  · obtain ⟨i, hi, -⟩ := Option.map_eq_some_iff.mp h
    obtain ⟨n, hn, -⟩ := Option.bind_eq_some_iff.mp hi
    exact isNumberChar_of_readUnsigned hn

theorem isNumberChar_of_exponentPart {cs : List Char} {e : Int} (h : exponentPart cs = some e) :
    ∀ c ∈ cs, isNumberChar c = true := by
  have hnatural : ∀ {cs : List Char} {f : Int → Int},
      ((do let n ← readNatural cs; pure (n : Int)).map f = some e) →
        ∀ c ∈ cs, isNumberChar c = true := by
    intro cs f hmap
    obtain ⟨i, hi, -⟩ := Option.map_eq_some_iff.mp hmap
    obtain ⟨n, hn, -⟩ := Option.bind_eq_some_iff.mp hi
    exact isNumberChar_of_readNatural hn
  unfold exponentPart at h
  split at h
  · exact List.forall_mem_cons.mpr ⟨by decide, hnatural h⟩
  · exact List.forall_mem_cons.mpr ⟨by decide, hnatural h⟩
  · exact hnatural h

/-- What can follow the digits of a decimal. -/
theorem isNumberChar_of_tail {cs : List Char} {x d : Digits} {f : Int → Digits}
    (h : (match cs with
      | [] => some x
      | c :: rest => if c = 'e' || c = 'E' then (exponentPart rest).map f else none) = some d) :
    ∀ c ∈ cs, isNumberChar c = true := by
  cases cs with
  | nil => simp
  | cons c rest =>
      dsimp only at h
      rw [Option.ite_none_right_eq_some] at h
      obtain ⟨hletter, hrest⟩ := h
      obtain ⟨e, he, -⟩ := Option.map_eq_some_iff.mp hrest
      have hc : isNumberChar c = true := by
        rcases Bool.or_eq_true_iff.mp hletter with hletter | hletter <;>
          rw [of_decide_eq_true hletter] <;> decide
      exact List.forall_mem_cons.mpr ⟨hc, isNumberChar_of_exponentPart he⟩

/-! ## Numbers without sign -/

/-- In front of the rest there are digits. -/
theorem isNumberChar_of_dropWhile {cs : List Char}
    (h : ∀ c ∈ cs.dropWhile isDigit, isNumberChar c = true) :
    ∀ c ∈ cs, isNumberChar c = true := by
  rw [← List.takeWhile_append_dropWhile (p := isDigit) (l := cs)]
  exact List.forall_mem_append.mpr
    ⟨fun c hc => isNumberChar_of_isDigit (List.mem_takeWhile_imp hc), h⟩

theorem isNumberChar_of_unsigned {cs : List Char} {d : Digits} (h : unsigned cs = some d) :
    ∀ c ∈ cs, isNumberChar c = true := by
  refine isNumberChar_of_dropWhile ?_
  simp only [unsigned] at h
  split at h
  · -- A point stands behind the first digits.
    rename_i rest hpoint
    rw [Option.ite_none_left_eq_some] at h
    rw [hpoint]
    exact List.forall_mem_cons.mpr
      ⟨by decide, isNumberChar_of_dropWhile (isNumberChar_of_tail h.2)⟩
  · rw [Option.ite_none_left_eq_some] at h
    exact isNumberChar_of_tail h.2

/-- A text in which the case of letters does not matter spells a name. -/
theorem isNumberChar_of_name {cs : List Char} {name : String}
    (hname : (name.toList.all fun c =>
      ['+', '-', '.', 'e', 'i', 'n', 'f', 't', 'y', 'a'].contains c) = true)
    (h : String.ofList (cs.map Char.toLower) = name) : ∀ c ∈ cs, isNumberChar c = true := by
  intro c hc
  rw [← h, String.toList_ofList] at hname
  have hlower := List.all_eq_true.mp hname c.toLower (List.mem_map_of_mem hc)
  rw [isNumberChar, hlower, Bool.or_true]

/-! ## Numbers with a sign -/

/-- The sign of a text, and what stands behind it. -/
def parted (cs : List Char) : Bool × List Char :=
  match cs with
  | '-' :: rest => (true, rest)
  | '+' :: rest => (false, rest)
  | cs => (false, cs)

/-- The number behind a sign. -/
def readParted (part : Bool × List Char) : Option Binary64 :=
  let name := String.ofList (part.2.map Char.toLower)
  if name = "inf" || name = "infinity" then some (Binary64.infinity part.1)
  else if name = "nan" then some Binary64.nan
  else (unsigned part.2).map fun d => d.toBinary64 part.1

theorem read_eq (s : String) : read s = readParted (parted s.toList) := rfl

theorem isNumberChar_of_parted {cs : List Char}
    (h : ∀ c ∈ (parted cs).2, isNumberChar c = true) : ∀ c ∈ cs, isNumberChar c = true := by
  unfold parted at h
  split at h
  · exact List.forall_mem_cons.mpr ⟨by decide, h⟩
  · exact List.forall_mem_cons.mpr ⟨by decide, h⟩
  · exact h

/-- **The characters of a text that reads as a number.** -/
theorem isNumberChar_of_read {s : String} {x : Binary64} (h : read s = some x) :
    ∀ c ∈ s.toList, isNumberChar c = true := by
  refine isNumberChar_of_parted ?_
  rw [read_eq] at h
  simp only [readParted] at h
  split at h
  · rename_i hname
    rcases Bool.or_eq_true_iff.mp hname with hname | hname
    · exact isNumberChar_of_name (by decide) (of_decide_eq_true hname)
    · exact isNumberChar_of_name (by decide) (of_decide_eq_true hname)
  · split at h
    · rename_i hname
      exact isNumberChar_of_name (by decide) hname
    · obtain ⟨d, hd, -⟩ := Option.map_eq_some_iff.mp h
      exact isNumberChar_of_unsigned hd

/-- No text that reads as a number is empty. -/
theorem ne_empty_of_read {s : String} {x : Binary64} (h : read s = some x) : s ≠ "" := by
  rintro rfl
  have hnone : read "" = none := by decide +kernel
  rw [hnone] at h
  cases h

/-! ## Blanks -/

/-- No blank can occur in a number. -/
theorem not_isBlank_of_isNumberChar {c : Char} (h : isNumberChar c = true) : isBlank c = false := by
  rcases Bool.or_eq_true_iff.mp h with hdigit | hletter
  · simp only [isDigit, Bool.and_eq_true, decide_eq_true_eq] at hdigit
    simp only [isBlank, Bool.or_eq_false_iff, Bool.and_eq_false_iff, decide_eq_false_iff_not,
      beq_eq_false_iff_ne]
    omega
  · -- A blank is no capital letter, so that it would be one of the letters itself.
    by_contra hblank
    rw [Bool.not_eq_false] at hblank
    have hcase : ¬ (c.val ≥ 'A'.val ∧ c.val ≤ 'Z'.val) := by
      rintro ⟨hlow, hhigh⟩
      have hlow' : 65 ≤ c.toNat := UInt32.le_iff_toNat_le.mp hlow
      have hhigh' : c.toNat ≤ 90 := UInt32.le_iff_toNat_le.mp hhigh
      simp only [isBlank, Bool.or_eq_true, Bool.and_eq_true, decide_eq_true_eq,
        beq_iff_eq] at hblank
      omega
    have hsame : c.toLower = c := dif_neg hcase
    rw [hsame] at hletter
    have hall : (['+', '-', '.', 'e', 'i', 'n', 'f', 't', 'y', 'a'].all
        fun c => !isBlank c) = true := by decide
    have hnot := List.all_eq_true.mp hall c (List.contains_iff_mem.mp hletter)
    rw [hblank] at hnot
    cases hnot

/-- **A text that reads as a number holds no blank.** -/
theorem not_isBlank_of_read {s : String} {x : Binary64} (h : read s = some x) :
    ∀ c ∈ s.toList, isBlank c = false := fun c hc =>
  not_isBlank_of_isNumberChar (isNumberChar_of_read h c hc)

end FaultPoints.Decimal
