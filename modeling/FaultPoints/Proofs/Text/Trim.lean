import FaultPoints.Fault.Tag
import Mathlib.Data.List.DropRight
import Mathlib.Tactic

/-!
# Texts with blanks around them

A text that is trimmed starts and ends with something else than a blank, and blanks that are put
around a text do not show once it is trimmed.  So a reader that trims its text first cannot tell a
padded text from a bare one.

The reader of counts does not trim, and it need not: what it accepts holds no blank at all.

## Main Definitions

* `Text.IsTrimmed` — no blank stands at either end of a text
* `Text.Pads` — a text stands between blanks
* `Text.Denotes` — the decimal texts of a count

## Main Statements

* `trim_eq_self`, `isTrimmed_trim`, `trim_of_pads` — what trimming does
* `trim_eq_empty_iff` — nothing is left of a text iff it is blank
* `not_isBlank_of_denotes`, `readUnsigned_of_denotes` — the decimal texts of a count
* `read_trim` — a tag is read as well without the blanks around it
-/

namespace FaultPoints

namespace Text

/-! ## Trimming -/

/-- No blank stands at either end of a text. -/
structure IsTrimmed (s : String) : Prop where
  /-- The first character is no blank. -/
  head : ∀ c, s.toList.head? = some c → isBlank c = false
  /-- The last character is no blank. -/
  last : ∀ c, s.toList.getLast? = some c → isBlank c = false

/-- A text stands between blanks, of which there may be none. -/
def Pads (s padded : String) : Prop :=
  ∃ before after, isBlankText before = true ∧ isBlankText after = true ∧
    padded = before ++ s ++ after

theorem trimChars_append {before after : List Char} (hbefore : before.all isBlank = true)
    (hafter : after.all isBlank = true) (cs : List Char) :
    trimChars (before ++ cs ++ after) = trimChars cs := by
  have hfront : (before ++ cs ++ after).dropWhile isBlank = (cs ++ after).dropWhile isBlank := by
    rw [List.append_assoc]
    exact List.dropWhile_append_of_pos (List.all_eq_true.mp hbefore)
  have hreverse : ∀ c ∈ after.reverse, isBlank c = true := fun c hc =>
    List.all_eq_true.mp hafter c (List.mem_reverse.mp hc)
  rw [trimChars, trimChars, hfront, List.dropWhile_append]
  split
  · -- Nothing but blanks is there.
    rename_i hempty
    rw [List.isEmpty_iff.mp hempty, List.dropWhile_eq_nil_iff.mpr (List.all_eq_true.mp hafter)]
  · rw [List.reverse_append, List.dropWhile_append_of_pos hreverse]

theorem dropWhile_isBlank_eq_self {cs : List Char}
    (h : ∀ c, cs.head? = some c → isBlank c = false) : cs.dropWhile isBlank = cs := by
  cases cs with
  | nil => rfl
  | cons c rest => rw [List.dropWhile_cons_of_neg (by simp [h c rfl])]

theorem toList_trim (s : String) : (trim s).toList = trimChars s.toList := String.toList_ofList

/-- A text without blanks at its ends is not changed by trimming it. -/
theorem trim_eq_self {s : String} (h : IsTrimmed s) : trim s = s := by
  have hlast : ∀ c, s.toList.reverse.head? = some c → isBlank c = false := fun c hc =>
    h.last c (by rwa [← List.head?_reverse])
  rw [trim, trimChars, dropWhile_isBlank_eq_self h.head, dropWhile_isBlank_eq_self hlast,
    List.reverse_reverse, String.ofList_toList]

/-- A trimmed text has no blanks at its ends. -/
theorem isTrimmed_trim (s : String) : IsTrimmed (trim s) where
  head c hc := by
    rw [toList_trim] at hc
    exact head_trimChars _ c hc
  last c hc := by
    rw [toList_trim, trimChars, List.getLast?_reverse] at hc
    have hnot := List.head?_dropWhile_not isBlank (s.toList.dropWhile isBlank).reverse
    rw [hc] at hnot
    simpa using hnot

/-- **Blanks around a text do not show** once it is trimmed. -/
theorem trim_of_pads {s padded : String} (h : Pads s padded) : trim padded = trim s := by
  obtain ⟨before, after, hbefore, hafter, rfl⟩ := h
  rw [trim, String.toList_append, String.toList_append, trimChars_append hbefore hafter, trim]

theorem pads_refl (s : String) : Pads s s := ⟨"", "", rfl, rfl, by simp⟩

/-- Nothing is left of a text iff it is blank. -/
theorem trim_eq_empty_iff (s : String) : trim s = "" ↔ isBlankText s = true := by
  have hnil : trim s = "" ↔ (s.toList.dropWhile isBlank).rdropWhile isBlank = [] := by
    rw [← String.toList_inj, toList_trim, String.toList_empty]
    rfl
  rw [hnil, List.rdropWhile_eq_nil_iff, ← List.dropWhile_eq_nil_iff, List.dropWhile_idempotent,
    List.dropWhile_eq_nil_iff, isBlankText, List.all_eq_true]

/-- A text without any blank has none at its ends. -/
theorem isTrimmed_of_forall {s : String} (h : ∀ c ∈ s.toList, isBlank c = false) :
    IsTrimmed s where
  head c hc := h c (List.mem_of_mem_head? hc)
  last c hc := h c (List.mem_of_mem_getLast? hc)

/-! ## Counts -/

/-- **The decimal texts of a count**: digits, with a plus sign in front or without, and with zeros
in front or without. -/
def Denotes (s : String) (n : UInt64) : Prop :=
  ∃ cs : List Char, (s.toList = cs ∨ s.toList = '+' :: cs) ∧ cs ≠ [] ∧
    cs.all isDigit = true ∧ ofDigits cs = n.toNat

theorem not_isBlank_of_isDigit {c : Char} (h : isDigit c = true) : isBlank c = false := by
  simp only [isDigit, Bool.and_eq_true, decide_eq_true_eq] at h
  simp only [isBlank, Bool.or_eq_false_iff, Bool.and_eq_false_iff, decide_eq_false_iff_not,
    beq_eq_false_iff_ne]
  omega

theorem not_isBlank_of_denotes {s : String} {n : UInt64} (h : Denotes s n) :
    ∀ c ∈ s.toList, isBlank c = false := by
  obtain ⟨cs, htext, -, hdigits, -⟩ := h
  have hcs : ∀ c ∈ cs, isBlank c = false := fun c hc =>
    not_isBlank_of_isDigit (List.all_eq_true.mp hdigits c hc)
  rcases htext with htext | htext <;> rw [htext]
  · exact hcs
  · exact List.forall_mem_cons.mpr ⟨by decide, hcs⟩

theorem Denotes.ne_empty {s : String} {n : UInt64} (h : Denotes s n) : s ≠ "" := by
  rintro rfl
  obtain ⟨cs, htext | htext, hne, -⟩ := h
  · exact hne htext.symm
  · cases htext

/-- The decimal texts of a count are read as it. -/
theorem readUnsigned_of_denotes {s : String} {n : UInt64} (h : Denotes s n) :
    readUnsigned wordLimit s.toList = some n.toNat := by
  obtain ⟨cs, htext, hne, hdigits, hvalue⟩ := h
  have hread : readNatural cs = some n.toNat := by
    rw [readNatural, List.isEmpty_eq_false_iff.mpr hne, hdigits, ← hvalue]
    rfl
  have hlimit : (some n.toNat).filter (· < wordLimit) = some n.toNat :=
    Option.filter_some_pos (decide_eq_true n.toNat_lt)
  rcases htext with htext | htext
  · have hplus : ∀ rest, cs ≠ '+' :: rest := by
      rintro rest rfl
      simp [isDigit] at hdigits
    rw [htext, readUnsigned, hread, hlimit]
    exact hplus
  · rw [htext]
    simp only [readUnsigned, hread, hlimit]

/-! ## Tags -/

/-- A tag is read as well without the blanks around it. -/
theorem read_trim (s : String) : Fault.Tag.read (trim s) = Fault.Tag.read s := by
  have htrim : trimChars (trim s).toList = trimChars s.toList := by
    rw [← toList_trim, trim_eq_self (isTrimmed_trim s), toList_trim]
  rw [Fault.Tag.read, htrim, Fault.Tag.read]

/-- A tag is not blank. -/
theorem trim_ne_empty_of_read {s : String} {tag : Fault.Tag} (h : Fault.Tag.read s = .ok tag) :
    trim s ≠ "" := by
  intro hempty
  have herror : (Fault.Tag.read "").isOk = false := by decide +kernel
  rw [← read_trim, hempty] at h
  rw [h] at herror
  cases herror

end Text

end FaultPoints
