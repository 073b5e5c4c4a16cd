import FaultPoints.Json.Doc
import Mathlib.Tactic.IntervalCases

/-!
# Texts survive being written and read

A text is written with escapes for quotes, backslashes and controls, and every other character
verbatim.  Whatever its characters are, the reader of documents finds them again and stops behind
the closing quote.

## Main Statements

* `readText_escaped` — the reader takes one character from what was written for it
* `readText_textChars` — a written text is read back
-/

namespace FaultPoints.Json

namespace TextState

/-- What has been read, with one more character. -/
def take (s : TextState) (c : Char) : TextState := { s with reversed := c :: s.reversed }

theorem push_eq_take {s : TextState} (h : s.high = none) (c : Char) : s.push c = s.take c := by
  obtain ⟨reversed, high, stray, broken⟩ := s
  simp_all [push, take]

theorem pushUnit_eq_take {s : TextState} (h : s.high = none) {n : Nat} (hn : n < 0x20) :
    s.pushUnit n = s.take (Char.ofNat n) := by
  have hhigh : ¬ 0xD800 ≤ n := by omega
  have hlow : ¬ 0xDC00 ≤ n := by omega
  simp [pushUnit, take, h, hhigh, hlow]

end TextState

/-- What is written for a control character is read as its code unit. -/
theorem readText_controlEscape (s : TextState) {n : Nat} (hn : n < 0x20) (rest : List Glyph) :
    readText s ((controlEscape (Char.ofNat n)).map some ++ rest) =
      readText (s.pushUnit n) rest := by
  interval_cases n <;> rfl

/-- A character that needs no escape is read as it stands. -/
theorem readText_plain (s : TextState) {c : Char} (hquote : c ≠ '"') (hslash : c ≠ '\\')
    (hcontrol : ¬ c.toNat < 0x20) (rest : List Glyph) :
    readText s (some c :: rest) = readText (s.push c) rest := by
  rw [readText.eq_def]
  split <;> simp_all

/-- The reader takes one character from what was written for it. -/
theorem readText_escaped (s : TextState) (h : s.high = none) (c : Char) (rest : List Glyph) :
    readText s ((escaped c).map some ++ rest) = readText (s.take c) rest := by
  rw [← TextState.push_eq_take h]
  unfold escaped
  split
  · rename_i hc
    rcases (by simpa using hc : c = '"' ∨ c = '\\') with rfl | rfl <;> rfl
  rename_i hplain
  have hne : c ≠ '"' ∧ c ≠ '\\' := by simpa using hplain
  -- The five controls that have a short escape come first.
  split
  · subst_vars
    rfl
  split
  · subst_vars
    rfl
  split
  · subst_vars
    rfl
  split
  · subst_vars
    rfl
  split
  · subst_vars
    rfl
  split
  · rename_i hcontrol
    have hunit := readText_controlEscape s hcontrol rest
    rw [Char.ofNat_toNat, TextState.pushUnit_eq_take h hcontrol, Char.ofNat_toNat,
      ← TextState.push_eq_take h] at hunit
    exact hunit
  · rename_i hcontrol
    exact readText_plain s hne.1 hne.2 hcontrol rest

/-- The reader takes all characters from what was written for them, and stops at the quote. -/
theorem readText_flatMap (s : TextState) (h : s.high = none) (cs : List Char) (rest : List Glyph) :
    readText s ((cs.flatMap escaped).map some ++ some '"' :: rest) =
      .ok (TextState.finish { s with reversed := cs.reverse ++ s.reversed }, rest) := by
  induction cs generalizing s with
  | nil => rfl
  | cons c cs ih =>
      rw [List.flatMap_cons, List.map_append, List.append_assoc, readText_escaped s h,
        ih (s.take c) h]
      simp [TextState.take]

/-- A written text is read back once its opening quote has been seen. -/
theorem readText_textChars (s : String) (rest : List Glyph) :
    readText .start ((textChars s).tail.map some ++ rest) = .ok (some s, rest) := by
  have htail : (textChars s).tail.map some ++ rest =
      (s.toList.flatMap escaped).map some ++ some '"' :: rest := by
    simp [textChars]
  rw [htail, readText_flatMap .start rfl]
  simp [TextState.finish, TextState.start]

end FaultPoints.Json
