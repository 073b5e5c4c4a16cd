/-!
# Blank characters

The white space that surrounds a setting or a type tag is the Unicode property
`White_Space`: twenty-five characters, among them the no-break space and the
ideographic space, and not among them the zero-width space.

## Main Definitions

* `Text.isBlank` — membership in the property
* `Text.trim` — a text without its blank ends
* `Text.isBlankText` — whether nothing but blanks is there

## Main Statements

* `isBlank_of_isWhitespace` — the four characters that core calls white space are blank
* `head_trimChars` — a trimmed text starts with no blank
-/

namespace FaultPoints.Text

/-- Whether a character has the Unicode property `White_Space`. -/
def isBlank (c : Char) : Bool :=
  let n := c.toNat
  (9 ≤ n && n ≤ 13) || n == 0x20 || n == 0x85 || n == 0xA0 || n == 0x1680 ||
    (0x2000 ≤ n && n ≤ 0x200A) || n == 0x2028 || n == 0x2029 || n == 0x202F ||
    n == 0x205F || n == 0x3000

/-- The characters left once the blanks at both ends are dropped. -/
def trimChars (cs : List Char) : List Char :=
  ((cs.dropWhile isBlank).reverse.dropWhile isBlank).reverse

/-- A text without the blanks at its two ends. -/
def trim (s : String) : String :=
  String.ofList (trimChars s.toList)

/-- Whether a text holds no character that is not blank. -/
def isBlankText (s : String) : Bool :=
  s.toList.all isBlank

/-- White space in the sense of core is blank. -/
theorem isBlank_of_isWhitespace (c : Char) (h : c.isWhitespace = true) : isBlank c = true := by
  simp [Char.isWhitespace] at h
  rcases h with ((rfl | rfl) | rfl) | rfl <;> decide

/-- A trimmed text starts with no blank. -/
theorem head_trimChars (cs : List Char) (c : Char) (h : (trimChars cs).head? = some c) :
    isBlank c = false := by
  unfold trimChars at h
  generalize hd : cs.dropWhile isBlank = ds at h
  match ds with
  | [] => simp at h
  | d :: rest =>
    have hdb : isBlank d = false := by
      have := List.head?_dropWhile_not isBlank cs
      rw [hd] at this
      simpa using this
    have key : ((d :: rest).reverse.dropWhile isBlank).reverse.head? = some d := by
      rw [List.reverse_cons, List.dropWhile_append]
      split
      · rename_i hz
        simp [hdb]
      · simp
    rw [key] at h
    cases h
    exact hdb

end FaultPoints.Text
