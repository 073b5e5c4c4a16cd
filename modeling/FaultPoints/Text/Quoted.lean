import FaultPoints.Text.Unprintable

/-!
# Quoted text in diagnostics

A diagnostic that cites a text writes it between double quotes. Quotes and backslashes
are escaped, the common controls have one-letter escapes, and whatever cannot be shown is
written by its code point in hexadecimal between braces.

## Main Definitions

* `Text.escaped` — one character of a quoted text
* `Text.quoted` — a whole text with its quotes
-/

namespace FaultPoints.Text

/-- The digits of a number in base sixteen, in small letters and without leading zeros. -/
def hexDigits (n : Nat) : List Char := Nat.toDigits 16 n

/-- How a quoted text shows one character. -/
def escaped (c : Char) : List Char :=
  if c = '\x00' then ['\\', '0']
  else if c = '\t' then ['\\', 't']
  else if c = '\r' then ['\\', 'r']
  else if c = '\n' then ['\\', 'n']
  else if c = '\\' || c = '"' then ['\\', c]
  else if extendsGrapheme c || isUnprintable c then
    ['\\', 'u', '\x7b'] ++ hexDigits c.toNat ++ ['\x7d']
  else [c]

/-- A text between double quotes, as a diagnostic cites it. -/
def quoted (s : String) : String :=
  String.ofList ('"' :: s.toList.flatMap escaped ++ ['"'])

end FaultPoints.Text
