/-!
# Glyphs: the characters of a byte body

A body arrives as bytes and is meant to be UTF-8. A *glyph* is what one position of it
holds: a character, or a byte that belongs to none. Keeping such a byte in the list lets a
reader refuse it where a character is wanted and pass over it where none is.

## Main Definitions

* `Glyph` — a character, or nothing for a stray byte
* `Text.glyphs` — the glyphs of a text, none of them stray
* `Text.decode` — the glyphs of a list of bytes
-/

namespace FaultPoints

/-- A decoded position of a body: a character, or nothing for a byte that is part of none. -/
abbrev Glyph := Option Char

namespace Text

/-- The glyphs of a text, each of them a character. -/
def glyphs (s : String) : List Glyph := s.toList.map some

/-- The value of a continuation byte. -/
def continuation (b : UInt8) : Option Nat :=
  if b &&& 0xC0 == 0x80 then some (b.toNat % 64) else none

/-- The character of a code point, provided that it is one and needs that many bytes. -/
def scalar? (least n : Nat) : Option Char :=
  if h : least ≤ n ∧ n.isValidChar then some (Char.ofNatAux n h.2) else none

/-- The first character of a list of bytes with the number of its bytes. -/
def firstChar : List UInt8 → Option (Char × Nat)
  | [] => none
  | a :: rest =>
    let n := a.toNat
    if n < 0x80 then (scalar? 0 n).map (·, 1)
    else if n < 0xC0 then none
    else if n < 0xE0 then
      match rest with
      | b :: _ => do
        let y ← continuation b
        let c ← scalar? 0x80 ((n - 0xC0) * 64 + y)
        pure (c, 2)
      | _ => none
    else if n < 0xF0 then
      match rest with
      | b :: c :: _ => do
        let y ← continuation b
        let z ← continuation c
        let r ← scalar? 0x800 (((n - 0xE0) * 64 + y) * 64 + z)
        pure (r, 3)
      | _ => none
    else if n < 0xF8 then
      match rest with
      | b :: c :: d :: _ => do
        let y ← continuation b
        let z ← continuation c
        let w ← continuation d
        let r ← scalar? 0x10000 ((((n - 0xF0) * 64 + y) * 64 + z) * 64 + w)
        pure (r, 4)
      | _ => none
    else none

/-- The glyphs of a list of bytes: after a character of several bytes, that many bytes less
one are skipped; a byte that starts no character is a stray glyph. -/
def decodeFrom : Nat → List UInt8 → List Glyph
  | _, [] => []
  | skip + 1, _ :: rest => decodeFrom skip rest
  | 0, b :: rest =>
    match firstChar (b :: rest) with
    | some (c, size) => some c :: decodeFrom (size - 1) rest
    | none => none :: decodeFrom 0 rest

/-- The glyphs of a list of bytes. -/
def decode (bytes : List UInt8) : List Glyph := decodeFrom 0 bytes

/-- How many bytes a glyph takes. -/
def glyphSize : Glyph → Nat
  | none => 1
  | some c => c.utf8Size

end Text

end FaultPoints
