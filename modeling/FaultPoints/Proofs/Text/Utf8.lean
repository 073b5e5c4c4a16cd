import FaultPoints.Text.Glyph

/-!
# The bytes of a text are decoded to its characters

A character takes one byte to four, by the size of its code point.  Each way of encoding it is
undone by the branch of the decoder that its leading byte selects, whatever stands behind it; so
the bytes of a whole text decode to its characters, and none of them is stray.

## Main Statements

* `firstChar_utf8EncodeChar` — the bytes of a character are read as the character
* `decode_utf8` — the bytes of a text are decoded to the text
-/

namespace FaultPoints.Text

/-! ## One character -/

theorem continuation_ofNat {n : Nat} (h : n < 64) :
    continuation (UInt8.ofNat (n + 128)) = some n := by
  have hall : ∀ n : Fin 64, continuation (UInt8.ofNat (n.val + 128)) = some n.val := by decide
  exact hall ⟨n, h⟩

theorem toNat_ofNat {n : Nat} (h : n < 256) : (UInt8.ofNat n).toNat = n :=
  UInt8.toNat_ofNat_of_lt' h

theorem scalar?_toNat (c : Char) {least : Nat} (h : least ≤ c.toNat) :
    scalar? least c.toNat = some c := by
  rw [scalar?, dif_pos ⟨h, c.valid⟩]
  rfl

theorem firstChar_one {n : Nat} (hn : n < 128) (rest : List UInt8) :
    firstChar (UInt8.ofNat n :: rest) = (scalar? 0 n).map (·, 1) := by
  have hlead : (UInt8.ofNat n).toNat = n := toNat_ofNat (by omega)
  simp only [firstChar, hlead]
  rw [if_pos hn]

theorem firstChar_two {x y : Nat} (hx : x < 32) (hy : y < 64) (rest : List UInt8) :
    firstChar (UInt8.ofNat (x + 192) :: UInt8.ofNat (y + 128) :: rest) =
      (scalar? 0x80 (x * 64 + y)).map (·, 2) := by
  have hlead : (UInt8.ofNat (x + 192)).toNat = x + 192 := toNat_ofNat (by omega)
  simp only [firstChar, hlead, continuation_ofNat hy, Nat.add_sub_cancel]
  rw [if_neg (by omega), if_neg (by omega), if_pos (by omega)]
  rw [Option.map_eq_bind]
  rfl

theorem firstChar_three {x y z : Nat} (hx : x < 16) (hy : y < 64) (hz : z < 64)
    (rest : List UInt8) :
    firstChar (UInt8.ofNat (x + 224) :: UInt8.ofNat (y + 128) :: UInt8.ofNat (z + 128) :: rest) =
      (scalar? 0x800 ((x * 64 + y) * 64 + z)).map (·, 3) := by
  have hlead : (UInt8.ofNat (x + 224)).toNat = x + 224 := toNat_ofNat (by omega)
  simp only [firstChar, hlead, continuation_ofNat hy, continuation_ofNat hz, Nat.add_sub_cancel]
  rw [if_neg (by omega), if_neg (by omega), if_neg (by omega), if_pos (by omega)]
  rw [Option.map_eq_bind]
  rfl

theorem firstChar_four {x y z w : Nat} (hx : x < 8) (hy : y < 64) (hz : z < 64) (hw : w < 64)
    (rest : List UInt8) :
    firstChar (UInt8.ofNat (x + 240) :: UInt8.ofNat (y + 128) :: UInt8.ofNat (z + 128) ::
        UInt8.ofNat (w + 128) :: rest) =
      (scalar? 0x10000 (((x * 64 + y) * 64 + z) * 64 + w)).map (·, 4) := by
  have hlead : (UInt8.ofNat (x + 240)).toNat = x + 240 := toNat_ofNat (by omega)
  simp only [firstChar, hlead, continuation_ofNat hy, continuation_ofNat hz, continuation_ofNat hw,
    Nat.add_sub_cancel]
  rw [if_neg (by omega), if_neg (by omega), if_neg (by omega), if_neg (by omega),
    if_pos (by omega)]
  rw [Option.map_eq_bind]
  rfl

/-- A code point has at most twenty-one bits. -/
theorem toNat_lt (c : Char) : c.toNat < 0x110000 := by
  rcases c.valid with h | h
  · exact Nat.lt_trans h (by decide)
  · exact h.2

/-- **The bytes of a character are read as the character**, whatever follows. -/
theorem firstChar_utf8EncodeChar (c : Char) (rest : List UInt8) :
    firstChar (String.utf8EncodeChar c ++ rest) = some (c, (String.utf8EncodeChar c).length) := by
  have hlt := toNat_lt c
  have hmod : ∀ n : Nat, n % 64 < 64 := fun n => Nat.mod_lt n (by decide)
  have hcode : c.val.toNat = c.toNat := rfl
  rw [String.utf8EncodeChar, hcode]
  split
  · rename_i h
    simp only [List.singleton_append, List.length_singleton]
    rw [firstChar_one (by omega), scalar?_toNat c (Nat.zero_le _)]
    rfl
  split
  · rename_i h
    have hsum : c.toNat / 64 % 32 * 64 + c.toNat % 64 = c.toNat := by omega
    simp only [List.cons_append, List.nil_append]
    rw [firstChar_two (Nat.mod_lt _ (by decide)) (hmod _), hsum, scalar?_toNat c (by omega)]
    rfl
  split
  · rename_i h
    have hsum : (c.toNat / 4096 % 16 * 64 + c.toNat / 64 % 64) * 64 + c.toNat % 64 = c.toNat := by
      omega
    simp only [List.cons_append, List.nil_append]
    rw [firstChar_three (Nat.mod_lt _ (by decide)) (hmod _) (hmod _), hsum,
      scalar?_toNat c (by omega)]
    rfl
  · have hsum : ((c.toNat / 262144 % 8 * 64 + c.toNat / 4096 % 64) * 64 + c.toNat / 64 % 64) * 64 +
        c.toNat % 64 = c.toNat := by
      omega
    simp only [List.cons_append, List.nil_append]
    rw [firstChar_four (Nat.mod_lt _ (by decide)) (hmod _) (hmod _) (hmod _), hsum,
      scalar?_toNat c (by omega)]
    rfl

/-! ## Texts -/

/-- Bytes that are to be skipped make no difference. -/
theorem decodeFrom_length_append (skipped rest : List UInt8) :
    decodeFrom skipped.length (skipped ++ rest) = decodeFrom 0 rest := by
  induction skipped with
  | nil => rfl
  | cons b skipped ih => exact ih

theorem decodeFrom_utf8EncodeChar (c : Char) (rest : List UInt8) :
    decodeFrom 0 (String.utf8EncodeChar c ++ rest) = some c :: decodeFrom 0 rest := by
  have hfirst := firstChar_utf8EncodeChar c rest
  obtain ⟨b, bs, hbytes⟩ : ∃ b bs, String.utf8EncodeChar c = b :: bs := by
    refine List.exists_cons_of_length_pos ?_
    rw [String.length_utf8EncodeChar]
    exact c.utf8Size_pos
  rw [hbytes, List.cons_append, List.length_cons] at hfirst
  rw [hbytes, List.cons_append, decodeFrom, hfirst]
  exact congrArg _ (decodeFrom_length_append bs rest)

/-- The bytes of a text are those of its characters. -/
theorem utf8_eq_flatMap (s : String) :
    s.toUTF8.data.toList = s.toList.flatMap String.utf8EncodeChar := by
  rw [String.toUTF8_eq_toByteArray, ← String.utf8Encode_toList, List.utf8Encode,
    List.data_toByteArray, List.toList_toArray]

/-- **The bytes of a text are decoded to the text.** -/
theorem decode_utf8 (s : String) : decode s.toUTF8.data.toList = glyphs s := by
  rw [utf8_eq_flatMap, glyphs, decode]
  induction s.toList with
  | nil => rfl
  | cons c cs ih => rw [List.flatMap_cons, decodeFrom_utf8EncodeChar, ih, List.map_cons]

end FaultPoints.Text
