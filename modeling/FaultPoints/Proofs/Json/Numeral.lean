import FaultPoints.Proofs.Decimal.Shortest
import FaultPoints.Proofs.Json.Written

/-!
# Written numbers are read back

A number is written as a numeral: digits before the point, digits behind it, an exponent.  The
reader takes a numeral apart again, wherever it stands, provided that what follows cannot continue
it.  An integer is then the number that its digits denote.  Any other number is laid out from its
shortest digits with a point, an exponent or both, so that it is not taken for an integer, and
however the digits are laid out they denote the same rational number.

## Main Definitions

* `NoDigit`, `NoPart`, `Apart` — what follows cannot continue a number
* `Numeral.chars`, `Numeral.Proper` — the written form of a numeral, and when it can be read
* `Number.Held` — the numbers that a document can hold

## Main Statements

* `readNumber_chars` — a numeral is read back
* `legible_of_held` — so is every number that a document can hold
-/

namespace FaultPoints.Json

/-- What follows cannot continue digits. -/
def NoDigit (rest : List Glyph) : Prop :=
  ∀ c, rest.head? = some (some c) → Text.isDigit c = false

/-- What follows cannot continue a number before its exponent. -/
def NoPart (rest : List Glyph) : Prop :=
  ∀ c, rest.head? = some (some c) → Text.isDigit c = false ∧ c ≠ '.'

/-- What follows cannot continue a number. -/
def Apart (rest : List Glyph) : Prop :=
  ∀ c, rest.head? = some (some c) → Text.isDigit c = false ∧ c ≠ '.' ∧ c ≠ 'e' ∧ c ≠ 'E'

theorem NoPart.noDigit {rest : List Glyph} (h : NoPart rest) : NoDigit rest :=
  fun c hc => (h c hc).1

theorem Apart.noPart {rest : List Glyph} (h : Apart rest) : NoPart rest :=
  fun c hc => ⟨(h c hc).1, (h c hc).2.1⟩

/-- Digits are not continued by a character that is none. -/
theorem noDigit_cons {c : Char} (hc : Text.isDigit c = false) (rest : List Glyph) :
    NoDigit (some c :: rest) := by
  intro c' hc'
  cases hc'
  exact hc

theorem Ends.apart {rest : List Glyph} (h : Ends rest) : Apart rest := by
  intro c hc
  rcases h (some c) hc with hc | hc | hc <;> cases hc <;> decide

/-! ## Numerals -/

namespace Numeral

/-- The written form of the digits behind the point. -/
def partChars : List Char → List Char
  | [] => []
  | d :: ds => '.' :: d :: ds

/-- The written form of an exponent. -/
def exponentChars : Option Int → List Char
  | none => []
  | some e => 'e' :: (if e < 0 then '-' else '+') :: Text.digits e.natAbs

/-- The written form of a numeral without its sign. -/
def chars (n : Numeral) : List Char := n.whole ++ (partChars n.part ++ exponentChars n.exponent)

/-- A numeral that can be read. -/
structure Proper (n : Numeral) : Prop where
  /-- Digits stand before the point, and a zero only alone. -/
  leading : ∃ c cs, n.whole = c :: cs ∧ (c = '0' → cs = [])
  /-- Nothing else stands before the point. -/
  whole : n.whole.all Text.isDigit = true
  /-- Digits stand behind the point. -/
  part : n.part.all Text.isDigit = true

end Numeral

/-- The reader takes digits up to the first character that is none. -/
theorem leadingDigits_append {ds : List Char} (hds : ds.all Text.isDigit = true)
    {rest : List Glyph} (hrest : NoDigit rest) :
    leadingDigits (ds.map some ++ rest) = (ds, rest) := by
  induction ds with
  | nil =>
      rw [List.map_nil, List.nil_append]
      cases rest with
      | nil => rfl
      | cons g rest =>
          cases g with
          | none => rfl
          | some c => simp [leadingDigits, hrest c rfl]
  | cons d ds ih =>
      obtain ⟨hd, hds⟩ := (Bool.and_eq_true _ _).mp hds
      rw [List.map_cons, List.cons_append, leadingDigits, if_pos hd, ih hds]

theorem readWhole_of_leadingDigits {gs after : List Glyph} {c : Char} {cs : List Char}
    (h : leadingDigits gs = (c :: cs, after)) (hzero : c = '0' → cs = []) :
    readWhole gs = .ok (c :: cs, after) := by
  rw [readWhole, h]
  split
  · rename_i heq
    cases heq
  · rename_i heq
    cases heq
    cases hzero rfl
  · rename_i heq
    cases heq
    rfl

theorem readPart_chars {ds : List Char} (hds : ds.all Text.isDigit = true) {rest : List Glyph}
    (hrest : NoPart rest) :
    readPart ((Numeral.partChars ds).map some ++ rest) = .ok (ds, rest) := by
  cases ds with
  | nil =>
      rw [Numeral.partChars, List.map_nil, List.nil_append]
      unfold readPart
      split
      · exact absurd rfl (hrest '.' rfl).2
      · rfl
  | cons d ds =>
      have hdigits := leadingDigits_append hds hrest.noDigit
      simp only [Numeral.partChars, List.map_cons, List.cons_append, readPart] at hdigits ⊢
      rw [hdigits]

theorem exponentSign_cons (negative : Bool) (ds : List Glyph) :
    exponentSign (some (if negative then '-' else '+') :: ds) = (negative, ds) := by
  cases negative <;> rfl

theorem readExponent_cons {c : Char} (hc : c = 'e' ∨ c = 'E') {gs body after : List Glyph}
    {negative : Bool} {d : Char} {ds : List Char} (hsign : exponentSign gs = (negative, body))
    (hdigits : leadingDigits body = (d :: ds, after)) :
    readExponent (some c :: gs) =
      .ok (some (if negative then -(Text.ofDigits (d :: ds) : Int) else Text.ofDigits (d :: ds)),
        after) := by
  simp only [readExponent, Bool.or_eq_true, decide_eq_true_eq, hc, ↓reduceIte, hsign, hdigits]

theorem readExponent_chars (e : Option Int) {rest : List Glyph} (hrest : Apart rest) :
    readExponent ((Numeral.exponentChars e).map some ++ rest) = .ok (e, rest) := by
  cases e with
  | none =>
      rw [Numeral.exponentChars, List.map_nil, List.nil_append]
      unfold readExponent
      split
      · rename_i c after
        obtain ⟨-, -, he, hE⟩ := hrest c rfl
        simp [he, hE]
      · rfl
  | some e =>
      have hdigits := leadingDigits_append (Text.all_isDigit_digits e.natAbs)
        hrest.noPart.noDigit
      have hvalue := Text.ofDigits_digits e.natAbs
      obtain ⟨d, ds, hds⟩ := List.exists_cons_of_ne_nil (Text.digits_ne_nil e.natAbs)
      rw [hds] at hdigits hvalue
      have hsign := exponentSign_cons (decide (e < 0)) ((d :: ds).map some ++ rest)
      have hread := readExponent_cons (Or.inl rfl) hsign hdigits
      simp only [decide_eq_true_eq, hvalue] at hread
      simp only [Numeral.exponentChars, hds, List.map_cons, List.cons_append] at hread ⊢
      rw [hread]
      congr 3
      split <;> omega

/-- **A numeral is read back** where what follows cannot continue it. -/
theorem readNumber_chars {n : Numeral} (h : n.Proper) {rest : List Glyph} (hrest : Apart rest) :
    readNumber n.negative (n.chars.map some ++ rest) = .ok (n.value, rest) := by
  obtain ⟨c, cs, hwhole, hzero⟩ := h.leading
  have hexponent : NoPart ((Numeral.exponentChars n.exponent).map some ++ rest) := by
    cases n.exponent with
    | none => exact hrest.noPart
    | some e =>
        intro c hc
        cases hc
        decide
  have hpart : NoDigit ((Numeral.partChars n.part).map some ++
      ((Numeral.exponentChars n.exponent).map some ++ rest)) := by
    cases n.part with
    | nil => exact hexponent.noDigit
    | cons d ds => exact noDigit_cons rfl _
  have hdigits := leadingDigits_append h.whole hpart
  rw [hwhole] at hdigits
  have hread := readWhole_of_leadingDigits hdigits hzero
  rw [← hwhole] at hread
  rw [Numeral.chars, List.map_append, List.map_append, List.append_assoc, List.append_assoc,
    readNumber, hread]
  simp only [bind, Except.bind, readPart_chars h.part hexponent, readExponent_chars _ hrest]
  rfl

/-! ## Digits -/

/-- A number other than zero is not written with a zero in front. -/
theorem exists_leading_digits {n : Nat} (hn : 0 < n) :
    ∃ c cs, Text.digits n = c :: cs ∧ c ≠ '0' := by
  induction n using Nat.strongRecOn with
  | ind n ih =>
      rw [Text.digits]
      split
      · rename_i h
        refine ⟨_, [], rfl, ?_⟩
        interval_cases n <;> decide
      · obtain ⟨c, cs, hdigits, hc⟩ := ih (n / 10) (by omega) (by omega)
        exact ⟨c, cs ++ [Text.digitChar (n % 10)], by rw [hdigits]; rfl, hc⟩

/-- The digits of a number can stand before the point. -/
theorem leading_digits (n : Nat) : ∃ c cs, Text.digits n = c :: cs ∧ (c = '0' → cs = []) := by
  rcases Nat.eq_zero_or_pos n with rfl | hn
  · exact ⟨'0', [], by simp [Text.digits, Text.digitChar], fun _ => rfl⟩
  · obtain ⟨c, cs, hdigits, hc⟩ := exists_leading_digits hn
    exact ⟨c, cs, hdigits, fun hzero => absurd hzero hc⟩

theorem ofDigits_concat (cs : List Char) (c : Char) :
    Text.ofDigits (cs ++ [c]) = 10 * Text.ofDigits cs + Text.digitValue c := by
  rw [Text.ofDigits, List.foldl_append]
  rfl

theorem ofDigits_append (xs ys : List Char) :
    Text.ofDigits (xs ++ ys) = Text.ofDigits xs * 10 ^ ys.length + Text.ofDigits ys := by
  induction ys using List.reverseRecOn with
  | nil => simp [Text.ofDigits]
  | append_singleton ys c ih =>
      rw [← List.append_assoc, ofDigits_concat, ofDigits_concat, ih, List.length_append,
        List.length_singleton, pow_succ]
      ring

theorem ofDigits_zeros (k : Nat) : Text.ofDigits (List.replicate k '0') = 0 := by
  induction k with
  | zero => rfl
  | succ k ih =>
      rw [List.replicate_succ', ofDigits_append, ih]
      simp [Text.ofDigits, Text.digitValue]

theorem all_isDigit_zeros (k : Nat) : (List.replicate k '0').all Text.isDigit = true := by
  rw [List.all_replicate]
  split <;> rfl

/-! ## Layouts -/

/-- The decimal number of a numeral. -/
def Numeral.decimal (n : Numeral) : Digits :=
  ⟨Text.ofDigits (n.whole ++ n.part), n.exponent.getD 0 - (n.part.length : Int)⟩

/-- A numeral is not taken for an integer, and it denotes a rational number. -/
structure Numeral.Denotes (n : Numeral) (q : ℚ) : Prop extends n.Proper where
  /-- There are digits behind the point, or there is an exponent. -/
  real : n.part ≠ [] ∨ n.exponent ≠ none
  /-- The digits denote the number. -/
  value : n.decimal.value = q

theorem partChars_of_ne_nil {ds : List Char} (h : ds ≠ []) : Numeral.partChars ds = '.' :: ds := by
  cases ds with
  | nil => exact absurd rfl h
  | cons d ds => rfl

section Positional

variable (negative : Bool) {c : Nat} {e : Int}

/-- The point stands before all digits, with zeros between. -/
theorem denotes_of_before (hpoint : ((Text.digits c).length : Int) + e ≤ 0) :
    Numeral.Denotes ⟨negative, ['0'],
      List.replicate (((Text.digits c).length : Int) + e).natAbs '0' ++ Text.digits c, none⟩
        (c * 10 ^ e) where
  leading := ⟨'0', [], rfl, fun _ => rfl⟩
  whole := rfl
  part := by rw [List.all_append, all_isDigit_zeros, Text.all_isDigit_digits, Bool.and_true]
  real := Or.inl (List.append_ne_nil_of_right_ne_nil _ (Text.digits_ne_nil c))
  value := by
    have hexponent : (0 : Int) - ((((Text.digits c).length : Int) + e).natAbs +
        (Text.digits c).length : Nat) = e := by omega
    have hzero : Text.ofDigits ['0'] = 0 := rfl
    simp only [Numeral.decimal, Digits.value, Option.getD_none, ofDigits_append, ofDigits_zeros,
      hzero, Text.ofDigits_digits, List.length_append, List.length_replicate, hexponent, zero_mul,
      zero_add]

/-- The point stands behind all digits, with zeros between and one more behind it. -/
theorem denotes_of_behind (hc : 0 < c) (he : 0 ≤ e) :
    Numeral.Denotes ⟨negative, Text.digits c ++ List.replicate e.toNat '0', ['0'], none⟩
      (c * 10 ^ e) where
  leading := by
    obtain ⟨d, ds, hds, hd⟩ := exists_leading_digits hc
    exact ⟨d, ds ++ List.replicate e.toNat '0', by rw [hds]; rfl, fun hzero => absurd hzero hd⟩
  whole := by rw [List.all_append, all_isDigit_zeros, Text.all_isDigit_digits, Bool.and_true]
  part := rfl
  real := Or.inl (List.cons_ne_nil _ _)
  value := by
    obtain ⟨k, rfl⟩ := Int.eq_ofNat_of_zero_le he
    have hzero : Text.ofDigits ['0'] = 0 := rfl
    simp only [Numeral.decimal, Digits.value, Option.getD_none, ofDigits_append, ofDigits_zeros,
      hzero, Text.ofDigits_digits, List.length_replicate, List.length_singleton, Int.toNat_natCast,
      add_zero]
    push_cast
    rw [zpow_natCast, zpow_neg_one]
    field_simp

/-- The point stands among the digits. -/
theorem denotes_of_among (hc : 0 < c) {n : Nat} (hn : 0 < n) (hlt : n < (Text.digits c).length)
    (he : (n : Int) = (Text.digits c).length + e) :
    Numeral.Denotes ⟨negative, (Text.digits c).take n, (Text.digits c).drop n, none⟩
      (c * 10 ^ e) where
  leading := by
    obtain ⟨d, ds, hds, hd⟩ := exists_leading_digits hc
    obtain ⟨k, rfl⟩ := Nat.exists_eq_succ_of_ne_zero hn.ne'
    exact ⟨d, ds.take k, by rw [hds]; rfl, fun hzero => absurd hzero hd⟩
  whole := List.all_eq_true.mpr fun d hd =>
    List.all_eq_true.mp (Text.all_isDigit_digits c) d (List.mem_of_mem_take hd)
  part := List.all_eq_true.mpr fun d hd =>
    List.all_eq_true.mp (Text.all_isDigit_digits c) d (List.mem_of_mem_drop hd)
  real := Or.inl fun hnil => absurd (List.drop_eq_nil_iff.mp hnil) (not_le.mpr hlt)
  value := by
    have hexponent : (0 : Int) - ((Text.digits c).length - n : Nat) = e := by omega
    simp only [Numeral.decimal, Digits.value, Option.getD_none, List.take_append_drop,
      Text.ofDigits_digits, List.length_drop, hexponent]

/-- Digits laid out with a point and no exponent. -/
theorem exists_numeral_positional (hc : 0 < c) (e : Int) :
    ∃ n : Numeral, n.negative = negative ∧
      n.chars = Layout.positional true (Text.digits c) ((Text.digits c).length + e) ∧
        n.Denotes (c * 10 ^ e) := by
  unfold Layout.positional
  split
  · rename_i hpoint
    refine ⟨_, rfl, ?_, denotes_of_before negative hpoint⟩
    rw [Numeral.chars, partChars_of_ne_nil (List.append_ne_nil_of_right_ne_nil _
      (Text.digits_ne_nil c))]
    simp [Numeral.exponentChars]
  dsimp only
  split
  · have hzeros : (((Text.digits c).length : Int) + e).toNat - (Text.digits c).length =
        e.toNat := by omega
    refine ⟨_, rfl, ?_, denotes_of_behind negative hc (by omega)⟩
    rw [hzeros]
    simp [Numeral.chars, Numeral.partChars, Numeral.exponentChars]
  · have hdrop : (Text.digits c).drop (((Text.digits c).length : Int) + e).toNat ≠ [] := by
      rw [Ne, List.drop_eq_nil_iff]
      omega
    refine ⟨_, rfl, ?_, denotes_of_among negative hc
      (n := (((Text.digits c).length : Int) + e).toNat) (by omega) (by omega) (by omega)⟩
    rw [Numeral.chars, partChars_of_ne_nil hdrop]
    simp [Numeral.exponentChars]

end Positional

/-- Digits laid out with an exponent: the point, if there is one, stands behind the first of
them. -/
theorem exists_numeral_scientific (negative : Bool) {c : Nat} (hc : 0 < c) (e : Int) :
    ∃ n : Numeral, n.negative = negative ∧
      n.chars = Layout.scientific (Text.digits c) ((Text.digits c).length + e - 1) ∧
        n.Denotes (c * 10 ^ e) := by
  have hdigits := Text.all_isDigit_digits c
  have hvalue := Text.ofDigits_digits c
  obtain ⟨d, ds, hds, hd⟩ := exists_leading_digits hc
  rw [hds] at hdigits hvalue ⊢
  obtain ⟨hdigit, hrest⟩ := (Bool.and_eq_true _ _).mp hdigits
  refine ⟨⟨negative, [d], ds, some (((d :: ds).length : Int) + e - 1)⟩, rfl, ?_,
    ⟨⟨d, [], rfl, fun _ => rfl⟩, by simp [hdigit], hrest⟩, Or.inr (Option.some_ne_none _), ?_⟩
  · cases ds <;> simp [Numeral.chars, Numeral.partChars, Numeral.exponentChars, Layout.scientific]
  · have hexponent : ((d :: ds).length : Int) + e - 1 - (ds.length : Int) = e := by
      rw [List.length_cons]
      omega
    rw [Numeral.decimal, Digits.value]
    dsimp only
    rw [Option.getD_some, hexponent, List.singleton_append, hvalue]

/-- The magnitude of a finite number is laid out as a numeral that denotes its shortest digits. -/
theorem exists_numeral_magnitude (x : Binary64) :
    ∃ n : Numeral, n.negative = x.negative ∧ n.chars = Layout.json.magnitude x ∧
      n.Denotes (x.shortest .toEven).value := by
  have htie : Layout.json.tie = .toEven := rfl
  have hbounds : Layout.json.bounds = some (-5, 16) := rfl
  have hzero : Layout.json.pointZero = true := rfl
  rw [Layout.magnitude, htie, hbounds, hzero]
  dsimp only
  generalize x.shortest .toEven = d
  obtain ⟨c, e⟩ := d
  rw [Digits.value]
  dsimp only
  split
  · rename_i hc
    refine ⟨⟨x.negative, ['0'], ['0'], none⟩, rfl, rfl, ⟨⟨'0', [], rfl, fun _ => rfl⟩, rfl, rfl⟩,
      Or.inl (List.cons_ne_nil _ _), ?_⟩
    have hcoefficient : Text.ofDigits (['0'] ++ ['0']) = 0 := rfl
    rw [Numeral.decimal, Digits.value]
    dsimp only
    rw [hcoefficient, hc]
    simp
  rename_i hc
  split
  · exact exists_numeral_positional x.negative (Nat.pos_of_ne_zero hc) e
  · exact exists_numeral_scientific x.negative (Nat.pos_of_ne_zero hc) e

/-! ## Numbers -/

/-- The numbers that a document can hold. -/
def Number.Held : Number → Prop
  | .whole i => -(Text.signedLimit : Int) ≤ i ∧ i < Text.wordLimit
  | .real x => x.isFinite = true

/-- A sign where it is needed. -/
def signChars (negative : Bool) : List Char := if negative then ['-'] else []

theorem readValue_digit {c : Char} (hc : Text.isDigit c = true) {gs after : List Glyph}
    {n : Option Number} (h : readNumber false (some c :: gs) = .ok (n, after)) (fuel : Nat) :
    readValue (fuel + 1) (some c :: gs) = (.number n, some after) := by
  rw [readValue, skipSpace_cons (isSpace_of_isDigit hc)]
  -- A digit is none of the characters that start another value.
  split <;> rename_i heq <;> cases heq
  all_goals first | cases hc | rw [if_pos hc, h]

theorem readValue_minus {gs after : List Glyph} {n : Option Number}
    (h : readNumber true gs = .ok (n, after)) (fuel : Nat) :
    readValue (fuel + 1) (some '-' :: gs) = (.number n, some after) := by
  have hspace : skipSpace (some '-' :: gs) = some '-' :: gs := rfl
  simp only [readValue, hspace, h]

/-- A numeral starts with a digit. -/
theorem exists_head_numeral {m : Numeral} (h : m.Proper) :
    ∃ c cs, m.chars = c :: cs ∧ Text.isDigit c = true := by
  obtain ⟨c, cs, hwhole, -⟩ := h.leading
  have hall := h.whole
  rw [hwhole] at hall
  exact ⟨c, _, by rw [Numeral.chars, hwhole]; rfl, ((Bool.and_eq_true _ _).mp hall).1⟩

/-- A number is legible if it is written as a numeral of its value. -/
theorem legible_of_numeral {n : Number} {m : Numeral} (hproper : m.Proper)
    (hchars : n.chars = signChars m.negative ++ m.chars) (hvalue : m.value = some n) :
    n.Legible := by
  obtain ⟨c, cs, hhead, hc⟩ := exists_head_numeral hproper
  have hread : ∀ rest, Ends rest →
      readNumber m.negative (m.chars.map some ++ rest) = .ok (some n, rest) := fun rest hrest => by
    rw [readNumber_chars hproper hrest.apart, hvalue]
  cases hnegative : m.negative with
  | true =>
      rw [hnegative] at hchars hread
      refine ⟨⟨'-', m.chars, hchars, Or.inl rfl⟩, fun fuel rest hrest => ?_⟩
      rw [hchars]
      exact readValue_minus (hread rest hrest) fuel
  | false =>
      rw [hnegative] at hchars hread
      refine ⟨⟨c, cs, hchars.trans hhead, Or.inr hc⟩, fun fuel rest hrest => ?_⟩
      have hnumber := hread rest hrest
      rw [hchars, signChars, if_neg Bool.false_ne_true, List.nil_append]
      rw [hhead] at hnumber ⊢
      exact readValue_digit hc hnumber fuel

/-- The numeral of an integer. -/
def wholeNumeral (i : Int) : Numeral := ⟨i < 0, Text.digits i.natAbs, [], none⟩

theorem proper_wholeNumeral (i : Int) : (wholeNumeral i).Proper :=
  ⟨leading_digits _, Text.all_isDigit_digits _, rfl⟩

theorem chars_whole (i : Int) :
    (Number.whole i).chars = signChars (wholeNumeral i).negative ++ (wholeNumeral i).chars := by
  cases i with
  | ofNat n =>
      simp [Number.chars, Text.integer, Text.natural, wholeNumeral, signChars, Numeral.chars,
        Numeral.partChars, Numeral.exponentChars]
  | negSucc n =>
      have hsign : Int.negSucc n < 0 := Int.negSucc_lt_zero n
      simp [Number.chars, Text.integer, Text.natural, wholeNumeral, signChars, hsign,
        Numeral.chars, Numeral.partChars, Numeral.exponentChars]

theorem value_wholeNumeral {i : Int} (h : (Number.whole i).Held) :
    (wholeNumeral i).value = some (.whole i) := by
  obtain ⟨hlow, hhigh⟩ := h
  have hvalue := Text.ofDigits_digits i.natAbs
  rw [Numeral.value]
  simp only [wholeNumeral, List.isEmpty_nil, Bool.not_true, Option.isSome_none, Bool.or_self,
    Bool.false_eq_true, ↓reduceIte, hvalue, decide_eq_true_eq]
  split
  · have hmagnitude : ¬ ((i.natAbs = 0 || Text.signedLimit < i.natAbs) = true) := by
      simp only [Bool.or_eq_true, decide_eq_true_eq, not_or]
      omega
    have hi : -(i.natAbs : Int) = i := by omega
    rw [if_neg hmagnitude, hi]
  · have hi : (i.natAbs : Int) = i := by omega
    rw [if_pos (by omega), hi]

theorem chars_real {x : Binary64} (h : x.isFinite = true) :
    (Number.real x).chars = signChars x.negative ++ Layout.json.magnitude x := by
  have hexponent : x.exponent.val ≠ 2047 := by simpa [Binary64.isFinite] using h
  have hnan : x.isNan = false := by simp [Binary64.isNan, hexponent]
  have hinfinite : x.isInfinite = false := by simp [Binary64.isInfinite, hexponent]
  rw [Number.chars, Layout.chars, hnan, hinfinite]
  rfl

theorem value_of_denotes {x : Binary64} (hfinite : x.isFinite = true) {m : Numeral}
    (hnegative : m.negative = x.negative) (h : m.Denotes (x.shortest .toEven).value) :
    m.value = some (.real x) := by
  have hread : m.decimal.toBinary64 m.negative = x := by
    rw [hnegative]
    exact Binary64.toBinary64_of_value_eq hfinite h.value
  have hreal : (!m.part.isEmpty || m.exponent.isSome) = true := by
    rw [Bool.or_eq_true, Option.isSome_iff_ne_none]
    exact h.real.imp_left fun hpart => by simpa using hpart
  rw [Numeral.decimal] at hread
  rw [Numeral.value, if_pos hreal]
  dsimp only
  rw [hread, if_pos hfinite]

/-- **Every number that a document can hold is read back** from its written form. -/
theorem legible_of_held {n : Number} (h : n.Held) : n.Legible := by
  cases n with
  | whole i =>
      exact legible_of_numeral (proper_wholeNumeral i) (chars_whole i) (value_wholeNumeral h)
  | real x =>
      obtain ⟨m, hnegative, hchars, hdenotes⟩ := exists_numeral_magnitude x
      refine legible_of_numeral hdenotes.toProper ?_ (value_of_denotes h hnegative hdenotes)
      rw [hnegative, hchars]
      exact chars_real h

end FaultPoints.Json
