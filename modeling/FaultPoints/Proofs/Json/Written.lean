import FaultPoints.Json.Form
import FaultPoints.Proofs.Json.Text

/-!
# Written values are read back

The reader of documents makes an outline of a text.  The outline of a written value is the value
itself, with nothing broken in it, wherever the value stands and whatever follows it.  Numbers are
left out here: how the digits of a number are found again is a matter of its own, so the values are
those whose numbers are *legible*.

The reader counts down a bound on its steps.  A value takes at most three steps for each of its
characters, which is what the reader of a whole text allows for.

## Main Definitions

* `Value.doc` — the outline of a value
* `Number.Legible`, `Value.Legible` — numbers, and values whose numbers, are read back

## Main Statements

* `readValue_chars` — a written value is read back
* `parse_render` — a form reads from a written value what it reads from its outline
-/

namespace FaultPoints.Json

mutual

/-- The outline of a value. -/
def Value.doc : Value → Doc
  | .null => .null
  | .boolean b => .boolean b
  | .number n => .number (some n)
  | .text s => .text (some s)
  | .array items => .array (itemDocs items) none
  | .object members => .object (memberDocs members) none

/-- The outlines of items. -/
def itemDocs : List Value → List Doc
  | [] => []
  | v :: rest => v.doc :: itemDocs rest

/-- The outlines of members. -/
def memberDocs : List (String × Value) → List (Option String × Doc)
  | [] => []
  | (k, v) :: rest => (some k, v.doc) :: memberDocs rest

end

/-- Nothing follows, or a character at which every value ends. -/
def Ends (rest : List Glyph) : Prop :=
  ∀ g ∈ rest.head?, g = some ',' ∨ g = some ']' ∨ g = some '\x7d'

/-- A number that is read back wherever it stands. -/
structure Number.Legible (n : Number) : Prop where
  /-- It starts with a digit or a minus sign. -/
  starts : ∃ c cs, n.chars = c :: cs ∧ (c = '-' ∨ Text.isDigit c = true)
  /-- It is read to its end and no further. -/
  read : ∀ fuel rest, Ends rest →
    readValue (fuel + 1) (n.chars.map some ++ rest) = (.number (some n), some rest)

mutual

/-- A value whose numbers are legible. -/
def Value.Legible : Value → Prop
  | .number n => n.Legible
  | .array items => ItemsLegible items
  | .object members => MembersLegible members
  | _ => True

/-- Items whose numbers are legible. -/
def ItemsLegible : List Value → Prop
  | [] => True
  | v :: rest => v.Legible ∧ ItemsLegible rest

/-- Members whose numbers are legible. -/
def MembersLegible : List (String × Value) → Prop
  | [] => True
  | (_, v) :: rest => v.Legible ∧ MembersLegible rest

end

/-! ## The first character -/

theorem skipSpace_cons {c : Char} (h : isSpace (some c) = false) (rest : List Glyph) :
    skipSpace (some c :: rest) = some c :: rest := by
  rw [skipSpace, List.dropWhile_cons, h]
  rfl

theorem isSpace_of_isDigit {c : Char} (hc : Text.isDigit c = true) : isSpace (some c) = false := by
  rw [Bool.eq_false_iff]
  intro hspace
  simp only [isSpace, Bool.or_eq_true, beq_iff_eq, Option.some_inj] at hspace
  rcases hspace with ((rfl | rfl) | rfl) | rfl <;> cases hc

/-- A written value starts with a character that is neither white space nor a closing bracket. -/
theorem exists_head_chars {v : Value} (h : v.Legible) :
    ∃ c cs, v.chars = c :: cs ∧ isSpace (some c) = false ∧ c ≠ ']' := by
  cases v with
  | null => exact ⟨_, _, rfl, by decide, by decide⟩
  | boolean b => cases b <;> exact ⟨_, _, rfl, by decide, by decide⟩
  | number n =>
      obtain ⟨c, cs, hchars, hc⟩ := Number.Legible.starts h
      refine ⟨c, cs, hchars, ?_, ?_⟩
      · rcases hc with rfl | hc
        · rfl
        · exact isSpace_of_isDigit hc
      · rintro rfl
        simp [Text.isDigit] at hc
  | text s => exact ⟨_, _, rfl, by decide, by decide⟩
  | array items => exact ⟨_, _, rfl, by decide, by decide⟩
  | object members => exact ⟨_, _, rfl, by decide, by decide⟩

/-! ## One step of the reader -/

theorem readValue_bracket (fuel : Nat) (gs : List Glyph) :
    readValue (fuel + 1) (some '[' :: gs) =
      (.array (readItems fuel gs).1 (readItems fuel gs).2.1, (readItems fuel gs).2.2) := rfl

theorem readValue_brace (fuel : Nat) (gs : List Glyph) :
    readValue (fuel + 1) (some '\x7b' :: gs) =
      (.object (readMembers fuel gs).1 (readMembers fuel gs).2.1, (readMembers fuel gs).2.2) := rfl

theorem readValue_quote {gs rest : List Glyph} {s : Option String}
    (h : readText .start gs = .ok (s, rest)) (fuel : Nat) :
    readValue (fuel + 1) (some '"' :: gs) = (.text s, some rest) := by
  have hspace : skipSpace (some '"' :: gs) = some '"' :: gs := rfl
  simp only [readValue, hspace, h]

theorem readItems_cons {c : Char} (hspace : isSpace (some c) = false) (hc : c ≠ ']') (fuel : Nat)
    (rest : List Glyph) :
    readItems (fuel + 1) (some c :: rest) = readElements fuel (some c :: rest) := by
  rw [readItems, skipSpace_cons hspace]
  split
  · simp_all
  · simp_all
  · rfl

theorem readMembers_cons (fuel : Nat) (rest : List Glyph) :
    readMembers (fuel + 1) (some '"' :: rest) = readEntries fuel rest := rfl

theorem readElements_last {fuel : Nat} {gs after rest : List Glyph} {d : Doc}
    (h : readValue fuel gs = (d, some after)) (hclose : skipSpace after = some ']' :: rest) :
    readElements (fuel + 1) gs = ([d], none, some rest) := by
  rw [readElements, h]
  simp only [hclose]

theorem readElements_next {fuel : Nat} {gs after rest : List Glyph} {d : Doc}
    (h : readValue fuel gs = (d, some after)) (hcomma : skipSpace after = some ',' :: rest) :
    readElements (fuel + 1) gs =
      (d :: (readElements fuel rest).1, (readElements fuel rest).2) := by
  rw [readElements, h]
  simp only [hcomma]

theorem readEntries_last {fuel : Nat} {gs behind value after rest : List Glyph} {k : Option String}
    {d : Doc} (hkey : readText .start gs = .ok (k, behind))
    (hcolon : skipSpace behind = some ':' :: value) (h : readValue fuel value = (d, some after))
    (hclose : skipSpace after = some '\x7d' :: rest) :
    readEntries (fuel + 1) gs = ([(k, d)], none, some rest) := by
  rw [readEntries, hkey]
  simp only [hcolon, h, hclose]

theorem readEntries_next {fuel : Nat} {gs behind value after next rest : List Glyph}
    {k : Option String} {d : Doc} (hkey : readText .start gs = .ok (k, behind))
    (hcolon : skipSpace behind = some ':' :: value) (h : readValue fuel value = (d, some after))
    (hcomma : skipSpace after = some ',' :: next) (hquote : skipSpace next = some '"' :: rest) :
    readEntries (fuel + 1) gs =
      ((k, d) :: (readEntries fuel rest).1, (readEntries fuel rest).2) := by
  rw [readEntries, hkey]
  simp only [hcolon, h, hcomma, hquote]

/-! ## Whole values -/

theorem itemChars_cons (v w : Value) (items : List Value) :
    itemChars (v :: w :: items) = v.chars ++ ',' :: itemChars (w :: items) := by
  rw [itemChars]
  simp

theorem memberChars_cons (k : String) (v : Value) (m : String × Value)
    (members : List (String × Value)) :
    memberChars ((k, v) :: m :: members) =
      textChars k ++ ':' :: v.chars ++ ',' :: memberChars (m :: members) := by
  rw [memberChars]
  simp

theorem ends_of_mem {g : Glyph} (h : g = some ',' ∨ g = some ']' ∨ g = some '\x7d')
    (rest : List Glyph) : Ends (g :: rest) := by
  intro g' hg'
  obtain rfl : g = g' := by simpa using hg'
  exact h

theorem memberChars_eq_cons (k : String) (v : Value) (members : List (String × Value)) :
    memberChars ((k, v) :: members) = '"' :: (memberChars ((k, v) :: members)).tail := by
  cases members <;> rfl

/-- Written items start as the first of them does. -/
theorem exists_head_itemChars {v : Value} (h : v.Legible) (items : List Value) (rest : List Glyph) :
    ∃ c tl, (itemChars (v :: items)).map some ++ rest = some c :: tl ∧
      isSpace (some c) = false ∧ c ≠ ']' := by
  obtain ⟨c, cs, hchars, hspace, hc⟩ := exists_head_chars h
  cases items with
  | nil => exact ⟨c, _, by rw [itemChars, hchars]; rfl, hspace, hc⟩
  | cons w items => exact ⟨c, _, by rw [itemChars_cons, hchars]; rfl, hspace, hc⟩

theorem length_chars_pos {v : Value} (h : v.Legible) : 0 < v.chars.length := by
  obtain ⟨c, cs, hchars, -⟩ := exists_head_chars h
  simp [hchars]

mutual

/-- **A written value is read back**, wherever it stands. -/
theorem readValue_chars : ∀ (v : Value) (fuel : Nat) (rest : List Glyph), v.Legible → Ends rest →
    3 * v.chars.length ≤ fuel → readValue fuel (v.chars.map some ++ rest) = (v.doc, some rest)
  | v, 0, _, hlegible, _, hfuel => by
      have := length_chars_pos hlegible
      omega
  | .null, fuel + 1, rest, _, _, _ => rfl
  | .boolean true, fuel + 1, rest, _, _, _ => rfl
  | .boolean false, fuel + 1, rest, _, _, _ => rfl
  | .number n, fuel + 1, rest, hlegible, hends, _ => hlegible.read fuel rest hends
  | .text s, fuel + 1, rest, _, _, _ => by
      exact readValue_quote (readText_textChars s rest) fuel
  | .array items, 1, _, _, _, hfuel => by
      simp only [Value.chars, List.length_append, List.length_cons] at hfuel
      omega
  | .array [], fuel + 2, rest, _, _, _ => rfl
  | .array (v :: items), fuel + 2, rest, hlegible, _, hfuel => by
      obtain ⟨c, tl, hhead, hspace, hc⟩ :=
        exists_head_itemChars hlegible.1 items (some ']' :: rest)
      have hlength : 3 * (itemChars (v :: items)).length + 1 ≤ fuel := by
        simp only [Value.chars, List.length_append, List.length_cons, List.length_nil] at hfuel
        omega
      have helements := readElements_chars items v fuel rest hlegible hlength
      have hitems : readItems (fuel + 1) ((itemChars (v :: items)).map some ++ some ']' :: rest) =
          (itemDocs (v :: items), none, some rest) := by
        rw [← helements, hhead, readItems_cons hspace hc]
      have hchars : (Value.array (v :: items)).chars.map some ++ rest =
          some '[' :: ((itemChars (v :: items)).map some ++ some ']' :: rest) := by
        simp [Value.chars]
      rw [hchars, readValue_bracket, hitems]
      rfl
  | .object members, 1, _, _, _, hfuel => by
      simp only [Value.chars, List.length_append, List.length_cons] at hfuel
      omega
  | .object [], fuel + 2, rest, _, _, _ => rfl
  | .object ((k, v) :: members), fuel + 2, rest, hlegible, _, hfuel => by
      have hlength : 3 * (memberChars ((k, v) :: members)).length + 1 ≤ fuel := by
        simp only [Value.chars, List.length_append, List.length_cons, List.length_nil] at hfuel
        omega
      have hentries := readEntries_chars members k v fuel rest hlegible hlength
      have hchars : (Value.object ((k, v) :: members)).chars.map some ++ rest = some '\x7b' ::
          some '"' :: ((memberChars ((k, v) :: members)).tail.map some ++ some '\x7d' :: rest) := by
        rw [Value.chars, memberChars_eq_cons]
        simp
      rw [hchars, readValue_brace, readMembers_cons, hentries]
      rfl

/-- Written items are read back up to the closing bracket. -/
theorem readElements_chars : ∀ (items : List Value) (v : Value) (fuel : Nat) (rest : List Glyph),
    ItemsLegible (v :: items) → 3 * (itemChars (v :: items)).length + 1 ≤ fuel →
    readElements fuel ((itemChars (v :: items)).map some ++ some ']' :: rest) =
      (itemDocs (v :: items), none, some rest)
  | _, _, 0, _, _, hfuel => by omega
  | [], v, fuel + 1, rest, hlegible, hfuel => by
      have hends : Ends (some ']' :: rest) := ends_of_mem (by simp) rest
      have hlength : 3 * v.chars.length ≤ fuel := by simpa [itemChars] using hfuel
      exact readElements_last (readValue_chars v fuel _ hlegible.1 hends hlength) rfl
  | w :: items, v, fuel + 1, rest, hlegible, hfuel => by
      rw [itemChars_cons, List.length_append, List.length_cons] at hfuel
      have hends : ∀ gs, Ends (some ',' :: gs) := ends_of_mem (by simp)
      have hvalue := readValue_chars v fuel
        (some ',' :: ((itemChars (w :: items)).map some ++ some ']' :: rest)) hlegible.1 (hends _)
        (by omega)
      have hrest := readElements_chars items w fuel rest hlegible.2 (by omega)
      have hchars : (itemChars (v :: w :: items)).map some ++ some ']' :: rest =
          v.chars.map some ++
            some ',' :: ((itemChars (w :: items)).map some ++ some ']' :: rest) := by
        simp [itemChars_cons]
      rw [hchars, readElements_next hvalue rfl, hrest]
      rfl

/-- Written members are read back from the first key up to the closing brace. -/
theorem readEntries_chars : ∀ (members : List (String × Value)) (k : String) (v : Value)
    (fuel : Nat) (rest : List Glyph), MembersLegible ((k, v) :: members) →
    3 * (memberChars ((k, v) :: members)).length + 1 ≤ fuel →
    readEntries fuel ((memberChars ((k, v) :: members)).tail.map some ++ some '\x7d' :: rest) =
      (memberDocs ((k, v) :: members), none, some rest)
  | _, _, _, 0, _, _, hfuel => by omega
  | [], k, v, fuel + 1, rest, hlegible, hfuel => by
      have hends : Ends (some '\x7d' :: rest) := ends_of_mem (by simp) rest
      have hlength : 3 * v.chars.length ≤ fuel := by
        simp only [memberChars, List.length_append, List.length_cons] at hfuel
        omega
      have hvalue := readValue_chars v fuel _ hlegible.1 hends hlength
      have hkey := readText_textChars k (some ':' :: (v.chars.map some ++ some '\x7d' :: rest))
      have hchars : (memberChars [(k, v)]).tail.map some ++ some '\x7d' :: rest =
          (textChars k).tail.map some ++
            some ':' :: (v.chars.map some ++ some '\x7d' :: rest) := by
        simp [memberChars, textChars]
      rw [hchars, readEntries_last hkey rfl hvalue rfl]
      rfl
  | (k', w) :: members, k, v, fuel + 1, rest, hlegible, hfuel => by
      rw [memberChars_cons, List.length_append, List.length_append, List.length_cons,
        List.length_cons] at hfuel
      have hends : ∀ gs, Ends (some ',' :: gs) := ends_of_mem (by simp)
      have hvalue := readValue_chars v fuel (some ',' :: some '"' ::
        ((memberChars ((k', w) :: members)).tail.map some ++ some '\x7d' :: rest)) hlegible.1
        (hends _) (by omega)
      have hrest := readEntries_chars members k' w fuel rest hlegible.2 (by omega)
      have hkey := readText_textChars k (some ':' :: (v.chars.map some ++ some ',' :: some '"' ::
        ((memberChars ((k', w) :: members)).tail.map some ++ some '\x7d' :: rest)))
      have hchars : (memberChars ((k, v) :: (k', w) :: members)).tail.map some ++
            some '\x7d' :: rest =
          (textChars k).tail.map some ++
            some ':' :: (v.chars.map some ++ some ',' :: some '"' ::
              ((memberChars ((k', w) :: members)).tail.map some ++ some '\x7d' :: rest)) := by
        rw [memberChars_cons, memberChars_eq_cons]
        simp [textChars]
      rw [hchars, readEntries_next hkey rfl hvalue rfl rfl, hrest]
      rfl

end

/-- The outline of a written value is that of the value. -/
theorem read_render {v : Value} (h : v.Legible) :
    Doc.read (Text.glyphs v.render) = (v.doc, some []) := by
  have hread := readValue_chars v (3 * v.chars.length + 3) [] h (by simp [Ends]) (by omega)
  rw [List.append_nil] at hread
  simpa [Doc.read, Text.glyphs, Value.render] using hread

/-- A form reads from a written value what it reads from its outline. -/
theorem parse_render {α : Type} (form : Form α) {v : Value} (h : v.Legible) :
    form.parse (Text.glyphs v.render) = form.ofDoc v.doc := by
  rw [Form.parse, parseWith, read_render h]
  change form.ofDoc v.doc >>= pure = _
  exact bind_pure _

end FaultPoints.Json
