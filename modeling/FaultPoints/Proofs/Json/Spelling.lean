import FaultPoints.Proofs.Json.Token

/-!
# Texts of objects

What the reader makes of a value depends on the text of the value alone: not on what stands before
it, not on what follows it, and not on how many steps the reader may still take, as long as these
are three for each character.  So an object can be cut into the texts of its members, and the
texts of members can be put together to an object in any order.

White space may stand around every part.  A key or a value may be spelled in more than one way; two
texts of a member say the same if their outlines are equal.

## Main Definitions

* `Spells` — a text is read as a value, wherever it stands
* `MemberText`, `MembersText` — the texts of one member and of several
* `ObjectText` — the text of an object with its members
* `ReadsAs` — the outline that the reader makes of a text

## Main Statements

* `exists_spelling` — whatever is read as a value has a text of its own
* `objectText_iff` — the texts of objects are those that the reader takes for objects
* `parseWith_of_objectText` — what is read from the text of an object
-/

namespace FaultPoints.Json

/-! ## Values -/

/-- **A text is read as a value**, wherever it stands, if three steps are left for each of its
characters. -/
def Spells (used : List Glyph) (d : Doc) : Prop :=
  ∀ fuel rest, Stops rest → 3 * used.length ≤ fuel →
    readValue fuel (used ++ rest) = (d, some rest)

/-- Items behind their opening bracket, with the closing one. -/
def SpellsItems (used : List Glyph) (items : List Doc) : Prop :=
  ∀ fuel rest, 3 * used.length + 1 ≤ fuel →
    readItems fuel (used ++ rest) = (items, none, some rest)

/-- At least one item, with the closing bracket. -/
def SpellsElements (used : List Glyph) (items : List Doc) : Prop :=
  ∀ fuel rest, 3 * used.length ≤ fuel →
    readElements fuel (used ++ rest) = (items, none, some rest)

/-- **The text of a member**: a key, a colon and a value, with white space around each. -/
inductive MemberText : List Glyph → Option String × Doc → Prop where
  /-- The key is what is read behind its opening quote. -/
  | mk {front key middle value back : List Glyph} {k : Option String} {d : Doc}
      (hfront : Blank front) (hkey : ∀ rest, readText .start (key ++ rest) = .ok (k, rest))
      (hmiddle : Blank middle) (hvalue : Spells value d) (hback : Blank back) :
      MemberText (front ++ some '"' :: (key ++ (middle ++ some ':' :: (value ++ back)))) (k, d)

/-- **The texts of members** with commas between them. -/
inductive MembersText : List Glyph → List (Option String × Doc) → Prop where
  /-- One member. -/
  | last {m : List Glyph} {e : Option String × Doc} (h : MemberText m e) : MembersText m [e]
  /-- A member before others. -/
  | next {m ms : List Glyph} {e : Option String × Doc} {es : List (Option String × Doc)}
      (h : MemberText m e) (hrest : MembersText ms es) :
      MembersText (m ++ some ',' :: ms) (e :: es)

/-- What stands between the braces of an object. -/
inductive BodyText : List Glyph → List (Option String × Doc) → Prop where
  /-- Nothing but white space. -/
  | empty {gs : List Glyph} (h : Blank gs) : BodyText gs []
  /-- Members. -/
  | members {gs : List Glyph} {es : List (Option String × Doc)} (h : MembersText gs es) :
      BodyText gs es

/-- **The text of an object** with its members in order, and nothing else but white space. -/
inductive ObjectText : List Glyph → List (Option String × Doc) → Prop where
  /-- White space may stand before and behind the braces. -/
  | mk {front inner back : List Glyph} {es : List (Option String × Doc)} (hfront : Blank front)
      (hinner : BodyText inner es) (hback : Blank back) :
      ObjectText (front ++ some '\x7b' :: (inner ++ some '\x7d' :: back)) es

/-! ## Reading a text that is composed -/

theorem readValue_of_skipSpace {fuel : Nat} {gs gs' : List Glyph}
    (h : skipSpace gs = skipSpace gs') :
    readValue fuel gs = readValue fuel gs' := by
  cases fuel with
  | zero => rfl
  | succ fuel => rw [readValue, readValue, h]

/-- White space before a value is passed over. -/
theorem readValue_append {front : List Glyph} (h : Blank front) (fuel : Nat) (gs : List Glyph) :
    readValue fuel (front ++ gs) = readValue fuel gs :=
  readValue_of_skipSpace (skipSpace_append h gs)

theorem spells_bracket {used : List Glyph} {items : List Doc} (h : SpellsItems used items) :
    Spells (some '[' :: used) (.array items none) := by
  intro fuel rest _ hfuel
  rw [List.length_cons] at hfuel
  obtain ⟨fuel, rfl⟩ : ∃ m, fuel = m + 1 := ⟨fuel - 1, by omega⟩
  rw [List.cons_append, readValue_bracket, h fuel rest (by omega)]

theorem readItems_of_skipSpace {gs rest : List Glyph} {g : Glyph} (h : skipSpace gs = g :: rest)
    (hg : g ≠ some ']') (fuel : Nat) :
    readItems (fuel + 1) gs = readElements fuel (g :: rest) := by
  rw [readItems, h]
  split
  · simp_all
  · simp_all
  · rfl

theorem spellsItems_nil {front : List Glyph} (hfront : Blank front) :
    SpellsItems (front ++ [some ']']) [] := by
  intro fuel rest hfuel
  obtain ⟨fuel, rfl⟩ : ∃ m, fuel = m + 1 := ⟨fuel - 1, by omega⟩
  rw [List.append_assoc, List.singleton_append, readItems, skipSpace_blank_cons hfront rfl]
  rfl

theorem spellsItems_of_elements {front used : List Glyph} {g : Glyph} {items : List Doc}
    (hfront : Blank front) (hspace : isSpace g = false) (hg : g ≠ some ']')
    (h : SpellsElements (g :: used) items) : SpellsItems (front ++ g :: used) items := by
  intro fuel rest hfuel
  rw [List.length_append] at hfuel
  obtain ⟨fuel, rfl⟩ : ∃ m, fuel = m + 1 := ⟨fuel - 1, by omega⟩
  have hskip : skipSpace (front ++ g :: used ++ rest) = g :: (used ++ rest) := by
    rw [List.append_assoc, skipSpace_append hfront, List.cons_append, skipSpace,
      List.dropWhile_cons, hspace]
    rfl
  rw [readItems_of_skipSpace hskip hg]
  exact h fuel rest (by omega)

theorem spellsElements_last {value back : List Glyph} {d : Doc} (hvalue : Spells value d)
    (hback : Blank back) : SpellsElements (value ++ (back ++ [some ']'])) [d] := by
  intro fuel rest hfuel
  simp only [List.length_append, List.length_singleton] at hfuel
  obtain ⟨fuel, rfl⟩ : ∃ m, fuel = m + 1 := ⟨fuel - 1, by omega⟩
  rw [List.append_assoc, List.append_assoc, List.singleton_append]
  have hread := hvalue fuel _ (stops_blank_cons hback (.inr (.inl rfl)) rest) (by omega)
  exact readElements_last hread (skipSpace_blank_cons hback rfl rest)

theorem spellsElements_next {value back used : List Glyph} {d : Doc} {items : List Doc}
    (hvalue : Spells value d) (hback : Blank back) (h : SpellsElements used items) :
    SpellsElements (value ++ (back ++ some ',' :: used)) (d :: items) := by
  intro fuel rest hfuel
  simp only [List.length_append, List.length_cons] at hfuel
  obtain ⟨fuel, rfl⟩ : ∃ m, fuel = m + 1 := ⟨fuel - 1, by omega⟩
  rw [List.append_assoc, List.append_assoc, List.cons_append]
  have hread := hvalue fuel _ (stops_blank_cons hback (.inl rfl) (used ++ rest)) (by omega)
  rw [readElements_next hread (skipSpace_blank_cons hback rfl _), h fuel rest (by omega)]

/-- Members are read behind the quote that opens the first key. -/
theorem readEntries_of_membersText {gs : List Glyph} {es : List (Option String × Doc)}
    (h : MembersText gs es) : ∃ front used, gs = front ++ some '"' :: used ∧ Blank front ∧
      ∀ fuel rest, 3 * used.length + 3 ≤ fuel →
        readEntries fuel (used ++ some '\x7d' :: rest) = (es, none, some rest) := by
  induction h with
  | last h =>
      obtain @⟨front, key, middle, value, back, k, d, hfront, hkey, hmiddle, hvalue, hback⟩ := h
      refine ⟨_, _, rfl, hfront, fun fuel rest hfuel => ?_⟩
      simp only [List.length_append, List.length_cons] at hfuel
      obtain ⟨fuel, rfl⟩ : ∃ m, fuel = m + 1 := ⟨fuel - 1, by omega⟩
      simp only [List.append_assoc, List.cons_append]
      have hread := hvalue fuel _ (stops_blank_cons hback (.inr (.inr rfl)) rest) (by omega)
      exact readEntries_last (hkey _) (skipSpace_blank_cons hmiddle rfl _) hread
        (skipSpace_blank_cons hback rfl rest)
  | next h _ ih =>
      obtain @⟨front, key, middle, value, back, k, d, hfront, hkey, hmiddle, hvalue, hback⟩ := h
      obtain ⟨front', used, rfl, hfront', hrest⟩ := ih
      refine ⟨front, key ++ (middle ++ some ':' :: (value ++ (back ++
        some ',' :: (front' ++ some '"' :: used)))), by simp, hfront, fun fuel rest hfuel => ?_⟩
      simp only [List.length_append, List.length_cons] at hfuel
      obtain ⟨fuel, rfl⟩ : ∃ m, fuel = m + 1 := ⟨fuel - 1, by omega⟩
      simp only [List.append_assoc, List.cons_append]
      have hread := hvalue fuel _ (stops_blank_cons hback (.inl rfl)
        (front' ++ some '"' :: (used ++ some '\x7d' :: rest))) (by omega)
      rw [readEntries_next (hkey _) (skipSpace_blank_cons hmiddle rfl _) hread
        (skipSpace_blank_cons hback rfl _) (skipSpace_blank_cons hfront' rfl _),
        hrest fuel rest (by omega)]

/-- What stands between braces is read with the closing one. -/
theorem readMembers_of_bodyText {gs : List Glyph} {es : List (Option String × Doc)}
    (h : BodyText gs es) {fuel : Nat} (hfuel : 3 * gs.length + 4 ≤ fuel) (rest : List Glyph) :
    readMembers fuel (gs ++ some '\x7d' :: rest) = (es, none, some rest) := by
  obtain ⟨fuel, rfl⟩ : ∃ m, fuel = m + 1 := ⟨fuel - 1, by omega⟩
  cases h with
  | empty h =>
      rw [readMembers, skipSpace_blank_cons h rfl]
      rfl
  | members h =>
      obtain ⟨front, used, rfl, hfront, hread⟩ := readEntries_of_membersText h
      simp only [List.length_append, List.length_cons] at hfuel
      rw [List.append_assoc, List.cons_append, readMembers, skipSpace_blank_cons hfront rfl]
      exact hread fuel rest (by omega)

theorem spells_brace {inner : List Glyph} {es : List (Option String × Doc)}
    (h : BodyText inner es) :
    Spells (some '\x7b' :: (inner ++ [some '\x7d'])) (.object es none) := by
  intro fuel rest _ hfuel
  simp only [List.length_append, List.length_cons, List.length_nil] at hfuel
  obtain ⟨fuel, rfl⟩ : ∃ m, fuel = m + 1 := ⟨fuel - 1, by omega⟩
  rw [List.cons_append, List.append_assoc, List.singleton_append, readValue_brace,
    readMembers_of_bodyText h (by omega)]

/-! ## The text of what has been read -/

/-- A text is read as a value if it is so from its first character on that is no white space. -/
theorem Spells.append {front used : List Glyph} {d : Doc} (hfront : Blank front)
    (h : Spells used d) : Spells (front ++ used) d := by
  intro fuel rest hrest hfuel
  rw [List.append_assoc, readValue_append hfront]
  exact h fuel rest hrest (by rw [List.length_append] at hfuel; omega)

/-- A value without parts takes one step. -/
theorem spells_of_step {g : Glyph} {used : List Glyph} {d : Doc}
    (h : ∀ fuel rest, Stops rest → readValue (fuel + 1) (g :: (used ++ rest)) = (d, some rest)) :
    Spells (g :: used) d := by
  intro fuel rest hrest hfuel
  rw [List.length_cons] at hfuel
  obtain ⟨fuel, rfl⟩ : ∃ m, fuel = m + 1 := ⟨fuel - 1, by omega⟩
  exact h fuel rest hrest

/-- A word whose first letter tells which one it is. -/
theorem exists_spelling_word {g : Glyph} {word : List Char} {d d' : Doc} {gs rest : List Glyph}
    (hstep : ∀ fuel gs, readValue (fuel + 1) (g :: gs) = wordReading d (readWord word gs))
    (h : wordReading d (readWord word gs) = (d', some rest)) :
    ∃ used, g :: gs = used ++ rest ∧ Spells used d' := by
  cases hword : readWord word gs with
  | error b =>
      rw [hword] at h
      cases h
  | ok rest' =>
      rw [hword] at h
      cases h
      obtain ⟨used, rfl, htaken⟩ := exists_taken_word hword
      refine ⟨g :: used, rfl, spells_of_step fun fuel rest' _ => ?_⟩
      rw [hstep, htaken rest']
      rfl

theorem exists_spelling_text {gs rest : List Glyph} {s : Option String}
    (h : readText .start gs = .ok (s, rest)) :
    ∃ used, some '"' :: gs = used ++ rest ∧ Spells used (.text s) := by
  obtain ⟨used, rfl, htaken⟩ := exists_taken_text h
  exact ⟨some '"' :: used, rfl,
    spells_of_step fun fuel rest' _ => readValue_quote (htaken rest') fuel⟩

theorem exists_spelling_negative {gs rest : List Glyph} {n : Option Number}
    (h : readNumber true gs = .ok (n, rest)) :
    ∃ used, some '-' :: gs = used ++ rest ∧ Spells used (.number n) := by
  obtain ⟨used, rfl, htaken⟩ := exists_taken_number h
  exact ⟨some '-' :: used, rfl, spells_of_step fun fuel rest' hrest' =>
    readValue_minus (htaken rest' hrest'.apart) fuel⟩

theorem exists_spelling_digit {c : Char} {gs rest : List Glyph} {n : Option Number}
    (hc : Text.isDigit c = true) (h : readNumber false (some c :: gs) = .ok (n, rest)) :
    ∃ used, some c :: gs = used ++ rest ∧ Spells used (.number n) := by
  obtain ⟨used, hused, htaken⟩ := exists_taken_number h
  cases used with
  | nil => cases htaken [] (by simp [Apart])
  | cons g used =>
      obtain ⟨rfl, rfl⟩ := List.cons.inj hused
      exact ⟨some c :: used, rfl, spells_of_step fun fuel rest' hrest' =>
        readValue_digit hc (htaken rest' hrest'.apart) fuel⟩

theorem spellsElements_ne_nil {used : List Glyph} {items : List Doc}
    (h : SpellsElements used items) : used ≠ [] := by
  rintro rfl
  cases h 0 [] (by simp)

theorem readElements_eq_some {fuel : Nat} {gs rest : List Glyph} {items : List Doc}
    {ending : Option Halt} (h : readElements (fuel + 1) gs = (items, ending, some rest)) :
    ∃ d after, readValue fuel gs = (d, some after) ∧
      ((skipSpace after = some ']' :: rest ∧ items = [d] ∧ ending = none) ∨
        ∃ next items', skipSpace after = some ',' :: next ∧
          readElements fuel next = (items', ending, some rest) ∧ items = d :: items') := by
  rw [readElements] at h
  rcases hvalue : readValue fuel gs with ⟨d, _ | after⟩
  · rw [hvalue] at h
    cases h
  · rw [hvalue] at h
    refine ⟨d, after, rfl, ?_⟩
    dsimp only at h
    split at h
    · cases h
    · rename_i hclose
      cases h
      exact Or.inl ⟨hclose, rfl, rfl⟩
    · rename_i next hcomma
      rcases hnext : readElements fuel next with ⟨items', ending', after'⟩
      rw [hnext] at h
      cases h
      exact Or.inr ⟨next, items', hcomma, hnext, rfl⟩
    · cases h

theorem readEntries_eq_some {fuel : Nat} {gs rest : List Glyph} {es : List (Option String × Doc)}
    {ending : Option Halt} (h : readEntries (fuel + 1) gs = (es, ending, some rest)) :
    ∃ k behind value d after, readText .start gs = .ok (k, behind) ∧
      skipSpace behind = some ':' :: value ∧ readValue fuel value = (d, some after) ∧
      ((skipSpace after = some '\x7d' :: rest ∧ es = [(k, d)] ∧ ending = none) ∨
        ∃ next next' es', skipSpace after = some ',' :: next ∧ skipSpace next = some '"' :: next' ∧
          readEntries fuel next' = (es', ending, some rest) ∧ es = (k, d) :: es') := by
  rw [readEntries] at h
  rcases hkey : readText .start gs with e | ⟨k, behind⟩
  · rw [hkey] at h
    cases h
  · rw [hkey] at h
    dsimp only at h
    split at h
    · cases h
    · rename_i d after hreading
      split at hreading
      · cases hreading
      · rename_i value hcolon
        refine ⟨k, behind, value, d, after, rfl, hcolon, hreading, ?_⟩
        split at h
        · cases h
        · rename_i hclose
          cases h
          exact Or.inl ⟨hclose, rfl, rfl⟩
        · rename_i next hcomma
          split at h
          · cases h
          · rename_i next' hquote
            rcases hnext : readEntries fuel next' with ⟨es', ending', after'⟩
            rw [hnext] at h
            cases h
            exact Or.inr ⟨next, next', es', hcomma, hquote, hnext, rfl⟩
          · cases h
        · cases h
      · cases hreading

mutual

/-- **What is read as a value has a text of its own**, in front of the rest. -/
theorem exists_spelling : ∀ (fuel : Nat) {gs rest : List Glyph} {d : Doc},
    readValue fuel gs = (d, some rest) → ∃ used, gs = used ++ rest ∧ Spells used d
  | 0, _, _, _, h => by cases h
  | fuel + 1, gs, rest, d, h => by
      obtain ⟨front, hfront, hgs⟩ := exists_blank gs
      -- From here on the cases are the first characters that a value may have.
      suffices hspelling : ∃ used, skipSpace gs = used ++ rest ∧ Spells used d by
        obtain ⟨used, hused, hspells⟩ := hspelling
        exact ⟨front ++ used, by rw [hgs, hused]; simp, hspells.append hfront⟩
      rw [readValue] at h
      split at h
      · cases h
      · rename_i hskip
        rw [hskip]
        exact exists_spelling_word (fun _ _ => rfl) h
      · rename_i hskip
        rw [hskip]
        exact exists_spelling_word (fun _ _ => rfl) h
      · rename_i hskip
        rw [hskip]
        exact exists_spelling_word (fun _ _ => rfl) h
      · rename_i hskip
        rw [hskip]
        split at h
        · rename_i htext
          cases h
          exact exists_spelling_text htext
        · cases h
      · rename_i tl hskip
        rw [hskip]
        rcases hitems : readItems fuel tl with ⟨items, ending, after⟩
        rw [hitems] at h
        cases h
        obtain ⟨rfl, used, rfl, hused⟩ := exists_spelling_items fuel hitems
        exact ⟨some '[' :: used, rfl, spells_bracket hused⟩
      · rename_i tl hskip
        rw [hskip]
        rcases hmembers : readMembers fuel tl with ⟨es, ending, after⟩
        rw [hmembers] at h
        cases h
        obtain ⟨rfl, inner, rfl, hinner⟩ := exists_bodyText fuel hmembers
        exact ⟨some '\x7b' :: (inner ++ [some '\x7d']), by simp,
          spells_brace hinner⟩
      · rename_i hskip
        rw [hskip]
        split at h
        · rename_i hnumber
          cases h
          exact exists_spelling_negative hnumber
        · cases h
      · rename_i hskip
        rw [hskip]
        split at h
        · rename_i hc
          split at h
          · rename_i hnumber
            cases h
            exact exists_spelling_digit hc hnumber
          · cases h
        · cases h
      · cases h

/-- What is read as items has a text of its own. -/
theorem exists_spelling_items : ∀ (fuel : Nat) {gs rest : List Glyph} {items : List Doc}
    {ending : Option Halt}, readItems fuel gs = (items, ending, some rest) →
    ending = none ∧ ∃ used, gs = used ++ rest ∧ SpellsItems used items
  | 0, _, _, _, _, h => by cases h
  | fuel + 1, gs, rest, items, ending, h => by
      obtain ⟨front, hfront, hgs⟩ := exists_blank gs
      cases hskip : skipSpace gs with
      | nil =>
          rw [readItems, hskip] at h
          cases h
      | cons g tl =>
          by_cases hg : g = some ']'
          · subst hg
            rw [readItems, hskip] at h
            cases h
            exact ⟨rfl, front ++ [some ']'], by rw [hgs, hskip]; simp, spellsItems_nil hfront⟩
          · -- The first item begins with the character behind the white space.
            rw [readItems_of_skipSpace hskip hg] at h
            obtain ⟨hending, used, hused, hspells⟩ := exists_spelling_elements fuel h
            obtain ⟨g', us, rfl⟩ := List.exists_cons_of_ne_nil (spellsElements_ne_nil hspells)
            obtain ⟨rfl, rfl⟩ := List.cons.inj hused
            exact ⟨hending, front ++ g :: us, by rw [hgs, hskip]; simp,
              spellsItems_of_elements hfront (isSpace_of_skipSpace hskip) hg hspells⟩

/-- What is read as one item and those behind it has a text of its own. -/
theorem exists_spelling_elements : ∀ (fuel : Nat) {gs rest : List Glyph} {items : List Doc}
    {ending : Option Halt}, readElements fuel gs = (items, ending, some rest) →
    ending = none ∧ ∃ used, gs = used ++ rest ∧ SpellsElements used items
  | 0, _, _, _, _, h => by cases h
  | fuel + 1, gs, rest, items, ending, h => by
      obtain ⟨d, after, hvalue, hrest⟩ := readElements_eq_some h
      obtain ⟨value, rfl, hspells⟩ := exists_spelling fuel hvalue
      obtain ⟨back, hback, hafter⟩ := exists_blank after
      rcases hrest with ⟨hclose, rfl, rfl⟩ | ⟨next, items', hcomma, hnext, rfl⟩
      · rw [hclose] at hafter
        exact ⟨rfl, _, by rw [hafter]; simp, spellsElements_last hspells hback⟩
      · rw [hcomma] at hafter
        obtain ⟨hending, used, rfl, hused⟩ := exists_spelling_elements fuel hnext
        exact ⟨hending, _, by rw [hafter]; simp, spellsElements_next hspells hback hused⟩

/-- What is read as the members of an object is a text between braces. -/
theorem exists_bodyText : ∀ (fuel : Nat) {gs rest : List Glyph}
    {es : List (Option String × Doc)} {ending : Option Halt},
    readMembers fuel gs = (es, ending, some rest) →
    ending = none ∧ ∃ inner, gs = inner ++ some '\x7d' :: rest ∧ BodyText inner es
  | 0, _, _, _, _, h => by cases h
  | fuel + 1, gs, rest, es, ending, h => by
      obtain ⟨front, hfront, hgs⟩ := exists_blank gs
      rw [readMembers] at h
      split at h
      · cases h
      · rename_i hclose
        cases h
        exact ⟨rfl, front, by rw [hgs, hclose], .empty hfront⟩
      · rename_i hquote
        obtain ⟨hending, used, rfl, hused⟩ := exists_membersText fuel h
        exact ⟨hending, front ++ some '"' :: used, by rw [hgs, hquote]; simp,
          .members (hused front hfront)⟩
      · cases h

/-- What is read from the quote that opens a key is a text of members. -/
theorem exists_membersText : ∀ (fuel : Nat) {gs rest : List Glyph}
    {es : List (Option String × Doc)} {ending : Option Halt},
    readEntries fuel gs = (es, ending, some rest) →
    ending = none ∧ ∃ used, gs = used ++ some '\x7d' :: rest ∧
      ∀ front, Blank front → MembersText (front ++ some '"' :: used) es
  | 0, _, _, _, _, h => by cases h
  | fuel + 1, gs, rest, es, ending, h => by
      obtain ⟨k, behind, value, d, after, hkey, hcolon, hvalue, hrest⟩ := readEntries_eq_some h
      obtain ⟨key, rfl, htaken⟩ := exists_taken_text hkey
      obtain ⟨middle, hmiddle, hbehind⟩ := exists_blank behind
      obtain ⟨used, rfl, hspells⟩ := exists_spelling fuel hvalue
      obtain ⟨back, hback, hafter⟩ := exists_blank after
      rw [hcolon] at hbehind
      have hmember : ∀ front, Blank front → MemberText
          (front ++ some '"' :: (key ++ (middle ++ some ':' :: (used ++ back)))) (k, d) :=
        fun front hfront => ⟨hfront, htaken, hmiddle, hspells, hback⟩
      rcases hrest with ⟨hclose, rfl, rfl⟩ | ⟨next, next', es', hcomma, hquote, hnext, rfl⟩
      · rw [hclose] at hafter
        refine ⟨rfl, _, ?_, fun front hfront => .last (hmember front hfront)⟩
        rw [hbehind, hafter]
        simp
      · rw [hcomma] at hafter
        obtain ⟨front', hfront', hnext'⟩ := exists_blank next
        obtain ⟨hending, us, rfl, hus⟩ := exists_membersText fuel hnext
        rw [hquote] at hnext'
        refine ⟨hending, key ++ (middle ++ some ':' :: (used ++ back)) ++
          some ',' :: (front' ++ some '"' :: us), ?_, fun front hfront => ?_⟩
        · rw [hbehind, hafter, hnext']
          simp
        · have hmembers := MembersText.next (hmember front hfront) (hus front' hfront')
          simpa using hmembers

end

/-! ## Objects as whole texts -/

theorem readValue_eq_object {fuel : Nat} {gs rest : List Glyph} {es : List (Option String × Doc)}
    {ending : Option Halt} (h : readValue (fuel + 1) gs = (.object es ending, some rest)) :
    ∃ tl, skipSpace gs = some '\x7b' :: tl ∧ readMembers fuel tl = (es, ending, some rest) := by
  have hword : ∀ {d : Doc} {r : Except Break (List Glyph)},
      wordReading d r = (.object es ending, some rest) → d = .object es ending := by
    intro d r hr
    cases r with
    | error b => cases hr
    | ok rest' => exact congrArg Prod.fst hr
  rw [readValue] at h
  split at h
  case h_7 tl hskip =>
    rcases hmembers : readMembers fuel tl with ⟨es', ending', after⟩
    rw [hmembers] at h
    cases h
    exact ⟨tl, hskip, hmembers⟩
  case h_2 => cases hword h
  case h_3 => cases hword h
  case h_4 => cases hword h
  all_goals
    repeat' split at h
    all_goals cases h

/-- **The reader makes an outline of a text**, with nothing but white space behind it.  The numbers
of the outline are those that it makes of the numerals of the text. -/
def ReadsAs (gs : List Glyph) (d : Doc) : Prop :=
  ∃ rest, Doc.read gs = (d, some rest) ∧ skipSpace rest = []

/-- Where nothing but white space follows, the outline is all that is read. -/
theorem ReadsAs.parseWith_eq {α : Type} {gs : List Glyph} {d : Doc} (h : ReadsAs gs d)
    (ofDoc : Doc → Except Flaw α) : parseWith ofDoc gs = ofDoc d := by
  obtain ⟨rest, hread, hrest⟩ := h
  rw [parseWith, hread]
  simp only [hrest]
  exact bind_pure _

/-- **The texts of objects are those that the reader takes for objects.** -/
theorem objectText_iff {gs : List Glyph} {es : List (Option String × Doc)} :
    ObjectText gs es ↔ ReadsAs gs (.object es none) := by
  constructor
  · rintro @⟨front, inner, back, _, hfront, hinner, hback⟩
    refine ⟨back, ?_, skipSpace_eq_nil_iff.mpr hback⟩
    have hread := (spells_brace hinner).append hfront (3 * (front ++ some '\x7b' :: (inner ++
      some '\x7d' :: back)).length + 3) back hback.stops (by simp; omega)
    rw [Doc.read]
    simpa using hread
  · rintro ⟨rest, hread, hrest⟩
    obtain ⟨tl, hskip, hmembers⟩ := readValue_eq_object hread
    obtain ⟨-, inner, rfl, hinner⟩ := exists_bodyText _ hmembers
    obtain ⟨front, hfront, hgs⟩ := exists_blank gs
    rw [hgs, hskip]
    exact .mk hfront hinner (skipSpace_eq_nil_iff.mp hrest)

/-- The written form of an object is one of its texts. -/
theorem objectText_render {members : List (String × Value)} (h : MembersLegible members) :
    ObjectText (Text.glyphs (Value.object members).render) (memberDocs members) :=
  objectText_iff.mpr ⟨[], read_render h, rfl⟩

theorem parseWith_of_objectText {α : Type} {gs : List Glyph} {es : List (Option String × Doc)}
    (h : ObjectText gs es) (ofDoc : Doc → Except Flaw α) :
    parseWith ofDoc gs = ofDoc (.object es none) := (objectText_iff.mp h).parseWith_eq ofDoc

end FaultPoints.Json
