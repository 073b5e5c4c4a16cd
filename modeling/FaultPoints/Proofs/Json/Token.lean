import FaultPoints.Proofs.Fallible
import FaultPoints.Proofs.Json.Numeral
import Mathlib.Data.List.TakeWhile

/-!
# Tokens wherever they stand

The reader takes a word, a text or a number from the front of what is left, and what it takes does
not depend on what follows, as long as that does not continue a number.  So each token has a text of
its own: the glyphs that were there before and are gone afterwards.

## Main Definitions

* `Blank` — nothing but white space
* `Stops` — what may follow a value

## Main Statements

* `exists_taken_word`, `exists_taken_text`, `exists_taken_number` — what has been read of a token is
  read again in front of any other rest
-/

namespace FaultPoints.Json

/-! ## White space -/

/-- Nothing but white space. -/
def Blank (gs : List Glyph) : Prop := ∀ g ∈ gs, isSpace g = true

theorem exists_blank (gs : List Glyph) : ∃ front, Blank front ∧ gs = front ++ skipSpace gs :=
  ⟨gs.takeWhile isSpace, fun _ hg => List.mem_takeWhile_imp hg,
    (List.takeWhile_append_dropWhile).symm⟩

theorem skipSpace_eq_nil_iff {gs : List Glyph} : skipSpace gs = [] ↔ Blank gs :=
  List.dropWhile_eq_nil_iff

theorem isSpace_of_skipSpace {gs rest : List Glyph} {g : Glyph} (h : skipSpace gs = g :: rest) :
    isSpace g = false := by
  have hhead := List.head?_dropWhile_not isSpace gs
  rw [show gs.dropWhile isSpace = g :: rest from h] at hhead
  simpa using hhead

theorem skipSpace_append {front : List Glyph} (h : Blank front) (gs : List Glyph) :
    skipSpace (front ++ gs) = skipSpace gs :=
  List.dropWhile_append_of_pos h

theorem skipSpace_blank_cons {front : List Glyph} (h : Blank front) {c : Char}
    (hc : isSpace (some c) = false) (gs : List Glyph) :
    skipSpace (front ++ some c :: gs) = some c :: gs := by
  rw [skipSpace_append h, skipSpace_cons hc]

/-! ## What may follow a value -/

/-- Nothing follows, or white space, or a character at which every value ends. -/
def Stops (rest : List Glyph) : Prop :=
  ∀ g ∈ rest.head?, isSpace g = true ∨ g = some ',' ∨ g = some ']' ∨ g = some '\x7d'

theorem Stops.apart {rest : List Glyph} (h : Stops rest) : Apart rest := by
  intro c hc
  rcases h (some c) hc with hspace | hc | hc | hc
  · simp only [isSpace, Bool.or_eq_true, beq_iff_eq, Option.some_inj] at hspace
    rcases hspace with ((rfl | rfl) | rfl) | rfl <;> decide
  all_goals
    cases hc
    decide

/-- White space may stand before the character at which a value ends. -/
theorem stops_blank_cons {back : List Glyph} (h : Blank back) {g : Glyph}
    (hg : g = some ',' ∨ g = some ']' ∨ g = some '\x7d') (rest : List Glyph) :
    Stops (back ++ g :: rest) := by
  cases back with
  | nil =>
      intro g' hg'
      obtain rfl : g = g' := by simpa using hg'
      exact Or.inr hg
  | cons b back =>
      intro g' hg'
      obtain rfl : b = g' := by simpa using hg'
      exact Or.inl (h b List.mem_cons_self)

theorem Blank.stops {back : List Glyph} (h : Blank back) : Stops back :=
  fun _ hg => Or.inl (h _ (List.mem_of_mem_head? hg))

/-! ## Parts of a value -/

/-- A word is read the same whatever follows. -/
theorem exists_taken_word {word : List Char} {gs rest : List Glyph}
    (h : readWord word gs = .ok rest) :
    ∃ used, gs = used ++ rest ∧ ∀ rest', readWord word (used ++ rest') = .ok rest' := by
  induction word generalizing gs with
  | nil =>
      cases h
      exact ⟨[], rfl, fun _ => rfl⟩
  | cons c cs ih =>
      cases gs with
      | nil => cases h
      | cons g gs =>
          rw [readWord] at h
          split at h
          · rename_i hg
            obtain ⟨used, rfl, htaken⟩ := ih h
            refine ⟨g :: used, rfl, fun rest' => ?_⟩
            rw [List.cons_append, readWord, if_pos hg]
            exact htaken rest'
          · cases h

theorem readText_short (s : TextState) {e c : Char} (h : shortEscape e = some c)
    (rest : List Glyph) :
    readText s (some '\\' :: some e :: rest) = readText (s.push c) rest := by
  have hu : e ≠ 'u' := by
    rintro rfl
    cases h
  rw [readText, h]
  · exact fun _ _ _ _ _ _ he => hu he
  · exact hu

theorem readText_unit (s : TextState) {a b c d : Glyph} {n : Nat} (h : codeUnit a b c d = some n)
    (rest : List Glyph) :
    readText s (some '\\' :: some 'u' :: a :: b :: c :: d :: rest) =
      readText (s.pushUnit n) rest := by
  rw [readText, h]

/-- What has been read of a text as far as its closing quote is the same whatever follows. -/
theorem exists_taken_text {s : TextState} {gs rest : List Glyph} {t : Option String}
    (h : readText s gs = .ok (t, rest)) :
    ∃ used, gs = used ++ rest ∧ ∀ rest', readText s (used ++ rest') = .ok (t, rest') := by
  fun_induction readText s gs
  case case2 s gs ih =>
    obtain ⟨used, rfl, htaken⟩ := ih h
    exact ⟨none :: used, rfl, fun rest' => htaken rest'⟩
  case case3 s gs =>
    cases h
    exact ⟨[some '"'], rfl, fun rest' => rfl⟩
  case case4 s a b c d gs n hunit ih =>
    obtain ⟨used, rfl, htaken⟩ := ih h
    refine ⟨some '\\' :: some 'u' :: a :: b :: c :: d :: used, rfl, fun rest' => ?_⟩
    exact (readText_unit s hunit _).trans (htaken rest')
  case case7 s e gs _ _ c hshort ih =>
    obtain ⟨used, rfl, htaken⟩ := ih h
    refine ⟨some '\\' :: some e :: used, rfl, fun rest' => ?_⟩
    exact (readText_short s hshort _).trans (htaken rest')
  case case12 s c gs hquote _ _ hescape hstray hend hcontrol ih =>
    obtain ⟨used, rfl, htaken⟩ := ih h
    have hslash : c ≠ '\\' := by
      intro hc
      cases hgs : used ++ rest with
      | nil => exact hend hgs hc
      | cons g gs =>
          cases g with
          | none => exact hstray gs hgs hc
          | some e => exact hescape e gs hgs hc
    refine ⟨some c :: used, rfl, fun rest' => ?_⟩
    exact (readText_plain s hquote hslash hcontrol _).trans (htaken rest')
  all_goals cases h

/-- Digits are read up to a character that is none. -/
theorem eq_append_of_leadingDigits {gs after : List Glyph} {ds : List Char}
    (h : leadingDigits gs = (ds, after)) :
    gs = ds.map some ++ after ∧ ds.all Text.isDigit = true := by
  fun_induction leadingDigits gs generalizing ds
  case case1 c gs hc _ _ hgs ih =>
    cases h
    obtain ⟨rfl, hds⟩ := ih hgs
    exact ⟨rfl, by rw [List.all_cons, hc, hds]; rfl⟩
  all_goals
    cases h
    exact ⟨rfl, rfl⟩

theorem exists_taken_whole {gs rest : List Glyph} {ds : List Char}
    (h : readWhole gs = .ok (ds, rest)) :
    gs = ds.map some ++ rest ∧ ∀ rest', NoDigit rest' →
      readWhole (ds.map some ++ rest') = .ok (ds, rest') := by
  unfold readWhole at h
  split at h
  · cases h
  · cases h
  · rename_i ds' after hne hzero hdigits
    cases h
    obtain ⟨hgs, hall⟩ := eq_append_of_leadingDigits hdigits
    refine ⟨hgs, fun rest' hrest' => ?_⟩
    have htaken := leadingDigits_append hall hrest'
    cases ds with
    | nil => exact absurd rfl hne
    | cons c cs =>
        refine readWhole_of_leadingDigits htaken fun hc => ?_
        subst hc
        cases cs with
        | nil => rfl
        | cons d ds => exact absurd rfl (hzero d ds)

theorem exists_taken_part {gs rest : List Glyph} {ds : List Char}
    (h : readPart gs = .ok (ds, rest)) :
    ∃ used, gs = used ++ rest ∧ (used = [] ∨ ∃ us, used = some '.' :: us) ∧
      ∀ rest', NoPart rest' → readPart (used ++ rest') = .ok (ds, rest') := by
  unfold readPart at h
  split at h
  · rename_i gs
    split at h
    · cases h
    · rename_i ds' after hne hdigits
      cases h
      obtain ⟨rfl, hall⟩ := eq_append_of_leadingDigits hdigits
      refine ⟨some '.' :: ds.map some, rfl, Or.inr ⟨_, rfl⟩, fun rest' hrest' => ?_⟩
      have htaken := readPart_chars hall hrest'
      rwa [partChars_of_ne_nil fun hnil => hne hnil] at htaken
  · cases h
    refine ⟨[], rfl, Or.inl rfl, fun rest' hrest' => ?_⟩
    exact readPart_chars (List.all_nil) hrest'

/-- The sign of an exponent, if there is one, stands before its digits. -/
theorem exists_taken_sign {gs body : List Glyph} {negative : Bool}
    (h : exponentSign gs = (negative, body)) :
    ∃ sign, gs = sign ++ body ∧ ∀ d, Text.isDigit d = true → ∀ more,
      exponentSign (sign ++ some d :: more) = (negative, some d :: more) := by
  unfold exponentSign at h
  split at h
  · cases h
    exact ⟨[some '-'], rfl, fun d hd more => rfl⟩
  · cases h
    exact ⟨[some '+'], rfl, fun d hd more => rfl⟩
  · cases h
    refine ⟨[], rfl, fun d hd more => ?_⟩
    unfold exponentSign
    split
    · rename_i heq
      cases heq
      cases hd
    · rename_i heq
      cases heq
      cases hd
    · rfl

theorem exists_taken_exponent {gs rest : List Glyph} {e : Option Int}
    (h : readExponent gs = .ok (e, rest)) :
    ∃ used, gs = used ++ rest ∧ (used = [] ∨ ∃ c us, used = some c :: us ∧ (c = 'e' ∨ c = 'E')) ∧
      ∀ rest', Apart rest' → readExponent (used ++ rest') = .ok (e, rest') := by
  unfold readExponent at h
  split at h
  · rename_i c gs
    split at h
    · rename_i hc
      have hc' : c = 'e' ∨ c = 'E' := by simpa using hc
      rcases hs : exponentSign gs with ⟨negative, body⟩
      rw [hs] at h
      dsimp only at h
      split at h
      · cases h
      · rename_i ds after hne hdigits
        cases h
        obtain ⟨sign, hgs, hsign⟩ := exists_taken_sign hs
        obtain ⟨hbody, hall⟩ := eq_append_of_leadingDigits hdigits
        cases ds with
        | nil => exact absurd rfl hne
        | cons d ds =>
            obtain ⟨hd, -⟩ := (Bool.and_eq_true _ _).mp hall
            refine ⟨some c :: (sign ++ (d :: ds).map some), ?_, Or.inr ⟨c, _, rfl, hc'⟩,
              fun rest' hrest' => ?_⟩
            · rw [hgs, hbody, List.cons_append, List.append_assoc]
            · have htaken := leadingDigits_append hall hrest'.noPart.noDigit
              rw [List.cons_append, List.append_assoc]
              exact readExponent_cons hc' (hsign d hd _) htaken
    · cases h
      exact ⟨[], rfl, Or.inl rfl, fun rest' hrest' => readExponent_chars none hrest'⟩
  · cases h
    exact ⟨[], rfl, Or.inl rfl, fun rest' hrest' => readExponent_chars none hrest'⟩

/-- What has been read of a number is the same whatever follows, unless that continues it. -/
theorem exists_taken_number {negative : Bool} {gs rest : List Glyph} {n : Option Number}
    (h : readNumber negative gs = .ok (n, rest)) :
    ∃ used, gs = used ++ rest ∧
      ∀ rest', Apart rest' → readNumber negative (used ++ rest') = .ok (n, rest') := by
  simp only [readNumber, bind_eq_ok_iff] at h
  obtain ⟨⟨whole, behind⟩, hwhole, ⟨part, behind'⟩, hpart, ⟨exponent, after⟩, hexponent, hpure⟩ := h
  cases hpure
  obtain ⟨rfl, hwhole'⟩ := exists_taken_whole hwhole
  obtain ⟨ps, rfl, hps, hpart'⟩ := exists_taken_part hpart
  obtain ⟨es, rfl, hes, hexponent'⟩ := exists_taken_exponent hexponent
  refine ⟨whole.map some ++ (ps ++ es), by simp, fun rest' hrest' => ?_⟩
  have hbehind' : NoPart (es ++ rest') := by
    rcases hes with rfl | ⟨c, us, rfl, rfl | rfl⟩
    · exact hrest'.noPart
    · intro c hc
      cases hc
      decide
    · intro c hc
      cases hc
      decide
  have hbehind : NoDigit (ps ++ (es ++ rest')) := by
    rcases hps with rfl | ⟨us, rfl⟩
    · exact hbehind'.noDigit
    · exact noDigit_cons rfl _
  rw [List.append_assoc, List.append_assoc]
  simp only [readNumber, bind_eq_ok_iff]
  exact ⟨_, hwhole' _ hbehind, _, hpart' _ hbehind', _, hexponent' _ hrest', rfl⟩

end FaultPoints.Json
