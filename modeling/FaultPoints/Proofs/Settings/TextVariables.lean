import FaultPoints.Proofs.Decimal.Free
import FaultPoints.Proofs.Settings.Reloading

/-!
# Variables that set a text

The text of a variable is taken for a truth value, an integer or a number wherever it reads as one,
whatever the key asks for.  A key whose value is a text asks for a text, so what was read is written
again.  Writing does not go back to the spelling that was read: a text with leading zeros, with a
plus sign, with an exponent or in capital letters becomes another one.  This file tells what each
text becomes, and that this is what stands in the settings that are loaded.  A text is kept at least
if it has a character that no number has and does not spell a truth value.

A variable has no other effect.  If the settings can be loaded without it, they can be loaded with
it, and they differ in the value of its key only.

## Main Definitions

* `TextKey` — the keys whose value is a text
* `Becomes` — what is made of the text of a variable
* `Environment.without` — an environment without the variable of a key

## Main Statements

* `toText_readVariable_iff` — what is read from the text of a variable
* `layered_iff` — settings under a document and an environment, key by key
* `load_of_without` — what one variable makes of the settings
* `text_variable_law` — a variable sets its key to what is made of its text
-/

namespace FaultPoints.Settings

/-! ## What a text becomes -/

/-- A text spells a truth value, whatever the case of its letters. -/
def IsTruth (v : String) : Prop := foldKey v = "true" ∨ foldKey v = "false"

instance : DecidablePred IsTruth := fun v =>
  inferInstanceAs (Decidable (foldKey v = "true" ∨ foldKey v = "false"))

/-- **What is made of the text of a variable** where a text is asked for. -/
inductive Becomes (v : String) : String → Prop where
  /-- A truth value is written in small letters. -/
  | truth (h : IsTruth v) : Becomes v (foldKey v)
  /-- An integer is written without leading zeros and without a plus sign. -/
  | whole {i : Int} (htruth : ¬ IsTruth v) (h : Text.readSigned v.toList = some i) :
      Becomes v (Text.integer i)
  /-- Any other number is rounded and written without an exponent. -/
  | real {x : Binary64} (htruth : ¬ IsTruth v) (hwhole : Text.readSigned v.toList = none)
      (h : Decimal.read v = some x) : Becomes v (Layout.message.render x)
  /-- A text that reads as nothing else is kept. -/
  | kept (htruth : ¬ IsTruth v) (hwhole : Text.readSigned v.toList = none)
      (hreal : Decimal.read v = none) : Becomes v v

/-- **What is read from the text of a variable.** -/
theorem toText_readVariable_iff (v w : String) :
    (readVariable v).toText = .ok w ↔ Becomes v w := by
  constructor
  · intro h
    simp only [readVariable] at h
    split at h
    · rename_i hyes
      obtain rfl : "true" = w := Except.ok.inj h
      exact hyes ▸ .truth (Or.inl hyes)
    split at h
    · rename_i hno
      obtain rfl : "false" = w := Except.ok.inj h
      exact hno ▸ .truth (Or.inr hno)
    rename_i hyes hno
    have htruth : ¬ IsTruth v := not_or.mpr ⟨hyes, hno⟩
    split at h
    · rename_i i hwhole
      exact Except.ok.inj h ▸ .whole htruth hwhole
    rename_i hwhole
    split at h
    · rename_i x hreal
      exact Except.ok.inj h ▸ .real htruth hwhole hreal
    · rename_i hreal
      exact Except.ok.inj h ▸ .kept htruth hwhole hreal
  · intro h
    cases h with
    | truth h =>
        rcases h with h | h
        · simp [readVariable, h, Tree.toText]
        · simp [readVariable, h, Tree.toText]
    | whole htruth h =>
        rw [IsTruth, not_or] at htruth
        simp [readVariable, htruth, h, Tree.toText]
    | real htruth hwhole h =>
        rw [IsTruth, not_or] at htruth
        simp [readVariable, htruth, hwhole, h, Tree.toText]
    | kept htruth hwhole h =>
        rw [IsTruth, not_or] at htruth
        simp [readVariable, htruth, hwhole, h, Tree.toText]

/-- A text becomes one other text only. -/
theorem Becomes.unique {v w w' : String} (h : Becomes v w) (h' : Becomes v w') : w = w' := by
  rw [← toText_readVariable_iff] at h h'
  exact Except.ok.inj (h.symm.trans h')

theorem exists_becomes (v : String) : ∃ w, Becomes v w := by
  by_cases htruth : IsTruth v
  · exact ⟨_, .truth htruth⟩
  · cases hwhole : Text.readSigned v.toList with
    | some i => exact ⟨_, .whole htruth hwhole⟩
    | none =>
        cases hreal : Decimal.read v with
        | some x => exact ⟨_, .real htruth hwhole hreal⟩
        | none => exact ⟨_, .kept htruth hwhole hreal⟩

/-- **A text is kept** if it does not spell a truth value and has a character that no number
has. -/
theorem Becomes.eq_self {v w : String} (h : Becomes v w) (htruth : ¬ IsTruth v) {c : Char}
    (hc : c ∈ v.toList) (hnumber : Decimal.isNumberChar c = false) : w = v := by
  have hnot : ¬ ∀ c ∈ v.toList, Decimal.isNumberChar c = true := fun hall => by
    rw [hall c hc] at hnumber
    cases hnumber
  cases h with
  | truth h => exact absurd h htruth
  | whole _ h => exact absurd (Decimal.isNumberChar_of_readSigned h) hnot
  | real _ _ h => exact absurd (Decimal.isNumberChar_of_read h) hnot
  | kept => rfl

/-! ## Keys whose value is a text -/

/-- The keys whose value is a text. -/
inductive TextKey where
  /-- The name of the member. -/
  | nodeName
  /-- The directory of the logs. -/
  | logDir
  /-- The point that is reached at each beat. -/
  | beatPoint
  deriving DecidableEq

namespace TextKey

/-- The key. -/
def key : TextKey → Key
  | nodeName => .nodeName
  | logDir => .logDir
  | beatPoint => .beatPoint

/-- The text in settings. -/
def get (s : Settings) : TextKey → String
  | nodeName => s.node.name
  | logDir => s.node.logDir
  | beatPoint => s.heartbeat.point

/-- Settings with another text. -/
def set (s : Settings) (w : String) : TextKey → Settings
  | nodeName => { s with node := { s.node with name := w } }
  | logDir => { s with node := { s.node with logDir := w } }
  | beatPoint => { s with heartbeat := { s.heartbeat with point := w } }

theorem get_set (t : TextKey) (s : Settings) (w : String) : t.get (t.set s w) = w := by
  cases t <;> rfl

/-- Settings with another text have the values of all other keys as before. -/
theorem get_set_of_ne {t : TextKey} {k : Key} (h : k ≠ t.key) (s : Settings) (w : String) :
    k.get (t.set s w) = k.get s := by
  cases t <;> cases k <;> first | rfl | exact absurd rfl h

/-- What is read for the key of a text. -/
theorem sight_eq_ok_iff (t : TextKey) (u : Tree) (s : Settings) :
    t.key.sight (some u) = .ok (t.key.get s) ↔ u.toText = .ok (t.get s) := by
  cases t <;> rfl

end TextKey

/-! ## Settings key by key -/

/-- **Settings under a document and an environment, key by key**: each key is read from the last
layer that has it. -/
theorem layered_iff {doc : List (String × Tree)} (hdoc : MentionsKeys doc) {e : Environment}
    (he : e.LeafOnly) (s : Settings) :
    layered .default doc e = .ok s ↔ ∀ k : Key,
      k.sight (((e.text? k).map readVariable).or
        ((k.lastIn doc).or (k.valueIn (written .default)))) = .ok (k.get s) := by
  have hmerged : ∀ b ≠ Branch.faults, HasSection b ((written .default).mergeKeys doc) :=
    fun b hb => hdoc.hasSection_mergeKeys hb ⟨_, under_written .default hb⟩
  have hsections : ∀ b ≠ Branch.faults,
      HasSection b (((written .default).mergeKeys doc).overlaid e.source) := fun b hb =>
    he.setsKeys.hasSection_overlaid hb (Or.inl (hmerged b hb))
  have hvalue : ∀ k : Key, k.valueIn (((written .default).mergeKeys doc).overlaid e.source) =
      ((e.text? k).map readVariable).or ((k.lastIn doc).or (k.valueIn (written .default))) := by
    intro k
    rw [he.setsKeys.valueIn_overlaid, he.lookup_source,
      hdoc.valueIn_mergeKeys k fun hb => ⟨_, under_written .default hb⟩]
  have hcounts : ¬ Settings.default.HoldsLargeCount := by decide
  rw [layered_eq_ok_iff, Tree.overlaid_plain fun x hx => hdoc.isPlainKey hx,
    and_iff_right hcounts]
  obtain ⟨es, hes⟩ := exists_laid_eq .default doc e.source
  rw [hes] at hsections hvalue ⊢
  simp only [ofTree_iff_of_sections hsections, hvalue]

/-! ## Taking a variable away -/

theorem variableName_injective : Function.Injective Key.variableName := by
  intro k k' h
  cases k <;> cases k' <;> first | rfl | exact absurd h (by decide)

namespace Environment

/-- An environment without the variable of a key. -/
def without (e : Environment) (k : Key) : Environment :=
  e.filter fun v => foldKey v.1 ≠ k.variableName

variable {e : Environment} {k : Key}

theorem mem_of_mem_without {v : String × String} (h : v ∈ e.without k) : v ∈ e :=
  List.mem_of_mem_filter h

theorem LeafOnly.without (h : e.LeafOnly) (k : Key) : (e.without k).LeafOnly where
  named v hv := h.named v (mem_of_mem_without hv)
  unique v hv w hw := h.unique v (mem_of_mem_without hv) w (mem_of_mem_without hw)

theorem text?_without_self : (e.without k).text? k = none := by
  rw [text?, Option.map_eq_none_iff, List.find?_eq_none]
  intro v hv hname
  have hne : foldKey v.1 ≠ k.variableName := of_decide_eq_true (List.mem_filter.mp hv).2
  exact hne (of_decide_eq_true (Bool.and_eq_true_iff.mp hname).1)

/-- The other keys keep their texts. -/
theorem text?_without_of_ne {k' : Key} (h : k' ≠ k) : (e.without k).text? k' = e.text? k' := by
  rw [text?, text?, without, List.find?_filter]
  congr 2
  funext v
  by_cases hname : foldKey v.1 = k'.variableName
  · have hne : k'.variableName ≠ k.variableName := variableName_injective.ne h
    simp only [hname, hne, ne_eq, not_false_eq_true, decide_true, Bool.true_and, true_and,
      Bool.decide_eq_true]
  · simp [hname]

/-- Variables of other names are still there. -/
theorem get?_without {name : String} (h : foldKey name ≠ k.variableName) :
    (e.without k).get? name = e.get? name := by
  induction e with
  | nil => rfl
  | cons v rest ih =>
      have hlookup : ∀ l : Environment,
          Environment.get? (v :: l) name = if name = v.1 then some v.2 else l.get? name := by
        intro l
        rw [Environment.get?, List.lookup_cons]
        by_cases hname : name = v.1
        · rw [beq_iff_eq.mpr hname, if_pos hname]
        · rw [beq_eq_false_iff_ne.mpr hname, if_neg hname, Environment.get?]
      by_cases hk : foldKey v.1 = k.variableName
      · have hne : name ≠ v.1 := fun hname => h (hname ▸ hk)
        have hdrop : without (v :: rest) k = without rest k := by simp [without, hk]
        rw [hdrop, hlookup, if_neg hne, ih]
      · have hkeep : without (v :: rest) k = v :: without rest k := by simp [without, hk]
        rw [hkeep, hlookup, hlookup, ih]

end Environment

/-- The keys that the file of the start sets, if there is one. -/
def startFile (files : Files.Store) (e : Environment) :
    Except SourceError (List (String × Tree)) :=
  match e.get? pathVariable with
  | some path => fileSource files path
  | none => pure []

theorem load_eq (files : Files.Store) (e : Environment) :
    load files e = startFile files e >>= fun doc => layered .default doc e := by
  unfold load startFile
  cases e.get? pathVariable <;> rfl

theorem startFile_without (files : Files.Store) (e : Environment) (k : Key) :
    startFile files (e.without k) = startFile files e := by
  have hpath : foldKey pathVariable ≠ k.variableName := by cases k <;> decide
  rw [startFile, startFile, Environment.get?_without hpath]

/-- **What one variable makes of the settings.**  They are those that are loaded without it, with
the value of its key replaced. -/
theorem load_of_without {files : Files.Store} {e : Environment} (he : e.LeafOnly) {t : TextKey}
    {v w : String} (hv : e.text? t.key = some v) (hw : Becomes v w)
    (hdoc : ∀ doc, startFile files e = .ok doc → MentionsKeys doc) {s : Settings}
    (h : load files (e.without t.key) = .ok s) : load files e = .ok (t.set s w) := by
  rw [load_eq, bind_eq_ok_iff, startFile_without] at h
  obtain ⟨doc, hfile, h⟩ := h
  rw [load_eq, bind_eq_ok_iff]
  refine ⟨doc, hfile, (layered_iff (hdoc doc hfile) he _).mpr fun k => ?_⟩
  by_cases hk : k = t.key
  · subst hk
    rw [hv, Option.map_some, Option.some_or, TextKey.sight_eq_ok_iff, TextKey.get_set,
      toText_readVariable_iff]
    exact hw
  · have hold := (layered_iff (hdoc doc hfile) (he.without t.key) s).mp h k
    rw [Environment.text?_without_of_ne hk] at hold
    rw [TextKey.get_set_of_ne hk]
    exact hold

/-- Where nothing is set the settings are the defaults. -/
theorem load_of_unset {files : Files.Store} {e : Environment} (he : e.LeafOnly)
    (hpath : e.get? pathVariable = none) (hunset : ∀ k, e.text? k = none) :
    load files e = .ok .default := by
  rw [load_eq, startFile, hpath]
  refine (layered_iff (by simp [MentionsKeys]) he _).mpr fun k => ?_
  have hnone : k.lastIn [] = none := by cases k <;> rfl
  rw [hunset, hnone]
  exact sight_valueIn_written proper_default k

/-- **A variable sets its key to what is made of its text.**  Whatever the text is, exactly one text
is made of it, and the settings that are loaded under the variable are those that are loaded without
it, with this text in the place of the key.  In particular they are the defaults with this text if
nothing else is set.  The text is kept if it does not spell a truth value and has a character that
no number has. -/
theorem text_variable_law (files : Files.Store) {e : Environment} (he : e.LeafOnly) (t : TextKey)
    {v : String} (hv : e.text? t.key = some v) :
    ∃ w, Becomes v w ∧ (∀ w', Becomes v w' → w' = w) ∧
      ((∀ doc, startFile files e = .ok doc → MentionsKeys doc) →
        ∀ s, load files (e.without t.key) = .ok s → load files e = .ok (t.set s w)) ∧
      (e.get? pathVariable = none → (∀ k ≠ t.key, e.text? k = none) →
        load files e = .ok (t.set .default w)) ∧
      (¬ IsTruth v → (∃ c ∈ v.toList, Decimal.isNumberChar c = false) → w = v) := by
  obtain ⟨w, hw⟩ := exists_becomes v
  refine ⟨w, hw, fun w' hw' => hw'.unique hw, fun hdoc s hs => load_of_without he hv hw hdoc hs,
    fun hpath hunset => ?_, fun htruth ⟨c, hc, hnumber⟩ => hw.eq_self htruth hc hnumber⟩
  have hfile : ∀ doc, startFile files e = .ok doc → MentionsKeys doc := by
    intro doc hdoc
    rw [startFile, hpath] at hdoc
    obtain rfl : [] = doc := Except.ok.inj hdoc
    simp [MentionsKeys]
  refine load_of_without he hv hw hfile (load_of_unset (he.without t.key) ?_ fun k => ?_)
  · have hname : foldKey pathVariable ≠ t.key.variableName := by cases t <;> decide
    rw [Environment.get?_without hname, hpath]
  · by_cases hk : k = t.key
    · rw [hk, Environment.text?_without_self]
    · rw [Environment.text?_without_of_ne hk, hunset k hk]

/-- The variable of the point of the heartbeat, set to a text. -/
def beatVariable (v : String) : Environment := [("FAULT_INJECTOR__HEARTBEAT__FAULT_POINT", v)]

/-- A name with an underscore is kept. -/
theorem text_variable_law_named :
    (beatVariable "dcs_write").LeafOnly ∧
      (beatVariable "dcs_write").text? TextKey.beatPoint.key = some "dcs_write" ∧
      load Files.Store.vacant (beatVariable "dcs_write") =
        .ok (TextKey.beatPoint.set .default "dcs_write") := by
  have he : (beatVariable "dcs_write").LeafOnly := ⟨by decide +kernel, by decide +kernel⟩
  have hv : (beatVariable "dcs_write").text? TextKey.beatPoint.key = some "dcs_write" := by
    decide +kernel
  obtain ⟨w, -, -, -, hload, hkept⟩ := text_variable_law Files.Store.vacant he .beatPoint hv
  obtain rfl : w = "dcs_write" := hkept (by decide +kernel) ⟨'_', by decide +kernel, by decide⟩
  exact ⟨he, hv, hload rfl (by decide +kernel)⟩

/-- **Not every text is kept**: leading zeros get lost. -/
theorem text_not_verbatim :
    (beatVariable "007").LeafOnly ∧ (beatVariable "007").get? pathVariable = none ∧
      (beatVariable "007").text? TextKey.beatPoint.key = some "007" ∧
      (∀ k ≠ TextKey.beatPoint.key, (beatVariable "007").text? k = none) ∧
      ¬ ∃ s, load Files.Store.vacant (beatVariable "007") = .ok s ∧ s.heartbeat.point = "007" := by
  refine ⟨⟨by decide +kernel, by decide +kernel⟩, rfl, by decide +kernel, by decide +kernel, ?_⟩
  rintro ⟨s, hload, hpoint⟩
  have hseven : load Files.Store.vacant (beatVariable "007") =
      .ok (TextKey.beatPoint.set .default "7") := by decide +kernel
  rw [hseven] at hload
  obtain rfl := Except.ok.inj hload
  exact absurd hpoint (by decide)

end FaultPoints.Settings
