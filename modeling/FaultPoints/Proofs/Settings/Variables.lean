import FaultPoints.Proofs.Settings.Places
import FaultPoints.Settings.Environment

/-!
# Keys that the environment sets

A variable sets a key if it is named for it, whatever the case of its letters, and its text is not
empty.  Where every variable under the lead of the settings is named for a key, and no two are
named for the same one, the environment as a source holds just the texts of the variables at the
places of their keys.

## Main Definitions

* `Key.variableName` — the name of the variable that sets a key
* `Environment.LeafOnly` — the environment sets keys only, and each of them once
* `Environment.text?` — the text to which the environment sets a key

## Main Statements

* `lookup_source` — the source of the environment, key by key
* `valueIn_overlaid` — the values of keys after the environment is laid over a tree
-/

namespace FaultPoints.Settings

/-! ## Names of variables -/

/-- The name of the variable that sets a key, in small letters. -/
def Key.variableName (k : Key) : String := "__".intercalate ("fault_injector" :: k.path)

theorem keyOf_of_foldKey {name : String} {k : Key} (h : foldKey name = k.variableName) :
    keyOf name = some k.place := by
  unfold keyOf
  rw [h]
  cases k <;> rfl

theorem place_injective : Function.Injective Key.place := by
  intro k k' h
  have hread := congrArg Path.read h
  rw [read_place, read_place] at hread
  obtain ⟨hname, hsteps⟩ := Path.mk.inj hread
  refine eq_of_branch_of_leaf (branch_name_injective hname) ?_
  cases hl : k.leaf <;> cases hl' : k'.leaf <;> simp_all

namespace Environment

/-- The environment sets keys only: a variable under the lead of the settings is named for a key,
and no two are named for the same one. -/
structure LeafOnly (e : Environment) : Prop where
  /-- A variable that sets anything is named for a key. -/
  named : ∀ v ∈ e, keyOf v.1 ≠ none → ∃ k : Key, foldKey v.1 = k.variableName
  /-- A key has one variable, whatever the case of its letters. -/
  unique : ∀ v ∈ e, ∀ w ∈ e, ∀ k : Key,
    foldKey v.1 = k.variableName → foldKey w.1 = k.variableName → v = w

/-- The text to which the environment sets a key. -/
def text? (e : Environment) (k : Key) : Option String :=
  (e.find? fun v => foldKey v.1 = k.variableName && !v.2.isEmpty).map (·.2)

/-! ## The source -/

/-- One more variable in the source. -/
theorem source_append_singleton (e : Environment) (v : String × String) :
    source (e ++ [v]) =
      match keyOf v.1 with
      | some k => if v.2.isEmpty then source e else put k (readVariable v.2) (source e)
      | none => source e := by
  rw [source, List.foldl_append, List.foldl_cons, List.foldl_nil]
  rfl

/-- Of two settings of a key the later one counts. -/
theorem lookup_source_eq (e : Environment) (κ : String) :
    e.source.lookup κ =
      (e.reverse.find? fun v => keyOf v.1 = some κ && !v.2.isEmpty).map
        fun v => readVariable v.2 := by
  induction e using List.reverseRecOn with
  | nil => rfl
  | append_singleton e v ih =>
      rw [List.reverse_append, List.reverse_singleton, List.singleton_append, List.find?_cons,
        source_append_singleton]
      cases hkey : keyOf v.1 with
      | none => simpa using ih
      | some k =>
          by_cases hempty : v.2.isEmpty = true
          · simpa [hempty] using ih
          · by_cases hκ : κ = k
            · simp [hempty, hκ, lookup_put]
            · simpa [hempty, hκ, Ne.symm hκ, lookup_put] using ih

theorem mem_put {k : String} {t : Tree} {es : List (String × Tree)} {x : String × Tree}
    (h : x ∈ put k t es) : x = (k, t) ∨ x ∈ es := by
  induction es with
  | nil => exact Or.inl (List.mem_singleton.mp h)
  | cons e rest ih =>
      by_cases hk : k = e.1
      · rw [put, if_pos hk] at h
        exact (List.mem_cons.mp h).imp_right (List.mem_cons_of_mem _)
      · rw [put, if_neg hk] at h
        rcases List.mem_cons.mp h with h | h
        · exact Or.inr (h ▸ List.mem_cons_self)
        · exact (ih h).imp_right (List.mem_cons_of_mem _)

theorem nodup_put (k : String) (t : Tree) {es : List (String × Tree)}
    (h : (es.map Prod.fst).Nodup) : ((put k t es).map Prod.fst).Nodup := by
  induction es with
  | nil => simp [put]
  | cons e rest ih =>
      rw [List.map_cons, List.nodup_cons] at h
      by_cases hk : k = e.1
      · rw [put, if_pos hk, List.map_cons, List.nodup_cons, hk]
        exact h
      · rw [put, if_neg hk, List.map_cons, List.nodup_cons]
        refine ⟨fun hmem => ?_, ih h.2⟩
        obtain ⟨x, hx, hxe⟩ := List.mem_map.mp hmem
        rcases mem_put hx with rfl | hx
        · exact hk hxe
        · exact h.1 (hxe ▸ List.mem_map_of_mem hx)

/-- A source of the environment has no key twice. -/
theorem nodup_source (e : Environment) : (e.source.map Prod.fst).Nodup := by
  induction e using List.reverseRecOn with
  | nil => simp [source]
  | append_singleton e v ih =>
      rw [source_append_singleton]
      cases keyOf v.1 with
      | none => exact ih
      | some k =>
          dsimp only
          split
          · exact ih
          · exact nodup_put k _ ih

theorem isLeaf_readVariable (text : String) : (readVariable text).IsLeaf := by
  unfold readVariable
  dsimp only
  repeat' split
  all_goals trivial

theorem exists_of_mem_source {e : Environment} {x : String × Tree} (h : x ∈ source e) :
    x.2.IsLeaf ∧ ∃ v ∈ e, keyOf v.1 = some x.1 := by
  induction e using List.reverseRecOn with
  | nil => simp [source] at h
  | append_singleton e v ih =>
      have hold (h : x ∈ source e) : x.2.IsLeaf ∧ ∃ w ∈ e ++ [v], keyOf w.1 = some x.1 := by
        obtain ⟨hleaf, w, hw, hkey⟩ := ih h
        exact ⟨hleaf, w, List.mem_append_left _ hw, hkey⟩
      rw [source_append_singleton] at h
      cases hkey : keyOf v.1 with
      | none => exact hold (by simpa [hkey] using h)
      | some k =>
          rw [hkey] at h
          dsimp only at h
          split at h
          · exact hold h
          · rcases mem_put h with rfl | h
            · exact ⟨isLeaf_readVariable v.2, v, by simp, hkey⟩
            · exact hold h

/-- What occurs once is found from either end. -/
theorem find?_reverse_of_unique {α : Type} {l : List α} {p : α → Bool}
    (h : ∀ a ∈ l, ∀ b ∈ l, p a → p b → a = b) : l.reverse.find? p = l.find? p := by
  cases hfront : l.find? p with
  | none => simpa using hfront
  | some a =>
      have ha := List.find?_some hfront
      have hmem := List.mem_of_find?_eq_some hfront
      cases hback : l.reverse.find? p with
      | none => exact absurd ha (List.find?_eq_none.mp hback a (List.mem_reverse.mpr hmem))
      | some b =>
          have hb := List.mem_reverse.mp (List.mem_of_find?_eq_some hback)
          rw [h b hb a hmem (List.find?_some hback) ha]

section LeafOnly

variable {e : Environment} (h : e.LeafOnly)

include h

namespace LeafOnly

/-- A variable sets the place of a key iff it is named for that key. -/
theorem keyOf_eq_iff {v : String × String} (hv : v ∈ e) (k : Key) :
    keyOf v.1 = some k.place ↔ foldKey v.1 = k.variableName := by
  refine ⟨fun hkey => ?_, keyOf_of_foldKey⟩
  obtain ⟨k', hk'⟩ := h.named v hv (by simp [hkey])
  have hplace := (keyOf_of_foldKey hk').symm.trans hkey
  rwa [← place_injective (Option.some.inj hplace)]

/-- **The source of the environment, key by key.** -/
theorem lookup_source (k : Key) : e.source.lookup k.place = (e.text? k).map readVariable := by
  have hunique : ∀ v ∈ e, ∀ w ∈ e,
      (decide (foldKey v.1 = k.variableName) && !v.2.isEmpty) = true →
        (decide (foldKey w.1 = k.variableName) && !w.2.isEmpty) = true → v = w :=
    fun v hv w hw hpv hpw => h.unique v hv w hw k
      (of_decide_eq_true (Bool.and_eq_true_iff.mp hpv).1)
      (of_decide_eq_true (Bool.and_eq_true_iff.mp hpw).1)
  have hfind : e.reverse.find? (fun v => keyOf v.1 = some k.place && !v.2.isEmpty) =
      e.reverse.find? (fun v => foldKey v.1 = k.variableName && !v.2.isEmpty) :=
    List.find?_congr fun v hv => by simp only [h.keyOf_eq_iff (List.mem_reverse.mp hv) k]
  rw [lookup_source_eq, hfind, find?_reverse_of_unique hunique, text?, Option.map_map]
  rfl

/-- Each entry of the source stands at the place of a key. -/
theorem exists_place_of_mem {x : String × Tree} (hx : x ∈ e.source) :
    x.2.IsLeaf ∧ ∃ k : Key, x.1 = k.place := by
  obtain ⟨hleaf, v, hv, hkey⟩ := exists_of_mem_source hx
  obtain ⟨k, hk⟩ := h.named v hv (by simp [hkey])
  exact ⟨hleaf, k, Option.some.inj (hkey.symm.trans (keyOf_of_foldKey hk))⟩

end LeafOnly

end LeafOnly

end Environment

/-! ## Laying leaves over a tree -/

/-- A source whose entries are leaves at the places of keys, each key at most once. -/
structure SetsKeys (source : List (String × Tree)) : Prop where
  /-- Each entry is a leaf at the place of a key. -/
  placed : ∀ x ∈ source, x.2.IsLeaf ∧ ∃ k : Key, x.1 = k.place
  /-- No key occurs twice. -/
  nodup : (source.map Prod.fst).Nodup

theorem Environment.LeafOnly.setsKeys {e : Environment} (h : e.LeafOnly) : SetsKeys e.source :=
  ⟨fun _ hx => h.exists_place_of_mem hx, nodup_source e⟩

theorem overlaid_cons (t : Tree) (x : String × Tree) (source : List (String × Tree)) :
    t.overlaid (x :: source) = (t.setAt (Path.read x.1) x.2).overlaid source := rfl

namespace SetsKeys

theorem head {x : String × Tree} {source : List (String × Tree)} (h : SetsKeys (x :: source)) :
    x.2.IsLeaf ∧ ∃ k : Key, x.1 = k.place := h.placed x List.mem_cons_self

theorem tail {x : String × Tree} {source : List (String × Tree)} (h : SetsKeys (x :: source)) :
    SetsKeys source :=
  ⟨fun y hy => h.placed y (List.mem_cons_of_mem _ hy), (List.nodup_cons.mp h.nodup).2⟩

theorem lookup_head {x : String × Tree} {source : List (String × Tree)}
    (h : SetsKeys (x :: source)) : source.lookup x.1 = none := by
  rw [List.lookup_eq_none_iff]
  intro y hy
  simpa using fun heq : x.1 = y.1 =>
    (List.nodup_cons.mp h.nodup).1 (heq ▸ List.mem_map_of_mem hy)

variable {source : List (String × Tree)} (h : SetsKeys source)

include h

/-- **The values of keys after a source is laid over a tree.** -/
theorem valueIn_overlaid (t : Tree) (k : Key) :
    k.valueIn (t.overlaid source) = (source.lookup k.place).or (k.valueIn t) := by
  induction source generalizing t with
  | nil => rfl
  | cons x source ih =>
      obtain ⟨hleaf, k', hk'⟩ := h.head
      rw [overlaid_cons, ih h.tail, hk', valueIn_setAt t k' k hleaf, lookup_entry k.place x.1]
      by_cases hk : k = k'
      · have hlookup : source.lookup k.place = none := by rw [hk, ← hk', h.lookup_head]
        rw [if_pos hk, hlookup, hk', hk, if_pos rfl]
        rfl
      · have hplace : k.place ≠ x.1 := fun heq => hk (place_injective (heq.trans hk'))
        rw [if_neg hk, if_neg hplace]

/-- A section to which a source adds is a table, and so is one that was a table before. -/
theorem hasSection_overlaid {t : Tree} {b : Branch} (hb : b ≠ .faults)
    (hthere : HasSection b t ∨ ∃ k : Key, k.branch = b ∧ source.lookup k.place ≠ none) :
    HasSection b (t.overlaid source) := by
  induction source generalizing t with
  | nil => exact hthere.resolve_right fun ⟨k, _, hk⟩ => hk rfl
  | cons x source ih =>
      obtain ⟨hleaf, k', hk'⟩ := h.head
      rw [overlaid_cons, hk']
      refine ih h.tail ?_
      rcases hthere with hthere | ⟨k, hkb, hk⟩
      · exact Or.inl (hasSection_setAt hb hleaf (Or.inr hthere))
      · by_cases hplace : k.place = x.1
        · have hsame : k = k' := place_injective (hplace.trans hk')
          exact Or.inl (hasSection_setAt hb hleaf (Or.inl (hsame ▸ hkb)))
        · rw [lookup_entry, if_neg hplace] at hk
          exact Or.inr ⟨k, hkb, hk⟩

end SetsKeys

end FaultPoints.Settings
