import FaultPoints.Settings.Tree
import Mathlib.Tactic

/-!
# Laying sources over a tree, key by key

A source is laid over a tree entry by entry, and each entry changes what stands under one key.  So
what stands under a key in the end can be told from what stood there before and from the entries
that have this key, without regard to the rest of the tree (`under_mergeKeys`).  All that is
proved about layers goes through these equations; none of it opens `Tree.setKey` again.

## Main Definitions

* `Tree.under` — what stands under a key
* `Tree.grown` — what a value makes of what stood in its place
* `Tree.gathered` — what the entries of a source make of what stood under a key
* `Tree.IsLeaf` — a value without keys of its own
* `IsPlainKey` — a key that writes no path

## Main Statements

* `under_mergeKeys`, `under_setAt_pair` — a tree after a source or one value is laid over it
* `gathered_leaves`, `gathered_tables` — the last value under a key counts
* `overlaid_plain` — a source that writes no path is merged
-/

namespace FaultPoints.Settings

theorem lookup_entry (k k' : String) (t : Tree) (es : List (String × Tree)) :
    ((k', t) :: es).lookup k = if k = k' then some t else es.lookup k := by
  by_cases h : k = k'
  · simp [h]
  · have hne : (k == k') = false := by simpa using h
    simp [List.lookup_cons, hne, h]

theorem lookup_put (k k' : String) (t : Tree) (es : List (String × Tree)) :
    (put k t es).lookup k' = if k' = k then some t else es.lookup k' := by
  induction es with
  | nil => exact lookup_entry k' k t []
  | cons e rest ih =>
      obtain ⟨x, u⟩ := e
      by_cases hx : k = x
      · subst hx
        by_cases h : k' = k <;> simp [put, lookup_entry, h]
      · by_cases h : k' = x
        · subst h
          simp [put, hx, Ne.symm hx]
        · simp [put, lookup_entry, hx, h, ih]

namespace Tree

/-- What stands under a key of a tree. -/
def under (t : Tree) (k : String) : Option Tree := t.entries.lookup k

@[simp] theorem entries_table (es : List (String × Tree)) : (table es).entries = es := rfl

/-- A value without keys of its own. -/
def IsLeaf : Tree → Prop
  | table _ => False
  | _ => True

theorem IsLeaf.entries_eq {t : Tree} (h : t.IsLeaf) : t.entries = [] := by
  cases t with
  | table es => exact h.elim
  | _ => rfl

/-- What a value makes of what stood in its place: a table is merged into it, and any other value
replaces it. -/
def grown (old : Option Tree) : Tree → Tree
  | table incoming => mergeKeys (old.getD (table [])) incoming
  | v => v

theorem grown_of_isLeaf {v : Tree} (h : v.IsLeaf) (old : Option Tree) : grown old v = v := by
  cases v with
  | table es => exact h.elim
  | _ => rfl

/-! ## Merging -/

theorem setKey_eq (root : Tree) (k : String) (v : Tree) :
    root.setKey k v =
      table (put (foldKey k) (grown (root.under (foldKey k)) v) root.entries) := by
  cases v <;> simp [setKey, grown, under]

theorem under_setKey (root : Tree) (k κ : String) (v : Tree) :
    (root.setKey k v).under κ =
      if foldKey k = κ then some (grown (root.under κ) v) else root.under κ := by
  rw [setKey_eq, under, entries, lookup_put]
  by_cases h : κ = foldKey k
  · subst h
    simp
  · simp [h, Ne.symm h, under]

/-- Only the entries of a tree matter for what is merged into it. -/
theorem setKey_congr {t t' : Tree} (h : t.entries = t'.entries) (k : String) (v : Tree) :
    t.setKey k v = t'.setKey k v := by
  simp only [setKey_eq, under, h]

@[simp] theorem mergeKeys_nil (t : Tree) : t.mergeKeys [] = t := by simp [mergeKeys]

theorem mergeKeys_cons (t : Tree) (e : String × Tree) (es : List (String × Tree)) :
    t.mergeKeys (e :: es) = (t.setKey e.1 e.2).mergeKeys es := by
  obtain ⟨k, v⟩ := e
  simp [mergeKeys]

/-- What the entries of a source make of what stood under a key. -/
def gathered (κ : String) (old : Option Tree) (es : List (String × Tree)) : Option Tree :=
  es.foldl (fun old e => if foldKey e.1 = κ then some (grown old e.2) else old) old

theorem gathered_cons (κ : String) (old : Option Tree) (e : String × Tree)
    (es : List (String × Tree)) :
    gathered κ old (e :: es) =
      gathered κ (if foldKey e.1 = κ then some (grown old e.2) else old) es := rfl

/-- **What stands under a key after a source is merged into a tree.** -/
theorem under_mergeKeys (t : Tree) (es : List (String × Tree)) (κ : String) :
    (t.mergeKeys es).under κ = gathered κ (t.under κ) es := by
  induction es generalizing t with
  | nil => simp [gathered]
  | cons e es ih => rw [mergeKeys_cons, ih, under_setKey, gathered_cons]

/-- A table stays a table. -/
theorem exists_mergeKeys_eq (es es' : List (String × Tree)) :
    ∃ es'', (table es).mergeKeys es' = table es'' := by
  induction es' generalizing es with
  | nil => exact ⟨es, mergeKeys_nil _⟩
  | cons e es' ih =>
      rw [mergeKeys_cons, setKey_eq]
      exact ih _

/-- Into two trees without keys the same value is merged with the same result, unless it leaves
both of them as they are. -/
theorem grown_some_or {t t' : Tree} (ht : t.entries = []) (ht' : t'.entries = []) (v : Tree) :
    grown (some t) v = grown (some t') v ∨
      (grown (some t) v = t ∧ grown (some t') v = t') := by
  cases v with
  | table es =>
      cases es with
      | nil => exact Or.inr ⟨by simp [grown], by simp [grown]⟩
      | cons e es =>
          refine Or.inl ?_
          simp only [grown, Option.getD_some, mergeKeys_cons]
          rw [setKey_congr (ht.trans ht'.symm)]
  | _ => exact Or.inl rfl

/-! ## Leaves in a source -/

/-- The values that a list of entries has under a path, whatever the case of its letters. -/
def valuesAt : List String → List (String × Tree) → List Tree
  | [], _ => []
  | [k], es => es.filterMap fun e => if foldKey e.1 = k then some e.2 else none
  | k :: ks, es => es.flatMap fun e => if foldKey e.1 = k then valuesAt ks e.2.entries else []

/-- Where all values under a key are leaves, the last of them replaces what stood there. -/
theorem gathered_leaves {κ : String} {es : List (String × Tree)}
    (h : ∀ e ∈ es, foldKey e.1 = κ → e.2.IsLeaf) (old : Option Tree) :
    gathered κ old es = (valuesAt [κ] es).getLast?.or old := by
  induction es generalizing old with
  | nil => rfl
  | cons e es ih =>
      rw [gathered_cons, ih fun e' he' => h e' (List.mem_cons_of_mem _ he')]
      by_cases hκ : foldKey e.1 = κ
      · have hcons : valuesAt [κ] (e :: es) = e.2 :: valuesAt [κ] es := by simp [valuesAt, hκ]
        rw [if_pos hκ, grown_of_isLeaf (h e List.mem_cons_self hκ), hcons, List.getLast?_cons]
        cases (valuesAt [κ] es).getLast? <;> rfl
      · have hcons : valuesAt [κ] (e :: es) = valuesAt [κ] es := by simp [valuesAt, hκ]
        rw [if_neg hκ, hcons]

/-- The last value under a key is what stands there in the end, if it is a leaf. -/
theorem gathered_of_getLast? {κ : String} {es : List (String × Tree)} {v : Tree} (hv : v.IsLeaf)
    (h : (valuesAt [κ] es).getLast? = some v) (old : Option Tree) :
    gathered κ old es = some v := by
  induction es using List.reverseRecOn with
  | nil => cases h
  | append_singleton es e ih =>
      rw [gathered, List.foldl_append, List.foldl_cons, List.foldl_nil]
      rw [valuesAt, List.filterMap_append] at h
      by_cases hκ : foldKey e.1 = κ
      · have hlast : e.2 = v := by simpa [hκ] using h
        rw [if_pos hκ, hlast, grown_of_isLeaf hv]
      · rw [if_neg hκ]
        exact ih (by simpa [hκ, valuesAt] using h)

/-- The same one level below: where all values under a key are tables of leaves, the table under
that key stays one, and in it the last value under a second key replaces what stood there. -/
theorem gathered_tables {κ : String} {es : List (String × Tree)}
    (h : ∀ e ∈ es, foldKey e.1 = κ → ∃ inner, e.2 = table inner ∧ ∀ e' ∈ inner, e'.2.IsLeaf)
    (old : List (String × Tree)) :
    ∃ new, gathered κ (some (table old)) es = some (table new) ∧
      ∀ k, new.lookup k = (valuesAt [κ, k] es).getLast?.or (old.lookup k) := by
  induction es generalizing old with
  | nil => exact ⟨old, rfl, fun k => rfl⟩
  | cons e es ih =>
      have hrest := fun e' he' => h e' (List.mem_cons_of_mem _ he')
      by_cases hκ : foldKey e.1 = κ
      · obtain ⟨inner, hinner, hleaves⟩ := h e List.mem_cons_self hκ
        obtain ⟨merged, hmerged⟩ := exists_mergeKeys_eq old inner
        obtain ⟨new, hnew, hlookup⟩ := ih hrest merged
        refine ⟨new, ?_, fun k => ?_⟩
        · rw [gathered_cons, if_pos hκ, hinner, grown, Option.getD_some, hmerged, hnew]
        · have hunder := under_mergeKeys (table old) inner k
          rw [hmerged, gathered_leaves fun e' he' _ => hleaves e' he'] at hunder
          have hcons : valuesAt [κ, k] (e :: es) = valuesAt [k] inner ++ valuesAt [κ, k] es := by
            simp [valuesAt, hκ, hinner, entries]
          rw [hlookup k, hcons, List.getLast?_append, Option.or_assoc]
          exact congrArg _ hunder
      · obtain ⟨new, hnew, hlookup⟩ := ih hrest old
        refine ⟨new, ?_, fun k => ?_⟩
        · rw [gathered_cons, if_neg hκ, hnew]
        · have hcons : valuesAt [κ, k] (e :: es) = valuesAt [κ, k] es := by simp [valuesAt, hκ]
          rw [hlookup k, hcons]

end Tree

/-! ## Paths -/

/-- A key of a source that writes no path: it has neither a full stop nor a bracket. -/
def IsPlainKey (k : String) : Prop := '.' ∉ k.toList ∧ '[' ∉ k.toList

instance : DecidablePred IsPlainKey := fun k =>
  inferInstanceAs (Decidable ('.' ∉ k.toList ∧ '[' ∉ k.toList))

theorem read_of_isPlainKey {k : String} (h : IsPlainKey k) : Path.read k = ⟨k, []⟩ := by
  have hsplit := List.takeWhile_append_dropWhile (p := isKeyCharacter) (l := k.toList)
  simp only [Path.read]
  split
  · rename_i steps hsteps
    split at hsteps
    · cases hsteps
    · cases hrest : k.toList.dropWhile isKeyCharacter with
      | nil =>
          rw [hrest] at hsteps hsplit
          rw [List.append_nil] at hsplit
          rw [hsplit, String.ofList_toList]
          have hnil : steps = [] := by simpa [readSteps] using hsteps.symm
          rw [hnil]
      | cons c rest =>
          -- A character that no key has stops the reader, unless it is one of two.
          have hmem : c ∈ k.toList := by
            rw [← hsplit, hrest]
            simp
          have hdot : c ≠ '.' := fun hc => h.1 (hc ▸ hmem)
          have hbracket : c ≠ '[' := fun hc => h.2 (hc ▸ hmem)
          rw [hrest] at hsteps
          simp [readSteps, hdot, hbracket] at hsteps
  · rfl

namespace Tree

/-- A source none of whose keys writes a path is merged into a tree. -/
theorem overlaid_plain {source : List (String × Tree)} (h : ∀ e ∈ source, IsPlainKey e.1)
    (root : Tree) : root.overlaid source = root.mergeKeys source := by
  induction source generalizing root with
  | nil => simp [overlaid]
  | cons e rest ih =>
      have hset : root.setAt (Path.read e.1) e.2 = root.setKey e.1 e.2 := by
        rw [read_of_isPlainKey (h e List.mem_cons_self), setAt, setSteps]
        exact setKey_congr (entries_table root.entries) e.1 e.2
      have hcons : root.overlaid (e :: rest) =
          (root.setAt (Path.read e.1) e.2).overlaid rest := rfl
      rw [hcons, hset, ih (fun e' he' => h e' (List.mem_cons_of_mem _ he')), mergeKeys_cons]

/-- A value at a path of two keys is stored in the table under the first of them. -/
theorem under_setAt_pair (root : Tree) (κ k κ' : String) (v : Tree) :
    (root.setAt ⟨κ, [.key k]⟩ v).under κ' =
      if κ' = κ then some (((root.under κ).getD absent).setKey k v) else root.under κ' := by
  have hsame : ∀ t : Tree, (table t.entries).setKey k v = t.setKey k v := fun t =>
    setKey_congr (entries_table t.entries) k v
  simp only [setAt, setSteps, under, entries_table, lookup_put, hsame]

/-- A value at a path of one key. -/
theorem under_setAt_single (root : Tree) (κ κ' : String) (v : Tree) :
    (root.setAt ⟨κ, []⟩ v).under κ' =
      if foldKey κ = κ' then some (grown (root.under κ') v) else root.under κ' := by
  rw [setAt, setSteps, setKey_congr (entries_table root.entries), under_setKey]

/-- Storing a value makes a table of a tree. -/
theorem exists_setAt_eq (root : Tree) (p : Path) (v : Tree) :
    ∃ es, root.setAt p v = table es := by
  obtain ⟨κ, steps⟩ := p
  cases steps with
  | nil => exact ⟨_, by rw [setAt, setSteps, setKey_eq]⟩
  | cons step steps => exact ⟨_, by rw [setAt, setSteps]; simp⟩

theorem exists_overlaid_eq (es : List (String × Tree)) (source : List (String × Tree)) :
    ∃ es', (table es).overlaid source = table es' := by
  induction source generalizing es with
  | nil => exact ⟨es, rfl⟩
  | cons e rest ih =>
      obtain ⟨es', hes'⟩ := exists_setAt_eq (table es) (Path.read e.1) e.2
      have hcons : (table es).overlaid (e :: rest) =
          ((table es).setAt (Path.read e.1) e.2).overlaid rest := rfl
      rw [hcons, hes']
      exact ih es'

end Tree

end FaultPoints.Settings
