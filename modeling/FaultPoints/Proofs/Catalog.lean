import FaultPoints.Catalog
import Mathlib.Data.List.Nodup
import Mathlib.Order.RelClasses

/-!
# Catalogs in order

The operations on a catalog keep its entries in the order of their keys, so every key occurs once.
Looking up a key and walking through the entries then tell the same, and the entries come out in the
same order however they are enumerated before they are sorted.

## Main Definitions

* `Catalog.Ordered` — the entries are in strictly increasing order

## Main Statements

* `ordered_empty`, `ordered_insert`, `ordered_erase` — the operations keep the order
* `find?_isSome_iff`, `mem_entries_iff` — looking up and walking through agree
* `insert_of_find?` — inserting what is there changes nothing
* `size_insert_of_find?` — replacing what is there keeps the number of entries
* `eq_of_perm_of_pairwise` — an enumeration that is sorted is the catalog
-/

namespace FaultPoints.Catalog

variable {κ α : Type}

/-- The entries are in strictly increasing order of their keys. -/
def Ordered [LT κ] (c : Catalog κ α) : Prop := c.entries.Pairwise fun a b => a.1 < b.1

/-! ## Looking up -/

section Find

variable [DecidableEq κ]

/-- A catalog has something for its keys and for nothing else. -/
theorem find?_isSome_iff (c : Catalog κ α) (k : κ) : (c.find? k).isSome = true ↔ k ∈ c.keys := by
  obtain ⟨entries⟩ := c
  induction entries with
  | nil => simp [find?, findEntry, keys]
  | cons e rest ih =>
      by_cases hk : k = e.1
      · simp [find?, findEntry, keys, hk]
      · simpa [find?, findEntry, keys, hk] using ih

theorem find?_eq_none_of_not_mem (c : Catalog κ α) {k : κ} (h : k ∉ c.keys) :
    c.find? k = none := by
  cases hfind : c.find? k with
  | none => rfl
  | some a => exact absurd ((find?_isSome_iff c k).mp (by simp [hfind])) h

theorem mem_entries_of_find? {c : Catalog κ α} {k : κ} {a : α} (h : c.find? k = some a) :
    (k, a) ∈ c.entries := by
  obtain ⟨entries⟩ := c
  induction entries with
  | nil => cases h
  | cons e rest ih =>
      by_cases hk : k = e.1
      · obtain rfl : e.2 = a := by simpa [find?, findEntry, hk] using h
        simp [hk]
      · have hrest : find? ⟨rest⟩ k = some a := by simpa [find?, findEntry, hk] using h
        exact List.mem_cons_of_mem _ (ih hrest)

/-- In a catalog that is in order, an entry is what is found for its key. -/
theorem mem_entries_iff [LT κ] [Std.Irrefl (α := κ) (· < ·)] {c : Catalog κ α} (h : c.Ordered)
    (k : κ) (a : α) : (k, a) ∈ c.entries ↔ c.find? k = some a := by
  refine ⟨fun hmem => ?_, mem_entries_of_find?⟩
  obtain ⟨entries⟩ := c
  induction entries with
  | nil => cases hmem
  | cons e rest ih =>
      obtain ⟨hfirst, hrest⟩ := List.pairwise_cons.mp h
      rcases List.mem_cons.mp hmem with rfl | hmem
      · simp [find?, findEntry]
      · have hne : k ≠ e.1 := by
          rintro rfl
          exact Std.Irrefl.irrefl _ (hfirst (e.1, a) hmem)
        simpa [find?, findEntry, hne] using ih hrest hmem

end Find

/-! ## The operations -/

theorem ordered_empty [LT κ] : (empty : Catalog κ α).Ordered := List.Pairwise.nil

theorem mem_insertEntry [DecidableEq κ] [LT κ] [DecidableLT κ] {k : κ} {a : α} {e : κ × α} :
    ∀ {entries : List (κ × α)}, e ∈ insertEntry k a entries → e = (k, a) ∨ e ∈ entries
  | [], h => by simpa [insertEntry] using h
  | (k', a') :: rest, h => by
      rw [insertEntry] at h
      split at h
      · rcases List.mem_cons.mp h with rfl | h
        · exact Or.inl rfl
        · exact Or.inr (List.mem_cons_of_mem _ h)
      split at h
      · exact List.mem_cons.mp h
      · rcases List.mem_cons.mp h with rfl | h
        · exact Or.inr List.mem_cons_self
        · exact (mem_insertEntry h).imp_right (List.mem_cons_of_mem _)

theorem ordered_insert [DecidableEq κ] [LT κ] [DecidableLT κ] [IsStrictTotalOrder κ (· < ·)]
    {c : Catalog κ α} (h : c.Ordered) (k : κ) (a : α) : (c.insert k a).Ordered := by
  obtain ⟨entries⟩ := c
  change (insertEntry k a entries).Pairwise fun a b => a.1 < b.1
  induction entries with
  | nil => simp [insertEntry]
  | cons e rest ih =>
      obtain ⟨k', a'⟩ := e
      obtain ⟨hfirst, hrest⟩ := List.pairwise_cons.mp h
      rw [insertEntry]
      split
      · rename_i heq
        subst heq
        exact List.pairwise_cons.mpr ⟨hfirst, hrest⟩
      split
      · rename_i hlt
        refine List.pairwise_cons.mpr ⟨fun e he => ?_, h⟩
        rcases List.mem_cons.mp he with rfl | he
        · exact hlt
        · exact trans_of (· < ·) hlt (hfirst e he)
      · rename_i hne hnlt
        refine List.pairwise_cons.mpr ⟨fun e he => ?_, ih hrest⟩
        rcases mem_insertEntry he with rfl | he
        · rcases trichotomous_of (· < ·) k k' with hlt | heq | hgt
          · exact absurd hlt hnlt
          · exact absurd heq hne
          · exact hgt
        · exact hfirst e he

/-- Where there is something for a key already, an insertion takes its place. -/
theorem exists_insertEntry_eq [DecidableEq κ] [LT κ] [DecidableLT κ]
    [IsStrictTotalOrder κ (· < ·)] {c : Catalog κ α} (h : c.Ordered) {k : κ} {b : α}
    (hfind : c.find? k = some b) (a : α) :
    ∃ before after, c.entries = before ++ (k, b) :: after ∧
      insertEntry k a c.entries = before ++ (k, a) :: after := by
  obtain ⟨entries⟩ := c
  induction entries with
  | nil => cases hfind
  | cons e rest ih =>
      obtain ⟨k', b'⟩ := e
      obtain ⟨hfirst, hrest⟩ := List.pairwise_cons.mp h
      by_cases hk : k = k'
      · subst hk
        obtain rfl : b' = b := by simpa [find?, findEntry] using hfind
        exact ⟨[], rest, rfl, by rw [insertEntry, if_pos rfl]; rfl⟩
      · have hfind' : find? ⟨rest⟩ k = some b := by simpa [find?, findEntry, hk] using hfind
        -- The entry lies behind the first one, so that its key is the greater of the two.
        have hlt : k' < k := hfirst (k, b) (mem_entries_of_find? hfind')
        obtain ⟨before, after, hrest', hinsert⟩ := ih hrest hfind'
        refine ⟨(k', b') :: before, after, by rw [List.cons_append, ← hrest'], ?_⟩
        rw [insertEntry, if_neg hk, if_neg fun hgt => asymm_of (· < ·) hlt hgt, hinsert]
        rfl

/-- Inserting what is there already changes nothing. -/
theorem insert_of_find? [DecidableEq κ] [LT κ] [DecidableLT κ] [IsStrictTotalOrder κ (· < ·)]
    {c : Catalog κ α} (h : c.Ordered) {k : κ} {a : α} (hfind : c.find? k = some a) :
    c.insert k a = c := by
  obtain ⟨before, after, hentries, hinsert⟩ := exists_insertEntry_eq h hfind a
  exact congrArg Catalog.mk (hinsert.trans hentries.symm)

/-- Replacing what is there does not change how many entries there are. -/
theorem size_insert_of_find? [DecidableEq κ] [LT κ] [DecidableLT κ] [IsStrictTotalOrder κ (· < ·)]
    {c : Catalog κ α} (h : c.Ordered) {k : κ} {b : α} (hfind : c.find? k = some b) (a : α) :
    (c.insert k a).size = c.size := by
  obtain ⟨before, after, hentries, hinsert⟩ := exists_insertEntry_eq h hfind a
  rw [size, insert, hinsert, size, hentries, List.length_append, List.length_append,
    List.length_cons, List.length_cons]

theorem ordered_erase [DecidableEq κ] [LT κ] {c : Catalog κ α} (h : c.Ordered) (k : κ) :
    (c.erase k).Ordered := List.Pairwise.filter _ h

/-! ## Sorting -/

/-- A sorted enumeration of a list in strictly increasing order is the list. -/
theorem eq_of_perm_of_pairwise {β : Type} [LT κ] [IsStrictTotalOrder κ (· < ·)] (key : β → κ)
    {xs ys : List β} (hperm : xs.Perm ys) (hxs : xs.Pairwise fun a b => ¬ key b < key a)
    (hys : ys.Pairwise fun a b => key a < key b) : xs = ys := by
  have hnodup : (ys.map key).Nodup :=
    List.Pairwise.map key (fun a b hlt => ne_of_irrefl (r := (· < ·)) hlt) hys
  have hasymm : ys.Pairwise fun a b => ¬ key b < key a :=
    hys.imp fun hlt hgt => asymm_of (· < ·) hlt hgt
  refine List.Perm.eq_of_pairwise (fun a b ha hb hab hba => ?_) hxs hasymm hperm
  apply List.inj_on_of_nodup_map hnodup (hperm.mem_iff.mp ha) hb
  rcases trichotomous_of (· < ·) (key a) (key b) with hlt | heq | hgt
  · exact absurd hlt hba
  · exact heq
  · exact absurd hgt hab

end FaultPoints.Catalog
