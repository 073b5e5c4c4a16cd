/-!
# Catalogs: entries in the order of their keys

Every listing of the library is ordered by key, so entries are kept in that order from the
start. A catalog is read through `find?`; its listings read the entries as they stand.

## Main Definitions

* `Catalog` — entries with keys
* `Catalog.insert`, `Catalog.erase`, `Catalog.find?` — the operations on one key
* `Catalog.keys`, `Catalog.size` — the listings

## Main Statements

* `find?_insert`, `find?_erase`, `find?_empty` — each operation as `find?` sees it
-/

namespace FaultPoints

/-- Entries with keys, in the order of the keys. -/
structure Catalog (κ α : Type) where
  /-- The entries. -/
  entries : List (κ × α)
  deriving DecidableEq

namespace Catalog

variable {κ α : Type} [DecidableEq κ] [LT κ] [DecidableLT κ]

/-- The catalog without entries. -/
def empty : Catalog κ α := ⟨[]⟩

/-- An entry put in its place; one that has the same key is replaced. -/
def insertEntry (k : κ) (a : α) : List (κ × α) → List (κ × α)
  | [] => [(k, a)]
  | (k', a') :: rest =>
    if k = k' then (k, a) :: rest
    else if k < k' then (k, a) :: (k', a') :: rest
    else (k', a') :: insertEntry k a rest

/-- The first entry with a key. -/
def findEntry (k : κ) : List (κ × α) → Option α
  | [] => none
  | (k', a) :: rest => if k = k' then some a else findEntry k rest

/-- The catalog with an entry added or replaced. -/
def insert (c : Catalog κ α) (k : κ) (a : α) : Catalog κ α := ⟨insertEntry k a c.entries⟩

/-- The catalog without the entry of a key. -/
def erase (c : Catalog κ α) (k : κ) : Catalog κ α := ⟨c.entries.filter fun e => e.1 ≠ k⟩

/-- What is stored for a key. -/
def find? (c : Catalog κ α) (k : κ) : Option α := findEntry k c.entries

/-- Whether something is stored for a key. -/
def contains (c : Catalog κ α) (k : κ) : Bool := (c.find? k).isSome

/-- The keys in order. -/
def keys (c : Catalog κ α) : List κ := c.entries.map (·.1)

/-- How many entries there are. -/
def size (c : Catalog κ α) : Nat := c.entries.length

omit [LT κ] [DecidableLT κ] in
@[simp] theorem find?_empty (k : κ) : (empty : Catalog κ α).find? k = none := rfl

/-- What a catalog stores after an insertion. -/
theorem find?_insert (c : Catalog κ α) (k k' : κ) (a : α) :
    (c.insert k a).find? k' = if k' = k then some a else c.find? k' := by
  obtain ⟨es⟩ := c
  simp only [find?, insert]
  induction es with
  | nil => simp [insertEntry, findEntry]
  | cons e rest ih =>
    obtain ⟨x, b⟩ := e
    simp only [insertEntry]
    split
    · rename_i h
      subst h
      by_cases h' : k' = k <;> simp [findEntry, h']
    · rename_i hne
      split
      · by_cases h' : k' = k <;> simp [findEntry, h']
      · by_cases h' : k' = k
        · subst h'
          simp only [findEntry, hne, ↓reduceIte]
          simpa using ih
        · simp only [findEntry, h', ↓reduceIte] at ih ⊢
          split <;> simp_all

omit [LT κ] [DecidableLT κ] in
/-- What a catalog stores after a removal. -/
theorem find?_erase (c : Catalog κ α) (k k' : κ) :
    (c.erase k).find? k' = if k' = k then none else c.find? k' := by
  obtain ⟨es⟩ := c
  simp only [find?, erase]
  induction es with
  | nil => simp [findEntry]
  | cons e rest ih =>
    obtain ⟨x, b⟩ := e
    by_cases hx : x = k
    · subst hx
      by_cases h' : k' = x <;> simp_all [findEntry]
    · by_cases h' : k' = k
      · subst h'
        simp_all [findEntry, Ne.symm hx]
      · simp_all [findEntry]

end Catalog

end FaultPoints
