import FaultPoints.Proofs.Settings.Keys

/-!
# Where the values of settings stand

The value of a key stands in a tree under the keys of its path.  As long as every section of a
tree is a table, the tree describes given settings iff for each key the value that stands there
does (`ofTree_iff_of_sections`), so that a tree may be studied one key at a time.  The tree in
which settings are written is such a tree, and so is what becomes of it when values are stored at
the places of keys.

## Main Definitions

* `Key.valueIn` — the value of a key in a tree
* `HasSection` — a section of a tree is a table
* `Key.place` — the path of a key in a source

## Main Statements

* `ofTree_iff_of_sections` — a tree with all its sections, key by key
* `written_laid` — written settings laid over nothing stay as they are
* `valueIn_setAt`, `hasSection_setAt` — a tree after a value is stored at the place of a key
-/

namespace FaultPoints.Settings

/-! ## Values in a tree -/

/-- The value of a key in a tree. -/
def Key.valueIn (k : Key) (t : Tree) : Option Tree :=
  match k.leaf with
  | some l => ((t.under k.branch.name).getD .absent).under l
  | none => t.under k.branch.name

/-- A section of a tree is a table. -/
def HasSection (b : Branch) (t : Tree) : Prop := ∃ es, t.under b.name = some (.table es)

theorem branch_ne_faults {k : Key} {l : String} (h : k.leaf = some l) : k.branch ≠ .faults := by
  cases k <;> cases h <;> decide

theorem eq_faults_of_leaf {k : Key} (h : k.leaf = none) : k = .faults := by
  cases k <;> first | rfl | cases h

theorem eq_faults_of_branch {k : Key} (h : k.branch = .faults) : k = .faults := by
  cases k <;> first | rfl | cases h

theorem exists_leaf {k : Key} (h : k.branch ≠ .faults) : ∃ l, k.leaf = some l :=
  Option.ne_none_iff_exists'.mp fun hleaf => h (by rw [eq_faults_of_leaf hleaf]; rfl)

theorem valueIn_of_section {k : Key} {l : String} (hleaf : k.leaf = some l) {t : Tree}
    {es : List (String × Tree)} (h : t.under k.branch.name = some (.table es)) :
    k.valueIn t = es.lookup l := by
  simp only [Key.valueIn, hleaf, h]
  rfl

/-- What stands for a key in a tree is read as it is, if its section is a table. -/
theorem sight_valueIn {es : List (String × Tree)} {s : Settings} (h : ofTree (.table es) = .ok s)
    (k : Key) (hsection : k.branch ≠ .faults → HasSection k.branch (.table es)) :
    k.sight (k.valueIn (.table es)) = .ok (k.get s) := by
  have hbranch := (ofTree_table_iff es s).mp h k.branch
  cases hleaf : k.leaf with
  | none =>
      obtain rfl := eq_faults_of_leaf hleaf
      exact hbranch
  | some l =>
      have hne := branch_ne_faults hleaf
      obtain ⟨inner, hinner⟩ := hsection hne
      have hlookup : es.lookup k.branch.name = some (.table inner) := hinner
      rw [hlookup] at hbranch
      rw [valueIn_of_section hleaf hinner]
      exact (convert_table_iff hne inner s).mp hbranch k rfl l hleaf

/-- **A tree with all its sections describes settings iff the value of each key does.** -/
theorem ofTree_iff_of_sections {es : List (String × Tree)}
    (hsections : ∀ b ≠ Branch.faults, HasSection b (.table es)) (s : Settings) :
    ofTree (.table es) = .ok s ↔ ∀ k : Key, k.sight (k.valueIn (.table es)) = .ok (k.get s) := by
  refine ⟨fun h k => sight_valueIn h k (hsections k.branch), fun h => ?_⟩
  refine (ofTree_table_iff es s).mpr fun b => ?_
  by_cases hb : b = .faults
  · subst hb
    exact h .faults
  · obtain ⟨inner, hinner⟩ := hsections b hb
    have hlookup : es.lookup b.name = some (.table inner) := hinner
    rw [hlookup]
    refine (convert_table_iff hb inner s).mpr fun k hk l hl => ?_
    subst hk
    rw [← valueIn_of_section hl hinner]
    exact h k

/-! ## Written settings as a layer -/

theorem isPlainKey_name (b : Branch) : IsPlainKey b.name := by
  unfold IsPlainKey
  cases b <;> decide

theorem exists_name_of_mem_written {s : Settings} {e : String × Tree}
    (he : e ∈ s.written.entries) : ∃ b : Branch, e.1 = b.name := by
  simp only [written, Tree.entries_table, List.mem_append, List.mem_cons, List.not_mem_nil,
    or_false] at he
  obtain (rfl | rfl | rfl | rfl) | h := he
  · exact ⟨.node, rfl⟩
  · exact ⟨.control, rfl⟩
  · exact ⟨.monitoring, rfl⟩
  · exact ⟨.heartbeat, rfl⟩
  · refine ⟨.faults, ?_⟩
    split at h
    · simp at h
    · rw [List.mem_singleton.mp h]
      rfl

/-- **Written settings laid over nothing stay as they are.** -/
theorem written_laid (s : Settings) : (Tree.table []).overlaid s.written.entries = s.written := by
  rw [Tree.overlaid_plain fun e he => by
    obtain ⟨b, hb⟩ := exists_name_of_mem_written he
    exact hb ▸ isPlainKey_name b]
  cases hempty : s.faults.isEmpty with
  | true =>
      simp only [written, hempty]
      rfl
  | false =>
      simp only [written, hempty]
      rfl

/-- The keys of a branch, in the order in which they are written. -/
def Branch.keys : Branch → List Key
  | node => [.nodeName, .logDir]
  | control => [.listens, .listenAddress]
  | monitoring => [.exposes, .metricsPort, .metricsIp]
  | heartbeat => [.beats, .interval, .beatPoint]
  | faults => [.faults]

theorem mem_keys_iff : ∀ (b : Branch) (k : Key), k ∈ b.keys ↔ k.branch = b := by decide

/-- The entries of a section of written settings. -/
def Branch.written (b : Branch) (s : Settings) : List (String × Tree) :=
  b.keys.map fun k => (k.leaf.getD "", k.written s)

theorem under_written (s : Settings) {b : Branch} (hb : b ≠ .faults) :
    s.written.under b.name = some (.table (b.written s)) := by
  cases b with
  | faults => exact absurd rfl hb
  | _ => rfl

theorem lookup_written (s : Settings) {k : Key} {l : String} (hl : k.leaf = some l) :
    (k.branch.written s).lookup l = some (k.written s) := by
  cases k <;> cases hl <;> rfl

/-- An empty list of faults leaves no trace in written settings. -/
theorem under_written_faults (s : Settings) :
    s.written.under Branch.faults.name =
      if s.faults.isEmpty then none else some (Key.faults.written s) := by
  cases hempty : s.faults.isEmpty <;>
    simp [written, hempty, Branch.name, Tree.under, lookup_entry, -List.isEmpty_iff,
      -List.isEmpty_eq_false_iff]

/-- The values of keys in written settings are read back. -/
theorem sight_valueIn_written {s : Settings} (h : s.control.address.Proper) (k : Key) :
    k.sight (k.valueIn s.written) = .ok (k.get s) := by
  cases hl : k.leaf with
  | some l =>
      rw [valueIn_of_section hl (under_written s (branch_ne_faults hl)), lookup_written s hl]
      exact convert_written h k
  | none =>
      obtain rfl := eq_faults_of_leaf hl
      have hunder : Key.faults.valueIn s.written = _ := under_written_faults s
      rw [hunder]
      cases hempty : s.faults.isEmpty with
      | true =>
          have hnil : [] = s.faults := (List.isEmpty_iff.mp hempty).symm
          exact congrArg Except.ok hnil
      | false => exact convert_written h .faults

/-! ## Storing values at the places of keys -/

/-- The path of a key in a source. -/
def Key.place (k : Key) : String := ".".intercalate k.path

theorem read_place (k : Key) :
    Path.read k.place = ⟨k.branch.name, k.leaf.toList.map .key⟩ := by
  cases k <;> rfl

theorem foldKey_leaf {k : Key} {l : String} (h : k.leaf = some l) : foldKey l = l := by
  cases k <;> cases h <;> rfl

theorem branch_name_injective : Function.Injective Branch.name := by
  intro b b' h
  cases b <;> cases b' <;> first | rfl | exact absurd h (by decide)

theorem eq_of_branch_of_leaf {k k' : Key} (hbranch : k.branch = k'.branch)
    (hleaf : k.leaf = k'.leaf) : k = k' := by
  cases k <;> cases k' <;>
    first | rfl | exact absurd hbranch (by decide) | exact absurd hleaf (by decide)

theorem under_setAt_place (t : Tree) (k : Key) {l : String} (hl : k.leaf = some l) (v : Tree)
    (κ : String) :
    (t.setAt (Path.read k.place) v).under κ =
      if κ = k.branch.name then some (((t.under k.branch.name).getD .absent).setKey l v)
      else t.under κ := by
  rw [read_place, hl]
  exact Tree.under_setAt_pair t k.branch.name l κ v

theorem under_setAt_faults (t : Tree) {v : Tree} (hv : v.IsLeaf) (κ : String) :
    (t.setAt (Path.read Key.faults.place) v).under κ =
      if κ = Branch.faults.name then some v else t.under κ := by
  have hfold : foldKey Branch.faults.name = Branch.faults.name := rfl
  have h := Tree.under_setAt_single t Branch.faults.name κ v
  rw [hfold, Tree.grown_of_isLeaf hv] at h
  simpa only [read_place, Key.branch, Key.leaf, Option.toList, List.map_nil, eq_comm] using h

/-- Outside the branch of a key nothing changes. -/
theorem under_setAt_of_ne (t : Tree) (k : Key) {v : Tree} (hv : v.IsLeaf) {κ : String}
    (hκ : κ ≠ k.branch.name) : (t.setAt (Path.read k.place) v).under κ = t.under κ := by
  cases hl : k.leaf with
  | none =>
      obtain rfl := eq_faults_of_leaf hl
      rw [under_setAt_faults t hv]
      exact if_neg hκ
  | some l => rw [under_setAt_place t k hl, if_neg hκ]

/-- **A value that is stored at the place of a key stands there, and the values of all other keys
stay.** -/
theorem valueIn_setAt (t : Tree) (k k' : Key) {v : Tree} (hv : v.IsLeaf) :
    k'.valueIn (t.setAt (Path.read k.place) v) = if k' = k then some v else k'.valueIn t := by
  by_cases hbranch : k'.branch = k.branch
  · cases hl : k.leaf with
    | none =>
        obtain rfl := eq_faults_of_leaf hl
        obtain rfl := eq_faults_of_branch hbranch
        have hunder := under_setAt_faults t hv Branch.faults.name
        rw [if_pos rfl] at hunder ⊢
        exact hunder
    | some l =>
        obtain ⟨l', hl'⟩ := exists_leaf (hbranch ▸ branch_ne_faults hl)
        simp only [Key.valueIn, hl', hbranch, under_setAt_place t k hl, if_pos, Option.getD_some,
          Tree.under_setKey, foldKey_leaf hl, Tree.grown_of_isLeaf hv]
        by_cases hkey : k' = k
        · subst hkey
          rw [if_pos rfl, if_pos (Option.some.inj (hl.symm.trans hl'))]
        · have hleaf : l ≠ l' := fun h => hkey (eq_of_branch_of_leaf hbranch (by rw [hl, hl', h]))
          rw [if_neg hleaf, if_neg hkey]
  · have hkey : k' ≠ k := fun h => hbranch (by rw [h])
    have hunder := under_setAt_of_ne t k hv (branch_name_injective.ne hbranch)
    simp only [Key.valueIn, hunder, if_neg hkey]

/-- A value stored at the place of a key makes a table of its section, and leaves those that are
there. -/
theorem hasSection_setAt {t : Tree} {k : Key} {b : Branch} (hb : b ≠ .faults) {v : Tree}
    (hv : v.IsLeaf) (h : k.branch = b ∨ HasSection b t) :
    HasSection b (t.setAt (Path.read k.place) v) := by
  unfold HasSection
  by_cases hbranch : b = k.branch
  · subst hbranch
    obtain ⟨l, hl⟩ := exists_leaf hb
    rw [under_setAt_place t k hl, if_pos rfl, Tree.setKey_eq]
    exact ⟨_, rfl⟩
  · rw [under_setAt_of_ne t k hv (branch_name_injective.ne hbranch)]
    exact h.resolve_left fun h => hbranch h.symm

end FaultPoints.Settings
