import FaultPoints.Proofs.Settings.Layers

/-!
# The file of the start and a further file

Settings can come to a file in two ways: it is named for the start, or it is laid over what was
loaded without it.  The second way reads the environment twice and writes settings into a tree in
between.  Still both ways end with the same settings, and laying the file over these once more
changes nothing, as long as the settings can be written at all.

The trees of two such runs are followed side by side.  They start out as the written forms of two
settings, and the file is an arbitrary document, so it may put anything in place of a section.  But
whatever it puts somewhere it puts there in both trees.  So at any time a value is the same in
both, or it is still as it was written (`Abreast`).  In the end only the keys for which neither
the file nor the environment has a value can differ, and for these the second settings are known
to have what was read from the first tree (`ofTree_transfer`).

## Main Definitions

* `Unwritten`, `SectionAbreast`, `FaultsAbreast`, `Abreast` — trees that differ in written values
  only

## Main Statements

* `ofTree_transfer` — settings that are read from one tree are read from another
* `reload_agrees` — both ways to a file agree, and the file changes nothing a second time
-/

namespace FaultPoints.Settings

/-! ## Trees that differ in written values only -/

/-- The same value, or one of two that were there before. -/
def Unwritten (u u' : Tree) (v v' : Option Tree) : Prop := v = v' ∨ (v = some u ∧ v' = some u')

theorem Unwritten.grown {u u' : Tree} (hu : u.entries = []) (hu' : u'.entries = []) (t : Tree)
    {v v' : Option Tree} (h : Unwritten u u' v v') :
    Unwritten u u' (some (Tree.grown v t)) (some (Tree.grown v' t)) := by
  rcases h with rfl | ⟨rfl, rfl⟩
  · exact Or.inl rfl
  · rcases Tree.grown_some_or hu hu' t with hsame | ⟨hstays, hstays'⟩
    · exact Or.inl (congrArg some hsame)
    · exact Or.inr ⟨congrArg some hstays, congrArg some hstays'⟩

/-- A relation between two values that each value in their place keeps is kept by a document. -/
theorem gathered_induction {P : Option Tree → Option Tree → Prop}
    (hgrown : ∀ (t : Tree) {v v' : Option Tree}, P v v' →
      P (some (Tree.grown v t)) (some (Tree.grown v' t)))
    (κ : String) (doc : List (String × Tree)) {v v' : Option Tree} (h : P v v') :
    P (Tree.gathered κ v doc) (Tree.gathered κ v' doc) := by
  induction doc generalizing v v' with
  | nil => exact h
  | cons e doc ih =>
      rw [Tree.gathered_cons, Tree.gathered_cons]
      refine ih ?_
      split
      · exact hgrown e.2 h
      · exact h

/-- Merging a document puts the same in place of two values without keys, or leaves both. -/
theorem Unwritten.gathered {u u' : Tree} (hu : u.entries = []) (hu' : u'.entries = [])
    (κ : String) (doc : List (String × Tree)) {v v' : Option Tree} (h : Unwritten u u' v v') :
    Unwritten u u' (Tree.gathered κ v doc) (Tree.gathered κ v' doc) :=
  gathered_induction (fun t _ _ hold => hold.grown hu hu' t) κ doc h

section Abreast

variable (base base' : Settings)

/-- The same section, or two tables that differ only in values as they were written. -/
def SectionAbreast (b : Branch) (v v' : Option Tree) : Prop :=
  v = v' ∨ ∃ es es', v = some (.table es) ∧ v' = some (.table es') ∧
    ∀ l, es.lookup l = es'.lookup l ∨ ∃ k : Key, k.branch = b ∧ k.leaf = some l ∧
      Unwritten (k.written base) (k.written base') (es.lookup l) (es'.lookup l)

/-- The same faults, or those of the second settings beside none.  A table in their place is never
read. -/
def FaultsAbreast (v v' : Option Tree) : Prop :=
  v = v' ∨ (v = none ∧ v' = some (Key.faults.written base')) ∨ ∃ es, v = some (.table es)

/-- Two trees that differ only in values as they were written for two settings. -/
structure Abreast (t t' : Tree) : Prop where
  /-- The sections. -/
  sections : ∀ b ≠ Branch.faults,
    SectionAbreast base base' b (t.under b.name) (t'.under b.name)
  /-- The faults. -/
  faults : FaultsAbreast base' (t.under Branch.faults.name) (t'.under Branch.faults.name)

variable {base base'}

/-- The written values of keys differ in the places of these keys only. -/
theorem lookup_written_abreast {ks : List Key} (hks : ∀ k ∈ ks, k.leaf ≠ none) (l : String) :
    (ks.map fun k => (k.leaf.getD "", k.written base)).lookup l =
        (ks.map fun k => (k.leaf.getD "", k.written base')).lookup l ∨
      ∃ k ∈ ks, k.leaf = some l ∧
        Unwritten (k.written base) (k.written base')
          ((ks.map fun k => (k.leaf.getD "", k.written base)).lookup l)
          ((ks.map fun k => (k.leaf.getD "", k.written base')).lookup l) := by
  induction ks with
  | nil => exact Or.inl rfl
  | cons k ks ih =>
      obtain ⟨l', hl'⟩ := Option.ne_none_iff_exists'.mp (hks k List.mem_cons_self)
      rw [List.map_cons, List.map_cons, lookup_entry, lookup_entry, hl', Option.getD_some]
      by_cases hl : l = l'
      · rw [if_pos hl, if_pos hl]
        exact Or.inr ⟨k, List.mem_cons_self, hl ▸ hl', Or.inr ⟨rfl, rfl⟩⟩
      · rw [if_neg hl, if_neg hl]
        refine (ih fun k hk => hks k (List.mem_cons_of_mem _ hk)).imp_right ?_
        rintro ⟨k', hk', hold⟩
        exact ⟨k', List.mem_cons_of_mem _ hk', hold⟩

theorem abreast_written (hnone : base.faults = []) :
    Abreast base base' base.written base'.written where
  sections b hb := by
    refine Or.inr ⟨_, _, under_written base hb, under_written base' hb, fun l => ?_⟩
    have hleaves : ∀ k ∈ b.keys, k.leaf ≠ none := fun k hk hleaf => hb <| by
      rw [← (mem_keys_iff b k).mp hk, eq_faults_of_leaf hleaf]
      rfl
    refine (lookup_written_abreast hleaves l).imp_right ?_
    rintro ⟨k, hk, hold⟩
    exact ⟨k, (mem_keys_iff b k).mp hk, hold⟩
  faults := by
    rw [under_written_faults, under_written_faults, hnone]
    cases base'.faults.isEmpty with
    | true => exact Or.inl rfl
    | false => exact Or.inr (Or.inl ⟨rfl, rfl⟩)

/-! ## A document over both trees -/

theorem SectionAbreast.grown {b : Branch} {v v' : Option Tree} (t : Tree)
    (h : SectionAbreast base base' b v v') :
    SectionAbreast base base' b (some (Tree.grown v t)) (some (Tree.grown v' t)) := by
  rcases h with rfl | ⟨es, es', rfl, rfl, hlookup⟩
  · exact Or.inl rfl
  · cases t with
    | table inner =>
        obtain ⟨new, hnew⟩ := Tree.exists_mergeKeys_eq es inner
        obtain ⟨new', hnew'⟩ := Tree.exists_mergeKeys_eq es' inner
        have hgathered : ∀ l, new.lookup l = Tree.gathered l (es.lookup l) inner := fun l => by
          have h := Tree.under_mergeKeys (.table es) inner l
          rwa [hnew] at h
        have hgathered' : ∀ l, new'.lookup l = Tree.gathered l (es'.lookup l) inner := fun l => by
          have h := Tree.under_mergeKeys (.table es') inner l
          rwa [hnew'] at h
        refine Or.inr ⟨new, new', congrArg some hnew, congrArg some hnew', fun l => ?_⟩
        rw [hgathered, hgathered']
        rcases hlookup l with hsame | ⟨k, hb, hl, hold⟩
        · exact Or.inl (by rw [hsame])
        · exact Or.inr ⟨k, hb, hl, hold.gathered (isLeaf_written base k).entries_eq
            (isLeaf_written base' k).entries_eq l inner⟩
    | _ => exact Or.inl rfl

theorem FaultsAbreast.grown {v v' : Option Tree} (t : Tree) (h : FaultsAbreast base' v v') :
    FaultsAbreast base' (some (Tree.grown v t)) (some (Tree.grown v' t)) := by
  cases t with
  | table inner =>
      rcases h with rfl | ⟨rfl, rfl⟩ | ⟨es, rfl⟩
      · exact Or.inl rfl
      · obtain ⟨new, hnew⟩ := Tree.exists_mergeKeys_eq [] inner
        exact Or.inr (Or.inr ⟨new, congrArg some hnew⟩)
      · obtain ⟨new, hnew⟩ := Tree.exists_mergeKeys_eq es inner
        exact Or.inr (Or.inr ⟨new, congrArg some hnew⟩)
  | _ => exact Or.inl rfl

/-- Trees that differ in written values only still do under a document. -/
theorem Abreast.mergeKeys {t t' : Tree} (h : Abreast base base' t t')
    (doc : List (String × Tree)) :
    Abreast base base' (t.mergeKeys doc) (t'.mergeKeys doc) where
  sections b hb := by
    rw [Tree.under_mergeKeys, Tree.under_mergeKeys]
    exact gathered_induction (fun u _ _ hold => hold.grown u) b.name doc (h.sections b hb)
  faults := by
    rw [Tree.under_mergeKeys, Tree.under_mergeKeys]
    exact gathered_induction (fun u _ _ hold => hold.grown u) _ doc h.faults

/-! ## The environment over both trees -/

theorem Abreast.setAt {t t' : Tree} (h : Abreast base base' t t') (k : Key) {v : Tree}
    (hv : v.IsLeaf) :
    Abreast base base' (t.setAt (Path.read k.place) v) (t'.setAt (Path.read k.place) v) := by
  refine ⟨fun b hb => ?_, ?_⟩
  · by_cases hbranch : b = k.branch
    · subst hbranch
      obtain ⟨l, hl⟩ := exists_leaf hb
      rw [under_setAt_place t k hl, under_setAt_place t' k hl, if_pos rfl, if_pos rfl]
      rcases h.sections k.branch hb with hsame | ⟨es, es', hes, hes', hlookup⟩
      · exact Or.inl (by rw [hsame])
      · rw [hes, hes', Option.getD_some, Option.getD_some, Tree.setKey_eq, Tree.setKey_eq,
          Tree.grown_of_isLeaf hv, Tree.grown_of_isLeaf hv]
        refine Or.inr ⟨_, _, rfl, rfl, fun l' => ?_⟩
        rw [lookup_put, lookup_put]
        split
        · exact Or.inl rfl
        · exact hlookup l'
    · have hname := branch_name_injective.ne hbranch
      rw [under_setAt_of_ne t k hv hname, under_setAt_of_ne t' k hv hname]
      exact h.sections b hb
  · by_cases hbranch : k.branch = .faults
    · obtain rfl := eq_faults_of_branch hbranch
      rw [under_setAt_faults t hv, under_setAt_faults t' hv, if_pos rfl, if_pos rfl]
      exact Or.inl rfl
    · have hname := branch_name_injective.ne (Ne.symm hbranch)
      rw [under_setAt_of_ne t k hv hname, under_setAt_of_ne t' k hv hname]
      exact h.faults

/-- Trees that differ in written values only still do under an environment. -/
theorem Abreast.overlaid {t t' : Tree} (h : Abreast base base' t t')
    {source : List (String × Tree)} (hsource : SetsKeys source) :
    Abreast base base' (t.overlaid source) (t'.overlaid source) := by
  induction source generalizing t t' with
  | nil => exact h
  | cons x source ih =>
      obtain ⟨hleaf, k, hk⟩ := hsource.head
      rw [overlaid_cons, overlaid_cons, hk]
      exact ih (h.setAt k hleaf) hsource.tail

end Abreast

/-! ## Reading both trees -/

section Transfer

variable {base base' r : Settings} (hbase' : base'.control.address.Proper)

include hbase'

/-- A value as it was written for the second settings is read like that for the first, if the
second settings have what was read. -/
theorem sight_of_unwritten (hbase : base.control.address.Proper) {k : Key} {v v' : Option Tree}
    (h : Unwritten (k.written base) (k.written base') v v')
    (hsight : k.sight v = .ok (k.get r)) (hkey : k.get r = k.get base → k.get base' = k.get r) :
    k.sight v' = .ok (k.get r) := by
  rcases h with rfl | ⟨rfl, rfl⟩
  · exact hsight
  · have hread : k.get base = k.get r :=
      Except.ok.inj ((convert_written hbase k).symm.trans hsight)
    exact (convert_written hbase' k).trans (congrArg _ (hkey hread.symm))

/-- The same for the faults. -/
theorem sight_of_faultsAbreast (hnone : base.faults = []) {v v' : Option Tree}
    (h : FaultsAbreast base' v v') (hsight : Branch.faults.sight v = .ok (Branch.faults.get r))
    (hkey : v = none → r.faults = base.faults → base'.faults = r.faults) :
    Branch.faults.sight v' = .ok (Branch.faults.get r) := by
  rcases h with rfl | ⟨rfl, rfl⟩ | ⟨es, rfl⟩
  · exact hsight
  · have hread : r.faults = base.faults := (Except.ok.inj hsight).symm.trans hnone.symm
    exact (convert_written hbase' .faults).trans (congrArg Except.ok (hkey rfl hread))
  · cases hsight

/-- **Settings that are read from one tree are read from another.**  The trees are made of two
settings, a document and an environment.  It is enough that the second settings have, for each key
that the environment does not set and that was read as it was in the first settings, what was
read. -/
theorem ofTree_transfer (hbase : base.control.address.Proper) (hnone : base.faults = [])
    {doc source : List (String × Tree)} (hdoc : ∀ x ∈ doc, IsPlainKey x.1)
    (hsource : SetsKeys source)
    (hkeys : ∀ k : Key, source.lookup k.place = none → k.get r = k.get base →
      k.get base' = k.get r)
    (h : ofTree ((base.written.overlaid doc).overlaid source) = .ok r) :
    ofTree ((base'.written.overlaid doc).overlaid source) = .ok r := by
  rw [Tree.overlaid_plain hdoc] at h ⊢
  have hwritten : Abreast base base' base.written base'.written := abreast_written hnone
  have habreast := (hwritten.mergeKeys doc).overlaid hsource
  have hvalue := hsource.valueIn_overlaid (base.written.mergeKeys doc)
  have hvalue' := hsource.valueIn_overlaid (base'.written.mergeKeys doc)
  obtain ⟨es, hes⟩ := exists_laid_eq base doc source
  obtain ⟨es', hes'⟩ := exists_laid_eq base' doc source
  rw [hes, hes'] at habreast
  rw [hes] at h hvalue
  rw [hes'] at hvalue' ⊢
  refine (ofTree_table_iff es' r).mpr fun b => ?_
  have hread := (ofTree_table_iff es r).mp h b
  by_cases hb : b = .faults
  · subst hb
    refine sight_of_faultsAbreast hbase' hnone habreast.faults hread fun hleft => ?_
    -- Nothing stands for the faults, so the environment does not set them.
    exact hkeys .faults (Option.or_eq_none_iff.mp ((hvalue .faults).symm.trans hleft)).1
  · rcases habreast.sections b hb with hsame | ⟨inner, inner', hinner, hinner', hlookup⟩
    · exact (congrArg b.sight hsame.symm).trans hread
    · have hleft : es.lookup b.name = some (.table inner) := hinner
      have hright : es'.lookup b.name = some (.table inner') := hinner'
      rw [hleft] at hread
      rw [hright]
      refine (convert_table_iff hb inner' r).mpr fun k hk l hl => ?_
      have hkey := (convert_table_iff hb inner r).mp hread k hk l hl
      obtain rfl := hk
      rcases hlookup l with hsame | ⟨k', hk', hl', hold⟩
      · exact (congrArg k.sight hsame.symm).trans hkey
      · obtain rfl := eq_of_branch_of_leaf hk' (hl'.trans (Eq.symm hl))
        cases hset : source.lookup k'.place with
        | some v =>
            -- The environment sets the key, in both trees to the same value.
            have hthis := (valueIn_of_section hl' hinner).symm.trans (hvalue k')
            have hthat := (valueIn_of_section hl' hinner').symm.trans (hvalue' k')
            rw [hset] at hthis hthat
            exact (congrArg k'.sight (hthat.trans hthis.symm)).trans hkey
        | none => exact sight_of_unwritten hbase' hbase hold hkey (hkeys k' hset)

end Transfer

/-! ## Addresses that are read -/

theorem none_or_exists_of_part {α : Type} {p : Tree.Parts} {number : Nat} {name : String}
    {o : Option α} {convert : Tree → Except SourceError α}
    (h : p.part number name convert = .ok o) :
    o = none ∨ ∃ a t, o = some a ∧ convert t = .ok a := by
  have hthere : ∀ (t : Tree) (blame : SourceError → SourceError),
      ((convert t).map some).mapError blame = .ok o → ∃ a t, o = some a ∧ convert t = .ok a :=
    fun t blame ht => by
      obtain ⟨a, ha, rfl⟩ := map_eq_ok_iff.mp (mapError_eq_ok_iff.mp ht)
      exact ⟨a, t, rfl, ha⟩
  cases p with
  | keyed es =>
      simp only [Tree.Parts.part] at h
      split at h
      · exact Or.inr (hthere _ _ h)
      · exact Or.inl (Except.ok.inj h).symm
  | listed ts =>
      simp only [Tree.Parts.part] at h
      split at h
      · exact Or.inr (hthere _ _ h)
      · exact Or.inl (Except.ok.inj h).symm

theorem eq_or_exists_of_partOr {α : Type} {p : Tree.Parts} {number : Nat} {name : String}
    {default a : α} {convert : Tree → Except SourceError α}
    (h : p.partOr number name default convert = .ok a) : a = default ∨ ∃ t, convert t = .ok a := by
  obtain ⟨o, ho, rfl⟩ := map_eq_ok_iff.mp h
  rcases none_or_exists_of_part ho with rfl | ⟨a, t, rfl, ht⟩
  · exact Or.inl rfl
  · exact Or.inr ⟨t, ht⟩

theorem proper_of_toControl {t : Tree} {c : ControlSection} (h : t.toControl = .ok c) :
    c.address.Proper := by
  simp only [Tree.toControl, bind_eq_ok_iff, pure_eq_ok_iff] at h
  obtain ⟨p, -, enabled, -, address, haddress, rfl⟩ := h
  rcases eq_or_exists_of_partOr haddress with rfl | ⟨u, hu⟩
  · rfl
  · simp only [Tree.toEndpoint, bind_eq_ok_iff] at hu
    obtain ⟨s, -, hs⟩ := hu
    split at hs
    · rename_i read hread
      obtain rfl := Except.ok.inj hs
      exact Net.proper_of_read hread
    · cases hs

/-- Settings that are read from a tree have an address that a host can have. -/
theorem proper_of_ofTree {t : Tree} {s : Settings} (h : ofTree t = .ok s) :
    s.control.address.Proper := by
  simp only [ofTree, bind_eq_ok_iff, pure_eq_ok_iff] at h
  obtain ⟨p, -, node, -, control, hcontrol, monitoring, -, heartbeat, -, faults, -, rfl⟩ := h
  rcases eq_or_exists_of_partOr hcontrol with rfl | ⟨u, hu⟩
  · rfl
  · exact proper_of_toControl hu

/-! ## Both ways to a file -/

theorem toOption_congr {ε ε' α : Type} {x : Except ε α} {y : Except ε' α}
    (h : ∀ a, x = .ok a ↔ y = .ok a) : x.toOption = y.toOption := by
  have hsome : ∀ {ε : Type} (x : Except ε α) (a : α), x.toOption = some a ↔ x = .ok a :=
    fun x a => by cases x <;> simp [Except.toOption]
  exact Option.ext fun a => by rw [hsome, hsome, h]

theorem source_cons_path (f : String) (e : Environment) :
    Environment.source ((pathVariable, f) :: e) = e.source := by
  have hkey : keyOf pathVariable = none := by decide
  simp [Environment.source, hkey]

section Ways

variable {files : Files.Store} {e : Environment} {f : String} {doc : List (String × Tree)}

theorem load_cons_path (hfile : fileSource files f = .ok doc) :
    load files ((pathVariable, f) :: e) = layered .default doc e := by
  simp [load, Environment.get?, hfile, layered, source_cons_path, bind, Except.bind]

theorem load_of_none (hpath : e.get? pathVariable = none) :
    load files e = layered .default [] e := by
  simp [load, hpath, bind, Except.bind, pure, Except.pure]

theorem overridden_eq_ok_iff (s : Settings) (hfile : fileSource files f = .ok doc)
    (r : Settings) : s.overridden files e f = .ok r ↔ layered s doc e = .ok r := by
  simp only [overridden, bind_eq_ok_iff, hfile, Except.ok.injEq, exists_eq_left', layered]
  constructor
  · rintro ⟨_, -, h⟩
    exact h
  · rintro ⟨t, ht, h⟩
    exact ⟨t, ht, t, ht, h⟩

/-- No text of a variable is read as faults. -/
theorem exists_error_of_faults (text : String) :
    ∃ why, Key.faults.convert (readVariable text) = .error why := by
  unfold readVariable
  dsimp only
  repeat' split
  all_goals exact ⟨_, rfl⟩

theorem faults_eq_nil_of_layered {s : Settings} (he : e.LeafOnly)
    (h : layered .default [] e = .ok s) : s.faults = [] := by
  have hlayered := layered_of_eq_ok proper_default (by simp [MentionsKeys]) he h .faults
  cases htext : e.text? .faults with
  | none => exact hlayered.ofBase htext rfl
  | some text =>
      obtain ⟨why, hwhy⟩ := exists_error_of_faults text
      have hread := hlayered.ofVariable text htext
      rw [hwhy] at hread
      cases hread

/-- A key that the environment does not set has its default where only the environment is
loaded. -/
theorem get_eq_default_of_layered {s : Settings} (he : e.LeafOnly)
    (h : layered .default [] e = .ok s) {k : Key} (hk : e.source.lookup k.place = none) :
    k.get s = k.get .default := by
  refine (layered_of_eq_ok proper_default (by simp [MentionsKeys]) he h k).ofBase ?_ ?_
  · rw [he.lookup_source] at hk
    exact Option.map_eq_none_iff.mp hk
  · cases k <;> rfl

/-- Where the file and the environment can be loaded together, the environment can be loaded
alone. -/
theorem exists_layered_nil {r : Settings} (he : e.LeafOnly) (hdoc : ∀ x ∈ doc, IsPlainKey x.1)
    (h : layered .default doc e = .ok r) : ∃ s, layered .default [] e = .ok s := by
  obtain ⟨hcount, h⟩ := (layered_eq_ok_iff .default doc e r).mp h
  rw [Tree.overlaid_plain hdoc] at h
  -- What the environment sets can be read, and everything else has its default.
  let s := ofKeys fun k => if e.source.lookup k.place = none then k.get .default else k.get r
  refine ⟨s, (layered_eq_ok_iff .default [] e s).mpr ⟨hcount, ?_⟩⟩
  have hsections : ∀ b ≠ Branch.faults,
      HasSection b ((written .default).overlaid e.source) := fun b hb =>
    he.setsKeys.hasSection_overlaid hb (Or.inl ⟨_, under_written .default hb⟩)
  have hvalue := he.setsKeys.valueIn_overlaid (written .default)
  have hvalue' := he.setsKeys.valueIn_overlaid ((written .default).mergeKeys doc)
  have hread : ∀ k : Key, e.source.lookup k.place ≠ none →
      k.sight (k.valueIn (((written .default).mergeKeys doc).overlaid e.source)) =
        .ok (k.get r) := fun k hk => by
    obtain ⟨es, hes⟩ := exists_laid_eq .default doc e.source
    have hsection := fun hb => he.setsKeys.hasSection_overlaid
      (t := (written .default).mergeKeys doc) (b := k.branch) hb (Or.inr ⟨k, rfl, hk⟩)
    rw [hes] at h hsection ⊢
    exact sight_valueIn h k hsection
  obtain ⟨es, hes⟩ := exists_laid_eq .default [] e.source
  rw [Tree.mergeKeys_nil] at hes
  have hgoal : ofTree ((written .default).overlaid e.source) = .ok s := by
    rw [hes] at hsections hvalue ⊢
    refine (ofTree_iff_of_sections hsections s).mpr fun k => ?_
    rw [hvalue k, get_ofKeys]
    cases hset : e.source.lookup k.place with
    | none =>
        rw [if_pos rfl]
        exact sight_valueIn_written proper_default k
    | some v =>
        have hkey := hread k (by simp [hset])
        rw [hvalue' k, hset] at hkey
        rw [if_neg (by simp)]
        exact hkey
  exact hgoal

/-- **The file of the start and a further file are the same.**  Take a file whose keys write no
paths, and an environment that sets keys only and from which no count is loaded that no tree
holds.  Naming the file for the start and laying it over what is loaded without it either both
fail, or both end with the same settings.  Laying the file over these once more changes nothing,
unless they hold a count that no tree holds: then it is refused. -/
theorem reload_agrees (hpath : e.get? pathVariable = none) (hfile : fileSource files f = .ok doc)
    (hdoc : ∀ x ∈ doc, IsPlainKey x.1) (he : e.LeafOnly)
    (hcount : ∀ s, load files e = .ok s → ¬ s.HoldsLargeCount) :
    (load files ((pathVariable, f) :: e)).toOption =
        (load files e >>= fun s => s.overridden files e f).toOption ∧
      ∀ r, load files ((pathVariable, f) :: e) = .ok r →
        (¬ r.HoldsLargeCount → r.overridden files e f = .ok r) ∧
          (r.HoldsLargeCount → ∃ why, r.overridden files e f = .error why) := by
  rw [load_cons_path hfile]
  rw [load_of_none hpath] at hcount ⊢
  have hsource := he.setsKeys
  have hproper : ∀ {base r : Settings} {doc : List (String × Tree)},
      layered base doc e = .ok r → r.control.address.Proper := fun h =>
    proper_of_ofTree ((layered_eq_ok_iff _ _ e _).mp h).2
  refine ⟨?_, fun r h => ⟨fun hsmall => ?_, fun hlarge => ?_⟩⟩
  · refine toOption_congr fun r => ?_
    simp only [bind_eq_ok_iff, overridden_eq_ok_iff _ hfile]
    constructor
    · intro h
      obtain ⟨s, hs⟩ := exists_layered_nil he hdoc h
      refine ⟨s, hs, (layered_eq_ok_iff s doc e r).mpr ⟨hcount s hs, ?_⟩⟩
      refine ofTree_transfer (hproper hs) proper_default rfl hdoc hsource (fun k hk hr => ?_)
        ((layered_eq_ok_iff .default doc e r).mp h).2
      rw [get_eq_default_of_layered he hs hk, hr]
    · rintro ⟨s, hs, h⟩
      have hdefault := ((layered_eq_ok_iff .default [] e s).mp hs).1
      refine (layered_eq_ok_iff .default doc e r).mpr ⟨hdefault, ?_⟩
      refine ofTree_transfer proper_default (hproper hs) (faults_eq_nil_of_layered he hs) hdoc
        hsource (fun k hk hr => ?_) ((layered_eq_ok_iff s doc e r).mp h).2
      rw [hr, get_eq_default_of_layered he hs hk]
  · rw [overridden_eq_ok_iff r hfile, layered_eq_ok_iff]
    exact ⟨hsmall, ofTree_transfer (hproper h) proper_default rfl hdoc hsource
      (fun k _ _ => rfl) ((layered_eq_ok_iff .default doc e r).mp h).2⟩
  · obtain ⟨why, hwhy⟩ := exists_error_of_holdsLargeCount hlarge
    exact ⟨why, by simp [overridden, hwhy, bind, Except.bind]⟩

end Ways

theorem reload_agrees_site :
    (load siteFiles siteVariables >>= fun s =>
        s.overridden siteFiles siteVariables "site.toml").toOption = some siteSettings ∧
      siteSettings.overridden siteFiles siteVariables "site.toml" = .ok siteSettings := by
  have hloads : load siteFiles ((pathVariable, "site.toml") :: siteVariables) =
      .ok siteSettings := by decide +kernel
  have hplain : ∀ doc ∈ (fileSource siteFiles "site.toml").toOption,
      ∀ x ∈ doc, IsPlainKey x.1 := by
    decide +kernel
  have hcounts : ∀ s ∈ (load siteFiles siteVariables).toOption, ¬ s.HoldsLargeCount := by
    decide +kernel
  obtain ⟨doc, hfile, -⟩ := bind_eq_ok_iff.mp hloads
  have hpath : siteVariables.get? pathVariable = none := rfl
  obtain ⟨hways, hagain⟩ := reload_agrees hpath hfile
    (hplain doc (by simp [hfile, Except.toOption])) leafOnly_siteVariables
    fun s hs => hcounts s (by simp [hs, Except.toOption])
  refine ⟨?_, (hagain siteSettings hloads).1 (by decide)⟩
  rw [← hways, hloads]
  rfl

/-- A store with a settings file whose count is read as the greatest one. -/
def largeFiles : Files.Store where
  entries := Files.Store.vacant.entries.insert ["work", "large.toml"]
    (.file "[heartbeat]\ninterval_ms = 1e30\n")
  home := ["work"]

/-- A count that needs all of its sixty-four bits can be loaded from a file, and the same file is
then refused. -/
theorem large_count_not_reloaded :
    Environment.LeafOnly [] ∧
      (∃ doc, fileSource largeFiles "large.toml" = .ok doc ∧ ∀ x ∈ doc, IsPlainKey x.1) ∧
      (∀ s, load largeFiles [] = .ok s → ¬ s.HoldsLargeCount) ∧
      ∃ r, load largeFiles [(pathVariable, "large.toml")] = .ok r ∧
        (r.overridden largeFiles [] "large.toml").toOption = none := by
  have hloads : load largeFiles [(pathVariable, "large.toml")] = .ok { Settings.default with
    heartbeat := { HeartbeatSection.default with interval := 18446744073709551615 } } := by
    decide +kernel
  have hplain : ∀ doc ∈ (fileSource largeFiles "large.toml").toOption,
      ∀ x ∈ doc, IsPlainKey x.1 := by
    decide +kernel
  have hcounts : ∀ s ∈ (load largeFiles []).toOption, ¬ s.HoldsLargeCount := by decide +kernel
  obtain ⟨doc, hfile, -⟩ := bind_eq_ok_iff.mp hloads
  refine ⟨⟨by simp, by simp⟩, ⟨doc, hfile, hplain doc (by simp [hfile, Except.toOption])⟩,
    fun s hs => hcounts s (by simp [hs, Except.toOption]), _, hloads, ?_⟩
  decide +kernel

end FaultPoints.Settings
