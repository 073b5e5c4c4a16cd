import FaultPoints.Proofs.Settings.Variables
import FaultPoints.Settings.Load

/-!
# Which layer a setting comes from

Settings are loaded in three layers: what they were before, a document and the environment.  In
the settings that are loaded the value of each key comes from the last layer that has it.  The
proof follows one key through the tree: its value is written there and would be read back as it
was (`convert_written`), the document puts the last value that it has for the key in its place
(`valueIn_mergeKeys`), and then the environment puts its own there (`valueIn_overlaid`).

## Main Definitions

* `MentionsKeys` — a document mentions keys of the settings only
* `Key.lastIn` — the value that a document has for a key
* `Key.Layered` — the value of a key comes from the last layer that has it

## Main Statements

* `layering_law` — every value comes from the last layer that has it, and counts that no tree
  holds are refused
-/

namespace FaultPoints.Settings

/-! ## Documents -/

instance Tree.decidableIsLeaf : DecidablePred Tree.IsLeaf
  | .table _ => isFalse id
  | .absent | .boolean _ | .whole _ | .real _ | .text _ | .list _ => isTrue trivial

/-- A document mentions keys of the settings only: at its root stand the faults, and sections with
values of their keys, all of them whatever the case of their letters. -/
def MentionsKeys (doc : List (String × Tree)) : Prop :=
  ∀ e ∈ doc, (foldKey e.1 = Branch.faults.name ∧ e.2.IsLeaf) ∨
    (∃ b ≠ Branch.faults, foldKey e.1 = b.name) ∧ ¬ e.2.IsLeaf ∧
      ∀ e' ∈ e.2.entries, e'.2.IsLeaf ∧ ∃ k : Key, k.path = [foldKey e.1, foldKey e'.1]

instance : DecidablePred MentionsKeys := fun doc => by
  unfold MentionsKeys
  infer_instance

/-- The value that a document has for a key, whatever the case of its letters. -/
def Key.lastIn (k : Key) (doc : List (String × Tree)) : Option Tree :=
  (Tree.valuesAt k.path doc).getLast?

/-- Folding the case of letters touches neither full stops nor brackets. -/
theorem isPlainKey_of_foldKey {k : String} (h : IsPlainKey (foldKey k)) : IsPlainKey k := by
  have hmem : ∀ c : Char, c.toLower = c → c ∈ k.toList → c ∈ (foldKey k).toList :=
    fun c hc hk => by
      rw [foldKey, String.toList_ofList]
      exact hc ▸ List.mem_map_of_mem hk
  exact ⟨fun hk => h.1 (hmem _ (by decide) hk), fun hk => h.2 (hmem _ (by decide) hk)⟩

namespace MentionsKeys

variable {doc : List (String × Tree)} (h : MentionsKeys doc)

include h

theorem isPlainKey {e : String × Tree} (he : e ∈ doc) : IsPlainKey e.1 := by
  refine isPlainKey_of_foldKey ?_
  rcases h e he with ⟨hname, -⟩ | ⟨⟨b, -, hname⟩, -⟩
  · exact hname ▸ isPlainKey_name .faults
  · exact hname ▸ isPlainKey_name b

theorem isLeaf_of_faults {e : String × Tree} (he : e ∈ doc)
    (hname : foldKey e.1 = Branch.faults.name) : e.2.IsLeaf := by
  rcases h e he with ⟨-, hleaf⟩ | ⟨⟨b, hb, hname'⟩, -⟩
  · exact hleaf
  · exact absurd (branch_name_injective (hname'.symm.trans hname)) hb

theorem exists_table_of_section {b : Branch} (hb : b ≠ .faults) {e : String × Tree} (he : e ∈ doc)
    (hname : foldKey e.1 = b.name) :
    ∃ inner, e.2 = .table inner ∧ ∀ e' ∈ inner, e'.2.IsLeaf := by
  rcases h e he with ⟨hname', -⟩ | ⟨-, hnot, hleaves⟩
  · exact absurd (branch_name_injective (hname.symm.trans hname')) hb
  · obtain ⟨k, v⟩ := e
    cases v with
    | table inner => exact ⟨inner, rfl, fun e' he' => (hleaves e' he').1⟩
    | _ => exact absurd trivial hnot

/-- A section stays a table under a document. -/
theorem hasSection_mergeKeys {t : Tree} {b : Branch} (hb : b ≠ .faults) (ht : HasSection b t) :
    HasSection b (t.mergeKeys doc) := by
  obtain ⟨es, hes⟩ := ht
  obtain ⟨new, hnew, -⟩ :=
    Tree.gathered_tables (fun e he hname => h.exists_table_of_section hb he hname) es
  exact ⟨new, by rw [Tree.under_mergeKeys, hes, hnew]⟩

/-- **The values of keys after a document is merged into a tree.** -/
theorem valueIn_mergeKeys {t : Tree} (k : Key)
    (ht : k.branch ≠ .faults → HasSection k.branch t) :
    k.valueIn (t.mergeKeys doc) = (k.lastIn doc).or (k.valueIn t) := by
  cases hl : k.leaf with
  | none =>
      obtain rfl := eq_faults_of_leaf hl
      have hgathered := Tree.gathered_leaves (fun e he hname => h.isLeaf_of_faults he hname)
        (t.under Branch.faults.name)
      exact (Tree.under_mergeKeys t doc _).trans hgathered
  | some l =>
      have hb := branch_ne_faults hl
      obtain ⟨es, hes⟩ := ht hb
      obtain ⟨new, hnew, hlookup⟩ :=
        Tree.gathered_tables (fun e he hname => h.exists_table_of_section hb he hname) es
      have hunder : (t.mergeKeys doc).under k.branch.name = some (.table new) := by
        rw [Tree.under_mergeKeys, hes, hnew]
      rw [valueIn_of_section hl hunder, valueIn_of_section hl hes, hlookup, Key.lastIn, Key.path,
        hl]
      rfl

end MentionsKeys

/-! ## Layers -/

theorem layered_eq_ok_iff (base : Settings) (doc : List (String × Tree)) (e : Environment)
    (r : Settings) :
    layered base doc e = .ok r ↔ ¬ base.HoldsLargeCount ∧
      ofTree ((base.written.overlaid doc).overlaid e.source) = .ok r := by
  simp only [layered, bind_eq_ok_iff, toTree_eq_ok_iff]
  constructor
  · rintro ⟨_, ⟨hcount, rfl⟩, hr⟩
    exact ⟨hcount, written_laid base ▸ hr⟩
  · rintro ⟨hcount, hr⟩
    exact ⟨_, ⟨hcount, rfl⟩, (written_laid base).symm ▸ hr⟩

/-- The value of a key under three layers, of which a later one counts more: what the environment
sets it to, else what the document has for it, else what it was before. -/
structure Key.Layered (k : Key) (base : Settings) (doc : List (String × Tree)) (e : Environment)
    (r : Settings) : Prop where
  /-- A key that the environment sets has the value of its text. -/
  ofVariable : ∀ text, e.text? k = some text → k.convert (readVariable text) = .ok (k.get r)
  /-- A key that only the document has, has the value of the document; of two spellings of a key in
  it the later one counts. -/
  ofDocument : e.text? k = none → ∀ v, k.lastIn doc = some v → k.convert v = .ok (k.get r)
  /-- Every other key has the value it had before, addresses up to a flow label. -/
  ofBase : e.text? k = none → k.lastIn doc = none → k.get r = k.get base

/-- A document and an environment over written settings make a table. -/
theorem exists_laid_eq (s : Settings) (doc source : List (String × Tree)) :
    ∃ es, (s.written.mergeKeys doc).overlaid source = .table es := by
  obtain ⟨es, hes⟩ := Tree.exists_mergeKeys_eq s.written.entries doc
  have htable : s.written.mergeKeys doc = .table es := hes
  rw [htable]
  exact Tree.exists_overlaid_eq es source

/-- Of three layers each key has the value of the last layer that has it. -/
theorem layered_of_eq_ok {base r : Settings} {doc : List (String × Tree)} {e : Environment}
    (hbase : base.control.address.Proper) (hdoc : MentionsKeys doc) (he : e.LeafOnly)
    (h : layered base doc e = .ok r) (k : Key) : k.Layered base doc e r := by
  obtain ⟨-, h⟩ := (layered_eq_ok_iff base doc e r).mp h
  rw [Tree.overlaid_plain (fun x hx => hdoc.isPlainKey hx)] at h
  have hwritten : ∀ b ≠ Branch.faults, HasSection b base.written := fun b hb =>
    ⟨_, under_written base hb⟩
  have hmerged : ∀ b ≠ Branch.faults, HasSection b (base.written.mergeKeys doc) := fun b hb =>
    hdoc.hasSection_mergeKeys hb (hwritten b hb)
  have hlaid : ∀ b ≠ Branch.faults,
      HasSection b ((base.written.mergeKeys doc).overlaid e.source) := fun b hb =>
    he.setsKeys.hasSection_overlaid hb (Or.inl (hmerged b hb))
  have hvalue : k.valueIn ((base.written.mergeKeys doc).overlaid e.source) =
      ((e.text? k).map readVariable).or ((k.lastIn doc).or (k.valueIn base.written)) := by
    rw [he.setsKeys.valueIn_overlaid, he.lookup_source,
      hdoc.valueIn_mergeKeys k (hwritten k.branch)]
  have hsight : k.sight (k.valueIn ((base.written.mergeKeys doc).overlaid e.source)) =
      .ok (k.get r) := by
    obtain ⟨es, hes⟩ := exists_laid_eq base doc e.source
    rw [hes] at h hlaid ⊢
    exact sight_valueIn h k (hlaid k.branch)
  rw [hvalue] at hsight
  refine ⟨fun text htext => ?_, fun htext v hv => ?_, fun htext hnone => ?_⟩
  · rw [htext] at hsight
    exact hsight
  · rw [htext, hv] at hsight
    exact hsight
  · rw [htext, hnone] at hsight
    have hread := hsight.symm.trans (sight_valueIn_written hbase k)
    exact Except.ok.inj hread

theorem proper_default : Settings.default.control.address.Proper := rfl

/-- **Layering.**  Where the environment sets keys only and documents mention keys only, every value
of settings that are loaded under a file comes from the last of three layers that has it: what the
settings were before, the file and the environment.  At the start the first layer are the
defaults, and the file is the one that the environment names, if it names one.  Settings with a
count that no tree holds are refused. -/
theorem layering_law (files : Files.Store) (e : Environment) (he : e.LeafOnly) :
    (∀ (base r : Settings) (path : String) (doc : List (String × Tree)),
      base.control.address.Proper → fileSource files path = .ok doc → MentionsKeys doc →
        base.overridden files e path = .ok r → ∀ k : Key, k.Layered base doc e r) ∧
    (∀ (r : Settings) (path : String) (doc : List (String × Tree)),
      e.get? pathVariable = some path → fileSource files path = .ok doc → MentionsKeys doc →
        load files e = .ok r → ∀ k : Key, k.Layered .default doc e r) ∧
    (∀ r : Settings, e.get? pathVariable = none → load files e = .ok r →
      ∀ k : Key, k.Layered .default [] e r) ∧
    ∀ (base : Settings) (path : String), base.HoldsLargeCount →
      ∃ why, base.overridden files e path = .error why := by
  refine ⟨fun base r path doc hbase hfile hdoc h => ?_, fun r path doc hpath hfile hdoc h => ?_,
    fun r hpath h => ?_, fun base path hlarge => ?_⟩
  · simp only [overridden, bind_eq_ok_iff, hfile, Except.ok.injEq, exists_eq_left'] at h
    obtain ⟨_, -, h⟩ := h
    exact layered_of_eq_ok hbase hdoc he h
  · simp only [load, hpath, bind_eq_ok_iff, hfile, Except.ok.injEq, exists_eq_left'] at h
    exact layered_of_eq_ok proper_default hdoc he h
  · simp only [load, hpath, bind_eq_ok_iff, pure_eq_ok_iff, exists_eq_left'] at h
    exact layered_of_eq_ok proper_default (by simp [MentionsKeys]) he h
  · obtain ⟨why, hwhy⟩ := exists_error_of_holdsLargeCount hlarge
    exact ⟨why, by simp [overridden, hwhy, bind, Except.bind]⟩

/-- A store with a settings file for one site. -/
def siteFiles : Files.Store where
  entries := Files.Store.vacant.entries.insert ["work", "site.toml"]
    (.file "[node]\nName = \"a\"\nlog_dir = \"x\"\n[heartbeat]\ninterval_ms = 7\n")
  home := ["work"]

/-- Variables of which one sets a key that the settings file of the site has too. -/
def siteVariables : Environment := [("PATH", "/bin"), ("Fault_Injector__Node__Name", "b")]

theorem leafOnly_siteVariables : siteVariables.LeafOnly :=
  ⟨by decide +kernel, by decide +kernel⟩

/-- The settings of the site. -/
def siteSettings : Settings where
  node := ⟨"b", "x"⟩
  control := .default
  monitoring := .default
  heartbeat := { HeartbeatSection.default with interval := 7 }
  faults := []

theorem layering_law_site :
    siteVariables.LeafOnly ∧ ∃ doc, fileSource siteFiles "site.toml" = .ok doc ∧
      MentionsKeys doc ∧
      Settings.default.overridden siteFiles siteVariables "site.toml" = .ok siteSettings ∧
      ∀ k : Key, k.Layered .default doc siteVariables siteSettings := by
  have hloads : Settings.default.overridden siteFiles siteVariables "site.toml" =
      .ok siteSettings := by decide +kernel
  have hkeys : ∀ doc ∈ (fileSource siteFiles "site.toml").toOption, MentionsKeys doc := by
    decide +kernel
  obtain ⟨_, -, doc, hfile, -⟩ := by simpa only [overridden, bind_eq_ok_iff] using hloads
  have hdoc : MentionsKeys doc := hkeys doc (by simp [hfile, Except.toOption])
  exact ⟨leafOnly_siteVariables, doc, hfile, hdoc, hloads,
    (layering_law siteFiles siteVariables leafOnly_siteVariables).1 .default siteSettings
      "site.toml" doc rfl hfile hdoc hloads⟩

end FaultPoints.Settings
