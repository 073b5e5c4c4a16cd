import FaultPoints.Proofs.Json.Choice
import FaultPoints.Proofs.Json.Numeral

/-!
# Written documents are read back

The forms of a document are read from what is written for them: numbers, truth values and texts as
they are, a value that may be absent from its own form or from the null value, a sequence item by
item, a record member by member, a choice from its name and its members.

## Main Definitions

* `Form.Inverts` — a form reads every value that is written

## Main Statements

* `parse_written` — a form reads from the text of a value what it reads from the value
* `parse_tagged` — a choice is read from the text of its name with the members of the variant
-/

namespace FaultPoints.Json

variable {α δ : Type}

/-! ## Legible values -/

theorem toNat_lt_wordLimit (n : UInt64) : n.toNat < Text.wordLimit := n.toNat_lt

theorem legible_count (n : UInt64) : (Value.count n).Legible :=
  legible_of_held ⟨by omega, by exact_mod_cast toNat_lt_wordLimit n⟩

theorem legible_real {x : Binary64} (h : x.isFinite = true) : (Value.real x).Legible :=
  legible_of_held h

theorem legible_nullable {write : α → Value} {o : Option α}
    (h : ∀ a, o = some a → (write a).Legible) : (nullable (o.map write)).Legible := by
  cases o with
  | none => trivial
  | some a => exact h a rfl

theorem itemsLegible_of_forall {vs : List Value} (h : ∀ v ∈ vs, v.Legible) : ItemsLegible vs := by
  induction vs with
  | nil => trivial
  | cons v vs ih =>
      obtain ⟨hv, hvs⟩ := List.forall_mem_cons.mp h
      exact ⟨hv, ih hvs⟩

theorem membersLegible_of_forall {members : List (String × Value)}
    (h : ∀ e ∈ members, e.2.Legible) : MembersLegible members := by
  induction members with
  | nil => trivial
  | cons e members ih =>
      obtain ⟨he, hmembers⟩ := List.forall_mem_cons.mp h
      exact ⟨he, ih hmembers⟩

/-! ## Levels -/

theorem itemLevels_le {vs : List Value} {depth : Nat} (h : ∀ v ∈ vs, v.levels ≤ depth) :
    itemLevels vs ≤ depth := by
  induction vs with
  | nil => exact Nat.zero_le _
  | cons v vs ih =>
      obtain ⟨hv, hvs⟩ := List.forall_mem_cons.mp h
      exact max_le hv (ih hvs)

theorem memberLevels_le {members : List (String × Value)} {depth : Nat}
    (h : ∀ e ∈ members, e.2.levels ≤ depth) : memberLevels members ≤ depth := by
  induction members with
  | nil => exact Nat.zero_le _
  | cons e members ih =>
      obtain ⟨he, hmembers⟩ := List.forall_mem_cons.mp h
      exact max_le he (ih hmembers)

theorem levels_nullable {write : α → Value} (h : ∀ a, (write a).levels = 0) (o : Option α) :
    (nullable (o.map write)).levels = 0 := by
  cases o with
  | none => rfl
  | some a => exact h a

theorem mem_optional_iff {name : String} {write : α → Value} {o : Option α} {e : String × Value} :
    e ∈ optional name (o.map write) ↔ ∃ a, o = some a ∧ e = (name, write a) := by
  cases o <;> simp [optional]

/-! ## Simple forms -/

/-- **A form reads back every value that is written.** -/
def Form.Inverts (f : Form α) (write : α → Value) : Prop := ∀ a, f.ofValue (write a) = .ok a

theorem inverts_text (wanted : String) : (textForm wanted).Inverts .text := fun _ => rfl

theorem inverts_boolean : booleanForm.Inverts .boolean := fun _ => rfl

theorem inverts_real : realForm.Inverts .real := fun _ => rfl

theorem inverts_count : countForm.Inverts .count := by
  intro n
  have hread : readUnsigned Text.wordLimit "u64" (Value.count n).found = .ok n.toNat := by
    rw [Value.count, Value.found, readUnsigned]
    exact if_pos ⟨Int.natCast_nonneg _, by exact_mod_cast toNat_lt_wordLimit n⟩
  simp only [countForm, Form.scalar, hread]
  exact congrArg Except.ok UInt64.ofNat_toNat

theorem inverts_listOf {f : Form α} {write : α → Value} (h : f.Inverts write) :
    f.listOf.Inverts fun as => .array (as.map write) := by
  intro as
  have hitems : (as.map write).mapM f.ofValue = .ok as := by
    induction as with
    | nil => rfl
    | cons a as ih => exact mapM_cons_eq_ok_iff.mpr ⟨a, as, h a, ih, rfl⟩
  exact hitems

/-- A value that is present is read as present, as long as it is not written as null. -/
theorem ofValue_some {f : Form α} {write : α → Value} (h : f.Inverts write)
    (hnull : ∀ a, write a ≠ .null) (a : α) : f.optional.ofValue (write a) = .ok (some a) := by
  rw [ofValue_optional f (hnull a), h a]
  rfl

theorem inverts_nullable {f : Form α} {write : α → Value} (h : f.Inverts write)
    (hnull : ∀ a, write a ≠ .null) : f.optional.Inverts fun o => nullable (o.map write) := by
  intro o
  cases o with
  | none => rfl
  | some a => exact ofValue_some h hnull a

/-! ## Records -/

variable {r : Record δ α}

theorem draftValue_known {key : String} {m : Member δ} {draft draft' : δ} {v : Value}
    (hfind : r.members.find? (·.name == key) = some m) (hempty : m.filled draft = false)
    (hread : m.ofValue draft v = .ok draft') (rest : List (String × Value)) :
    r.draftValue draft ((key, v) :: rest) = r.draftValue draft' rest := by
  simp only [Record.draftValue, hfind, hempty, hread, Bool.false_eq_true, if_false]
  rfl

theorem draftValue_unknown {key : String} (hfind : r.members.find? (·.name == key) = none)
    (draft : δ) (v : Value) (rest : List (String × Value)) :
    r.draftValue draft ((key, v) :: rest) = r.draftValue draft rest := by
  simp only [Record.draftValue, hfind]

/-- A member that is written where it is present leaves its place as it is written. -/
theorem draftValue_optional {β : Type} (put : Option β → δ) {key : String} {m : Member δ}
    {write : β → Value} (hfind : r.members.find? (·.name == key) = some m)
    (hempty : m.filled (put none) = false)
    (hread : ∀ b, m.ofValue (put none) (write b) = .ok (put (some b))) (o : Option β)
    (rest : List (String × Value)) :
    r.draftValue (put none) (optional key (o.map write) ++ rest) = r.draftValue (put o) rest := by
  cases o with
  | none => rfl
  | some b => exact draftValue_known hfind hempty (hread b) rest

theorem ofValue_member {β : Type} {name : String} {form : Form β} {get : δ → Option β}
    {set : δ → β → δ} {mayEnd : Bool} {v : Value} {b : β} (h : form.ofValue v = .ok b) (draft : δ) :
    (Member.of name form get set mayEnd).ofValue draft v = .ok (set draft b) :=
  map_eq_ok_iff.mpr ⟨b, h, rfl⟩

/-- The body of a variant is read by its form. -/
theorem ofBody_of_ofValue {β : Type} {form : Form β} {v : Value} {b : β} (h : form.ofValue v = .ok b)
    (name : String) (make : β → α) : (Variant.of name form make).ofBody v = .ok (make b) :=
  map_eq_ok_iff.mpr ⟨b, h, rfl⟩

/-! ## Texts -/

/-- **A form reads from the text of a value what it reads from the value.** -/
theorem parse_written {f : Form α} (hagrees : f.Agrees) {v : Value} (hlegible : v.Legible) {a : α}
    (h : f.ofValue v = .ok a) : f.parse (Text.glyphs v.render) = .ok a := by
  rw [parse_render f hlegible]
  exact (hagrees v a).mpr h

theorem untagged_memberDocs {members : List (String × Value)} {tag : String}
    (h : ∀ e ∈ members, e.1 ≠ tag) : ∀ e ∈ memberDocs members, e.1 ≠ some tag := by
  induction members with
  | nil => simp [memberDocs]
  | cons e members ih =>
      obtain ⟨he, hmembers⟩ := List.forall_mem_cons.mp h
      exact List.forall_mem_cons.mpr ⟨fun htag => he (Option.some_inj.mp htag), ih hmembers⟩

/-- **A choice is read from the text of its name with the members of the variant.** -/
theorem parse_tagged {t : Tagged α} {name : String} {variant : Variant α}
    {members : List (String × Value)} {a : α} (hlegible : MembersLegible members)
    (htag : ∀ e ∈ members, e.1 ≠ t.tag) (hlevels : memberLevels members ≤ nestingLimit - 1)
    (hname : t.variantOf (.text name) = .ok variant)
    (hbody : variant.ofBody (.object members) = .ok a) :
    t.parse (Text.glyphs (Value.object ((t.tag, .text name) :: members)).render) = .ok a := by
  have hvalue : (Value.object ((t.tag, .text name) :: members)).Legible := ⟨trivial, hlegible⟩
  have hfront : ∀ e ∈ ([] : List (Option String × Doc)), e.1 ≠ some t.tag := by simp
  rw [Tagged.parse, parseWith, read_render hvalue]
  change t.ofDoc _ >>= pure = _
  rw [bind_pure]
  refine (ofDoc_tagged_iff hfront (untagged_memberDocs htag) hname).mpr ?_
  exact ⟨members, ⟨rfl, hlevels⟩, hbody⟩

end FaultPoints.Json
