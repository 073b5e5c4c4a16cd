import FaultPoints.Proofs.Fallible
import FaultPoints.Proofs.Json.Written

/-!
# The two readings of a form agree

A form reads a value either from its outline, where it stands in a text, or from the value once that
has been kept whole.  An outline can be kept whole iff it is the outline of a value that is not
nested too deeply, so all that separates the two readings is which documents reach them: on the
outline of a value, the first accepts what the second accepts, with the same result.

## Main Definitions

* `Value.levels` — the levels of brackets and braces of a value
* `Doc.Readable` — an outline that can be kept whole
* `Form.Agrees` — the two readings of a form accept the same values

## Main Statements

* `buffer_eq_ok_iff` — what is kept of an outline, and when
* `agrees_scalar`, `agrees_optional`, `agrees_listOf`, `agrees_record` — every form agrees with
  itself
-/

namespace FaultPoints.Json

mutual

/-- How many levels of brackets and braces a value has. -/
def Value.levels : Value → Nat
  | .array items => itemLevels items + 1
  | .object members => memberLevels members + 1
  | _ => 0

/-- The levels of the deepest of several items. -/
def itemLevels : List Value → Nat
  | [] => 0
  | v :: rest => max v.levels (itemLevels rest)

/-- The levels of the deepest of several members. -/
def memberLevels : List (String × Value) → Nat
  | [] => 0
  | (_, v) :: rest => max v.levels (memberLevels rest)

end

/-- **An outline that can be kept whole**: every number and every text in it denotes one, nothing
breaks off, and the levels of brackets and braces are no more than a bound. -/
def Doc.Readable (depth : Nat) (d : Doc) : Prop := ∃ v : Value, d = v.doc ∧ v.levels ≤ depth

/-! ## What is kept of an outline -/

theorem closing_eq_ok_iff {side : Halt → Break} {ending : Option Halt} {u : Unit} :
    closing side ending = .ok u ↔ ending = none := by
  cases ending <;> simp [closing]

theorem wantedPart_eq_ok_iff {α : Type} {x : Option α} {a : α} :
    wantedPart x = .ok a ↔ x = some a := by
  cases x <;> simp [wantedPart]

mutual

-- The depth is spent on brackets and braces alone, so the recursion is on the outline, and the
-- sequences and objects at depth zero are cases of their own.

/-- **What is kept of an outline is the value whose outline it is.** -/
theorem buffer_eq_ok_iff : ∀ (depth : Nat) (d : Doc) (v : Value),
    d.buffer depth = .ok v ↔ d = v.doc ∧ v.levels ≤ depth
  | depth, .null, v => by
      cases v <;> simp [Doc.buffer, Value.doc, Value.levels]
  | depth, .boolean b, v => by
      cases v <;> simp [Doc.buffer, Value.doc, Value.levels]
  | depth, .number n, v => by
      cases v <;> simp [Doc.buffer, Value.doc, Value.levels, map_eq_ok_iff, wantedPart_eq_ok_iff]
  | depth, .text s, v => by
      cases v <;> simp [Doc.buffer, Value.doc, Value.levels, map_eq_ok_iff, wantedPart_eq_ok_iff]
  | 0, .array items ending, v => by
      cases v <;> simp [Doc.buffer, Value.doc, Value.levels]
  | 0, .object members ending, v => by
      cases v <;> simp [Doc.buffer, Value.doc, Value.levels]
  | depth + 1, .array items ending, v => by
      have hitems := bufferItems_eq_ok_iff depth items
      simp only [Doc.buffer, bind_eq_ok_iff, closing_eq_ok_iff, hitems, pure_eq_ok_iff]
      constructor
      · rintro ⟨vs, ⟨rfl, hlevels⟩, -, rfl, rfl⟩
        exact ⟨rfl, Nat.add_le_add_right hlevels 1⟩
      · rintro ⟨hdoc, hlevels⟩
        cases v <;> cases hdoc
        exact ⟨_, ⟨rfl, Nat.le_of_add_le_add_right hlevels⟩, (), rfl, rfl⟩
  | depth + 1, .object members ending, v => by
      have hmembers := bufferMembers_eq_ok_iff depth members
      simp only [Doc.buffer, bind_eq_ok_iff, closing_eq_ok_iff, hmembers, pure_eq_ok_iff]
      constructor
      · rintro ⟨vs, ⟨rfl, hlevels⟩, -, rfl, rfl⟩
        exact ⟨rfl, Nat.add_le_add_right hlevels 1⟩
      · rintro ⟨hdoc, hlevels⟩
        cases v <;> cases hdoc
        exact ⟨_, ⟨rfl, Nat.le_of_add_le_add_right hlevels⟩, (), rfl, rfl⟩
  | depth, .cut h, v => by
      cases v <;> simp [Doc.buffer, Value.doc]

theorem bufferItems_eq_ok_iff : ∀ (depth : Nat) (items : List Doc) (vs : List Value),
    bufferItems depth items = .ok vs ↔ items = itemDocs vs ∧ itemLevels vs ≤ depth
  | depth, [], vs => by
      cases vs <;> simp [bufferItems, itemDocs, itemLevels]
  | depth, d :: rest, vs => by
      have hvalue := buffer_eq_ok_iff depth d
      have hrest := bufferItems_eq_ok_iff depth rest
      simp only [bufferItems, bind_eq_ok_iff, hvalue, hrest, pure_eq_ok_iff]
      constructor
      · rintro ⟨v, ⟨rfl, hlevels⟩, vs, ⟨rfl, hlevels'⟩, rfl⟩
        exact ⟨rfl, max_le hlevels hlevels'⟩
      · rintro ⟨hdocs, hlevels⟩
        cases vs <;> cases hdocs
        obtain ⟨hlevels, hlevels'⟩ := max_le_iff.mp hlevels
        exact ⟨_, ⟨rfl, hlevels⟩, _, ⟨rfl, hlevels'⟩, rfl⟩

theorem bufferMembers_eq_ok_iff : ∀ (depth : Nat) (members : List (Option String × Doc))
    (vs : List (String × Value)),
    bufferMembers depth members = .ok vs ↔ members = memberDocs vs ∧ memberLevels vs ≤ depth
  | depth, [], vs => by
      cases vs <;> simp [bufferMembers, memberDocs, memberLevels]
  | depth, (k, d) :: rest, vs => by
      have hvalue := buffer_eq_ok_iff depth d
      have hrest := bufferMembers_eq_ok_iff depth rest
      simp only [bufferMembers, bind_eq_ok_iff, hvalue, hrest, pure_eq_ok_iff,
        wantedPart_eq_ok_iff]
      constructor
      · rintro ⟨k, rfl, v, ⟨rfl, hlevels⟩, vs, ⟨rfl, hlevels'⟩, rfl⟩
        exact ⟨rfl, max_le hlevels hlevels'⟩
      · rintro ⟨hdocs, hlevels⟩
        cases vs <;> cases hdocs
        obtain ⟨hlevels, hlevels'⟩ := max_le_iff.mp hlevels
        exact ⟨_, rfl, _, ⟨rfl, hlevels⟩, _, ⟨rfl, hlevels'⟩, rfl⟩

end

mutual

/-- The outline of a value can be passed over. -/
theorem skip_doc : ∀ v : Value, v.doc.skip = .ok ()
  | .null | .boolean _ | .number _ | .text _ => rfl
  | .array items => by
      simp only [Value.doc, Doc.skip, skipItems_docs items]
      rfl
  | .object members => by
      simp only [Value.doc, Doc.skip, skipMembers_docs members]
      rfl

theorem skipItems_docs : ∀ items : List Value, skipItems (itemDocs items) = .ok ()
  | [] => rfl
  | v :: rest => by
      simp only [itemDocs, skipItems, skip_doc v, skipItems_docs rest]
      rfl

theorem skipMembers_docs : ∀ members : List (String × Value),
    skipMembers (memberDocs members) = .ok ()
  | [] => rfl
  | (k, v) :: rest => by
      simp only [memberDocs, skipMembers, skip_doc v, skipMembers_docs rest]
      rfl

end

theorem found_doc (v : Value) : v.doc.found = .ok v.found := by
  cases v <;> rfl

/-! ## Forms -/

theorem orBroken_eq_ok_iff {α : Type} {x : Except Break α} {a : α} :
    orBroken x = .ok a ↔ x = .ok a := mapError_eq_ok_iff

theorem orMismatch_eq_ok_iff {α : Type} {x : Except Mismatch α} {a : α} :
    orMismatch x = .ok a ↔ x = .ok a := mapError_eq_ok_iff

variable {α δ : Type}

/-- **The two readings of a form accept the same values**, with the same results. -/
def Form.Agrees (f : Form α) : Prop := ∀ v a, f.ofDoc v.doc = .ok a ↔ f.ofValue v = .ok a

/-- The two readings of a member accept the same values for every draft. -/
def Member.Agrees (m : Member δ) : Prop :=
  ∀ draft v draft', m.ofDoc draft v.doc = .ok draft' ↔ m.ofValue draft v = .ok draft'

theorem agrees_scalar (read : Found → Except Mismatch α) : (Form.scalar read).Agrees := by
  intro v a
  simp [Form.scalar, bind_eq_ok_iff, orBroken_eq_ok_iff, orMismatch_eq_ok_iff, found_doc]

theorem ofDoc_optional (f : Form α) {d : Doc} (h : d ≠ .null) :
    f.optional.ofDoc d = (f.ofDoc d).map some := by
  cases d <;> first | exact absurd rfl h | rfl

theorem ofValue_optional (f : Form α) {v : Value} (h : v ≠ .null) :
    f.optional.ofValue v = (f.ofValue v).map some := by
  cases v <;> first | exact absurd rfl h | rfl

theorem agrees_optional {f : Form α} (h : f.Agrees) : f.optional.Agrees := by
  intro v a
  by_cases hnull : v = .null
  · subst hnull
    simp [Form.optional, Value.doc]
  · have hdoc : v.doc ≠ .null := by
      cases v <;> first | exact absurd rfl hnull | simp [Value.doc]
    rw [ofDoc_optional f hdoc, ofValue_optional f hnull, map_eq_ok_iff, map_eq_ok_iff]
    simp only [h v]

theorem mapM_docs {f : Form α} (h : f.Agrees) (vs : List Value) (xs : List α) :
    (itemDocs vs).mapM f.ofDoc = .ok xs ↔ vs.mapM f.ofValue = .ok xs := by
  induction vs generalizing xs with
  | nil => simp [itemDocs, pure_eq_ok_iff]
  | cons v vs ih => simp only [itemDocs, mapM_cons_eq_ok_iff, h v, ih]

theorem agrees_listOf {f : Form α} (h : f.Agrees) : f.listOf.Agrees := by
  intro v xs
  cases v
  case array vs =>
    simp only [Form.listOf, Value.doc, bind_eq_ok_iff, orBroken_eq_ok_iff, closing_eq_ok_iff,
      pure_eq_ok_iff, mapM_docs h]
    simp
  all_goals
    simp [Form.listOf, Value.doc, bind_eq_ok_iff]

theorem agrees_member (name : String) {f : Form α} (h : f.Agrees) (get : δ → Option α)
    (set : δ → α → δ) (mayEnd : Bool) : (Member.of name f get set mayEnd).Agrees := by
  intro draft v draft'
  simp only [Member.of, map_eq_ok_iff, h v]

/-! ## Records -/

variable {r : Record δ α}

theorem draftDoc_docs (h : ∀ m ∈ r.members, m.Agrees) (members : List (String × Value))
    (draft draft' : δ) :
    r.draftDoc draft (memberDocs members) = .ok draft' ↔
      r.draftValue draft members = .ok draft' := by
  induction members generalizing draft with
  | nil => simp [memberDocs, Record.draftDoc, Record.draftValue]
  | cons e members ih =>
      obtain ⟨k, v⟩ := e
      simp only [memberDocs, Record.draftDoc, Record.draftValue, bind_eq_ok_iff,
        orBroken_eq_ok_iff, wantedPart_eq_ok_iff, Option.some_inj, exists_eq_left']
      cases hfind : r.members.find? (·.name == k) with
      | none => simp [bind_eq_ok_iff, orBroken_eq_ok_iff, skip_doc, ih]
      | some m =>
          have hagrees := h m (List.mem_of_find?_eq_some hfind) draft v
          cases hfilled : m.filled draft with
          | true => simp [hfilled]
          | false => simp [hfilled, bind_eq_ok_iff, hagrees, ih]

theorem sequenceDoc_docs {ms : List (Member δ)} (hms : ∀ m ∈ ms, m.Agrees) (items : List Value)
    (index : Nat) (draft draft' : δ) :
    r.sequenceDoc none index draft ms (itemDocs items) = .ok draft' ↔
      r.sequenceValue index draft ms items = .ok draft' := by
  induction ms generalizing items index draft with
  | nil =>
      cases items <;> simp [itemDocs, Record.sequenceDoc, Record.sequenceValue, closing, orBroken,
        Except.mapError]
  | cons m ms ih =>
      obtain ⟨hm, hms⟩ := List.forall_mem_cons.mp hms
      cases items with
      | nil =>
          have hrest := ih hms []
          simp only [itemDocs] at hrest
          simp [itemDocs, Record.sequenceDoc, Record.sequenceValue, bind_eq_ok_iff,
            orBroken_eq_ok_iff, orMismatch_eq_ok_iff, closing_eq_ok_iff, hrest]
      | cons v items =>
          simp only [itemDocs, Record.sequenceDoc, Record.sequenceValue, bind_eq_ok_iff,
            hm draft v, ih hms]

theorem agrees_record (h : ∀ m ∈ r.members, m.Agrees) : (Form.record r).Agrees := by
  intro v a
  cases v
  case array items =>
    simp [Form.record, Value.doc, bind_eq_ok_iff, orMismatch_eq_ok_iff, sequenceDoc_docs h]
  case object members =>
    simp [Form.record, Value.doc, bind_eq_ok_iff, orBroken_eq_ok_iff, orMismatch_eq_ok_iff,
      closing_eq_ok_iff, draftDoc_docs h]
  all_goals
    simp [Form.record, Value.doc, bind_eq_ok_iff]

end FaultPoints.Json
