import Mathlib.Tactic

/-!
# Computations that can fail

When a computation succeeds is read off from its parts.  Why it fails is left to the places where it
does: these equivalences open the successes of a reader, a check or a step without naming its
errors.

## Main Statements

* `bind_eq_ok_iff`, `map_eq_ok_iff`, `mapError_eq_ok_iff` — the successes of a composed computation
* `mapM_cons_eq_ok_iff` — a list is worked through iff its head and its tail are
-/

namespace FaultPoints

variable {ε ε' α β : Type}

/-- A computation that can fail succeeds iff each of its two parts does. -/
theorem bind_eq_ok_iff {x : Except ε α} {f : α → Except ε β} {b : β} :
    x >>= f = .ok b ↔ ∃ a, x = .ok a ∧ f a = .ok b := by
  cases x with
  | error e => simp [bind, Except.bind]
  | ok a => simp [bind, Except.bind]

theorem map_eq_ok_iff {x : Except ε α} {f : α → β} {b : β} :
    x.map f = .ok b ↔ ∃ a, x = .ok a ∧ f a = b := by
  cases x with
  | error e => simp [Except.map]
  | ok a => simp [Except.map]

theorem mapError_eq_ok_iff {x : Except ε α} {f : ε → ε'} {a : α} :
    x.mapError f = .ok a ↔ x = .ok a := by
  cases x with
  | error e => simp [Except.mapError]
  | ok a => simp [Except.mapError]

theorem pure_eq_ok_iff {a b : α} : (pure a : Except ε α) = .ok b ↔ a = b :=
  ⟨fun h => by cases h; rfl, fun h => by rw [h]; rfl⟩

theorem mapM_cons_eq_ok_iff {f : α → Except ε β} {a : α} {as : List α} {bs : List β} :
    (a :: as).mapM f = .ok bs ↔ ∃ b bs', f a = .ok b ∧ as.mapM f = .ok bs' ∧ bs = b :: bs' := by
  rw [List.mapM_cons, bind_eq_ok_iff]
  constructor
  · rintro ⟨b, hb, h⟩
    obtain ⟨bs', hbs', hpure⟩ := bind_eq_ok_iff.mp h
    exact ⟨b, bs', hb, hbs', (pure_eq_ok_iff.mp hpure).symm⟩
  · rintro ⟨b, bs', hb, hbs', rfl⟩
    exact ⟨b, hb, bind_eq_ok_iff.mpr ⟨bs', hbs', rfl⟩⟩

end FaultPoints
