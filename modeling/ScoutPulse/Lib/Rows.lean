import Mathlib.Logic.Function.Basic
import Mathlib.Tactic.TypeStar

/-!
# Rows by key

A table is a partial function from its primary key to its rows, and a statement on
one row is an update of that function at the row's key.
-/

namespace Rows

variable {κ ρ : Type*} [DecidableEq κ] {rows : κ → Option ρ} {key k : κ} {row x : ρ}

/-- A row found after a statement on one key is the new one there or an old one
elsewhere. -/
theorem update_eq_some {value : Option ρ} :
    Function.update rows key value k = some x ↔
      (k = key ∧ value = some x) ∨ (k ≠ key ∧ rows k = some x) := by
  by_cases same : k = key
  · subst same
    simp
  · simp [same]

/-- A row found after one was stored. -/
theorem put_eq_some :
    Function.update rows key (some row) k = some x ↔
      (k = key ∧ row = x) ∨ (k ≠ key ∧ rows k = some x) := by
  rw [update_eq_some, Option.some.injEq]

/-- A row found after one was deleted. -/
theorem delete_eq_some :
    Function.update rows key none k = some x ↔ k ≠ key ∧ rows k = some x := by
  simp [update_eq_some]

/-- A statement on one key changes no other row. -/
theorem eq_of_update_ne {value : Option ρ} (changed : Function.update rows key value k ≠ rows k) :
    k = key := by
  by_contra other
  exact changed (Function.update_of_ne other value rows)

end Rows
