import Mathlib.Data.List.Basic
import Mathlib.Data.List.Perm.Basic
import Mathlib.Tactic.TypeStar

/-!
# Parties in order of arrival

The parties to a concurrent system as a list: one more arrives at its end, and a step
of one of them puts its new state in its old one's place.
-/

namespace Parties

variable {α : Type*} {parties : List α} {i j : ℕ} {x y r : α} {p : α → Bool}

/-- A party found after one of them has moved is that one or one that stood still. -/
theorem set_eq_some (found : parties[i]? = some r) :
    (parties.set i x)[j]? = some y ↔ (j = i ∧ x = y) ∨ (j ≠ i ∧ parties[j]? = some y) := by
  obtain ⟨bound, -⟩ := List.getElem?_eq_some_iff.mp found
  by_cases same : j = i
  · subst same
    simp [List.getElem?_set_self bound]
  · simp [same, List.getElem?_set_ne (Ne.symm same)]

/-- A party found after another has arrived is the newcomer or was there before. -/
theorem append_eq_some :
    (parties ++ [x])[j]? = some y ↔
      parties[j]? = some y ∨ (j = parties.length ∧ x = y) := by
  rcases Nat.lt_trichotomy j parties.length with before | rfl | beyond
  · rw [List.getElem?_append_left before]
    have other : j ≠ parties.length := by omega
    simp [other]
  · simp
  · rw [List.getElem?_eq_none (by simp; omega), List.getElem?_eq_none (by omega)]
    have other : j ≠ parties.length := by omega
    simp [other]

/-- What holds of every party and of where one of them moves holds after the move. -/
theorem forall_set {P : α → Prop} (all : ∀ y ∈ parties, P y) (new : P x) :
    ∀ y ∈ parties.set i x, P y := by
  intro y member
  rcases List.mem_or_eq_of_mem_set member with old | rfl
  · exact all y old
  · exact new

theorem forall_append {P : α → Prop} (all : ∀ y ∈ parties, P y) (new : P x) :
    ∀ y ∈ parties ++ [x], P y :=
  List.forall_mem_append.mpr ⟨all, List.forall_mem_singleton.mpr new⟩

theorem forall_eraseIdx {P : α → Prop} (all : ∀ y ∈ parties, P y) :
    ∀ y ∈ parties.eraseIdx i, P y :=
  fun y member => all y (List.mem_of_mem_eraseIdx member)

/-- A move changes the number of the parties of a kind by the one that moves. -/
theorem countP_set (found : parties[i]? = some r) :
    (parties.set i x).countP p + (if p r then 1 else 0) =
      parties.countP p + if p x then 1 else 0 := by
  obtain ⟨bound, at_⟩ := List.getElem?_eq_some_iff.mp found
  have counted := List.boole_getElem_le_countP (p := p) bound
  rw [List.countP_set bound]
  rw [at_] at counted ⊢
  omega

/-- A party that leaves is counted no more. -/
theorem countP_eraseIdx (found : parties[i]? = some r) :
    (parties.eraseIdx i).countP p + (if p r then 1 else 0) = parties.countP p := by
  obtain ⟨bound, rfl⟩ := List.getElem?_eq_some_iff.mp found
  rw [← (List.getElem_cons_eraseIdx_perm bound).countP_eq p, List.countP_cons]

end Parties
