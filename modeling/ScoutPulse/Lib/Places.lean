import Mathlib.Data.List.Infix

/-!
# Places in a tree

A place is the way down to a node: the child to take at each level. One place is inside of
another when it begins with it. Two places of which neither is inside of the other are in
reading order when the first takes the earlier child where they part.
-/

namespace Places

abbrev Place := List ℕ

/-- One place is read before another: they part, and it is in the earlier child. -/
def Precedes (p q : Place) : Prop :=
  ∃ above i j below below', i < j ∧ p = above ++ i :: below ∧ q = above ++ j :: below'

variable {p q p' q' path : Place} {i j : ℕ}

/-- What is inside of places is in their order. -/
theorem Precedes.inside (precedes : Precedes p q) (left : p <+: p') (right : q <+: q') :
    Precedes p' q' := by
  obtain ⟨above, i, j, below, below', less, rfl, rfl⟩ := precedes
  obtain ⟨rest, rfl⟩ := left
  obtain ⟨rest', rfl⟩ := right
  exact ⟨above, i, j, below ++ rest, below' ++ rest', less, by simp, by simp⟩

theorem Precedes.ne (precedes : Precedes p q) : p ≠ q := by
  obtain ⟨above, i, j, below, below', less, rfl, rfl⟩ := precedes
  intro same
  have children := (List.cons.inj (List.append_cancel_left same)).1
  omega

/-- What is in one of the children from some child on. -/
def UnderFrom (path : Place) (i : ℕ) (p : Place) : Prop := ∃ j, i ≤ j ∧ path ++ [j] <+: p

theorem underFrom_self (inside : path ++ [i] <+: p) : UnderFrom path i p := ⟨i, le_rfl, inside⟩

theorem UnderFrom.later (under : UnderFrom path (i + 1) p) : UnderFrom path i p := by
  obtain ⟨j, le, inside⟩ := under
  exact ⟨j, Nat.le_of_succ_le le, inside⟩

theorem UnderFrom.inside (under : UnderFrom path i p) : path <+: p := by
  obtain ⟨j, -, inside⟩ := under
  exact (List.prefix_append path [j]).trans inside

/-- A node is not inside of its children. -/
theorem UnderFrom.ne (under : UnderFrom path i p) : p ≠ path := by
  obtain ⟨j, -, inside⟩ := under
  rintro rfl
  have short := inside.length_le
  rw [List.length_append, List.length_singleton] at short
  omega

/-- What is in a child is read before what is in the children after it. -/
theorem precedes_of_underFrom (inside : path ++ [i] <+: p) (under : UnderFrom path (i + 1) q) :
    Precedes p q := by
  obtain ⟨j, le, below⟩ := under
  have part : Precedes (path ++ [i]) (path ++ [j]) := ⟨path, i, j, [], [], le, rfl, rfl⟩
  exact part.inside inside below

end Places
