import Mathlib.Data.List.Nodup

/-!
# Sets in the order of insertion

A set kept as the list of its elements, in the order in which they first came in.
-/

namespace OrderedSet

variable {α : Type} [DecidableEq α] {s xs : List α} {x y : α}

/-- A set with an element added. -/
def add (s : List α) (x : α) : List α := if x ∈ s then s else s ++ [x]

/-- The set of the elements of a list. -/
def ofList (xs : List α) : List α := xs.foldl add []

theorem mem_add : y ∈ add s x ↔ y ∈ s ∨ y = x := by
  unfold add
  split_ifs with old
  · exact (or_iff_left_of_imp fun same => same ▸ old).symm
  · rw [List.mem_append, List.mem_singleton]

/-- A set stays one when something is added. -/
theorem nodup_add (nodup : s.Nodup) : (add s x).Nodup := by
  unfold add
  split_ifs with old
  · exact nodup
  · rw [← List.concat_eq_append]
    exact nodup.concat old

theorem mem_foldl_add : y ∈ xs.foldl add s ↔ y ∈ s ∨ y ∈ xs := by
  induction xs generalizing s with
  | nil => simp
  | cons x xs ih => rw [List.foldl_cons, ih, mem_add, List.mem_cons, or_assoc]

theorem nodup_foldl_add (nodup : s.Nodup) : (xs.foldl add s).Nodup := by
  induction xs generalizing s with
  | nil => exact nodup
  | cons x xs ih => exact ih (nodup_add nodup)

theorem mem_ofList : y ∈ ofList xs ↔ y ∈ xs :=
  mem_foldl_add.trans (or_iff_right List.not_mem_nil)

theorem nodup_ofList (xs : List α) : (ofList xs).Nodup := nodup_foldl_add List.nodup_nil

end OrderedSet
