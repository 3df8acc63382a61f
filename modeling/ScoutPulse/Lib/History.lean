import Mathlib.Data.List.Basic
import Mathlib.Data.Nat.Notation
import Mathlib.Logic.Function.Iterate
import Mathlib.Tactic.TypeStar

/-!
# Histories that can be undone

A value with the values it had before, the latest first, and the values that were undone,
the next one first. A change is recorded or amends the value it finds; the oldest entries
go once there are more than a limit.
-/

/-- A value with what can be undone and redone. -/
structure History (α : Type*) where
  past : List α
  present : α
  future : List α

namespace History

variable {α : Type*}

/-- A change that is an entry of its own. -/
def record (limit : ℕ) (value : α) (h : History α) : History α :=
  ⟨(h.present :: h.past).take limit, value, []⟩

/-- A change that belongs to the entry recorded last. -/
def amend (value : α) (h : History α) : History α := { h with present := value }

def undo : History α → History α
  | ⟨[], present, future⟩ => ⟨[], present, future⟩
  | ⟨value :: past, present, future⟩ => ⟨past, value, present :: future⟩

def redo : History α → History α
  | ⟨past, present, []⟩ => ⟨past, present, []⟩
  | ⟨past, present, value :: future⟩ => ⟨present :: past, value, future⟩

/-- The entries in play. -/
def entries (h : History α) : ℕ := h.past.length + h.future.length

variable {h : History α} {limit n : ℕ} {value : α}

theorem record_past (room : h.past.length < limit) :
    (h.record limit value).past = h.present :: h.past :=
  List.take_of_length_le (Nat.succ_le_of_lt room)

@[simp] theorem record_present : (h.record limit value).present = value := rfl

@[simp] theorem amend_present : (h.amend value).present = value := rfl

@[simp] theorem amend_past : (h.amend value).past = h.past := rfl

@[simp] theorem amend_record {other : α} :
    (h.record limit value).amend other = h.record limit other := rfl

/-- Undoing a recorded change gives back the value before it. -/
theorem undo_record (room : h.past.length < limit) :
    (h.record limit value).undo = ⟨h.past, h.present, [value]⟩ := by
  rw [record, List.take_of_length_le (Nat.succ_le_of_lt room), undo]

/-- Redoing takes back what was undone. -/
theorem redo_undo (some_ : 0 < h.past.length) : h.undo.redo = h := by
  obtain ⟨past, present, future⟩ := h
  cases past with
  | nil => exact absurd some_ (Nat.lt_irrefl 0)
  | cons value past => rfl

theorem undo_past_length : h.undo.past.length = h.past.length - 1 := by
  obtain ⟨past, present, future⟩ := h
  cases past <;> rfl

/-- As many steps forward as back give back the same history. -/
theorem redo_undo_iterate (enough : n ≤ h.past.length) : redo^[n] (undo^[n] h) = h := by
  induction n generalizing h with
  | zero => rfl
  | succ n ih =>
      have left : n ≤ h.undo.past.length := by
        rw [undo_past_length]
        omega
      rw [Function.iterate_succ_apply' redo, Function.iterate_succ_apply undo, ih left]
      exact redo_undo (by omega)

theorem entries_undo : h.undo.entries = h.entries := by
  obtain ⟨past, present, future⟩ := h
  cases past with
  | nil => rfl
  | cons value past => simp only [undo, entries, List.length_cons]; omega

theorem entries_redo : h.redo.entries = h.entries := by
  obtain ⟨past, present, future⟩ := h
  cases future with
  | nil => rfl
  | cons value future => simp only [redo, entries, List.length_cons]; omega

/-- A recorded change leaves no more entries than the limit. -/
theorem entries_record : (h.record limit value).entries ≤ limit := by
  simp only [record, entries, List.length_nil, Nat.add_zero]
  exact List.length_take_le _ _

/-- Every value of a history has a property. -/
def All (P : α → Prop) (h : History α) : Prop :=
  P h.present ∧ (∀ x ∈ h.past, P x) ∧ ∀ x ∈ h.future, P x

variable {P : α → Prop}

/-- What holds of all entries holds with one more recorded. -/
theorem All.record (all : h.All P) (new : P value) : (h.record limit value).All P := by
  refine ⟨new, ?_, by simp [History.record]⟩
  intro x member
  rcases List.mem_cons.mp (List.mem_of_mem_take member) with rfl | earlier
  · exact all.1
  · exact all.2.1 x earlier

theorem All.amend (all : h.All P) (new : P value) : (h.amend value).All P := ⟨new, all.2⟩

theorem All.undo (all : h.All P) : h.undo.All P := by
  obtain ⟨past, present, future⟩ := h
  obtain ⟨now, before, after⟩ := all
  cases past with
  | nil => exact ⟨now, before, after⟩
  | cons value past =>
      rw [List.forall_mem_cons] at before
      exact ⟨before.1, before.2, List.forall_mem_cons.mpr ⟨now, after⟩⟩

theorem All.redo (all : h.All P) : h.redo.All P := by
  obtain ⟨past, present, future⟩ := h
  obtain ⟨now, before, after⟩ := all
  cases future with
  | nil => exact ⟨now, before, after⟩
  | cons value future =>
      rw [List.forall_mem_cons] at after
      exact ⟨after.1, List.forall_mem_cons.mpr ⟨now, before⟩, after.2⟩

end History
