import Mathlib.Order.Lattice
import Mathlib.Tactic.TypeStar

/-!
# Timelines

A value that changes in time, with the spans of time over which it had its earlier
values. A span is closed at both ends: at the moment of a change both values are seen.
-/

/-- A value had from one moment to another. -/
structure Span (τ σ : Type*) where
  since : τ
  till : τ
  value : σ

/-- The value now, and the spans before. -/
structure Timeline (τ σ : Type*) where
  now : τ
  value : σ
  past : List (Span τ σ)

namespace Timeline

variable {τ σ : Type*} [LinearOrder τ] {t : Timeline τ σ} {later m : τ} {x v : σ}

/-- A value was seen at a moment. -/
def At (t : Timeline τ σ) (m : τ) (x : σ) : Prop :=
  (m = t.now ∧ x = t.value) ∨ ∃ span ∈ t.past, span.since ≤ m ∧ m ≤ span.till ∧ x = span.value

/-- Time passes, and the value changes at the end of it. -/
def become (t : Timeline τ σ) (later : τ) (v : σ) : Timeline τ σ where
  now := later
  value := v
  past := ⟨t.now, later, t.value⟩ :: t.past

/-- What is seen after time has passed was seen before, in the time that has passed, or is
the new value. -/
theorem at_become (forward : t.now ≤ later) :
    (t.become later v).At m x ↔
      (t.At m x ∨ (t.now ≤ m ∧ m ≤ later ∧ x = t.value)) ∨ (m = later ∧ x = v) := by
  constructor
  · rintro (new | ⟨span, member, since, till, same⟩)
    · exact Or.inr new
    · obtain rfl | before := List.mem_cons.mp member
      · exact Or.inl (Or.inr ⟨since, till, same⟩)
      · exact Or.inl (Or.inl (Or.inr ⟨span, before, since, till, same⟩))
  · rintro (((⟨rfl, rfl⟩ | ⟨span, before, seen⟩) | during) | new)
    · exact Or.inr ⟨_, List.mem_cons_self, le_rfl, forward, rfl⟩
    · exact Or.inr ⟨span, List.mem_cons_of_mem _ before, seen⟩
    · exact Or.inr ⟨_, List.mem_cons_self, during⟩
    · exact Or.inl new

/-- A change adds to what is seen while the value stays only the new value. -/
theorem at_become_iff_wait (forward : t.now ≤ later) :
    (t.become later v).At m x ↔ (t.become later t.value).At m x ∨ (m = later ∧ x = v) := by
  rw [at_become forward, at_become forward]
  constructor
  · exact Or.imp_left Or.inl
  · rintro ((seen | ⟨rfl, rfl⟩) | new)
    · exact Or.inl seen
    · exact Or.inl (Or.inr ⟨forward, le_rfl, rfl⟩)
    · exact Or.inr new

/-- Nothing is seen in the future. -/
def Past (t : Timeline τ σ) : Prop := ∀ m x, t.At m x → m ≤ t.now

/-- Nothing is seen in the future of a value that comes later. -/
theorem Past.become (past : t.Past) (forward : t.now ≤ later) : (t.become later v).Past := by
  intro m x seen
  obtain (before | ⟨-, till, -⟩) | ⟨rfl, -⟩ := (at_become forward).mp seen
  · exact (past m x before).trans forward
  · exact till
  · exact le_rfl

end Timeline
