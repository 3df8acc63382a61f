import Mathlib.Algebra.Order.Field.Basic
import Mathlib.Data.List.Count
import Mathlib.Tactic.Linarith
import Mathlib.Tactic.Ring
import Mathlib.Tactic.TypeStar

/-!
# Ledgers of a budget that refills

A ledger lists the times at which something was spent, the latest first. It is paid for
by a level that every expense lowers by one and that time alone raises, at a bounded
rate up to a bounded height. The expenses of any stretch of time are then at most the
height and what flowed in.
-/

/-- How many of some times lie between two. -/
def timesWithin {K : Type*} [LinearOrder K] (start finish : K) (log : List K) : ℕ :=
  log.countP fun t => start ≤ t ∧ t ≤ finish

/-- A log of expenses up to now, and the level that is left. -/
structure Ledger {K : Type*} [Field K] [LinearOrder K] (rate height : K) (log : List K)
    (now level : K) : Prop where
  past : ∀ t ∈ log, t ≤ now
  nonneg : 0 ≤ level
  open_ : ∀ start, start ≤ now →
    (timesWithin start now log : K) + level ≤ height + rate * (now - start)
  closed : ∀ start finish, start ≤ finish →
    (timesWithin start finish log : K) ≤ height + rate * (finish - start)

section Within

variable {K : Type*} [LinearOrder K] {start finish now later t : K} {log : List K}

theorem timesWithin_cons : timesWithin start finish (t :: log) =
    timesWithin start finish log + if start ≤ t ∧ t ≤ finish then 1 else 0 := by
  simp only [timesWithin, List.countP_cons, decide_eq_true_eq]

theorem timesWithin_of_forall_lt (early : ∀ t ∈ log, t < start) :
    timesWithin start finish log = 0 := by
  rw [timesWithin, List.countP_eq_zero]
  intro t member
  simp [early t member]

/-- Nothing is counted after the end of a log. -/
theorem timesWithin_of_past (past : ∀ t ∈ log, t ≤ now) (after : now ≤ later) :
    timesWithin start later log = timesWithin start now log := by
  apply List.countP_congr
  intro t member
  have before := past t member
  simp [before, before.trans after]

end Within

namespace Ledger

variable {K : Type*} [Field K] [LinearOrder K] [IsStrictOrderedRing K]
  {rate height level left : K} {log : List K}
  {now later start finish : K}

theorem nil (positive : 0 ≤ rate) (nonneg : 0 ≤ level) (most : level ≤ height) :
    Ledger rate height [] now level := by
  have flow : ∀ {start finish : K}, start ≤ finish → 0 ≤ rate * (finish - start) :=
    fun window => mul_nonneg positive (sub_nonneg.mpr window)
  refine ⟨List.forall_mem_nil _, nonneg, ?_, ?_⟩
  · intro start before
    have := flow before
    simp only [timesWithin, List.countP_nil, Nat.cast_zero]
    linarith
  · intro start finish window
    have := flow window
    simp only [timesWithin, List.countP_nil, Nat.cast_zero]
    linarith

/-- Time passes: the level rises by no more than what flows in. -/
theorem wait (ledger : Ledger rate height log now level) (positive : 0 ≤ rate)
    (after : now ≤ later) (nonneg : 0 ≤ left) (most : left ≤ height)
    (grows : left ≤ level + rate * (later - now)) : Ledger rate height log later left := by
  refine ⟨fun t member => (ledger.past t member).trans after, nonneg, ?_, ledger.closed⟩
  intro start before
  by_cases started : start ≤ now
  · have sofar := ledger.open_ start started
    rw [timesWithin_of_past ledger.past after]
    calc (timesWithin start now log : K) + left
        ≤ (timesWithin start now log : K) + level + rate * (later - now) := by linarith
      _ ≤ height + rate * (now - start) + rate * (later - now) := by linarith
      _ = height + rate * (later - start) := by ring
  · have flow : 0 ≤ rate * (later - start) := mul_nonneg positive (sub_nonneg.mpr before)
    rw [timesWithin_of_forall_lt fun t member =>
      lt_of_le_of_lt (ledger.past t member) (not_le.mp started), Nat.cast_zero]
    linarith

/-- The level is lowered with nothing spent. -/
theorem lower (ledger : Ledger rate height log now level) (nonneg : 0 ≤ left)
    (less : left ≤ level) : Ledger rate height log now left := by
  refine ⟨ledger.past, nonneg, ?_, ledger.closed⟩
  intro start before
  have := ledger.open_ start before
  linarith

/-- One is spent now. -/
theorem spend (ledger : Ledger rate height log now level) (positive : 0 ≤ rate)
    (nonneg : 0 ≤ left) (less : left + 1 ≤ level) : Ledger rate height (now :: log) now left := by
  refine ⟨?_, nonneg, ?_, ?_⟩
  · intro t member
    obtain rfl | old := List.mem_cons.mp member
    · exact le_refl _
    · exact ledger.past t old
  · intro start before
    have sofar := ledger.open_ start before
    rw [timesWithin_cons]
    simp only [before, le_refl, and_self, if_true]
    push_cast
    linarith
  · intro start finish window
    rw [timesWithin_cons]
    by_cases inside : start ≤ now ∧ now ≤ finish
    · have sofar := ledger.open_ start inside.1
      have more : rate * (now - start) ≤ rate * (finish - start) :=
        mul_le_mul_of_nonneg_left (by linarith [inside.2]) positive
      rw [timesWithin_of_past ledger.past inside.2]
      simp only [inside, and_self, if_true]
      push_cast
      linarith
    · simp only [inside, if_false, Nat.add_zero]
      exact ledger.closed start finish window

end Ledger
