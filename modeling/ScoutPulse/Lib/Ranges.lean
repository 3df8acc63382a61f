import Mathlib.Order.Basic
import Mathlib.Algebra.Order.Ring.Int

/-!
# Ranges that keep out of each other's way

Ranges of days, with both ends in them. A range around a day is drawn in on both sides until
it meets none of the others.
-/

namespace Ranges

/-- The days from a first to a last one. -/
structure Range where
  first : ℤ
  last : ℤ

namespace Range

def Contains (r : Range) (day : ℤ) : Prop := r.first ≤ day ∧ day ≤ r.last

def Apart (r s : Range) : Prop := r.last < s.first ∨ s.last < r.first

/-- A range around a day, drawn in by one that does not contain the day. -/
def drawIn (day : ℤ) (r s : Range) : Range where
  first := if r.first ≤ s.last ∧ s.last < day then s.last + 1 else r.first
  last := if s.first ≤ r.last ∧ day < s.first then s.first - 1 else r.last

def fit (day : ℤ) (r : Range) (others : List Range) : Range := others.foldl (drawIn day) r

/-- How far some ranges draw one in: up to the day, past each of them, and no further than to
one of them. -/
structure Fits (day : ℤ) (r : Range) (others : List Range) (fitted : Range) : Prop where
  contains : fitted.Contains day
  within : r.first ≤ fitted.first ∧ fitted.last ≤ r.last
  after : ∀ s ∈ others, s.last < day → s.last < fitted.first
  before : ∀ s ∈ others, day < s.first → fitted.last < s.first
  first : fitted.first = r.first ∨ ∃ s ∈ others, s.last < day ∧ fitted.first = s.last + 1
  last : fitted.last = r.last ∨ ∃ s ∈ others, day < s.first ∧ fitted.last = s.first - 1

variable {day : ℤ} {r : Range} {others : List Range}

theorem drawIn_contains (contains : r.Contains day) (s : Range) :
    (r.drawIn day s).Contains day := by
  unfold Contains drawIn at *
  dsimp only
  split_ifs <;> omega

theorem drawIn_within (s : Range) :
    r.first ≤ (r.drawIn day s).first ∧ (r.drawIn day s).last ≤ r.last := by
  unfold drawIn
  dsimp only
  split_ifs <;> omega

/-- What is fitted goes up to the day and past each of the others, no further than to one of
them. -/
theorem fits_fit (contains : r.Contains day) (others : List Range) :
    Fits day r others (fit day r others) := by
  induction others generalizing r with
  | nil =>
      exact ⟨contains, ⟨le_rfl, le_rfl⟩, fun s member => (List.not_mem_nil member).elim,
        fun s member => (List.not_mem_nil member).elim, .inl rfl, .inl rfl⟩
  | cons s others ih =>
      have rest := ih (drawIn_contains contains s)
      have step : r.first ≤ (r.drawIn day s).first ∧ (r.drawIn day s).last ≤ r.last :=
        drawIn_within s
      have whole : fit day r (s :: others) = fit day (r.drawIn day s) others := rfl
      rw [whole]
      obtain ⟨inside, within, after, before, first, last⟩ := rest
      refine ⟨inside, ⟨step.1.trans within.1, within.2.trans step.2⟩, ?_, ?_, ?_, ?_⟩
      · rintro u member early
        rcases List.mem_cons.mp member with rfl | later
        · refine lt_of_lt_of_le ?_ within.1
          unfold drawIn
          dsimp only
          split_ifs <;> omega
        · exact after u later early
      · rintro u member late
        rcases List.mem_cons.mp member with rfl | later
        · refine lt_of_le_of_lt within.2 ?_
          unfold drawIn
          dsimp only
          split_ifs <;> omega
        · exact before u later late
      · rcases first with same | ⟨u, member, early, same⟩
        · rw [same]
          unfold drawIn
          dsimp only
          split_ifs with drawn
          · exact .inr ⟨s, List.mem_cons_self, drawn.2, rfl⟩
          · exact .inl rfl
        · exact .inr ⟨u, List.mem_cons_of_mem s member, early, same⟩
      · rcases last with same | ⟨u, member, late, same⟩
        · rw [same]
          unfold drawIn
          dsimp only
          split_ifs with drawn
          · exact .inr ⟨s, List.mem_cons_self, drawn.2, rfl⟩
          · exact .inl rfl
        · exact .inr ⟨u, List.mem_cons_of_mem s member, late, same⟩

variable {fitted : Range}

/-- Where no other range contains the day, what is fitted meets none of them. -/
theorem Fits.apart (fits : Fits day r others fitted)
    (free : ∀ s ∈ others, s.last < day ∨ day < s.first) : ∀ s ∈ others, fitted.Apart s := by
  intro s member
  rcases free s member with early | late
  · exact .inr (fits.after s member early)
  · exact .inl (fits.before s member late)

/-- What is fitted is more than the day unless two ranges leave only the day between them. -/
theorem Fits.first_lt_last_iff (fits : Fits day r others fitted)
    (wide : r.first < day ∧ day < r.last) :
    fitted.first < fitted.last ↔
      ¬ ((∃ s ∈ others, s.last = day - 1) ∧ ∃ s ∈ others, s.first = day + 1) := by
  obtain ⟨⟨left, right⟩, -, after, before, first, last⟩ := fits
  constructor
  · rintro long ⟨⟨s, member, ends⟩, u, member', starts⟩
    have low := after s member (by omega)
    have high := before u member' (by omega)
    omega
  · intro open_
    by_contra short
    refine open_ ⟨?_, ?_⟩
    · rcases first with same | ⟨s, member, -, same⟩
      · omega
      · exact ⟨s, member, by omega⟩
    · rcases last with same | ⟨s, member, -, same⟩
      · omega
      · exact ⟨s, member, by omega⟩

end Range

end Ranges
