import Mathlib.Algebra.Order.Floor.Ring
import Mathlib.Data.List.GetD
import Mathlib.Data.Rat.Floor

/-!
# Drawing random numbers

Computations that take numbers from a random stream. Of the stream they are given a finite
beginning; one that would need more has no result on it. What such a computation ensures is
what holds of every result it has on numbers of the unit interval.
-/

namespace Draws

/-- A computation that takes random numbers. -/
abbrev Random (α : Type) := StateT (List ℚ) Option α

variable {α β : Type}

/-- The next number. -/
def next : Random ℚ
  | [] => none
  | r :: rest => some (r, rest)

/-- The place in a range of `n` that a number falls on. -/
def place (n : ℕ) (r : ℚ) : ℕ := ⌊r * n⌋.toNat

/-- One element of a list that is not empty. -/
def pick [Inhabited α] (list : List α) : Random α := do
  let r ← next
  return list.getD (place list.length r) default

/-- What a number gives, of the first number that gives something accepted. -/
def firstOf (give : ℚ → α) (accept : α → Bool) : Random α
  | [] => none
  | r :: rest => if accept (give r) then some (give r, rest) else firstOf give accept rest

/-- Some draws in a row. -/
def draws (x : Random α) : ℕ → Random (List α)
  | 0 => pure []
  | n + 1 => do
      let a ← x
      let rest ← draws x n
      return a :: rest

/-- Draw again, at most a number of times, while what is drawn is refused. -/
def retry (x : Random α) (refused : α → Bool) : ℕ → α → Random α
  | 0, last => pure last
  | n + 1, _ => do
      let a ← x
      if refused a then retry x refused n a else pure a

/-! ## What a computation ensures -/

def InUnit (rng : List ℚ) : Prop := ∀ r ∈ rng, 0 ≤ r ∧ r < 1

/-- Every result on numbers of the unit interval satisfies `Q`. -/
def Ensures (x : Random α) (Q : α → Prop) : Prop :=
  ∀ rng a rest, InUnit rng → x rng = some (a, rest) → Q a ∧ InUnit rest

variable {x : Random α} {f : α → Random β} {P : α → Prop} {Q : β → Prop} {rng rest : List ℚ}

theorem bind_eq_some {b : β} : (x >>= f) rng = some (b, rest) ↔
    ∃ a mid, x rng = some (a, mid) ∧ f a mid = some (b, rest) := by
  change (x rng).bind (fun p => f p.1 p.2) = some (b, rest) ↔ _
  rw [Option.bind_eq_some_iff, Prod.exists]

theorem ensures_pure {a : α} (holds : P a) : Ensures (pure a) P := by
  intro rng b rest unit run
  cases run
  exact ⟨holds, unit⟩

/-- What the first step ensures, and the second from there, both together ensure. -/
theorem Ensures.bind (first : Ensures x P) (second : ∀ a, P a → Ensures (f a) Q) :
    Ensures (x >>= f) Q := by
  intro rng b rest unit run
  obtain ⟨a, mid, run, later⟩ := bind_eq_some.mp run
  obtain ⟨holds, unit⟩ := first rng a mid unit run
  exact second a holds mid b rest unit later

theorem Ensures.mono {P' : α → Prop} (ensures : Ensures x P) (weaker : ∀ a, P a → P' a) :
    Ensures x P' := by
  intro rng a rest unit run
  obtain ⟨holds, unit⟩ := ensures rng a rest unit run
  exact ⟨weaker a holds, unit⟩

/-- What is drawn lies between nought and one. -/
theorem ensures_next : Ensures next fun r => 0 ≤ r ∧ r < 1 := by
  intro rng r rest unit run
  cases rng with
  | nil => cases run
  | cons s rng =>
      cases run
      exact List.forall_mem_cons.mp unit

/-- The place drawn is in the list. -/
theorem place_lt {n : ℕ} {r : ℚ} (some_ : 0 < n) (unit : 0 ≤ r ∧ r < 1) : place n r < n := by
  have positive : (0 : ℚ) < n := by exact_mod_cast some_
  have below : r * n < n := by
    calc r * n < 1 * n := mul_lt_mul_of_pos_right unit.2 positive
      _ = n := one_mul _
  have nonneg : 0 ≤ ⌊r * n⌋ := Int.floor_nonneg.mpr (mul_nonneg unit.1 positive.le)
  have less : ⌊r * (n : ℚ)⌋ < n := Int.floor_lt.mpr (by exact_mod_cast below)
  unfold place
  omega

/-- What is picked is in the list. -/
theorem ensures_pick [Inhabited α] {list : List α} (nonempty : list ≠ []) :
    Ensures (pick list) (· ∈ list) := by
  refine ensures_next.bind fun r unit => ensures_pure ?_
  have inside := place_lt (List.length_pos_of_ne_nil nonempty) unit
  rw [List.getD_eq_getElem _ _ inside]
  exact List.getElem_mem inside

/-- The first draw that is accepted is accepted. -/
theorem ensures_firstOf {give : ℚ → α} {accept : α → Bool} :
    Ensures (firstOf give accept) fun a => accept a = true ∧ ∃ r, (0 ≤ r ∧ r < 1) ∧ give r = a := by
  intro rng
  induction rng with
  | nil =>
      intro a rest unit run
      cases run
  | cons r rng ih =>
      intro a rest unit run
      obtain ⟨here, later⟩ := List.forall_mem_cons.mp unit
      rw [firstOf] at run
      split_ifs at run with accepted
      · cases run
        exact ⟨⟨accepted, r, here, rfl⟩, later⟩
      · exact ih a rest later run

/-- Trying again ensures what one try does. -/
theorem ensures_retry {refused : α → Bool} {n : ℕ} {last : α} (some_ : n ≠ 0)
    (ensures : Ensures x P) : Ensures (retry x refused n last) P := by
  induction n generalizing last with
  | zero => exact absurd rfl some_
  | succ n ih =>
      refine ensures.bind fun a holds => ?_
      split_ifs
      · cases n with
        | zero => exact ensures_pure holds
        | succ n => exact ih (Nat.succ_ne_zero n)
      · exact ensures_pure holds

/-- What was drawn in the end is refused only if all draws were. -/
theorem draws_of_retry {refused : α → Bool} {n : ℕ} {last a : α} (some_ : n ≠ 0)
    (run : retry x refused n last rng = some (a, rest)) (still : refused a = true) :
    ∃ drawn, draws x n rng = some (drawn, rest) ∧ drawn.length = n ∧
      ∀ b ∈ drawn, refused b = true := by
  induction n generalizing last rng with
  | zero => exact absurd rfl some_
  | succ n ih =>
      obtain ⟨b, mid, first, later⟩ := bind_eq_some.mp run
      have again : refused b = true := by
        by_contra accepted
        rw [if_neg accepted] at later
        cases later
        exact accepted still
      rw [if_pos again] at later
      by_cases more : n = 0
      · subst more
        cases later
        refine ⟨[a], ?_, rfl, List.forall_mem_singleton.mpr still⟩
        exact bind_eq_some.mpr ⟨a, rest, first, rfl⟩
      · obtain ⟨drawn, run, count, all⟩ := ih more later
        refine ⟨b :: drawn, ?_, congrArg (· + 1) count, List.forall_mem_cons.mpr ⟨again, all⟩⟩
        exact bind_eq_some.mpr ⟨b, mid, first, bind_eq_some.mpr ⟨drawn, rest, run, rfl⟩⟩

end Draws
