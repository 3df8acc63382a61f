import Mathlib.Order.MinMax
import ScoutPulse.Lib.Outcome

/-!
# Computations that may not end

A loop goes round until a round breaks out of it, and a round may throw. A computation with
loops in it is given a number of rounds that each of its loops may take, and has no result
where that is too few. It ends with a result when every number from some one on is enough and
no number leads to anything else.
-/

namespace Loops

universe u

/-- Why a computation has no result. -/
inductive Stuck (ε : Type*)
  | outOfRounds
  | thrown (e : ε)

/-- What one round of a loop comes to. -/
inductive Round (σ β : Type*)
  | again (s : σ)
  | done (b : β)

/-- A computation, by the number of rounds its loops may take. -/
abbrev Rounds (ε : Type*) (α : Type u) := ℕ → Except (Stuck ε) α

variable {ε : Type*} {σ α β : Type u}

/-- The loop with a body. -/
def loop (body : σ → Except ε (Round σ β)) : σ → Rounds ε β
  | _, 0 => .error .outOfRounds
  | s, n + 1 =>
      match body s with
      | .error e => .error (.thrown e)
      | .ok (.again s') => loop body s' n
      | .ok (.done b) => .ok b

/-- A computation ends with a result. -/
structure Ends (x : Rounds ε α) (a : α) : Prop where
  enough : ∃ n, ∀ m, n ≤ m → x m = .ok a
  only : ∀ n, x n = .ok a ∨ x n = .error .outOfRounds

variable {x : Rounds ε α} {a b : α}

theorem Ends.unique (first : Ends x a) (second : Ends x b) : a = b := by
  obtain ⟨n, first⟩ := first.enough
  obtain ⟨m, second⟩ := second.enough
  have both := (first (max n m) (le_max_left n m)).symm.trans (second _ (le_max_right n m))
  exact Except.ok.inj both

/-- What ends throws nothing, however many rounds it is given. -/
theorem Ends.ne_thrown (ends : Ends x a) (n : ℕ) (e : ε) : x n ≠ .error (.thrown e) := by
  rcases ends.only n with ok | short
  · rw [ok]
    exact fun same => by cases same
  · rw [short]
    exact fun same => by cases same

theorem ends_ok (a : α) : Ends (fun _ => .ok a : Rounds ε α) a :=
  ⟨⟨0, fun _ _ => rfl⟩, fun _ => .inl rfl⟩

/-- One computation after another. -/
theorem Ends.bind {f : α → Rounds ε β} {b : β} (first : Ends x a) (second : Ends (f a) b) :
    Ends (fun n => x n >>= fun a => f a n) b := by
  obtain ⟨n, enough⟩ := first.enough
  obtain ⟨m, more⟩ := second.enough
  refine ⟨⟨max n m, fun k above => ?_⟩, fun k => ?_⟩
  · have here := enough k ((le_max_left n m).trans above)
    have later := more k ((le_max_right n m).trans above)
    simp only [here, Outcome.ok_bind, later]
  · rcases first.only k with ok | short
    · simp only [ok, Outcome.ok_bind]
      exact second.only k
    · simp only [short]
      exact .inr rfl

/-! ## Total correctness of a loop -/

section Loop

variable {body : σ → Except ε (Round σ β)} {s s' : σ} {b : β}

/-- A loop whose body is done ends with the result. -/
theorem ends_of_done (done : body s = .ok (.done b)) : Ends (loop body s) b := by
  have run : ∀ n, loop body s (n + 1) = .ok b := fun n => by rw [loop, done]
  refine ⟨⟨1, fun m some_ => ?_⟩, fun m => ?_⟩
  · obtain ⟨n, rfl⟩ := Nat.exists_eq_add_of_le' some_
    exact run n
  · cases m with
    | zero => exact .inr rfl
    | succ n => exact .inl (run n)

/-- A loop whose body goes on ends where the rest does. -/
theorem ends_of_again (again : body s = .ok (.again s')) (ends : Ends (loop body s') b) :
    Ends (loop body s) b := by
  have run : ∀ n, loop body s (n + 1) = loop body s' n := fun n => by rw [loop, again]
  obtain ⟨n, enough⟩ := ends.enough
  refine ⟨⟨n + 1, fun m above => ?_⟩, fun m => ?_⟩
  · obtain ⟨k, rfl⟩ : ∃ k, m = k + 1 :=
      Nat.exists_eq_add_of_le' ((Nat.le_add_left 1 n).trans above)
    rw [run]
    exact enough k (Nat.le_of_add_le_add_right above)
  · cases m with
    | zero => exact .inr rfl
    | succ k =>
        rw [run]
        exact ends.only k

/-- A round throws nothing, and goes on or breaks as it should. -/
inductive Round.Meets (P : σ → Prop) (Q : β → Prop) : Except ε (Round σ β) → Prop
  | again {s : σ} (holds : P s) : Meets P Q (.ok (.again s))
  | done {b : β} (holds : Q b) : Meets P Q (.ok (.done b))

/-- What a round meets, it meets in a weaker form. -/
theorem Round.Meets.mono {P P' : σ → Prop} {Q Q' : β → Prop} {r : Except ε (Round σ β)}
    (meets : Round.Meets P Q r) (going : ∀ s, P s → P' s) (stopped : ∀ b, Q b → Q' b) :
    Round.Meets P' Q' r := by
  cases meets with
  | again holds => exact .again (going _ holds)
  | done holds => exact .done (stopped _ holds)

/-- A loop whose rounds keep an invariant and lower a measure ends, with what its last round
ensures. -/
theorem exists_ends {P : σ → Prop} {Q : β → Prop} (measure : σ → ℕ)
    (round : ∀ s, P s → Round.Meets (fun s' => P s' ∧ measure s' < measure s) Q (body s))
    (start : P s) : ∃ b, Ends (loop body s) b ∧ Q b := by
  induction bound : measure s using Nat.strongRecOn generalizing s with
  | _ m ih =>
      have meets := round s start
      cases run : body s with
      | error e =>
          rw [run] at meets
          cases meets
      | ok r =>
          rw [run] at meets
          cases meets with
          | again holds =>
              obtain ⟨b, ends, meets⟩ := ih _ (bound ▸ holds.2) holds.1 rfl
              exact ⟨b, ends_of_again run ends, meets⟩
          | done holds => exact ⟨_, ends_of_done run, holds⟩

end Loop

end Loops
