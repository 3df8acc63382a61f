import Mathlib.Data.Set.Card

/-!
# Pairing by a single pass

Each place of a sequence may reach one further on. A pass over the places pairs each with
the one it reaches, unless an earlier place has been paired with it. Nothing keeps two
places from being paired with one; when none are, the pass is a bijection.
-/

namespace Pairs

/-- The places that have been paired with a later one, and those with an earlier one. -/
structure State where
  starts : List ℕ
  ends : List ℕ

variable (reach : ℕ → Option ℕ)

def step (s : State) (i : ℕ) : State :=
  if i ∈ s.ends then s
  else match reach i with
    | some j => ⟨i :: s.starts, j :: s.ends⟩
    | none => s

/-- The pass over the first places. -/
def run (count : ℕ) : State := (List.range count).foldl (step reach) ⟨[], []⟩

/-- A place that reaches another, and that no start before it reaches. -/
def Starts (i : ℕ) : Prop :=
  (reach i).isSome ∧ ∀ h, (_ : h < i) → Starts h → reach h ≠ some i
  termination_by i

/-- A place some start reaches. -/
def Ends (j : ℕ) : Prop := ∃ i, Starts reach i ∧ reach i = some j

variable {reach}

/-- Where reaching leads forward, a start is what reaches and is no end. -/
theorem starts_iff (forward : ∀ i j, reach i = some j → i < j) {i : ℕ} :
    Starts reach i ↔ (reach i).isSome ∧ ¬ Ends reach i := by
  rw [Starts]
  refine and_congr_right fun _ => ⟨fun apart => ?_, fun apart h _ start same => ?_⟩
  · rintro ⟨h, start, same⟩
    exact apart h (forward h i same) start same
  · exact apart ⟨h, start, same⟩

/-- A step makes a start of the place, if it reaches another and is no end. -/
theorem mem_starts_step {s : State} {i k : ℕ} :
    k ∈ (step reach s i).starts ↔
      k ∈ s.starts ∨ k = i ∧ i ∉ s.ends ∧ (reach i).isSome = true := by
  unfold step
  by_cases isEnd : i ∈ s.ends
  · simp [isEnd]
  · rw [if_neg isEnd]
    cases reach i with
    | none => simp
    | some j => simp [isEnd, or_comm]

/-- A step makes an end of what the place reaches, if it is no end itself. -/
theorem mem_ends_step {s : State} {i k : ℕ} :
    k ∈ (step reach s i).ends ↔ k ∈ s.ends ∨ i ∉ s.ends ∧ reach i = some k := by
  unfold step
  by_cases isEnd : i ∈ s.ends
  · simp [isEnd]
  · rw [if_neg isEnd]
    cases reach i with
    | none => simp
    | some j => simp [isEnd, or_comm, eq_comm]

/-- The pass finds the starts and the ends. -/
theorem run_spec (forward : ∀ i j, reach i = some j → i < j) (count : ℕ) :
    (∀ i, i ∈ (run reach count).starts ↔ i < count ∧ Starts reach i) ∧
      ∀ j, j ∈ (run reach count).ends ↔ ∃ i < count, Starts reach i ∧ reach i = some j := by
  induction count with
  | zero => simp [run]
  | succ count ih =>
      obtain ⟨starts, ends⟩ := ih
      have last : run reach (count + 1) = step reach (run reach count) count := by
        rw [run, List.range_succ, List.foldl_concat]
        rfl
      -- Only the places before one can have been paired with it.
      have ended : count ∈ (run reach count).ends ↔ Ends reach count := by
        rw [ends]
        exact ⟨fun ⟨i, _, start, same⟩ => ⟨i, start, same⟩,
          fun ⟨i, start, same⟩ => ⟨i, forward i count same, start, same⟩⟩
      have started := starts_iff (i := count) forward
      rw [last]
      constructor
      · intro i
        rw [mem_starts_step, starts, ended, Nat.lt_succ_iff_lt_or_eq, or_and_right]
        refine or_congr_right (and_congr_right fun same => ?_)
        rw [same, started]
        exact and_comm
      · intro j
        rw [mem_ends_step, ends, ended]
        constructor
        · rintro (⟨i, before, start, same⟩ | ⟨isStart, same⟩)
          · exact ⟨i, Nat.lt_succ_of_lt before, start, same⟩
          · exact ⟨count, Nat.lt_succ_self count,
              started.mpr ⟨Option.isSome_of_mem same, isStart⟩, same⟩
        · rintro ⟨i, within, start, same⟩
          rcases Nat.lt_succ_iff_lt_or_eq.mp within with before | rfl
          · exact .inl ⟨i, before, start, same⟩
          · exact .inr ⟨(started.mp start).2, same⟩

variable (reach) in
/-- No two starts reach one place. -/
def Apart : Prop :=
  ∀ i i' j, Starts reach i → Starts reach i' → reach i = some j → reach i' = some j → i = i'

variable (reach) in
/-- The place a place reaches, if it does. -/
def reached (i : ℕ) : ℕ := (reach i).getD 0

theorem reached_eq {i j : ℕ} (same : reach i = some j) : reached reach i = j := by
  rw [reached, same, Option.getD_some]

theorem Starts.reach_eq {i : ℕ} (start : Starts reach i) : reach i = some (reached reach i) := by
  rw [Starts] at start
  obtain ⟨j, same⟩ := Option.isSome_iff_exists.mp start.1
  rw [reached_eq same, same]

/-- What the starts reach are the ends. -/
theorem image_reached : reached reach '' {i | Starts reach i} = {j | Ends reach j} := by
  ext j
  constructor
  · rintro ⟨i, start, rfl⟩
    exact ⟨i, start, start.reach_eq⟩
  · rintro ⟨i, start, same⟩
    exact ⟨i, start, reached_eq same⟩

/-- Where no two reach the same, starts and ends are paired. -/
theorem bijOn_reached (apart : Apart reach) :
    Set.BijOn (reached reach) {i | Starts reach i} {j | Ends reach j} := by
  refine ⟨fun i start => ?_, fun i start i' start' same => ?_, image_reached.ge⟩
  · rw [← image_reached]
    exact Set.mem_image_of_mem _ start
  · exact apart i i' _ start start' (Starts.reach_eq start) (same ▸ Starts.reach_eq start')

/-- Where the starts and the ends can be matched one to one at all, no two starts reach one
place. -/
theorem apart_of_bijOn {f : ℕ → ℕ} (finite : {i | Starts reach i}.Finite)
    (matched : Set.BijOn f {i | Starts reach i} {j | Ends reach j}) : Apart reach := by
  have many : (reached reach '' {i | Starts reach i}).ncard = {i | Starts reach i}.ncard := by
    rw [image_reached, ← matched.image_eq, matched.injOn.ncard_image]
  have injective := Set.injOn_of_ncard_image_eq many finite
  intro i i' j start start' same same'
  exact injective start start' (by rw [reached_eq same, reached_eq same'])

end Pairs
