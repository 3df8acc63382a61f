import Mathlib.Data.List.Nodup
import Mathlib.Logic.Function.Basic

/-!
# Numbered repeats

Ids are made of a list of names. A name that stands in the list for the first time is its own
id, and a repeat gets its number added to it. Two ids are the same only where a name is what
another name becomes with the number of a repeat.
-/

namespace Numbering

variable {α : Type*} [BEq α] [LawfulBEq α] {before names : List α} {name : α} {n : ℕ}

/-- Each name of a list with how many times it has stood there, now included; `before` are
the names in front of the list. -/
def counted (before : List α) : List α → List (α × ℕ)
  | [] => []
  | name :: names => (name, before.count name + 1) :: counted (name :: before) names

/-- A name is counted from the first number that is free up to the last of its repeats. -/
theorem mem_counted : (name, n) ∈ counted before names ↔
    before.count name < n ∧ n ≤ before.count name + names.count name := by
  induction names generalizing before with
  | nil =>
      rw [counted, List.count_nil]
      constructor
      · intro member
        cases member
      · omega
  | cons other names ih =>
      rw [counted, List.mem_cons, ih, Prod.mk.injEq]
      by_cases same : name = other
      · rw [← same, List.count_cons_self, List.count_cons_self, and_iff_right rfl]
        omega
      · rw [List.count_cons_of_ne (Ne.symm same), List.count_cons_of_ne (Ne.symm same)]
        simp [same]

omit [LawfulBEq α] in
/-- The last name of a list stands there once more than in front of it. -/
theorem counted_concat (before names : List α) (name : α) :
    counted before (names ++ [name]) =
      counted before names ++ [(name, before.count name + names.count name + 1)] := by
  induction names generalizing before with
  | nil => rfl
  | cons other names ih =>
      rw [List.cons_append, counted, ih, counted, List.cons_append, List.count_cons,
        List.count_cons, Nat.add_assoc (before.count name), Nat.add_comm (names.count name)]

/-- The names counted are all different. -/
theorem nodup_counted (before names : List α) : (counted before names).Nodup := by
  induction names generalizing before with
  | nil => exact List.nodup_nil
  | cons name names ih =>
      rw [counted, List.nodup_cons, mem_counted, List.count_cons_self]
      exact ⟨fun later => by omega, ih (name :: before)⟩

/-- The id of a name that stands somewhere for the `n`th time. -/
def numbered (add : α → ℕ → α) (standing : α × ℕ) : α :=
  if standing.2 = 1 then standing.1 else add standing.1 standing.2

/-- The ids of a list of names are distinct exactly when no name is what a repeated name
becomes with the number of one of its repeats. -/
theorem nodup_numbered_iff {add : α → ℕ → α} (readable : Function.Injective2 add)
    (names : List α) : ((counted [] names).map (numbered add)).Nodup ↔
      ∀ name ∈ names, ∀ other n, 2 ≤ n → n ≤ names.count other → name ≠ add other n := by
  rw [List.nodup_map_iff_inj_on (nodup_counted [] names)]
  constructor
  · intro injective name member other n repeated last same
    have first : (name, 1) ∈ counted [] names := by
      have some_ := List.count_pos_iff.mpr member
      rw [mem_counted, List.count_nil]
      omega
    have later : (other, n) ∈ counted [] names := by
      rw [mem_counted, List.count_nil]
      omega
    have ids : numbered add (name, 1) = numbered add (other, n) := by
      rw [numbered, numbered, if_pos rfl, if_neg (by change n ≠ 1; omega)]
      exact same
    have one := congrArg Prod.snd (injective _ first _ later ids)
    change 1 = n at one
    omega
  · -- Both are first, both are repeats, or one of them is a repeat that reads as a name.
    rintro apart ⟨a, m⟩ left ⟨b, n⟩ right same
    rw [mem_counted, List.count_nil] at left right
    have a_in : a ∈ names := List.count_pos_iff.mp (by omega)
    have b_in : b ∈ names := List.count_pos_iff.mp (by omega)
    rw [numbered, numbered] at same
    split_ifs at same with first first' first'
    · change m = 1 at first
      change n = 1 at first'
      change a = b at same
      rw [same, first, first']
    · change n ≠ 1 at first'
      exact absurd same (apart a a_in b n (by omega) (by omega))
    · change m ≠ 1 at first
      exact absurd same.symm (apart b b_in a m (by omega) (by omega))
    · obtain ⟨names_eq, numbers_eq⟩ := readable same
      exact Prod.ext names_eq numbers_eq

end Numbering
