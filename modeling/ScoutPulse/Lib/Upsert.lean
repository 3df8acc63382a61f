import Mathlib.Data.List.AList
import Mathlib.Data.Nat.Notation
import Mathlib.Tactic.TypeStar

/-!
# Storing rows by key

Each row changes what is at its key: it is stored there, over what was found or as
something new, or removes it; or it is refused, and with it the whole list. What a list of
rows makes of a table is, at each key, what the rows of that key make of what was there.
-/

namespace Upsert

variable {κ ρ α β : Type*} (key : ρ → κ) (store : Option α → ρ → Option α)

/-- The last value that some items give. -/
def lastGiven {α β : Type*} (given : α → Option β) (items : List α) : Option β :=
  (items.filterMap given).getLast?

/-- What one row makes of what is at its key. -/
def storeOver (found : Option α) (row : ρ) : Option (Option α) := (store found row).map some

variable {store} {found stored : Option α} {rows : List ρ} {x : α}

/-- A row is stored over what was there. -/
theorem storeOver_eq_some {row : ρ} :
    storeOver store found row = some stored ↔ ∃ x, store found row = some x ∧ stored = some x := by
  rw [storeOver, Option.map_eq_some_iff]
  constructor
  · rintro ⟨x, made, rfl⟩
    exact ⟨x, made, rfl⟩
  · rintro ⟨x, made, rfl⟩
    exact ⟨x, made, rfl⟩

/-- Rows are stored one over the other. -/
theorem foldlM_storeOver_cons {row : ρ} :
    (row :: rows).foldlM (storeOver store) found = some stored ↔
      ∃ x, store found row = some x ∧ rows.foldlM (storeOver store) (some x) = some stored := by
  rw [List.foldlM_cons, Option.bind_eq_bind, Option.bind_eq_some_iff]
  constructor
  · rintro ⟨middle, first, rest⟩
    obtain ⟨x, made, rfl⟩ := storeOver_eq_some.mp first
    exact ⟨x, made, rest⟩
  · rintro ⟨x, made, rest⟩
    exact ⟨some x, storeOver_eq_some.mpr ⟨x, made, rfl⟩, rest⟩

/-- A key that rows are stored under has a row. -/
theorem exists_stored (run : rows.foldlM (storeOver store) found = some stored)
    (some_ : rows ≠ []) : ∃ x, stored = some x := by
  induction rows generalizing found with
  | nil => exact absurd rfl some_
  | cons row rows ih =>
      obtain ⟨x, -, rest⟩ := foldlM_storeOver_cons.mp run
      cases rows with
      | nil => exact ⟨x, (Option.some.inj rest).symm⟩
      | cons next rows => exact ih rest (List.cons_ne_nil _ _)

/-- What each row preserves, all of them preserve. -/
theorem invariant {P : α → Prop} {Q : ρ → Prop}
    (step : ∀ found row x, store found row = some x → (∀ y, found = some y → P y) → Q row → P x)
    (run : rows.foldlM (storeOver store) found = some stored) (start : ∀ y, found = some y → P y)
    (each : ∀ row ∈ rows, Q row) : ∀ y, stored = some y → P y := by
  induction rows generalizing found with
  | nil =>
      cases run
      exact start
  | cons row rows ih =>
      obtain ⟨x, made, rest⟩ := foldlM_storeOver_cons.mp run
      obtain ⟨first, later⟩ := List.forall_mem_cons.mp each
      refine ih rest ?_ later
      intro y same
      cases same
      exact step found row x made start first

/-- A column that each row sets when it has a value is at last the last value given, and
else what it was. -/
theorem bind_eq_or {column : α → Option β} {given : ρ → Option β}
    (step : ∀ found row x, store found row = some x →
      column x = (given row).or (found.bind column))
    (run : rows.foldlM (storeOver store) found = some stored) :
    stored.bind column = (lastGiven given rows).or (found.bind column) := by
  induction rows generalizing found with
  | nil =>
      cases run
      rfl
  | cons row rows ih =>
      obtain ⟨x, made, rest⟩ := foldlM_storeOver_cons.mp run
      rw [ih rest, Option.bind_some, step found row x made, lastGiven, lastGiven]
      cases value : given row with
      | none => rw [Option.none_or, List.filterMap_cons_none value]
      | some v =>
          rw [Option.some_or, List.filterMap_cons_some value, List.getLast?_cons, Option.some_or]
          cases (rows.filterMap given).getLast? <;> rfl

/-- A column that each row sets when it has a value, and leaves at what it starts with. -/
theorem elim_eq_getD {column : α → β} {given : ρ → Option β} {start : β}
    (step : ∀ found row x, store found row = some x →
      column x = (given row).getD (found.elim start column))
    (run : rows.foldlM (storeOver store) found = some stored) :
    stored.elim start column = (lastGiven given rows).getD (found.elim start column) := by
  induction rows generalizing found with
  | nil =>
      cases run
      rfl
  | cons row rows ih =>
      obtain ⟨x, made, rest⟩ := foldlM_storeOver_cons.mp run
      rw [ih rest, Option.elim_some, step found row x made, lastGiven, lastGiven]
      cases value : given row with
      | none => rw [Option.getD_none, List.filterMap_cons_none value]
      | some v =>
          rw [Option.getD_some, List.filterMap_cons_some value, List.getLast?_cons,
            Option.getD_some]

section Table

variable [DecidableEq κ] {change : Option α → ρ → Option (Option α)}
  {table after : AList fun _ : κ => α}

variable (change) in
/-- What one row makes of a table. -/
def write (table : AList fun _ : κ => α) (row : ρ) : Option (AList fun _ : κ => α) :=
  (change (table.lookup (key row)) row).map fun
    | some x => table.insert (key row) x
    | none => table.erase (key row)

variable (store) in
/-- One row stored under its key. -/
def put (table : AList fun _ : κ => α) (row : ρ) : Option (AList fun _ : κ => α) :=
  write key (storeOver store) table row

/-- A write changes the row of its key and leaves the others. -/
theorem lookup_write {row : ρ} {k : κ} (done : write key change table row = some after) :
    if key row = k then change (table.lookup k) row = some (after.lookup k)
    else after.lookup k = table.lookup k := by
  obtain ⟨stored, made, rfl⟩ := Option.map_eq_some_iff.mp done
  split
  case isTrue same =>
    subst same
    rw [made]
    cases stored with
    | none => rw [AList.lookup_erase]
    | some x => rw [AList.lookup_insert]
  case isFalse other =>
    cases stored with
    | none => exact AList.lookup_erase_ne (Ne.symm other)
    | some x => exact AList.lookup_insert_ne (Ne.symm other)

/-- At each key a list of rows does what its rows of that key do. -/
theorem lookup_foldlM_write (k : κ) (run : rows.foldlM (write key change) table = some after) :
    (rows.filter (key · = k)).foldlM change (table.lookup k) = some (after.lookup k) := by
  induction rows generalizing table with
  | nil =>
      cases run
      rfl
  | cons row rows ih =>
      rw [List.foldlM_cons, Option.bind_eq_bind, Option.bind_eq_some_iff] at run
      obtain ⟨middle, first, rest⟩ := run
      have here := lookup_write (k := k) key first
      by_cases same : key row = k
      · rw [if_pos same] at here
        rw [List.filter_cons_of_pos (by simpa using same), List.foldlM_cons, here]
        exact ih rest
      · rw [if_neg same] at here
        rw [List.filter_cons_of_neg (by simpa using same), ← here]
        exact ih rest

theorem lookup_foldlM (k : κ) (run : rows.foldlM (put key store) table = some after) :
    (rows.filter (key · = k)).foldlM (storeOver store) (table.lookup k) = some (after.lookup k) :=
  lookup_foldlM_write key k run

/-- A table without the rows of some keys. -/
def eraseAll (keys : List κ) (table : AList fun _ : κ => α) : AList fun _ : κ => α :=
  keys.foldl (fun table k => table.erase k) table

/-- What is erased is gone, and the rest is as before. -/
theorem lookup_eraseAll {keys : List κ} {k : κ} :
    (eraseAll keys table).lookup k = if k ∈ keys then none else table.lookup k := by
  unfold eraseAll
  induction keys generalizing table with
  | nil => rfl
  | cons key keys ih =>
      rw [List.foldl_cons, ih]
      by_cases later : k ∈ keys
      · rw [if_pos later, if_pos (List.mem_cons_of_mem _ later)]
      · rw [if_neg later]
        by_cases same : k = key
        · subst same
          rw [if_pos List.mem_cons_self, AList.lookup_erase]
        · rw [AList.lookup_erase_ne same, if_neg]
          rintro (_ | later')
          · exact same rfl
          · exact later ‹_›

/-- A table with every row changed. -/
def changeAll (change : α → α) (table : AList fun _ : κ => α) : AList fun _ : κ => α where
  entries := table.entries.map (.map id fun _ => change)
  nodupKeys := List.NodupKeys.map₂ _ _ table.nodupKeys

theorem lookup_changeAll {change : α → α} {k : κ} :
    (changeAll change table).lookup k = (table.lookup k).map change :=
  List.dlookup_map₂ k

end Table

end Upsert
