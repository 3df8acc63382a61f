import ScoutPulse.Lib.Rows
import Mathlib.Data.List.Basic
import Mathlib.Tactic.SplitIfs

/-!
# Tables under READ COMMITTED

A table is what has been committed and, for the rows some transaction has written,
the lock of that transaction with the version it will leave. A statement first takes
the keys of the rows it sees and picks; it then comes to each of them once, waits for
the lock of any other transaction, looks at the latest version and changes it if it
still picks it. Between two rows of one statement anything else may happen.
-/

namespace ReadCommitted

/-- Committed rows, and the rows locked by a transaction with its own version of
each; an absent version is a deletion. -/
structure Table (κ ρ ω : Type*) where
  committed : κ → Option ρ
  held : κ → Option (ω × Option ρ)

variable {κ ρ ω : Type*}

namespace Table

variable {t : Table κ ρ ω} {me you : ω} {k j : κ} {version v : Option ρ}

/-- No row at all. -/
def empty : Table κ ρ ω := ⟨fun _ => none, fun _ => none⟩

section Owners

variable [DecidableEq ω]

/-- What a transaction sees of a row: its own version, or the committed one. -/
def visible (t : Table κ ρ ω) (me : ω) (k : κ) : Option ρ :=
  match t.held k with
  | some (owner, version) => if owner = me then version else t.committed k
  | none => t.committed k

/-- Another transaction has the row's lock. -/
def blocked (t : Table κ ρ ω) (me : ω) (k : κ) : Bool :=
  match t.held k with
  | some (owner, _) => owner ≠ me
  | none => false

/-- The locks that are not a transaction's. -/
def others (t : Table κ ρ ω) (me : ω) (k : κ) : Option (ω × Option ρ) :=
  match t.held k with
  | some (owner, version) => if owner = me then none else some (owner, version)
  | none => none

def commit (t : Table κ ρ ω) (me : ω) : Table κ ρ ω := ⟨t.visible me, t.others me⟩

def rollback (t : Table κ ρ ω) (me : ω) : Table κ ρ ω := ⟨t.committed, t.others me⟩

theorem visible_of_held (held : t.held k = some (me, version)) : t.visible me k = version := by
  simp [visible, held]

/-- What one has not written is seen as it was committed. -/
theorem visible_of_not_held (unheld : ∀ v, t.held k ≠ some (me, v)) :
    t.visible me k = t.committed k := by
  rw [visible]
  cases held : t.held k with
  | none => rfl
  | some lock =>
      obtain ⟨owner, version⟩ := lock
      have other : owner ≠ me := by
        rintro rfl
        exact unheld version held
      simp [other]

/-- A row a transaction sees is its own version or the committed row. -/
theorem visible_eq_some {x : ρ} (sees : t.visible me k = some x) :
    t.held k = some (me, some x) ∨ (t.committed k = some x ∧ ∀ v, t.held k ≠ some (me, v)) := by
  by_cases own : ∃ v, t.held k = some (me, v)
  · obtain ⟨v, held⟩ := own
    rw [visible_of_held held] at sees
    subst sees
    exact Or.inl held
  · have unheld : ∀ v, t.held k ≠ some (me, v) := fun v held => own ⟨v, held⟩
    rw [visible_of_not_held unheld] at sees
    exact Or.inr ⟨sees, unheld⟩

theorem free_of_not_blocked (unblocked : ¬ t.blocked me k = true) {owner : ω}
    (held : t.held k = some (owner, v)) : owner = me := by
  by_contra other
  apply unblocked
  simp [blocked, held, other]

/-- What others hold is what is held by somebody else. -/
theorem others_eq_some : t.others me k = some (you, v) ↔ t.held k = some (you, v) ∧ you ≠ me := by
  rw [others]
  cases held : t.held k with
  | none => simp
  | some lock =>
      obtain ⟨owner, version⟩ := lock
      by_cases own : owner = me
      · subst own
        simp only [↓reduceIte, reduceCtorEq, false_iff]
        rintro ⟨same, other⟩
        simp only [Option.some.injEq, Prod.mk.injEq] at same
        exact other same.1.symm
      · simp only [own, ↓reduceIte, Option.some.injEq, Prod.mk.injEq]
        constructor
        · rintro ⟨rfl, rfl⟩
          exact ⟨⟨rfl, rfl⟩, own⟩
        · exact fun both => both.1

theorem commit_held : (t.commit me).held k = some (you, v) ↔
    t.held k = some (you, v) ∧ you ≠ me := others_eq_some

theorem rollback_held : (t.rollback me).held k = some (you, v) ↔
    t.held k = some (you, v) ∧ you ≠ me := others_eq_some

/-- A row that is there after a commit was the committer's version or is untouched. -/
theorem commit_eq_some {x : ρ} (found : (t.commit me).committed k = some x) :
    t.held k = some (me, some x) ∨ (t.committed k = some x ∧ ∀ v, t.held k ≠ some (me, v)) :=
  visible_eq_some found

/-- A commit leaves the rows alone that the committer has not locked. -/
theorem commit_of_not_held (unheld : ∀ v, t.held k ≠ some (me, v)) :
    (t.commit me).committed k = t.committed k := visible_of_not_held unheld

theorem commit_of_held (held : t.held k = some (me, version)) :
    (t.commit me).committed k = version := visible_of_held held

end Owners

/-- Lock a row and leave a version of it. -/
def write [DecidableEq κ] (t : Table κ ρ ω) (me : ω) (k : κ) (version : Option ρ) :
    Table κ ρ ω :=
  { t with held := Function.update t.held k (some (me, version)) }

theorem write_held [DecidableEq κ] : (t.write me k version).held j = some (you, v) ↔
    (j = k ∧ me = you ∧ version = v) ∨ (j ≠ k ∧ t.held j = some (you, v)) := by
  rw [write, Rows.put_eq_some, Prod.mk.injEq]

/-! ## Other transactions -/

/-- A transaction has locked no row. -/
def Idle (t : Table κ ρ ω) (me : ω) : Prop := ∀ k v, t.held k ≠ some (me, v)

/-- A transaction has locked no row but these. -/
def LocksOnly (t : Table κ ρ ω) (me : ω) (keys : List κ) : Prop :=
  ∀ k v, t.held k = some (me, v) → k ∈ keys

/-- What another transaction's step leaves a transaction: its locks with its versions,
and the rows it has locked. -/
structure Spares (t t' : Table κ ρ ω) (you : ω) : Prop where
  locks : ∀ {k v}, t'.held k = some (you, v) ↔ t.held k = some (you, v)
  rows : ∀ {k v}, t.held k = some (you, v) → t'.committed k = t.committed k

section Spares

variable {t' : Table κ ρ ω} {keys : List κ}

theorem Spares.refl (t : Table κ ρ ω) (you : ω) : t.Spares t you :=
  ⟨Iff.rfl, fun _ => rfl⟩

/-- Writing a row that is free spares everybody else. -/
theorem Spares.write [DecidableEq κ]
    (free : ∀ owner v, t.held k = some (owner, v) → owner = me) (other : you ≠ me) :
    t.Spares (t.write me k version) you := by
  refine ⟨?_, fun _ => rfl⟩
  intro j v
  rw [write_held]
  constructor
  · rintro (⟨-, same, -⟩ | ⟨-, held⟩)
    · exact absurd same.symm other
    · exact held
  · intro held
    refine Or.inr ⟨?_, held⟩
    rintro rfl
    exact other (free you v held)

/-- A commit spares everybody else. -/
theorem Spares.commit [DecidableEq ω] (other : you ≠ me) : t.Spares (t.commit me) you := by
  refine ⟨?_, ?_⟩
  · intro k v
    rw [commit_held]
    exact ⟨fun both => both.1, fun held => ⟨held, other⟩⟩
  · intro k v held
    refine commit_of_not_held fun w own => ?_
    rw [held, Option.some.injEq, Prod.mk.injEq] at own
    exact other own.1

theorem Spares.rollback [DecidableEq ω] (other : you ≠ me) : t.Spares (t.rollback me) you := by
  refine ⟨?_, fun _ => rfl⟩
  intro k v
  rw [rollback_held]
  exact ⟨fun both => both.1, fun held => ⟨held, other⟩⟩

theorem Idle.spares (idle : t.Idle you) (spares : t.Spares t' you) : t'.Idle you :=
  fun k v held => idle k v (spares.locks.mp held)

theorem Idle.visible [DecidableEq ω] (idle : t.Idle me) (k : κ) :
    t.visible me k = t.committed k :=
  visible_of_not_held (idle k)

theorem LocksOnly.spares (locks : t.LocksOnly you keys) (spares : t.Spares t' you) :
    t'.LocksOnly you keys :=
  fun k v held => locks k v (spares.locks.mp held)

/-- A write holds one row more. -/
theorem LocksOnly.write [DecidableEq κ] (locks : t.LocksOnly me keys) (k : κ)
    (version : Option ρ) : (t.write me k version).LocksOnly me (k :: keys) := by
  intro j v held
  obtain ⟨rfl, -, -⟩ | ⟨-, before⟩ := write_held.mp held
  · exact List.mem_cons_self
  · exact List.mem_cons_of_mem _ (locks j v before)

theorem locksOnly_commit [DecidableEq ω] (t : Table κ ρ ω) (me : ω) :
    (t.commit me).LocksOnly me [] :=
  fun _ _ held => absurd rfl (commit_held.mp held).2

theorem locksOnly_rollback [DecidableEq ω] (t : Table κ ρ ω) (me : ω) :
    (t.rollback me).LocksOnly me [] :=
  fun _ _ held => absurd rfl (rollback_held.mp held).2

end Spares

end Table

/-- An `UPDATE` or `DELETE`: the rows its condition picks, and what becomes of each. -/
structure Statement (κ ρ : Type*) where
  picks : κ → ρ → Bool
  change : ρ → Option ρ

namespace Statement

variable [DecidableEq κ] [DecidableEq ω]

/-- The keys a statement sets out with, out of those the table has ever used. -/
def targets (st : Statement κ ρ) (t : Table κ ρ ω) (me : ω) (keys : List κ) : List κ :=
  keys.filter fun k => (t.visible me k).any (st.picks k)

/-- The statement comes to a row that no other transaction has locked: the table it
leaves, and whether it changed the row. -/
def visit (st : Statement κ ρ) (t : Table κ ρ ω) (me : ω) (k : κ) : Option (Table κ ρ ω × Bool) :=
  if t.blocked me k then none
  else match t.visible me k with
    | some row =>
        if st.picks k row then some (t.write me k (st.change row), true) else some (t, false)
    | none => some (t, false)

/-- What a visit can do: change a row the statement still picks, or nothing because the
latest version is none it picks. -/
theorem visit_cases {st : Statement κ ρ} {t t' : Table κ ρ ω} {me : ω} {k : κ} {hit : Bool}
    (visited : st.visit t me k = some (t', hit)) :
    (∀ owner v, t.held k = some (owner, v) → owner = me) ∧
      ((∃ row, t.visible me k = some row ∧ st.picks k row = true ∧
          t' = t.write me k (st.change row) ∧ hit = true) ∨
        ((∀ row, t.visible me k = some row → st.picks k row = false) ∧ t' = t ∧ hit = false)) := by
  rw [visit] at visited
  split_ifs at visited with blocked
  refine ⟨fun owner v held => Table.free_of_not_blocked blocked held, ?_⟩
  cases sees : t.visible me k with
  | none =>
      simp only [sees, Option.some.injEq, Prod.mk.injEq] at visited
      exact Or.inr ⟨fun row found => by simp at found, visited.1.symm, visited.2.symm⟩
  | some row =>
      simp only [sees] at visited
      split_ifs at visited with picked
      · simp only [Option.some.injEq, Prod.mk.injEq] at visited
        exact Or.inl ⟨row, rfl, picked, visited.1.symm, visited.2.symm⟩
      · simp only [Option.some.injEq, Prod.mk.injEq] at visited
        refine Or.inr ⟨?_, visited.1.symm, visited.2.symm⟩
        rintro row' ⟨rfl⟩
        exact Bool.eq_false_iff.mpr picked

end Statement

end ReadCommitted
