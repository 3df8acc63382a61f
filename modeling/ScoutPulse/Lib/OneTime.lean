import Mathlib.Data.List.Count
import Mathlib.Data.Nat.Notation
import Mathlib.Tactic.TypeStar

/-!
# Codes that work once

A table of tickets. A ticket is found by its key, which no other row has, is good for one
subject until it expires, and is spent by the statement that finds it. Rows may go at any
time, so what bounds how often a key was redeemed is how often it was issued.
-/

namespace OneTime

/-- A row: what it stands for, until when, and when it was spent. -/
structure Ticket (κ σ τ : Type*) where
  key : κ
  subject : σ
  expiresAt : τ
  usedAt : Option τ

variable {κ σ τ : Type*} [DecidableEq κ]

/-- `INSERT`, to which the uniqueness of keys may object. -/
def issue (k : κ) (subject : σ) (expiresAt : τ) (rows : List (Ticket κ σ τ)) :
    Option (List (Ticket κ σ τ)) :=
  if rows.any (·.key = k) then none else some (rows ++ [⟨k, subject, expiresAt, none⟩])

section Redeem

variable [LT τ] [DecidableLT τ]

/-- Whether a ticket is still good for something. -/
def Ticket.live (now : τ) (t : Ticket κ σ τ) : Bool := t.usedAt.isNone && now < t.expiresAt

/-- What `UPDATE` leaves of the rows. -/
def spend (k : κ) (now : τ) (rows : List (Ticket κ σ τ)) : List (Ticket κ σ τ) :=
  rows.map fun t => if t.key = k ∧ t.live now = true then { t with usedAt := some now } else t

/-- `UPDATE` of the live row at a key that answers with its subject. -/
def redeem (k : κ) (now : τ) (rows : List (Ticket κ σ τ)) :
    Option (σ × List (Ticket κ σ τ)) :=
  (rows.find? fun t => t.key = k ∧ t.live now = true).map fun t => (t.subject, spend k now rows)

end Redeem

/-- The rows at a key that were not spent. -/
def unused (k : κ) (rows : List (Ticket κ σ τ)) : ℕ :=
  rows.countP fun t => t.key = k ∧ t.usedAt = none

variable {k k' : κ} {subject : σ} {expiresAt now : τ} {rows rows' : List (Ticket κ σ τ)}

/-- What is issued is one more ticket, unused. -/
theorem issue_eq_some (issued : issue k subject expiresAt rows = some rows') :
    rows' = rows ++ [⟨k, subject, expiresAt, none⟩] := by
  rw [issue] at issued
  split at issued
  · cases issued
  · exact (Option.some.inj issued).symm

theorem unused_append :
    unused k' (rows ++ [⟨k, subject, expiresAt, none⟩]) =
      unused k' rows + if k = k' then 1 else 0 := by
  simp [unused, List.countP_append, List.countP_singleton]

theorem unused_le {kept : List (Ticket κ σ τ)} (sub : kept.Sublist rows) :
    unused k kept ≤ unused k rows :=
  sub.countP_le

section Spend

variable [LT τ] [DecidableLT τ]

/-- What is redeemed was there, and not expired. -/
theorem redeem_eq_some (redeemed : redeem k now rows = some (subject, rows')) :
    ∃ t ∈ rows, t.key = k ∧ t.subject = subject ∧ now < t.expiresAt ∧ t.usedAt = none ∧
      rows' = spend k now rows := by
  obtain ⟨t, found, same⟩ := Option.map_eq_some_iff.mp redeemed
  obtain ⟨rfl, rfl⟩ := Prod.mk.inj same
  have passed := List.find?_some found
  rw [decide_eq_true_eq] at passed
  obtain ⟨at_, live⟩ := passed
  rw [Ticket.live, Bool.and_eq_true, decide_eq_true_eq, Option.isNone_iff_eq_none] at live
  exact ⟨t, List.mem_of_find?_eq_some found, at_, rfl, live.2, live.1, rfl⟩

/-- What a statement leaves of a row is the same row, spent or not. -/
theorem exists_of_mem_spend {t : Ticket κ σ τ} (member : t ∈ spend k now rows) :
    ∃ old ∈ rows, old.key = t.key ∧ old.subject = t.subject ∧ old.expiresAt = t.expiresAt := by
  obtain ⟨old, there, rfl⟩ := List.mem_map.mp member
  refine ⟨old, there, ?_⟩
  split
  · exact ⟨rfl, rfl, rfl⟩
  · exact ⟨rfl, rfl, rfl⟩

/-- Spending leaves no more unused. -/
theorem unused_spend_le : unused k' (spend k now rows) ≤ unused k' rows := by
  rw [unused, spend, List.countP_map]
  refine List.countP_mono_left fun t _ counted => ?_
  rw [Function.comp_apply, decide_eq_true_eq] at counted
  rw [decide_eq_true_eq]
  split at counted
  · cases counted.2
  · exact counted

/-- A ticket is spent by being redeemed. -/
theorem unused_spend_lt {t : Ticket κ σ τ} (member : t ∈ rows) (at_ : t.key = k)
    (fits : now < t.expiresAt) (fresh : t.usedAt = none) :
    unused k (spend k now rows) < unused k rows := by
  obtain ⟨before, after, rfl⟩ := List.append_of_mem member
  have earlier : unused k (spend k now before) ≤ unused k before := unused_spend_le
  have later : unused k (spend k now after) ≤ unused k after := unused_spend_le
  have gone : unused k (spend k now [t]) = 0 := by
    simp [unused, spend, at_, Ticket.live, fits, fresh]
  have counted : unused k [t] = 1 := by simp [unused, at_, fresh]
  have split : ∀ first rest : List (Ticket κ σ τ),
      unused k (first ++ rest) = unused k first + unused k rest :=
    fun first rest => List.countP_append
  have spread : spend k now (before ++ t :: after) =
      spend k now before ++ (spend k now [t] ++ spend k now after) := by
    simp [spend]
  rw [spread, split, split, gone, ← List.singleton_append, split, split, counted]
  omega

/-- What was redeemed and what may still be is no more than before. -/
theorem unused_redeem (k' : κ) (redeemed : redeem k now rows = some (subject, rows')) :
    unused k' rows' + (if k = k' then 1 else 0) ≤ unused k' rows := by
  obtain ⟨t, member, at_, -, fits, fresh, rfl⟩ := redeem_eq_some redeemed
  by_cases same : k = k'
  · subst same
    rw [if_pos rfl]
    exact unused_spend_lt member at_ fits fresh
  · rw [if_neg same]
    exact unused_spend_le

end Spend

end OneTime
