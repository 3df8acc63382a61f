import ScoutPulse.Football.Player.Validate
import ScoutPulse.Football.Squad.Transfer
import ScoutPulse.Lib.Dates

/-!
# The database under an import

What an import relies on of Postgres: the casts between text and dates, and what the types
of the columns and the foreign keys take. A statement is sent for every few thousand rows.
-/

namespace ScoutPulse.Importer

open Dates (dayLength)
open Players (Instant)
open Squad (Date)

/-- The casts between text and dates. -/
class Postgres where
  /-- The day a text names; none when the cast fails. -/
  toDay : String → Option Date
  dayText : Date → String

/-- Whether the types of the columns of a table and its foreign keys take a row. -/
class Takes (α : Type) where
  takes : α → Bool

/-- The day of a point in time, as text. -/
def instantText [Postgres] (t : Instant) : String := Postgres.dayText (t / dayLength)

def chunkSize : ℕ := 5000

section Chunks

variable {σ ρ : Type} {statement : σ → List ρ → Option σ} {each : σ → ρ → Option σ}

/-- `inChunks`. -/
def inChunks (statement : σ → List ρ → Option σ) (s : σ) (rows : List ρ) : Option σ :=
  (List.range ((rows.length + (chunkSize - 1)) / chunkSize)).foldlM
    (fun s k => statement s ((rows.drop (k * chunkSize)).take chunkSize)) s

/-- What the first chunks keep, of the rows they have been sent, when each of them does. -/
theorem chunks_invariant {rows : List ρ} {P : σ → List ρ → Prop} {s s' : σ} (count : ℕ)
    (start : P s [])
    (step : ∀ {s s' done chunk}, P s done → chunk ⊆ rows → statement s chunk = some s' →
      P s' (done ++ chunk))
    (run : (List.range count).foldlM
      (fun s k => statement s ((rows.drop (k * chunkSize)).take chunkSize)) s = some s') :
    P s' (rows.take (count * chunkSize)) := by
  induction count generalizing s' with
  | zero =>
      obtain rfl := Option.some.inj run
      rwa [Nat.zero_mul, List.take_zero]
  | succ count ih =>
      rw [List.range_succ, List.foldlM_append, Option.bind_eq_bind,
        Option.bind_eq_some_iff] at run
      obtain ⟨middle, before, last⟩ := run
      rw [List.foldlM_cons, Option.bind_eq_bind, Option.bind_eq_some_iff] at last
      obtain ⟨_, last, same⟩ := last
      cases same
      rw [Nat.succ_mul, List.take_add]
      exact step (ih before)
        (List.Subset.trans (List.take_subset _ _) (List.drop_subset _ _)) last

/-- What each chunk keeps, of the rows sent so far, holds of all rows at the end. -/
theorem inChunks_invariant {rows : List ρ} {P : σ → List ρ → Prop} {s s' : σ}
    (run : inChunks statement s rows = some s') (start : P s [])
    (step : ∀ {s s' done chunk}, P s done → chunk ⊆ rows → statement s chunk = some s' →
      P s' (done ++ chunk)) : P s' rows := by
  have whole := chunks_invariant _ start step run
  rwa [List.take_of_length_le] at whole
  rw [chunkSize]
  omega

/-- What is done in chunks is done to every row in turn. -/
theorem foldlM_of_inChunks {rows : List ρ} {s s' : σ}
    (narrow : ∀ {s s' rows}, statement s rows = some s' → rows.foldlM each s = some s')
    (run : inChunks statement s rows = some s') : rows.foldlM each s = some s' := by
  refine inChunks_invariant (P := fun t done => done.foldlM each s = some t) run rfl ?_
  intro t t' done chunk before _ sent
  rw [List.foldlM_append, before]
  exact narrow sent

/-- What a statement does to one part of the tables, the chunks do to that part. -/
theorem inChunks_view {τ : Type} (view : σ → τ) {statementAt : τ → List ρ → Option τ}
    {rows : List ρ} {s s' : σ}
    (step : ∀ {s s' rows}, statement s rows = some s' → statementAt (view s) rows = some (view s'))
    (run : inChunks statement s rows = some s') :
    inChunks statementAt (view s) rows = some (view s') := by
  unfold inChunks at run ⊢
  generalize List.range ((rows.length + (chunkSize - 1)) / chunkSize) = chunks at run ⊢
  induction chunks generalizing s with
  | nil =>
      cases run
      rfl
  | cons k chunks ih =>
      rw [List.foldlM_cons, Option.bind_eq_bind, Option.bind_eq_some_iff] at run ⊢
      obtain ⟨middle, first, rest⟩ := run
      exact ⟨view middle, step first, ih rest⟩

/-- What is noted down chunk by chunk always comes to something. -/
theorem inChunks_total {τ : Type} (note : τ → List ρ → τ) (u : τ) (rows : List ρ) :
    ∃ u', inChunks (fun u chunk => some (note u chunk)) u rows = some u' := by
  unfold inChunks
  generalize List.range ((rows.length + (chunkSize - 1)) / chunkSize) = chunks
  induction chunks generalizing u with
  | nil => exact ⟨u, rfl⟩
  | cons k chunks ih =>
      rw [List.foldlM_cons]
      exact ih _

/-- What is noted down beside a statement, chunk by chunk, leaves its run as it is. -/
theorem inChunks_pair {τ : Type} (note : τ → List ρ → τ) (u : τ) {rows : List ρ} {s s' : σ}
    (run : inChunks statement s rows = some s') :
    ∃ u', inChunks (fun p chunk => (statement p.1 chunk).map (·, note p.2 chunk)) (s, u) rows =
        some (s', u') ∧
      inChunks (fun u chunk => some (note u chunk)) u rows = some u' := by
  unfold inChunks at run ⊢
  generalize List.range ((rows.length + (chunkSize - 1)) / chunkSize) = chunks at run ⊢
  induction chunks generalizing s u with
  | nil =>
      cases run
      exact ⟨u, rfl, rfl⟩
  | cons k chunks ih =>
      rw [List.foldlM_cons, Option.bind_eq_bind, Option.bind_eq_some_iff] at run
      obtain ⟨middle, first, rest⟩ := run
      obtain ⟨last, both, notes⟩ := ih (note u ((rows.drop (k * chunkSize)).take chunkSize)) rest
      refine ⟨last, ?_, ?_⟩
      · rw [List.foldlM_cons]
        dsimp only
        rw [first]
        exact both
      · rw [List.foldlM_cons]
        exact notes

/-- A statement that does nothing for any of the rows does nothing in chunks. -/
theorem inChunks_of_idle {rows : List ρ} {s : σ}
    (idle : ∀ chunk, chunk ⊆ rows → statement s chunk = some s) :
    inChunks statement s rows = some s := by
  unfold inChunks
  generalize List.range ((rows.length + (chunkSize - 1)) / chunkSize) = chunks
  induction chunks with
  | nil => rfl
  | cons k chunks ih =>
      rw [List.foldlM_cons, Option.bind_eq_bind, Option.bind_eq_some_iff]
      exact ⟨s, idle _ (List.Subset.trans (List.take_subset _ _) (List.drop_subset _ _)), ih⟩

end Chunks

end ScoutPulse.Importer
