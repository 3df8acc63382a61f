import ScoutPulse.Football.Importer.Names
import ScoutPulse.Football.Importer.Dataset

/-!
# The state of an import

What the steps of one import share: the references to the source's ids, what has been
found for each of them, and what will be reported.
-/

namespace ScoutPulse.Importer

/-- `Report`: what an import did, and what it could not reconcile. -/
structure Report where
  leaguesCreated : ℕ := 0
  leaguesMatched : ℕ := 0
  seasonsCreated : ℕ := 0
  clubsCreated : ℕ := 0
  clubsMatched : ℕ := 0
  playersCreated : ℕ := 0
  playersMatched : ℕ := 0
  transfersCreated : ℕ := 0
  transfersUpdated : ℕ := 0
  transfersAdopted : ℕ := 0
  openingsRemoved : ℕ := 0
  valuations : ℕ := 0
  statLines : ℕ := 0
  entries : ℕ := 0
  clubsNotInSource : List String := []
  playersNotInSource : List String := []
  deriving DecidableEq

/-- `ref`: one source id and the row it became. -/
structure Ref where
  kind : String
  external : String
  localID : String
  deriving DecidableEq

/-- `season`: a row of `seasons`, its days as text. -/
structure Season where
  id : String
  startDate : String
  endDate : String
  deriving DecidableEq

/-- `merge`. -/
structure Merge where
  d : Dataset
  scope : Scope
  report : Report
  /-- From a kind and an external id to the local id. -/
  refs : AList fun _ : String × String => String
  newRefs : List Ref
  comps : GoMap String
  seasons : List Season
  clubs : GoMap String
  players : GoMap String
  /-- The players that existed before this run began. -/
  matched : List String
  /-- How many ids `uuid.NewString` has made. -/
  drawn : ℕ

namespace Merge

variable (m : Merge)

/-- `ref`. -/
def ref (kind external : String) : Option String := m.refs.lookup (kind, external)

/-- `remember`. -/
def remember (kind external id : String) : Merge :=
  if m.ref kind external = some id then m
  else { m with
    refs := m.refs.insert (kind, external) id
    newRefs := m.newRefs ++ [⟨kind, external, id⟩] }

theorem ref_remember (kind external id : String) :
    (m.remember kind external id).ref kind external = some id := by
  unfold remember
  split
  case isTrue stored => exact stored
  case isFalse => exact AList.lookup_insert _

theorem ref_remember_of_ne {kind external id kind' external' : String}
    (other : (kind', external') ≠ (kind, external)) :
    (m.remember kind external id).ref kind' external' = m.ref kind' external' := by
  unfold remember
  split
  case isTrue => rfl
  case isFalse => exact AList.lookup_insert_ne other

/-- Remembering a reference changes its kind at one external id. -/
theorem ref_remember_eq (kind external id : String) :
    (m.remember kind external id).ref kind =
      Function.update (m.ref kind) external (some id) := by
  funext k
  by_cases same : k = external
  · subst same
    rw [ref_remember, Function.update_self]
  · rw [ref_remember_of_ne _ (by simp [same]), Function.update_of_ne same]

/-- Remembering a reference leaves the other kinds alone. -/
theorem ref_remember_other {kind kind' : String} (other : kind' ≠ kind)
    (external id : String) : (m.remember kind external id).ref kind' = m.ref kind' := by
  funext k
  exact m.ref_remember_of_ne (by simp [other])

@[simp] theorem d_remember (kind external id : String) :
    (m.remember kind external id).d = m.d := by
  unfold remember
  split <;> rfl

@[simp] theorem clubs_remember (kind external id : String) :
    (m.remember kind external id).clubs = m.clubs := by
  unfold remember
  split <;> rfl

@[simp] theorem seasons_remember (kind external id : String) :
    (m.remember kind external id).seasons = m.seasons := by
  unfold remember
  split <;> rfl

@[simp] theorem players_remember (kind external id : String) :
    (m.remember kind external id).players = m.players := by
  unfold remember
  split <;> rfl

@[simp] theorem matched_remember (kind external id : String) :
    (m.remember kind external id).matched = m.matched := by
  unfold remember
  split <;> rfl

@[simp] theorem drawn_remember (kind external id : String) :
    (m.remember kind external id).drawn = m.drawn := by
  unfold remember
  split <;> rfl

end Merge

end ScoutPulse.Importer
