import ScoutPulse.Football.Authorizer
import ScoutPulse.Lib.Dates
import ScoutPulse.Lib.Machine
import ScoutPulse.Lib.Outcome
import ScoutPulse.Lib.Rows
import Mathlib.Algebra.Order.Ring.Int

/-!
# Coaches and their spells

The rows of `coaches` and `coach_spells`, and the requests that write them, one after
the other. A coach's club is stored beside the spell it follows from.
-/

namespace ScoutPulse.Coaches

open Dates (Moment)
open Outcome

/-- A `DATE`, in days since the zero time. -/
abbrev Date := ℤ

/-- The columns of `coaches` that a plain update writes. -/
structure CoachDetails where
  name : String
  firstName : Option String
  lastName : Option String
  dateOfBirth : Option Date
  nationality : Option String
  contractUntil : Option Date
  deriving DecidableEq

/-- `domain.Coach`, by its `id`. -/
structure Coach where
  teamID : Option String
  details : CoachDetails
  deriving DecidableEq

/-- `domain.CoachSpell`, with dates of some kind. A spell without an end date is open. -/
structure CoachSpellOf (δ : Type) where
  id : String
  coachID : String
  teamID : Option String
  role : String
  startDate : δ
  endDate : Option δ
  deriving DecidableEq

/-- A spell as its columns keep it. -/
abbrev CoachSpell := CoachSpellOf Date

/-- A spell as a request sends it. -/
abbrev SentSpell := CoachSpellOf Moment

/-- What the columns keep of a spell that is sent. -/
def CoachSpellOf.kept (spell : SentSpell) : CoachSpell :=
  { spell with startDate := spell.startDate.day, endDate := spell.endDate.map Moment.day }

def spellHeadCoach : String := "head_coach"

/-- `ValidSpellRole`. -/
def validSpellRole (role : String) : Bool :=
  role ∈ ["", "head_coach", "assistant_coach", "interim_coach", "caretaker",
    "director_of_football", "youth_coach"]

/-- The checks of `RecordSpell` on its argument, where `horizon` is the instant a year from
now. -/
def validateSpell (spell : SentSpell) (horizon : ℤ) : Except AppErr SentSpell := do
  if spell.coachID = "" then throw (.invalid "coach_id is required")
  if spell.startDate.instant = 0 then throw (.invalid "start_date is required")
  if spell.endDate.any (·.instant < spell.startDate.instant) = true then
    throw (.invalid "end_date must be on or after start_date")
  if horizon < spell.startDate.instant then
    throw (.invalid "start_date cannot be more than a year in the future")
  let role := if spell.role = "" then spellHeadCoach else spell.role
  if validSpellRole role = false then
    throw (.invalid "role must be one of: head_coach, assistant_coach, interim_coach, caretaker, director_of_football, youth_coach")
  return { spell with role := role }

/-- `validateCoach`. -/
def validateCoach (details : CoachDetails) : Except AppErr Unit := do
  if details.name = "" then throw (.invalid "name is required")

/-- The tables. -/
structure Store where
  teams : String → Bool
  coaches : String → Option Coach
  spells : List CoachSpell

namespace Store

variable (s : Store)

/-- `GetByID`. -/
def getByID (id : String) : Except AppErr Coach :=
  match s.coaches id with
  | none => throw (.notFound "coach not found")
  | some coach => return coach

/-- The foreign key to `teams`. -/
def checkTeam (teamID : Option String) : Except AppErr Unit :=
  if teamID.any (fun t => !s.teams t) = true then
    throw (.invalid "referenced record does not exist")
  else return ()

/-- `CHECK (end_date IS NULL OR end_date >= start_date)`: in two zones, moments in order may
be days out of order. -/
def checkOrdered (spell : CoachSpell) : Except AppErr Unit :=
  if spell.endDate.any (· < spell.startDate) = true then
    throw (.invalid "a field failed a validation rule")
  else return ()

/-- Whether a coach has a spell that starts after a date. -/
def laterExists (coachID : String) (date : Date) : Bool :=
  s.spells.any fun x => x.coachID = coachID && date < x.startDate

/-- `UPDATE coach_spells SET end_date`, on one row. -/
def closePrevious (spell x : CoachSpell) : CoachSpell :=
  if x.coachID = spell.coachID ∧ x.endDate = none ∧ x.startDate ≤ spell.startDate then
    { x with endDate := some spell.startDate }
  else x

/-- `SET team_id = NULL`, where the club is the one deleted. -/
def dropTeam (id : String) (teamID : Option String) : Option String :=
  if teamID = some id then none else teamID

/-- `Record`: one transaction. -/
def record (spell : CoachSpell) : Except AppErr Store := do
  let later := s.laterExists spell.coachID spell.startDate
  if later = true ∧ spell.endDate = none then
    throw (.invalid "this coach has a later spell on record; a backdated spell must have an end_date")
  checkOrdered spell
  s.checkTeam spell.teamID
  let spells := if later = true then s.spells else s.spells.map (closePrevious spell)
  let s := { s with spells := spells ++ [spell] }
  if spell.endDate = none ∧ later = false then
    let coach ← s.getByID spell.coachID
    return { s with
      coaches := Function.update s.coaches spell.coachID
        (some { coach with teamID := spell.teamID }) }
  else return s

end Store

/-- What a request asks for. -/
inductive Request
  | createCoach (coach : Coach)
  | recordSpell (spell : SentSpell)
  | updateCoach (id : String) (details : CoachDetails)
  | deleteSpell (id : String)
  | deleteTeam (id : String)

/-- What a request draws: the key of a new row, and the instant a year from now. -/
structure Draw where
  id : String
  horizon : ℤ

/-- One request from beginning to end. -/
def Store.serve (s : Store) (caller : Caller) (d : Draw) : Request → Except AppErr Store
  | .createCoach coach => do
      caller.requireTargetTeam coach.teamID
      validateCoach coach.details
      s.checkTeam coach.teamID
      return { s with coaches := Function.update s.coaches d.id (some coach) }
  | .recordSpell spell => do
      let spell ← validateSpell spell d.horizon
      let coach ← s.getByID spell.coachID
      caller.requireEitherTeam coach.teamID spell.teamID
      s.record { spell.kept with id := d.id }
  | .updateCoach id details => do
      let existing ← s.getByID id
      caller.requireTargetTeam existing.teamID
      validateCoach details
      return { s with
        coaches := Function.update s.coaches id (some { existing with details := details }) }
  | .deleteSpell id => do
      caller.requireAdmin
      if s.spells.all (·.id ≠ id) = true then throw (.notFound "coach spell not found")
      return { s with spells := s.spells.filter (·.id ≠ id) }
  | .deleteTeam id => do
      caller.requireAdmin
      if s.teams id = false then throw (.notFound "team not found")
      return {
        teams := Function.update s.teams id false
        coaches := fun k => (s.coaches k).map fun c =>
          { c with teamID := Store.dropTeam id c.teamID }
        spells := s.spells.map fun x => { x with teamID := Store.dropTeam id x.teamID } }

/-- A key no coach and no spell has. -/
def Store.fresh (s : Store) (id : String) : Bool :=
  (s.coaches id).isNone && s.spells.all (·.id ≠ id)

structure Label where
  caller : Caller
  draw : Draw
  request : Request

/-- The requests one after the other, from a store with clubs and no coach. A request
that fails leaves the store alone. -/
def appointments : Machine Store Label where
  start s := s.coaches = (fun _ => none) ∧ s.spells = []
  next s label :=
    if s.fresh label.draw.id then
      match s.serve label.caller label.draw label.request with
      | .ok s' => some s'
      | .error _ => some s
    else none

end ScoutPulse.Coaches
