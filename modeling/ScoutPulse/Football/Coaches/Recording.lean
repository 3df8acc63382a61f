import ScoutPulse.Football.Coaches.Spells
import ScoutPulse.Lib.Parties
import ScoutPulse.Lib.ReadCommitted

/-!
# Recording spells at the same time

`RecordSpell` and `DeleteSpell`, statement by statement, for any number of requests at
once. `Record` looks for later spells, ends the open ones, inserts the new one and names
the coach's club, in a transaction that locks nothing before it writes.
-/

namespace ScoutPulse.Coaches.Recording

open ReadCommitted

/-- What a request was sent for. -/
inductive Kind
  | recordSpell (caller : Caller) (spell : SentSpell)
  | deleteSpell (caller : Caller) (id : String)

/-- How far a request has come. -/
inductive Stage
  | begun
  /-- `RecordSpell` has checked the spell, its coach and its caller. -/
  | admitted (spell : CoachSpell)
  /-- `Record` has found no later spell. -/
  | checked (spell : CoachSpell)
  /-- The statement that ends the open spells has yet to come to `targets`. -/
  | closing (spell : CoachSpell) (targets : List String)
  /-- The open spells have been ended, or there is a later one. -/
  | closed (spell : CoachSpell) (later : Bool)
  /-- The spell has been inserted. -/
  | filed (spell : CoachSpell) (later : Bool) (id : String)
  /-- The coach's club has been named, if the spell is the appointment. -/
  | appointed (spell : CoachSpell) (id : String)
  /-- `DELETE` has yet to come to `targets`. -/
  | deleting (id : String) (targets : List String) (hit : Bool)
  | ended (reason : Option AppErr)
  deriving DecidableEq

structure Request where
  kind : Kind
  stage : Stage

/-- The clubs and coaches, the spells with every key ever given out, and the requests in
order of arrival. -/
structure State where
  teams : String → Bool
  coaches : Table String Coach ℕ
  spells : Table String CoachSpell ℕ
  spellIDs : List String
  requests : List Request

/-- What a step draws: the key of a new row or of the row it comes to, and the instant a year
from now. -/
structure Draw where
  id : String
  horizon : ℤ

inductive Label
  | arrive (kind : Kind)
  | advance (i : ℕ) (draw : Draw)
  | abort (i : ℕ)

/-- `UPDATE coach_spells SET end_date`. -/
def closePrevious (spell : CoachSpell) : Statement String CoachSpell where
  picks _ row := row.coachID = spell.coachID && row.endDate.isNone &&
    row.startDate ≤ spell.startDate
  change row := some { row with endDate := some spell.startDate }

/-- `DELETE FROM coach_spells`. -/
def deleteRow (id : String) : Statement String CoachSpell where
  picks k _ := k = id
  change _ := none

namespace State

/-- A request comes to another stage. -/
def move (s : State) (i : ℕ) (r : Request) (stage : Stage) : State :=
  { s with requests := s.requests.set i { r with stage := stage } }

/-- A request commits. -/
def finish (s : State) (i : ℕ) (r : Request) : State :=
  { s with
    coaches := s.coaches.commit i
    spells := s.spells.commit i }.move i r (.ended none)

/-- A request fails, and all it has done is taken back. -/
def fail (s : State) (i : ℕ) (r : Request) (reason : AppErr) : State :=
  { s with
    coaches := s.coaches.rollback i
    spells := s.spells.rollback i }.move i r (.ended (some reason))

/-- `SELECT EXISTS` of `Record`. -/
def laterExists (s : State) (i : ℕ) (spell : CoachSpell) : Bool :=
  s.spellIDs.any fun k => (s.spells.visible i k).any fun x =>
    x.coachID = spell.coachID && spell.startDate < x.startDate

end State

/-- `RecordSpell` up to `Record`, from the coach it reads; and what `Record` will have its
columns keep. -/
def admitSpell (caller : Caller) (found : Option Coach) (spell : SentSpell) (horizon : ℤ) :
    Except AppErr CoachSpell := do
  let spell ← validateSpell spell horizon
  match found with
  | none => throw (.notFound "coach not found")
  | some coach =>
      caller.requireEitherTeam coach.teamID spell.teamID
      return spell.kept

/-- The first step of a request. -/
def beginRequest (s : State) (i : ℕ) (r : Request) (d : Draw) : Kind → State
  | .recordSpell caller spell =>
      match admitSpell caller (s.coaches.committed spell.coachID) spell d.horizon with
      | .error reason => s.fail i r reason
      | .ok spell => s.move i r (.admitted spell)
  | .deleteSpell caller id =>
      match caller.requireAdmin with
      | .error reason => s.fail i r reason
      | .ok _ => s.move i r (.deleting id ((deleteRow id).targets s.spells i s.spellIDs) false)

/-- `INSERT INTO coach_spells`. -/
def insertSpell (s : State) (i : ℕ) (id : String) (spell : CoachSpell) : State :=
  { s with
    spells := s.spells.write i id (some { spell with id := id })
    spellIDs := id :: s.spellIDs }

/-- `UPDATE coaches SET team_id`. -/
def appoint (s : State) (i : ℕ) (r : Request) (spell : CoachSpell) (id : String) : Option State :=
  if s.coaches.blocked i spell.coachID then none
  else match s.coaches.visible i spell.coachID with
    | none => some (s.fail i r (.notFound "coach not found"))
    | some coach => some ({ s with
        coaches := s.coaches.write i spell.coachID
          (some { coach with teamID := spell.teamID }) }.move i r (.appointed spell id))

/-- One step of a request. -/
def advanceRequest (s : State) (i : ℕ) (r : Request) (d : Draw) : Option State :=
  match r.stage with
  | .begun => some (beginRequest s i r d r.kind)
  | .admitted spell =>
      if s.laterExists i spell then
        if spell.endDate = none then
          some (s.fail i r (.invalid "this coach has a later spell on record; a backdated spell must have an end_date"))
        else some (s.move i r (.closed spell true))
      else some (s.move i r (.checked spell))
  | .checked spell =>
      some (s.move i r (.closing spell ((closePrevious spell).targets s.spells i s.spellIDs)))
  | .closing spell targets =>
      if targets = [] then some (s.move i r (.closed spell false))
      else if d.id ∈ targets then
        ((closePrevious spell).visit s.spells i d.id).map fun visited =>
          { s with spells := visited.1 }.move i r (.closing spell (targets.erase d.id))
      else none
  | .closed spell later =>
      if d.id ∈ s.spellIDs then none
      else if spell.endDate.any (· < spell.startDate) then
        some (s.fail i r (.invalid "a field failed a validation rule"))
      else if spell.teamID.any (fun t => !s.teams t) then
        some (s.fail i r (.invalid "referenced record does not exist"))
      else some ((insertSpell s i d.id spell).move i r (.filed spell later d.id))
  | .filed spell later id =>
      if spell.endDate = none ∧ later = false then appoint s i r spell id
      else some (s.move i r (.appointed spell id))
  | .appointed _ _ => some (s.finish i r)
  | .deleting id targets hit =>
      if targets = [] then
        if hit then some (s.finish i r) else some (s.fail i r (.notFound "coach spell not found"))
      else if d.id ∈ targets then
        ((deleteRow id).visit s.spells i d.id).map fun visited =>
          { s with spells := visited.1 }.move i r (.deleting id (targets.erase d.id)
            (visited.2 || hit))
      else none
  | .ended _ => none

/-- The requests of a service that starts with clubs, coaches and no spell. -/
def recording : Machine State Label where
  start s := s.coaches.held = (fun _ => none) ∧ s.spells = .empty ∧ s.spellIDs = [] ∧
    s.requests = []
  next s
    | .arrive kind => some { s with requests := s.requests ++ [⟨kind, .begun⟩] }
    | .advance i d => (s.requests[i]?).bind fun r => advanceRequest s i r d
    | .abort i => (s.requests[i]?).bind fun r =>
        match r.stage with
        | .ended _ => none
        | _ => some (s.fail i r .internal)

/-- No coach has two spells without an end date. -/
def OneJob (s : State) : Prop :=
  ∀ k k' row row', s.spells.committed k = some row → s.spells.committed k' = some row' →
    row.coachID = row'.coachID → row.endDate = none → row'.endDate = none → k = k'

/-- A request in a stage would miss an open spell that is committed now: it has looked for
the spells to end, or for later ones, and this one is later. -/
def Stage.misses (spell : CoachSpell) : Stage → Bool
  | .checked other => other.endDate.isNone && other.coachID = spell.coachID &&
      other.startDate < spell.startDate
  | .closing other _ | .closed other _ | .filed other _ _ | .appointed other _ =>
      other.endDate.isNone && other.coachID = spell.coachID
  | _ => false

/-- The spell a request is about to commit. -/
def Stage.appointment : Stage → Option CoachSpell
  | .appointed spell _ => some spell
  | _ => none

/-- The condition on a step: an open spell is committed only while no other request that
records an open spell of the coach would miss it. -/
def Seen (s : State) : Label → Prop
  | .advance i _ => ∀ r ∈ s.requests[i]?, ∀ spell ∈ r.stage.appointment, spell.endDate = none →
      ∀ j < s.requests.length, j ≠ i → ∀ q ∈ s.requests[j]?, q.stage.misses spell = false
  | _ => True

instance (s : State) (label : Label) : Decidable (Seen s label) :=
  match label with
  | .advance i _ => inferInstanceAs (Decidable (∀ r ∈ s.requests[i]?,
      ∀ spell ∈ r.stage.appointment, spell.endDate = none → ∀ j < s.requests.length, j ≠ i →
        ∀ q ∈ s.requests[j]?, q.stage.misses spell = false))
  | .arrive _ => .isTrue trivial
  | .abort _ => .isTrue trivial

end ScoutPulse.Coaches.Recording
