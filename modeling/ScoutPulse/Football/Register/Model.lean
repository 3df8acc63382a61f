import ScoutPulse.Football.Authorizer
import ScoutPulse.Football.Importer.Derived
import ScoutPulse.Football.Squad.Store

/-!
# Everything that writes transfers

A player created at a club, a move recorded or corrected, a club deleted, and an import. One
request ends before the next begins; one that fails leaves the tables as they were. What
a column keeps of a text need not be the text that was sent.
-/

namespace ScoutPulse.Register

open Dates (Moment dayLength midnight)
open Players (Instant Player validatePlayer)
open Squad (Transfer SentTransfer)
open Strings

/-! ## What columns keep of a text -/

/-- The texts a `UUID` column takes, and how each is written when it is read back. -/
class Uuids where
  read : String → Option String
  /-- What is read back stands for itself. -/
  read_read : ∀ {text id}, read text = some id → read id = some id
  some_ : ∀ {text id}, read text = some id → id ≠ ""

/-- What a `CHAR(3)` column keeps of a text, with blanks for the characters it lacks; what
is too long has to be blank. -/
def char3 (text : String) : Option String :=
  if (text.toList.drop 3).all (· = ' ') then
    some (String.ofList ((text.toList ++ [' ', ' ', ' ']).take 3))
  else none

example : char3 "GB" = some "GB " ∧ char3 "EUR  " = some "EUR" ∧ char3 "EURO" = none := by decide

/-- A text for a `UUID` column. -/
def uuid [Uuids] (text : String) : Except AppErr String :=
  (Uuids.read text).elim (throw (.invalid "malformed identifier")) pure

/-- A text, if any, for a `UUID` column that may be null. -/
def reference [Uuids] : Option String → Except AppErr (Option String)
  | none => return none
  | some text => do return some (← uuid text)

/-- A text for a column `currency`. -/
def currency (text : String) : Except AppErr String := (char3 text).elim (throw .internal) pure

/-! ## The requests -/

/-- The clubs, the tables that transfers depend on, the clock, and the instant a year from
now. -/
structure State where
  teams : List String
  tables : Importer.Tables
  clock : Instant
  horizon : Instant

/-- A foreign key to a club that may be missing. -/
def State.refersTo (s : State) (teamID : Option String) : Except AppErr Unit :=
  if teamID.all (· ∈ s.teams) then return ()
  else throw (.invalid "referenced record does not exist")

/-- The columns of a player that a transfer is opened from, their dates as days. -/
def details (p : Player) : Squad.PlayerDetails where
  name := p.name
  firstName := p.firstName
  lastName := p.lastName
  dateOfBirth := p.dateOfBirth.map (· / dayLength)
  nationalities := p.nationalities
  heightCM := p.heightCM
  preferredFoot := p.preferredFoot
  agent := p.agent
  squadNumber := p.squadNumber
  position := p.position
  secondaryPositions := p.secondaryPositions
  contractStart := p.contractStart.map (· / dayLength)
  contractUntil := p.contractUntil.map (· / dayLength)
  duelsWonPct := p.duelsWonPct
  passCompletionPct := p.passCompletionPct
  shotsOnTargetPct := p.shotsOnTargetPct
  aerialDuelsWonPct := p.aerialDuelsWonPct
  strengths := p.strengths
  weaknesses := p.weaknesses

/-- How far ahead of UTC the dates of a player are, as a request sends them. -/
structure Zones where
  dateOfBirth : ℤ
  contractStart : ℤ

/-- What the columns keep of the dates of a player: `contract_until` is no `DATE`. -/
def Zones.kept (zones : Zones) (p : Player) : Player :=
  { p with
    dateOfBirth := p.dateOfBirth.map fun at_ => midnight (Moment.mk at_ zones.dateOfBirth).day
    contractStart :=
      p.contractStart.map fun at_ => midnight (Moment.mk at_ zones.contractStart).day }

/-- The id a request that inserts draws for each row, and the season it finds for a date. -/
structure Drawn where
  player : String
  transfer : String
  season : Option String

section Requests

variable [Uuids] (c : Caller) (s : State)

/-- `GetByID`, and the id as it is stored. -/
def getByID {α : Type} (table : AList fun _ : String => α) (entity id : String) :
    Except AppErr (String × α) := do
  let id ← uuid id
  match table.lookup id with
  | none => throw (.notFound (entity ++ " not found"))
  | some row => return (id, row)

/-- `INSERT INTO transfers`. -/
def insertTransfer (id : String) (t : Transfer) : Importer.Tables :=
  { s.tables with
    transfers := s.tables.transfers.insert id ⟨t, s.tables.recorded⟩
    recorded := s.tables.recorded + 1 }

/-- `CreatePlayer`, with the transfer and the valuation that `Create` opens with. -/
def createPlayer [CaseFolding] (drawn : Drawn) (zones : Zones) (p : Player) :
    Except AppErr State := do
  c.requireTargetTeam p.teamID
  let p ← validatePlayer s.clock p
  let teamID ← reference p.teamID
  s.refersTo teamID
  let code ← currency p.currency
  let row := { zones.kept p with teamID := teamID, currency := code, createdAt := s.clock }
  let today := s.clock / dayLength
  let tables := match teamID with
    | none => s.tables
    | some teamID => insertTransfer s drawn.transfer
        (Squad.openingTransfer drawn.player teamID (details row) today)
  let values :=
    if 0 < p.marketValue ∧ (tables.values.lookup (drawn.player, today)).isNone then
      tables.values.insert (drawn.player, today) ⟨p.marketValue, code⟩
    else tables.values
  return { s with tables :=
    { tables with players := tables.players.insert drawn.player row, values := values } }

/-- A transfer as the columns keep it. -/
def columns (t : SentTransfer) : Except AppErr Transfer := do
  let fromTeam ← reference t.fromTeam
  let toTeam ← reference t.toTeam
  let seasonID ← reference t.seasonID
  let code ← currency t.currency
  return { t.kept with
    fromTeam := fromTeam, toTeam := toTeam, seasonID := seasonID, currency := code }

/-- The guard of `Record`: another move of the player is dated later. -/
def later (t : Transfer) : Bool :=
  s.tables.transfers.entries.any fun e =>
    e.2.transfer.playerID = t.playerID && t.transferDate < e.2.transfer.transferDate

/-- `RecordTransfer`, and `Record`. -/
def recordTransfer (drawn : Drawn) (t : SentTransfer) : Except AppErr State := do
  let t ← Squad.validateTransfer t s.horizon
  let (playerID, player) ← getByID s.tables.players "player" t.playerID
  Squad.checkOrigin ⟨player.teamID, details player⟩ t
  c.requireEitherTeam player.teamID t.toTeam
  let t := { t with seasonID := if t.seasonID = none then drawn.season else t.seasonID }
  if Squad.sameTeam player.teamID t.fromTeam = false then
    throw (.invalid "the player's club changed while this transfer was being recorded; retry with the current from_team_id")
  let t ← columns { t with playerID := playerID }
  s.refersTo t.fromTeam
  s.refersTo t.toTeam
  let tables := insertTransfer s drawn.transfer t
  let placed := { player with teamID := t.toTeam }
  if later s t then return { s with tables := tables }
  return { s with tables :=
    { tables with players := tables.players.insert playerID placed } }

/-- `UpdateTransfer`, and `Update`. -/
def updateTransfer (id : String) (t : SentTransfer) : Except AppErr State := do
  if id = "" then throw (.invalid "transfer id is required")
  let (key, existing) ← getByID s.tables.transfers "transfer" id
  c.requireEitherTeam existing.transfer.fromTeam existing.transfer.toTeam
  let t ← Squad.correctTransfer id (some existing.transfer) t s.horizon
  let code ← currency t.currency
  let seasonID ← reference t.seasonID
  return { s with tables := { s.tables with
    transfers := s.tables.transfers.insert key
      (existing.correct { t with currency := code, seasonID := seasonID }) } }

/-- `ON DELETE SET NULL` of the clubs of a transfer. -/
def clearClub (teamID : String) (row : Squad.Move) : Squad.Move :=
  let row := if row.transfer.fromTeam = some teamID then row.dropOrigin else row
  if row.transfer.toTeam = some teamID then row.dropDestination else row

/-- `ON DELETE SET NULL` of the club of a player. -/
def leaveClub (teamID : String) (p : Player) : Player :=
  if p.teamID = some teamID then { p with teamID := none } else p

/-- `DeleteTeam`. -/
def deleteTeam (id : String) : Except AppErr State := do
  c.requireAdmin
  let id ← uuid id
  if id ∉ s.teams then throw (.notFound "team not found")
  return { s with
    teams := s.teams.filter (· ≠ id)
    tables := { s.tables with
      players := Upsert.changeAll (leaveClub id) s.tables.players
      transfers := Upsert.changeAll (clearClub id) s.tables.transfers } }

end Requests

/-! ## Runs of requests -/

inductive Label
  | createPlayer (c : Caller) (drawn : Drawn) (zones : Zones) (p : Player)
  | recordTransfer (c : Caller) (drawn : Drawn) (t : SentTransfer)
  | updateTransfer (c : Caller) (id : String) (t : SentTransfer)
  | deleteTeam (c : Caller) (id : String)
  /-- An import, from what it has found for the source's clubs and players. -/
  | load (newString : ℕ → String) (m : Importer.Merge)
  /-- Time passes. -/
  | pass (clock : Instant) (horizon : Instant)

/-- What Postgres draws for a new row is new. -/
def Drawn.New [Uuids] (drawn : Drawn) (s : State) : Prop :=
  Uuids.read drawn.player = some drawn.player ∧ Uuids.read drawn.transfer = some drawn.transfer ∧
    s.tables.players.lookup drawn.player = none ∧ s.tables.transfers.lookup drawn.transfer = none

instance [Uuids] (drawn : Drawn) (s : State) : Decidable (drawn.New s) :=
  inferInstanceAs (Decidable (_ ∧ _ ∧ _ ∧ _))

/-- A reading of the clock: some day after the zero time, and the instant a year from then. -/
def Reading (clock : Instant) (horizon : Instant) : Prop :=
  0 < clock / dayLength ∧ clock ≤ horizon

instance (clock : Instant) (horizon : Instant) : Decidable (Reading clock horizon) :=
  inferInstanceAs (Decidable (_ ∧ _))

section Machine

open Importer (Joins MoveRow PlayerRow Postgres Takes ValueRow)

variable [Unicode] [CaseFolding] [Postgres] [Joins] [Takes PlayerRow] [Takes ValueRow]
  [Takes MoveRow] [Uuids]

/-- What a request makes of the register, when it does not fail. -/
def next (s : State) : Label → Option State
  | .createPlayer c drawn zones p =>
      if drawn.New s then (createPlayer c s drawn zones p).toOption else none
  | .recordTransfer c drawn t =>
      if drawn.New s then (recordTransfer c s drawn t).toOption else none
  | .updateTransfer c id t => (updateTransfer c s id t).toOption
  | .deleteTeam c id => (deleteTeam c s id).toOption
  | .load newString m =>
      (Importer.importCareers s.clock newString s.tables m).map fun tables =>
        { s with
          teams := s.teams ++ m.clubs.entries.map (·.2)
          tables := tables }
  | .pass clock horizon =>
      -- `AddDate` makes the first of March of the last day of a February and of the day
      -- after it, so a year from now is not always a later instant, only a later day.
      if s.clock ≤ clock ∧ s.horizon / dayLength ≤ horizon / dayLength ∧
          Reading clock horizon then
        some { s with clock := clock, horizon := horizon }
      else none

/-- A register with its clubs and neither players nor transfers. -/
def requests : Machine State Label where
  start s := s.tables = ⟨∅, ∅, ∅, 0⟩ ∧ Reading s.clock s.horizon
  next := next

end Machine

end ScoutPulse.Register
