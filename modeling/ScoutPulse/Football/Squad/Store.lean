import ScoutPulse.Football.Squad.Transfer
import ScoutPulse.Lib.Machine
import ScoutPulse.Lib.ReadCommitted
import Mathlib.Data.List.MinMax

/-!
# The football store

The requests that write `players` and `transfers`, statement by statement. Each step
is one statement, one row of a cascade, or one foreign key checked; a statement that
has to wait for a lock has no step until the lock is given back. A request may break
off at any point, which takes back all it has done.

A foreign key to a club holds the club's row in place until the transaction ends: a
`DELETE` of the club waits for it, and it waits for a `DELETE` of the club.
-/

namespace ScoutPulse.Squad

open ReadCommitted

/-- What a request was sent for. -/
inductive Kind
  | createPlayer (teamID : Option String) (details : PlayerDetails)
  | recordTransfer (t : SentTransfer)
  | updateTransfer (id : String) (t : SentTransfer)
  | updatePlayer (id : String) (details : PlayerDetails)
  | deleteTeam (id : String)
  deriving DecidableEq

/-- The foreign keys that a `DELETE` of a club sets to null, in order. -/
inductive Cascade
  /-- `players.team_id` -/
  | players
  /-- `transfers.from_team_id` -/
  | origins
  /-- `transfers.to_team_id` -/
  | destinations
  deriving DecidableEq

/-- How a request ended. -/
inductive Outcome
  | committed
  | failed (reason : AppErr)
  deriving DecidableEq

/-- How far a request has come. -/
inductive Stage
  | begun
  /-- `RecordTransfer` has checked the move against a player it has read. -/
  | admitted (t : Transfer)
  /-- `Record` has the player's lock and has checked the origin again. -/
  | locked (t : Transfer)
  /-- `Record` has inserted the move, whose clubs are still to be checked. -/
  | filed (t : Transfer) (id : String) (clubs : List String)
  /-- `Record` has moved the player, or left them. -/
  | placed (t : Transfer) (id : String)
  /-- `Create` has inserted the player, whose club is still to be checked. -/
  | created (id : String) (createdAt : Date) (clubs : List String)
  /-- `Create` has inserted the opening transfer, if there is one. -/
  | opened (id : String)
  /-- `UpdateTransfer` has what it will write. -/
  | correcting (t : Transfer)
  /-- `UpdatePlayer` has found its player. -/
  | editing
  /-- A plain update has written its row. -/
  | written
  /-- `DELETE` of a club: rows a cascade has yet to come to. -/
  | clearing (cascade : Cascade) (targets : List String)
  | ended (outcome : Outcome)
  deriving DecidableEq

structure Request where
  kind : Kind
  stage : Stage
  deriving DecidableEq

/-- The tables, the clubs' rows that a foreign key holds in place and for whom, every
key ever given out in two of the tables, and the requests in order of arrival. -/
structure Store where
  teams : Table String Unit ℕ
  shared : List (String × ℕ)
  players : Table String Player ℕ
  transfers : Table String Move ℕ
  playerIDs : List String
  transferIDs : List String
  requests : List Request

/-- What a step draws: the key of a new row or of the row it comes to, the season
found for a date, today's date, and the instant a year from now. -/
structure Draw where
  id : String
  season : Option String
  today : Date
  horizon : ℤ

inductive Label
  | arrive (kind : Kind)
  | advance (i : ℕ) (draw : Draw)
  | abort (i : ℕ)

/-- `SET team_id = NULL`. -/
def Player.release (row : Player) : Player := { row with teamID := none }

/-- `SET from_team_id = NULL`. -/
def Move.dropOrigin (row : Move) : Move :=
  { row with transfer := { row.transfer with fromTeam := none } }

/-- `SET to_team_id = NULL`. -/
def Move.dropDestination (row : Move) : Move :=
  { row with transfer := { row.transfer with toTeam := none } }

/-- `ON DELETE SET NULL` of `players.team_id`. -/
def releasePlayers (teamID : String) : Statement String Player where
  picks _ row := row.teamID = some teamID
  change row := some row.release

/-- `ON DELETE SET NULL` of `transfers.from_team_id`. -/
def clearOrigins (teamID : String) : Statement String Move where
  picks _ row := row.transfer.fromTeam = some teamID
  change row := some row.dropOrigin

/-- `ON DELETE SET NULL` of `transfers.to_team_id`. -/
def clearDestinations (teamID : String) : Statement String Move where
  picks _ row := row.transfer.toTeam = some teamID
  change row := some row.dropDestination

/-- The clubs a row of `transfers` refers to. -/
def TransferOf.clubs (t : Transfer) : List String := t.fromTeam.toList ++ t.toTeam.toList

namespace Store

/-- A request comes to another stage. -/
def move (s : Store) (i : ℕ) (r : Request) (stage : Stage) : Store :=
  { s with requests := s.requests.set i { r with stage := stage } }

/-- A request commits. -/
def finish (s : Store) (i : ℕ) (r : Request) : Store :=
  { s with
    teams := s.teams.commit i
    shared := s.shared.filter fun lock => lock.2 ≠ i
    players := s.players.commit i
    transfers := s.transfers.commit i }.move i r (.ended .committed)

/-- A request fails, and all it has done is taken back. -/
def fail (s : Store) (i : ℕ) (r : Request) (reason : AppErr) : Store :=
  { s with
    teams := s.teams.rollback i
    shared := s.shared.filter fun lock => lock.2 ≠ i
    players := s.players.rollback i
    transfers := s.transfers.rollback i }.move i r (.ended (.failed reason))

/-- The guard of `Record`: another move of the player is dated later. -/
def later (s : Store) (i : ℕ) (t : Transfer) (id : String) : Bool :=
  s.transferIDs.any fun k => (s.transfers.visible i k).any fun older =>
    older.transfer.playerID = t.playerID && k ≠ id && t.transferDate < older.transfer.transferDate

/-- The rows a cascade sets out with. -/
def targets (s : Store) (i : ℕ) (teamID : String) : Cascade → List String
  | .players => (releasePlayers teamID).targets s.players i s.playerIDs
  | .origins => (clearOrigins teamID).targets s.transfers i s.transferIDs
  | .destinations => (clearDestinations teamID).targets s.transfers i s.transferIDs

/-- A cascade comes to one row. -/
def visit (s : Store) (i : ℕ) (teamID k : String) : Cascade → Option Store
  | .players => ((releasePlayers teamID).visit s.players i k).map fun visited =>
      { s with players := visited.1 }
  | .origins => ((clearOrigins teamID).visit s.transfers i k).map fun visited =>
      { s with transfers := visited.1 }
  | .destinations => ((clearDestinations teamID).visit s.transfers i k).map fun visited =>
      { s with transfers := visited.1 }

/-- A foreign key to a club is checked, with what comes after. -/
def refer (s : Store) (i : ℕ) (r : Request) (teamID : String) (rest : Stage) : Option Store :=
  if s.teams.blocked i teamID then none
  else match s.teams.visible i teamID with
    | none => some (s.fail i r (.invalid "referenced record does not exist"))
    | some _ => some ({ s with shared := (teamID, i) :: s.shared }.move i r rest)

/-- A new row of `players`. -/
def insertPlayer (s : Store) (i : ℕ) (id : String) (row : Player) : Store :=
  { s with players := s.players.write i id (some row), playerIDs := id :: s.playerIDs }

/-- A new row of `transfers`. -/
def insertTransfer (s : Store) (i : ℕ) (id : String) (t : Transfer) : Store :=
  { s with
    transfers := s.transfers.write i id (some ⟨t, s.transferIDs.length⟩)
    transferIDs := id :: s.transferIDs }

end Store

/-- The opening transfer of a player created at a club: an arrival from nowhere. -/
def openingTransfer (playerID teamID : String) (details : PlayerDetails) (createdAt : Date) :
    Transfer where
  playerID := playerID
  fromTeam := none
  toTeam := some teamID
  seasonID := none
  transferDate := details.contractStart.getD createdAt
  transferType := transferPermanent
  fee := none
  currency := defaultCurrency

/-- The first step of a request. -/
def beginRequest (s : Store) (i : ℕ) (r : Request) (d : Draw) : Kind → Option Store
  | .createPlayer teamID details =>
      if d.id ∈ s.playerIDs then none
      else some ((s.insertPlayer i d.id ⟨teamID, details⟩).move i r
        (.created d.id d.today teamID.toList))
  | .recordTransfer t =>
      match admitTransfer (s.players.committed t.playerID) d.season t d.horizon with
      | .error reason => some (s.fail i r reason)
      | .ok t => some (s.move i r (.admitted t))
  | .updateTransfer id t =>
      match correctTransfer id ((s.transfers.committed id).map Move.transfer) t d.horizon with
      | .error reason => some (s.fail i r reason)
      | .ok t => some (s.move i r (.correcting t))
  | .updatePlayer id _ =>
      match s.players.committed id with
      | none => some (s.fail i r (.notFound "player not found"))
      | some _ => some (s.move i r .editing)
  | .deleteTeam id =>
      if s.teams.blocked i id then none
      else if s.shared.any fun lock => lock.1 = id && lock.2 ≠ i then none
      else match s.teams.visible i id with
        | none => some (s.fail i r (.notFound "team not found"))
        | some _ => some ({ s with teams := s.teams.write i id none }.move i r
            (.clearing .players (s.targets i id .players)))

/-- `SELECT team_id … FOR UPDATE` of `Record`, and the origin checked against it. -/
def lockPlayer (s : Store) (i : ℕ) (r : Request) (t : Transfer) : Option Store :=
  if s.players.blocked i t.playerID then none
  else match s.players.visible i t.playerID with
    | none => some (s.fail i r (.notFound "player not found"))
    | some row =>
        if sameTeam row.teamID t.fromTeam then
          some ({ s with players := s.players.write i t.playerID (some row) }.move i r (.locked t))
        else
          some (s.fail i r (.invalid "the player's club changed while this transfer was being recorded; retry with the current from_team_id"))

/-- The `UPDATE` of `Record`: the player moves, unless another move is dated later. -/
def placePlayer (s : Store) (i : ℕ) (t : Transfer) (id : String) : Store :=
  if s.later i t id then s
  else match s.players.visible i t.playerID with
    | none => s
    | some row => { s with
        players := s.players.write i t.playerID (some { row with teamID := t.toTeam }) }

/-- A plain `UPDATE` of a row of `transfers`. -/
def writeTransfer (s : Store) (i : ℕ) (r : Request) (id : String) (t : Transfer) : Option Store :=
  if s.transfers.blocked i id then none
  else match s.transfers.visible i id with
    | none => some (s.fail i r (.notFound "transfer not found"))
    | some row => some ({ s with
        transfers := s.transfers.write i id (some (row.correct t)) }.move i r .written)

/-- A plain `UPDATE` of a row of `players`. -/
def writePlayer (s : Store) (i : ℕ) (r : Request) (id : String) (details : PlayerDetails) :
    Option Store :=
  if s.players.blocked i id then none
  else match s.players.visible i id with
    | none => some (s.fail i r (.notFound "player not found"))
    | some row => some ({ s with
        players := s.players.write i id (some { row with details := details }) }.move i r .written)

/-- The end of a cascade. -/
def nextCascade (s : Store) (i : ℕ) (r : Request) (teamID : String) : Cascade → Store
  | .players => s.move i r (.clearing .origins (s.targets i teamID .origins))
  | .origins => s.move i r (.clearing .destinations (s.targets i teamID .destinations))
  | .destinations => s.finish i r

/-- One step of a request. -/
def advanceRequest (s : Store) (i : ℕ) (r : Request) (d : Draw) : Option Store :=
  match r.stage, r.kind with
  | .begun, kind => beginRequest s i r d kind
  | .admitted t, _ => lockPlayer s i r t
  | .locked t, _ =>
      if d.id ∈ s.transferIDs then none
      else some ((s.insertTransfer i d.id t).move i r (.filed t d.id t.clubs))
  | .filed t id (club :: clubs), _ => s.refer i r club (.filed t id clubs)
  | .filed t id [], _ => some ((placePlayer s i t id).move i r (.placed t id))
  | .placed _ _, _ => some (s.finish i r)
  | .created id createdAt (club :: clubs), _ => s.refer i r club (.created id createdAt clubs)
  | .created id createdAt [], .createPlayer (some teamID) details =>
      if d.id ∈ s.transferIDs then none
      else some ((s.insertTransfer i d.id
        (openingTransfer id teamID details createdAt)).move i r (.opened id))
  | .created id _ [], _ => some (s.move i r (.opened id))
  | .opened _, _ => some (s.finish i r)
  | .correcting t, .updateTransfer id _ => writeTransfer s i r id t
  | .editing, .updatePlayer id details => writePlayer s i r id details
  | .written, _ => some (s.finish i r)
  | .clearing cascade [], .deleteTeam id => some (nextCascade s i r id cascade)
  | .clearing cascade targets, .deleteTeam id =>
      if d.id ∈ targets then
        (s.visit i id d.id cascade).map fun visited =>
          visited.move i r (.clearing cascade (targets.erase d.id))
      else none
  | _, _ => none

/-- A store that starts with its clubs and neither players nor transfers. -/
def squads : Machine Store Label where
  start s := s.teams.held = (fun _ => none) ∧ s.shared = [] ∧ s.players = .empty ∧
    s.transfers = .empty ∧ s.playerIDs = [] ∧ s.transferIDs = [] ∧ s.requests = []
  next s
    | .arrive kind => some { s with requests := s.requests ++ [⟨kind, .begun⟩] }
    | .advance i d => (s.requests[i]?).bind fun r => advanceRequest s i r d
    | .abort i => (s.requests[i]?).bind fun r =>
        match r.stage with
        | .ended _ => none
        | _ => some (s.fail i r .internal)

/-- The transfers of a player. -/
def Store.history (s : Store) (playerID : String) : List Move :=
  (s.transferIDs.filterMap s.transfers.committed).filter fun m => m.transfer.playerID = playerID

/-- The latest transfer of a player. -/
def Store.latestTransfer (s : Store) (playerID : String) : Option Move :=
  (s.history playerID).argmax Move.rank

end ScoutPulse.Squad
