import ScoutPulse.Lib.Upsert
import ScoutPulse.Football.Importer.Classify
import ScoutPulse.Football.Importer.Players
import ScoutPulse.Football.Importer.Postgres

/-!
# The transfers of an import

Each move of the source becomes one row: the one its reference names, or one entered by
hand between the same clubs within a week of it, or a new one. What was entered when a
player was created by hand is no real move, and is deleted. What is to be done is decided
first, from the rows as they were found; the statements follow.
-/

namespace ScoutPulse.Importer

open Dates (dayLength)
open Squad (Date)
open Strings Upsert

/-- The table `transfers`, by id. -/
abbrev TransferTable := AList fun _ : String => Squad.Move

/-- `localTransfer`: a row of `transfers` as the step reads it. -/
structure LocalTransfer where
  id : String
  playerID : String
  fromTeam : Option String
  toTeam : Option String
  date : String
  type : String
  fee : Option ℤ
  deriving DecidableEq

/-- The rows `importTransfers` selects, those of some players. -/
def selectTransfers [Postgres] (transfers : TransferTable) (players : List String) :
    List LocalTransfer :=
  (transfers.entries.filter fun ⟨_, t⟩ => t.transfer.playerID ∈ players).map fun ⟨id, t⟩ =>
    { id := id
      playerID := t.transfer.playerID
      fromTeam := t.transfer.fromTeam
      toTeam := t.transfer.toTeam
      date := Postgres.dayText t.transfer.transferDate
      type := t.transfer.transferType
      fee := t.transfer.fee }

/-- One row of `transferColumns`. -/
structure MoveRow where
  id : String
  player : String
  fromTeam : Option String
  toTeam : Option String
  season : Option String
  date : String
  type : String
  fee : Option Int64
  deriving DecidableEq

/-! ## Which row each move becomes -/

/-- `teamFor`: the local club a source club became, if it is in the import. -/
def Merge.teamFor (m : Merge) (clubID : String) : Option String := m.clubs.lookup clubID

/-- `seasonOn`: the season a date is in. -/
def Merge.seasonOn (m : Merge) (date : String) : Option String :=
  (m.seasons.find? fun s => s.startDate ≤ date && date ≤ s.endDate).map (·.id)

/-- `daysApart`. The difference of two dates is the nearest duration there is to it. -/
def daysApart (a b : String) : ℤ :=
  match Dates.parse a, Dates.parse b with
  | some x, some y =>
      let d := Int64.ofIntClamp ((x - y) * dayLength)
      (if d < 0 then -d else d).toInt.tdiv dayLength
  | _, _ => 2 ^ 30

/-- `refByLocal`: whether a reference names a transfer. -/
def Merge.refByLocal (m : Merge) (id : String) : Bool :=
  m.refs.entries.any fun e => e.1.1 = "transfer" && e.2 = id

/-- What a move is remembered under. -/
def moveKey (sourcePlayer : String) (t : RawTransfer) : String :=
  join [sourcePlayer, t.date, t.fromID, t.toID] "|"

/-- The variables of the loop over the source's moves. -/
structure TransferLoop where
  merge : Merge
  claimed : List String
  inserts : List MoveRow
  updates : List MoveRow
  /-- The keys met so far of one player. -/
  seen : List String

namespace TransferLoop

variable (existing : List LocalTransfer) (refByLocal : String → Bool) (player : String)

/-- The row a reference names, when it is among those selected. -/
def referenced (s : TransferLoop) (key : String) : Option String :=
  (s.merge.ref "transfer" key).filter fun id => existing.any (·.id = id)

/-- The same move entered by hand: same clubs, within a week. -/
def adopted (s : TransferLoop) (fromTeam toTeam : Option String) (date : String) :
    Option String :=
  (existing.find? fun t =>
    t.playerID = player && t.id ∉ s.claimed && !refByLocal t.id && t.fromTeam = fromTeam &&
      t.toTeam = toTeam && daysApart t.date date ≤ 7).map (·.id)

/-- The columns of a move. -/
def row (s : TransferLoop) (id : String) (mv : Move) : MoveRow where
  id := id
  player := player
  fromTeam := s.merge.teamFor mv.raw.fromID
  toTeam := s.merge.teamFor mv.raw.toID
  season := s.merge.seasonOn mv.raw.date
  date := mv.raw.date
  type := mv.type
  fee := mv.feeMinor

/-- A move becomes a row that is there. -/
def claim (s : TransferLoop) (id key : String) (mv : Move) (report : Report) : TransferLoop where
  merge := Merge.remember { s.merge with report := report } "transfer" key id
  claimed := id :: s.claimed
  inserts := s.inserts
  updates := s.updates ++ [row player s id mv]
  seen := key :: s.seen

/-- A move becomes a new row. -/
def create (newString : ℕ → String) (s : TransferLoop) (key : String) (mv : Move) :
    TransferLoop where
  merge := Merge.remember
    { s.merge with
      report := { s.merge.report with
        transfersCreated := s.merge.report.transfersCreated + 1 }
      drawn := s.merge.drawn + 1 } "transfer" key (newString s.merge.drawn)
  claimed := s.claimed
  inserts := s.inserts ++ [row player s (newString s.merge.drawn) mv]
  updates := s.updates
  seen := key :: s.seen

/-- The body of the loop over one player's moves. -/
def step (newString : ℕ → String) (sourcePlayer : String) (s : TransferLoop) (mv : Move) :
    TransferLoop :=
  let key := moveKey sourcePlayer mv.raw
  let fromTeam := s.merge.teamFor mv.raw.fromID
  let toTeam := s.merge.teamFor mv.raw.toID
  let report := s.merge.report
  if fromTeam = none ∧ toTeam = none then s
  else if key ∈ s.seen then s
  else match s.referenced existing key, s.adopted existing refByLocal player fromTeam toTeam
      mv.raw.date with
    | some id, _ =>
        s.claim player id key mv { report with transfersUpdated := report.transfersUpdated + 1 }
    | none, some id =>
        s.claim player id key mv { report with transfersAdopted := report.transfersAdopted + 1 }
    | none, none => s.create player newString key mv

/-- The body of the loop over the source's players. -/
def ofPlayer [Unicode] [CaseFolding] (newString : ℕ → String) (s : TransferLoop)
    (sourcePlayer : String) : TransferLoop :=
  match s.merge.players.lookup sourcePlayer with
  | none => s
  | some player =>
      (classify ((s.merge.d.transfers.lookup sourcePlayer).getD [])).foldl
        (step existing refByLocal player newString sourcePlayer) { s with seen := [] }

end TransferLoop

/-- The loop of `importTransfers`. -/
def transferLoop [Unicode] [CaseFolding] (newString : ℕ → String)
    (existing : List LocalTransfer) (m : Merge) : TransferLoop :=
  (sortedKeys m.d.transfers).foldl (TransferLoop.ofPlayer existing m.refByLocal newString)
    { merge := m, claimed := [], inserts := [], updates := [], seen := [] }

/-! ## What was entered with the player -/

/-- Whether a transfer is the arrival this app writes when a player is created by hand. -/
def placeholder (t : LocalTransfer) (p : LocalPlayer) : Bool :=
  t.fromTeam = none && t.toTeam.isSome && t.type = Squad.transferPermanent && t.fee = none &&
    (t.date = p.created || p.contractStart = some t.date)

/-- `created[id]`, empty for a player that is not there. -/
def createdOf (players : List LocalPlayer) (id : String) : LocalPlayer :=
  (playerByID players id).getD ⟨"", "", none, none, none, ""⟩

/-- The transfers that are deleted: those no move has claimed and no reference named, of a
player that was there before. -/
def openings (existing : List LocalTransfer) (players : List LocalPlayer) (m : Merge)
    (claimed : List String) : List String :=
  (existing.filter fun t =>
    t.playerID ∈ m.matched && t.id ∉ claimed && !m.refByLocal t.id &&
      placeholder t (createdOf players t.playerID)).map (·.id)

/-- What the step decides to do. -/
structure Plan where
  inserts : List MoveRow
  updates : List MoveRow
  openings : List String

/-- The local players of the import. -/
def Merge.locals (m : Merge) : List String := m.players.entries.map (·.2)

def transferPlan [Unicode] [CaseFolding] [Postgres] (newString : ℕ → String)
    (transfers : TransferTable) (players : List LocalPlayer) (m : Merge) : Plan :=
  let existing := selectTransfers transfers m.locals
  let s := transferLoop newString existing m
  ⟨s.inserts, s.updates,
    openings existing (players.filter (·.id ∈ m.locals)) m s.claimed⟩

/-! ## The statements -/

/-- Which row of several that an `UPDATE … FROM` joins with one of a table it uses. -/
class Joins where
  choose : List MoveRow → ℕ

section Statements

variable [Postgres] [Takes MoveRow]

/-- The checks of the table. -/
def moveChecks (r : MoveRow) : Bool :=
  Squad.validTransferType r.type && r.fee.all (0 ≤ ·.toInt) && Takes.takes r

/-- A new row, and how many have been recorded before it. -/
def insertMove (found : Option Squad.Move) (r : MoveRow × ℕ) : Option Squad.Move :=
  if found.isSome ∨ moveChecks r.1 = false then none
  else (Postgres.toDay r.1.date).map fun day =>
    ⟨{ playerID := r.1.player
       fromTeam := r.1.fromTeam
       toTeam := r.1.toTeam
       seasonID := r.1.season
       transferDate := day
       transferType := r.1.type
       fee := r.1.fee.map Int64.toInt
       currency := "EUR" }, r.2⟩

/-- `INSERT INTO transfers`. -/
def insertMoves (transfers : TransferTable) (rows : List (MoveRow × ℕ)) : Option TransferTable :=
  rows.foldlM (put (·.1.id) insertMove) transfers

/-- `UPDATE transfers x SET`, of one row. -/
def rewriteMove (t : Squad.Move) (r : MoveRow) : Option Squad.Move :=
  if moveChecks r = false then none
  else (Postgres.toDay r.date).map fun day =>
    { t with
      transfer :=
        { t.transfer with
          fromTeam := r.fromTeam
          toTeam := r.toTeam
          seasonID := r.season.or t.transfer.seasonID
          transferDate := day
          transferType := r.type
          fee := r.fee.map Int64.toInt } }

variable [Joins]

/-- What the statement makes of the row of one id. -/
def rewriteAt (id : String) (found : Option Squad.Move) (rows : List MoveRow) :
    Option (Option Squad.Move) :=
  match found, rows.filter (·.id = id) with
  | some t, first :: others =>
      let joined := first :: others
      (rewriteMove t (joined.getD (Joins.choose joined) first)).map some
  | found, _ => some found

/-- `UPDATE transfers x … FROM`. -/
def updateMoves (transfers : TransferTable) (rows : List MoveRow) : Option TransferTable :=
  (rows.map (·.id)).dedup.foldlM (write id fun found id => rewriteAt id found rows) transfers

/-- The statements of `importTransfers`. `recorded` counts the transfers recorded before. -/
def Plan.run (plan : Plan) (transfers : TransferTable) (recorded : ℕ) : Option TransferTable :=
  (inChunks insertMoves transfers (plan.inserts.zipIdx recorded)).bind fun transfers =>
    (inChunks updateMoves transfers plan.updates).map (eraseAll plan.openings)

end Statements

end ScoutPulse.Importer
