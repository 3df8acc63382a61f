import ScoutPulse.Platform.AppErr
import ScoutPulse.Lib.Dates
import ScoutPulse.Lib.Outcome
import Mathlib.Data.Rat.Defs
import Mathlib.Data.Prod.Lex
import Mathlib.Algebra.Order.Ring.Int

/-!
# Players and their transfers

The rows of `players` and `transfers`, and what the service checks of a move before
any statement is sent. A player's club is stored beside the history it follows from.
-/

namespace ScoutPulse.Squad

open Dates (Moment ofDay)
open Outcome

/-- A `DATE`, in days since the zero time. -/
abbrev Date := ℤ

instance : Preorder Date := Int.instLinearOrder.toPreorder

/-- The columns of `players` that only a create or a plain update writes. -/
structure PlayerDetails where
  name : String
  firstName : Option String
  lastName : Option String
  dateOfBirth : Option Date
  nationalities : List String
  heightCM : Option ℤ
  preferredFoot : Option String
  agent : Option String
  squadNumber : Option ℤ
  position : String
  secondaryPositions : List String
  contractStart : Option Date
  contractUntil : Option Date
  duelsWonPct : Option ℚ
  passCompletionPct : Option ℚ
  shotsOnTargetPct : Option ℚ
  aerialDuelsWonPct : Option ℚ
  strengths : List String
  weaknesses : List String
  deriving DecidableEq

/-- `domain.Player`, by its `id`. -/
structure Player where
  /-- No club for a free agent. -/
  teamID : Option String
  details : PlayerDetails
  deriving DecidableEq

/-- `domain.Transfer`, by its `id`, with a date of some kind. -/
@[ext]
structure TransferOf (δ : Type) where
  playerID : String
  fromTeam : Option String
  toTeam : Option String
  seasonID : Option String
  transferDate : δ
  transferType : String
  fee : Option ℤ
  currency : String
  deriving DecidableEq

/-- A transfer as its columns keep it. -/
abbrev Transfer := TransferOf Date

/-- A transfer as a request sends it, and as it is read. -/
abbrev SentTransfer := TransferOf Moment

/-- What the columns keep of a transfer that is sent. -/
def TransferOf.kept (t : SentTransfer) : Transfer := { t with transferDate := t.transferDate.day }

/-- What is read of the columns. -/
def TransferOf.read (t : Transfer) : SentTransfer :=
  { t with transferDate := ofDay t.transferDate }

/-- A row of `transfers`, and how many had been recorded before it. -/
structure Move where
  transfer : Transfer
  recorded : ℕ
  deriving DecidableEq

/-- How late a move is: by its date, and by when it was recorded on one date. -/
def Move.rank (m : Move) : ℤ ×ₗ ℕ := toLex (m.transfer.transferDate, m.recorded)

def defaultCurrency : String := "EUR"

def transferPermanent : String := "permanent"

def transferFree : String := "free"

/-- `ValidTransferType`. -/
def validTransferType (transferType : String) : Bool :=
  transferType ∈ ["permanent", "loan", "loan_return", "free", "youth_promotion", "released",
    "retired"]

/-- `validateTransfer`, where `horizon` is the instant a year from now. -/
def validateTransfer (t : SentTransfer) (horizon : ℤ) : Except AppErr SentTransfer := do
  if t.playerID = "" then throw (.invalid "player_id is required")
  if t.transferDate.instant = 0 then throw (.invalid "transfer_date is required")
  if horizon < t.transferDate.instant then
    throw (.invalid "transfer_date cannot be more than a year in the future")
  if validTransferType t.transferType = false then
    throw (.invalid "transfer_type must be one of: permanent, loan, loan_return, free, youth_promotion, released, retired")
  if t.fromTeam = none ∧ t.toTeam = none then
    throw (.invalid "a transfer needs from_team_id, to_team_id, or both")
  if t.fromTeam ≠ none ∧ t.fromTeam = t.toTeam then
    throw (.invalid "from_team_id and to_team_id must differ")
  if t.fee.any (· < 0) = true then throw (.invalid "fee_minor cannot be negative")
  -- Free means a fee known to be zero; none would mean an undisclosed one.
  if t.transferType = transferFree ∧ t.fee.any (· ≠ 0) = true then
    throw (.invalid "a free transfer cannot carry a fee")
  return { t with currency := if t.currency = "" then defaultCurrency else t.currency }

/-- `checkOrigin`. -/
def checkOrigin (player : Player) (t : SentTransfer) : Except AppErr Unit :=
  match t.fromTeam, player.teamID with
  | none, some _ =>
      throw (.invalid "player is currently at a club; set from_team_id to that club")
  | some _, none => throw (.invalid "player is a free agent; omit from_team_id")
  | some origin, some team =>
      if origin ≠ team then throw (.invalid "from_team_id does not match the player's current club")
      else return ()
  | none, none => return ()

/-- `sameTeam`. -/
def sameTeam (a b : Option String) : Bool :=
  match a, b with
  | none, none => true
  | none, some _ => false
  | some _, none => false
  | some a, some b => a = b

/-- The first half of `RecordTransfer`, up to `Record`, from the player it reads and the
season it finds for the date; and what `Record` will have its columns keep. -/
def admitTransfer (found : Option Player) (season : Option String) (t : SentTransfer)
    (horizon : ℤ) : Except AppErr Transfer := do
  let t ← validateTransfer t horizon
  match found with
  | none => throw (.notFound "player not found")
  | some player =>
      checkOrigin player t
      return { t.kept with seasonID := if t.seasonID = none then season else t.seasonID }

/-- `UpdateTransfer` up to its statement, from the row it reads. -/
def correctTransfer (id : String) (found : Option Transfer) (t : SentTransfer) (horizon : ℤ) :
    Except AppErr Transfer := do
  if id = "" then throw (.invalid "transfer id is required")
  match found with
  | none => throw (.notFound "transfer not found")
  | some existing =>
      -- What the player's club follows from is the stored row's, never the request's.
      let t ← validateTransfer { t with
        playerID := existing.playerID
        fromTeam := existing.fromTeam
        toTeam := existing.toTeam
        transferDate := ofDay existing.transferDate } horizon
      return { t.kept with seasonID := if t.seasonID = none then existing.seasonID else t.seasonID }

/-- `SET transfer_type, fee_minor, currency, season_id`. -/
def Move.correct (m : Move) (t : Transfer) : Move :=
  { m with transfer := { m.transfer with
      transferType := t.transferType
      fee := t.fee
      currency := t.currency
      seasonID := t.seasonID } }

/-! ## What the checks let through -/

theorem sameTeam_iff {a b : Option String} : sameTeam a b = true ↔ a = b := by
  cases a <;> cases b <;> simp [sameTeam]

/-- A transfer that is let through keeps its player, its clubs and its date, and goes
from one place to another. -/
theorem validateTransfer_spec {t t' : SentTransfer} {horizon : ℤ}
    (valid : validateTransfer t horizon = .ok t') :
    t' = { t with currency := t'.currency } ∧ t.fromTeam ≠ t.toTeam := by
  simp only [validateTransfer, guard_ok_iff] at valid
  obtain ⟨-, -, -, -, directed, distinct, -, -, accepted⟩ := valid
  rw [pure_ok_iff] at accepted
  subst accepted
  refine ⟨rfl, fun same => ?_⟩
  cases origin : t.fromTeam with
  | none => exact directed ⟨origin, same ▸ origin⟩
  | some club => exact distinct ⟨by simp [origin], same⟩

/-- The move a request asks for, as far as the player's club depends on it. -/
structure Fits (asked : SentTransfer) (t : Transfer) : Prop where
  playerID : t.playerID = asked.playerID
  fromTeam : t.fromTeam = asked.fromTeam
  toTeam : t.toTeam = asked.toTeam
  transferDate : t.transferDate = asked.transferDate.day
  moves : t.fromTeam ≠ t.toTeam

/-- What is admitted is what was asked, with its defaults. -/
theorem admitTransfer_fits {found : Option Player} {season : Option String} {t : SentTransfer}
    {t' : Transfer} {horizon : ℤ} (admitted : admitTransfer found season t horizon = .ok t') :
    Fits t t' := by
  rw [admitTransfer, bind_ok_iff] at admitted
  obtain ⟨checked, valid, rest⟩ := admitted
  obtain ⟨same, moves⟩ := validateTransfer_spec valid
  cases found with
  | none => cases rest
  | some player =>
      obtain ⟨-, -, accepted⟩ := bind_ok_iff.mp rest
      rw [pure_ok_iff] at accepted
      subst accepted
      rw [same]
      exact ⟨rfl, rfl, rfl, rfl, moves⟩

end ScoutPulse.Squad
