import ScoutPulse.Lib.Upsert
import ScoutPulse.Football.Importer.Players
import ScoutPulse.Football.Importer.Postgres

/-!
# What the import writes of a player

The statement `upsertPlayers` stores the columns of the player step: as a new row, or into
the row that is there, column by column. What one row of it does is said once, for the
columns that `validatePlayer` checks alone and for those it compares with others.
-/

namespace ScoutPulse.Importer

open Dates (midnight)
open Players (Instant Plain tidyList validFoot)
open Strings Upsert

/-- The table `players`, by id. -/
abbrev PlayerTable := AList fun _ : String => Players.Player

section Statement

variable [Postgres] [Takes PlayerRow]

/-- A row as `importPlayers` selects it. -/
def localPlayer (id : String) (p : Players.Player) : LocalPlayer where
  id := id
  name := p.name
  dateOfBirth := p.dateOfBirth.map instantText
  teamID := p.teamID
  contractStart := p.contractStart.map instantText
  created := instantText p.createdAt

/-- The rows `importPlayers` selects. -/
def selectPlayers (players : PlayerTable) : List LocalPlayer :=
  players.entries.map fun e => localPlayer e.1 e.2

/-- `NULLIF(text, '')`. -/
def nullIfEmpty (text : String) : Option String := if text = "" then none else some text

/-- `NULLIF(h, 0)`. -/
def heightOf (h : Int64) : Option ℤ := if h = 0 then none else some h.toInt

/-- `NULLIF(text, '')::date`, where the cast does not fail. -/
def dateOf (text : String) : Option Instant :=
  if text = "" then none else (Postgres.toDay text).map midnight

/-- Whether `NULLIF(text, '')::date` does not fail. -/
def castable (text : String) : Bool := text = "" || (Postgres.toDay text).isSome

/-- The row `INSERT` proposes. The columns it does not name have their defaults. -/
def proposed (now : Instant) (r : PlayerRow) : Option Players.Player :=
  if castable r.dateOfBirth && castable r.contractUntil && Takes.takes r then
    some
      { teamID := some r.team
        name := r.name
        firstName := nullIfEmpty r.firstName
        lastName := nullIfEmpty r.lastName
        dateOfBirth := dateOf r.dateOfBirth
        nationalities := if r.nationality = "" then [] else [r.nationality]
        heightCM := heightOf r.height
        preferredFoot := nullIfEmpty r.foot
        agent := nullIfEmpty r.agent
        squadNumber := none
        position := r.position
        secondaryPositions := []
        contractStart := none
        contractUntil := dateOf r.contractUntil
        marketValue := r.value.toInt
        currency := "EUR"
        duelsWonPct := none
        passCompletionPct := none
        shotsOnTargetPct := none
        aerialDuelsWonPct := none
        internationalCaps := r.caps.map Int64.toInt
        internationalGoals := r.goals.map Int64.toInt
        strengths := []
        weaknesses := []
        createdAt := now }
  else none

/-- The checks of the table. -/
def rowChecks (p : Players.Player) : Bool :=
  p.preferredFoot.all (· ∈ ["left", "right", "both"]) && 0 ≤ p.marketValue &&
    p.internationalCaps.all (0 ≤ ·) && p.internationalGoals.all (0 ≤ ·)

/-- `ON CONFLICT (id) DO UPDATE SET`. -/
def onConflict (row excluded : Players.Player) : Players.Player :=
  { row with
    teamID := excluded.teamID
    firstName := excluded.firstName.or row.firstName
    lastName := excluded.lastName.or row.lastName
    dateOfBirth := excluded.dateOfBirth.or row.dateOfBirth
    nationalities :=
      if 0 < row.nationalities.length then row.nationalities else excluded.nationalities
    heightCM := excluded.heightCM.or row.heightCM
    preferredFoot := excluded.preferredFoot.or row.preferredFoot
    agent := excluded.agent.or row.agent
    position := excluded.position
    secondaryPositions := row.secondaryPositions.filter (· ≠ excluded.position)
    contractUntil := excluded.contractUntil.or row.contractUntil
    marketValue := if 0 < excluded.marketValue then excluded.marketValue else row.marketValue
    internationalCaps := excluded.internationalCaps.or row.internationalCaps
    internationalGoals := excluded.internationalGoals.or row.internationalGoals }

/-- The row that is stored, from the one that was found. -/
def merged (found : Option Players.Player) (excluded : Players.Player) : Players.Player :=
  match found with
  | none => excluded
  | some row => onConflict row excluded

/-- One row of the statement. The checks are made of the row proposed and of the row
stored. -/
def upsertRow (now : Instant) (found : Option Players.Player) (r : PlayerRow) :
    Option Players.Player :=
  ((proposed now r).filter rowChecks).bind fun excluded =>
    (some (merged found excluded)).filter rowChecks

/-- `upsertPlayers`. A statement stores no row twice. -/
def upsertPlayers (now : Instant) (players : PlayerTable) (rows : List PlayerRow) :
    Option PlayerTable :=
  if (rows.map (·.id)).Nodup then rows.foldlM (put (·.id) (upsertRow now)) players else none

end Statement

/-- `importPlayers`: what it makes of the table. -/
def importPlayers [Unicode] [Postgres] [Takes PlayerRow] (now : Instant) (newString : ℕ → String)
    (players : PlayerTable) (m : Merge) : Option PlayerTable :=
  inChunks (upsertPlayers now) players (playerLoop newString (selectPlayers players) m).cols

/-! ## The whole list of rows -/

section Rows

variable [Postgres] [Takes PlayerRow] {now : Instant} {players after : PlayerTable}
  {rows : List PlayerRow}

theorem foldlM_of_upsertPlayers (stored : upsertPlayers now players rows = some after) :
    rows.foldlM (put (·.id) (upsertRow now)) players = some after := by
  unfold upsertPlayers at stored
  split at stored
  · exact stored
  · cases stored

end Rows

/-! ## One row -/

section Checks

variable {p row excluded : Players.Player}

theorem validFoot_of_rowChecks (checked : rowChecks p = true) :
    ∀ foot ∈ p.preferredFoot, validFoot foot = true := by
  intro foot member
  simp only [rowChecks, Bool.and_eq_true] at checked
  have listed := checked.1.1.1
  rw [Option.mem_def.mp member, Option.all_some, decide_eq_true_iff] at listed
  exact decide_eq_true (List.mem_cons_of_mem "" listed)

theorem value_of_rowChecks (checked : rowChecks p = true) : 0 ≤ p.marketValue := by
  simp only [rowChecks, Bool.and_eq_true] at checked
  exact of_decide_eq_true checked.1.1.2

/-- A row written into keeps the rules about single columns. -/
theorem plain_onConflict (plain : Plain row) (new : Plain excluded)
    (checked : rowChecks (onConflict row excluded) = true) : Plain (onConflict row excluded) where
  name := plain.name
  position := new.position
  foot := validFoot_of_rowChecks checked
  squad := plain.squad
  value := value_of_rowChecks checked
  nationalities := by
    simp only [onConflict]
    split
    · exact plain.nationalities
    · exact new.nationalities
  secondary := (Players.length_tidyList_le List.filter_sublist).trans plain.secondary
  strengths := plain.strengths
  weaknesses := plain.weaknesses
  pcts := plain.pcts

end Checks

section Row

variable [Postgres] [Takes PlayerRow] {now : Instant} {found : Option Players.Player}
  {r : PlayerRow}
  {excluded p : Players.Player}

/-- A row is stored when what it proposes passes the checks, and what comes of it does. -/
theorem upsertRow_eq_some : upsertRow now found r = some p ↔
    ∃ excluded, proposed now r = some excluded ∧ rowChecks excluded = true ∧
      merged found excluded = p ∧ rowChecks p = true := by
  rw [upsertRow, Option.bind_eq_some_iff]
  simp only [Option.filter_eq_some_iff, Option.some.injEq]
  constructor
  · rintro ⟨excluded, ⟨proposal, checked⟩, same, stored⟩
    exact ⟨excluded, proposal, checked, same, stored⟩
  · rintro ⟨excluded, proposal, checked, same, stored⟩
    exact ⟨excluded, ⟨proposal, checked⟩, same, stored⟩

/-- The columns of the row proposed that come from the source as they are. -/
structure Proposes (now : Instant) (r : PlayerRow) (excluded : Players.Player) : Prop where
  team : excluded.teamID = some r.team
  value : excluded.marketValue = r.value.toInt
  birth : excluded.dateOfBirth = dateOf r.dateOfBirth
  height : excluded.heightCM = heightOf r.height
  until_ : excluded.contractUntil = dateOf r.contractUntil
  position : excluded.position = r.position
  start : excluded.contractStart = none
  created : excluded.createdAt = now
  secondary : excluded.secondaryPositions = []

/-- What a row proposes is what it has in its columns. -/
theorem proposed_spec (proposal : proposed now r = some excluded) :
    Proposes now r excluded := by
  unfold proposed at proposal
  split at proposal
  · cases proposal
    exact ⟨rfl, rfl, rfl, rfl, rfl, rfl, rfl, rfl, rfl⟩
  · cases proposal

/-- So does a row proposed. -/
theorem plain_proposed (proposal : proposed now r = some excluded)
    (checked : rowChecks excluded = true) (name : r.name ≠ "") (position : r.position ≠ "") :
    Plain excluded := by
  have foot := validFoot_of_rowChecks checked
  have value := value_of_rowChecks checked
  unfold proposed at proposal
  split at proposal
  · cases proposal
    refine ⟨name, position, foot, ?_, value, ?_, by simp [tidyList], Players.assessed_nil,
      Players.assessed_nil, ?_⟩
    · rintro _ ⟨⟩
    · have single : (if r.nationality = "" then [] else [r.nationality]).length ≤ 1 := by
        split <;> simp
      calc (tidyList (if r.nationality = "" then [] else [r.nationality])).length
          ≤ ((if r.nationality = "" then [] else [r.nationality]).map trimSpace).length :=
            List.length_filter_le ..
        _ ≤ 1 := by rwa [List.length_map]
        _ ≤ Players.maxNationalities := by decide
    · intro pct member v given
      simp only [Players.Player.pcts, List.mem_cons, List.not_mem_nil, or_false] at member
      rcases member with rfl | rfl | rfl | rfl <;> cases given
  · cases proposal

/-- A plain row with a name and a position leaves a plain player. -/
theorem plain_upsertRow (stored : upsertRow now found r = some p)
    (before : ∀ row, found = some row → Plain row) (name : r.name ≠ "")
    (position : r.position ≠ "") : Plain p := by
  obtain ⟨excluded, proposal, proposedChecks, rfl, checked⟩ := upsertRow_eq_some.mp stored
  have new := plain_proposed proposal proposedChecks name position
  cases found with
  | none => exact new
  | some row => exact plain_onConflict (before row rfl) new checked

/-- A value the statement writes over another: one above zero. -/
def valueGiven (value : Int64) : Option ℤ := if 0 < value.toInt then some value.toInt else none

/-- What the statement makes of the columns that are derived, and of those that the other
rules are about. -/
structure Writes (now : Instant) (found : Option Players.Player) (r : PlayerRow)
    (p : Players.Player) : Prop where
  team : p.teamID = some r.team
  value : p.marketValue = (valueGiven r.value).getD (found.elim 0 (·.marketValue))
  birth : p.dateOfBirth = (dateOf r.dateOfBirth).or (found.bind (·.dateOfBirth))
  height : p.heightCM = (heightOf r.height).or (found.bind (·.heightCM))
  until_ : p.contractUntil = (dateOf r.contractUntil).or (found.bind (·.contractUntil))
  position : p.position = r.position
  start : p.contractStart = found.bind (·.contractStart)
  created : p.createdAt = found.elim now (·.createdAt)
  secondary : p.secondaryPositions =
    (found.elim [] (·.secondaryPositions)).filter (· ≠ r.position)

/-- What the statement leaves is what its columns say. -/
theorem writes_upsertRow (stored : upsertRow now found r = some p) : Writes now found r p := by
  obtain ⟨excluded, proposal, checked, rfl, -⟩ := upsertRow_eq_some.mp stored
  obtain ⟨team, value, birth, height, until_, position, start, created, secondary⟩ :=
    proposed_spec proposal
  have notNegative := value_of_rowChecks checked
  cases found with
  | none =>
      refine ⟨team, ?_, ?_, ?_, ?_, position, start, created, secondary⟩
      · rw [merged, valueGiven, value]
        rw [value] at notNegative
        split
        · rfl
        · exact le_antisymm (not_lt.mp ‹_›) notNegative
      · simpa [merged] using birth
      · simpa [merged] using height
      · simpa [merged] using until_
  | some row =>
      simp only [merged, onConflict]
      refine ⟨team, ?_, by rw [birth]; rfl, by rw [height]; rfl, by rw [until_]; rfl, position, rfl,
        rfl, by rw [position]; rfl⟩
      change (if 0 < excluded.marketValue then excluded.marketValue else row.marketValue) = _
      rw [valueGiven, value]
      split <;> rfl

end Row

end ScoutPulse.Importer
