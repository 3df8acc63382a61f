import ScoutPulse.Football.Importer.Clubs

/-!
# The player step

Which local player each source player is: the one its reference names; the one that has
its name and date of birth; the one that has its name at its club; the only one of its
name, when nothing contradicts that; or a new one.
-/

namespace ScoutPulse.Importer

open Strings

/-- `localPlayer`: a row of `players`. -/
structure LocalPlayer where
  id : String
  name : String
  dateOfBirth : Option String
  teamID : Option String
  contractStart : Option String
  created : String
  deriving DecidableEq

/-- `byID`. A map keeps the last row stored under a key. -/
def playerByID (existing : List LocalPlayer) (id : String) : Option LocalPlayer :=
  existing.reverse.find? (·.id = id)

section Indexes

variable [Unicode] (existing : List LocalPlayer)

/-- `byName`, at one name. -/
def playersByName (n : String) : List String :=
  (existing.filter (fold ·.name = n)).map (·.id)

/-- `byNameDOB`, at one key. -/
def playersByNameDOB (key : String) : List String :=
  (existing.filter fun p => p.dateOfBirth.any fun dob => fold p.name ++ "|" ++ dob = key).map
    (·.id)

/-- `byNameTeam`, at one key. -/
def playersByNameTeam (key : String) : List String :=
  (existing.filter fun p => p.teamID.any fun team => fold p.name ++ "|" ++ team = key).map
    (·.id)

/-- `sourceNames`, at one name: how many source players have it. -/
def sourceNames (players : List Player) (n : String) : ℕ :=
  players.countP (fold ·.name = n)

/-- `pick`: a unique hit among the ids not taken, or none. -/
def pick (taken ids : List String) : Option String := unique (free taken ids)

/-- The only existing player of a name, when the source has the name once and the player
no date of birth. -/
def byNameAlone (players : List Player) (taken : List String) (n : String) : Option String :=
  match playersByName existing n with
  | [id] =>
      if sourceNames players n = 1 ∧ ((playerByID existing id).bind (·.dateOfBirth)) = none then
        pick taken [id]
      else none
  | _ => none

/-- The existing player a source player is, by name. -/
def matchPlayer (players : List Player) (team : String) (taken : List String) (p : Player) :
    Option String :=
  let n := fold p.name
  (if p.dateOfBirth ≠ "" then
      pick taken (playersByNameDOB existing (n ++ "|" ++ p.dateOfBirth))
    else none).or
  ((pick taken (playersByNameTeam existing (n ++ "|" ++ team))).or
    (byNameAlone existing players taken n))

end Indexes

/-- The latest value of a source player, by the date it was set. -/
def latestValue (valuations : List Valuation) (playerID : String) : Int64 :=
  (valuations.foldl (fun (date, value) v =>
    if v.playerID = playerID ∧ date < v.date then (v.date, v.eur) else (date, value))
    ("", (0 : Int64))).2

/-- One row of `playerColumns`. -/
structure PlayerRow where
  id : String
  team : String
  name : String
  firstName : String
  lastName : String
  dateOfBirth : String
  nationality : String
  height : Int64
  foot : String
  agent : String
  position : String
  contractUntil : String
  value : Int64
  caps : Option Int64
  goals : Option Int64
  deriving DecidableEq

/-- The position an imported player is stored with. -/
def positionOf (p : Player) : String :=
  let position := if p.subPosition = "" ∨ p.subPosition = "Missing" then p.position
    else p.subPosition
  if position = "" ∨ position = "Missing" then "Unknown" else position

/-- The foot an imported player is stored with, empty when the source has none. -/
def footOf [Unicode] (p : Player) : String :=
  let foot := toLower p.foot
  if foot ≠ "left" ∧ foot ≠ "right" ∧ foot ≠ "both" then "" else foot

/-- `playerColumns.add`. -/
def playerRow [Unicode] (id team : String) (p : Player) (valueMinor : Int64) : PlayerRow where
  id := id
  team := team
  name := p.name
  firstName := p.firstName
  lastName := p.lastName
  dateOfBirth := p.dateOfBirth
  nationality := p.citizenship
  height := p.heightCM
  foot := footOf p
  agent := p.agent
  position := positionOf p
  contractUntil := p.contractUntil
  value := valueMinor
  caps := p.internationalCaps
  goals := p.internationalGoals

/-- The value a source player is stored with, in cents. -/
def valueMinorOf (valuations : List Valuation) (p : Player) : Int64 :=
  (if p.marketValueEUR = 0 then latestValue valuations p.id else p.marketValueEUR) * 100

/-- The variables of the loop over the source's players. -/
structure PlayerLoop where
  merge : Merge
  taken : List String
  cols : List PlayerRow

/-- The player a reference names, when the row still exists. -/
def PlayerLoop.referenced (existing : List LocalPlayer) (s : PlayerLoop) (id : String) :
    Option String :=
  (s.merge.ref "player" id).filter fun id => (playerByID existing id).isSome

/-- `m.clubs[clubID]`, empty for a club outside the import. -/
def clubOf (clubs : GoMap String) (clubID : String) : String := (clubs.lookup clubID).getD ""

/-- The loop's body. -/
def playerStep [Unicode] (newString : ℕ → String) (existing : List LocalPlayer)
    (s : PlayerLoop) (p : Player) : PlayerLoop :=
  let m := s.merge
  let team := clubOf m.clubs p.clubID
  let value := valueMinorOf m.d.valuations p
  match (s.referenced existing p.id).or (matchPlayer existing m.d.players team s.taken p) with
  | some id =>
      { merge := Merge.remember
          { m with
            report := { m.report with playersMatched := m.report.playersMatched + 1 }
            players := m.players.insert p.id id
            matched := id :: m.matched } "player" p.id id
        taken := id :: s.taken
        cols := s.cols ++ [playerRow id team p value] }
  | none =>
      let id := newString m.drawn
      { merge := Merge.remember
          { m with
            report := { m.report with playersCreated := m.report.playersCreated + 1 }
            players := m.players.insert p.id id
            drawn := m.drawn + 1 } "player" p.id id
        taken := id :: s.taken
        cols := s.cols ++ [playerRow id team p value] }

/-- The loop of `importPlayers` over a list of source players. -/
def playersOver [Unicode] (newString : ℕ → String) (existing : List LocalPlayer) (m : Merge)
    (players : List Player) : PlayerLoop :=
  players.foldl (playerStep newString existing)
    { merge := { m with players := ∅, matched := [] }, taken := [], cols := [] }

/-- The loop of `importPlayers`. -/
def playerLoop [Unicode] (newString : ℕ → String) (existing : List LocalPlayer) (m : Merge) :
    PlayerLoop :=
  playersOver newString existing m m.d.players

/-! ## What a name can pick -/

section Picks

variable {existing : List LocalPlayer} {taken ids : List String} {id : String}

theorem mem_of_pick (picked : pick taken ids = some id) : id ∈ ids ∧ id ∉ taken :=
  mem_free.mp (mem_of_unique picked)

theorem playerByID_isSome : (playerByID existing id).isSome ↔ ∃ p ∈ existing, p.id = id := by
  unfold playerByID
  rw [List.find?_isSome]
  simp

/-- Every index lists ids of existing players. -/
theorem playerByID_of_indexed {keep : LocalPlayer → Bool}
    (indexed : id ∈ (existing.filter keep).map (·.id)) : (playerByID existing id).isSome := by
  obtain ⟨p, kept, same⟩ := List.mem_map.mp indexed
  exact playerByID_isSome.mpr ⟨p, List.mem_of_mem_filter kept, same⟩

variable [Unicode]

/-- A player picked by name alone is free and there. -/
theorem byNameAlone_spec {players : List Player} {n : String}
    (picked : byNameAlone existing players taken n = some id) :
    id ∉ taken ∧ (playerByID existing id).isSome := by
  unfold byNameAlone at picked
  split at picked
  next only found =>
    split at picked
    · obtain ⟨listed, untaken⟩ := mem_of_pick picked
      rw [← found] at listed
      exact ⟨untaken, playerByID_of_indexed listed⟩
    · cases picked
  · cases picked

/-- A name picks an existing player that is not taken. -/
theorem matchPlayer_spec {players : List Player} {team : String} {p : Player}
    (picked : matchPlayer existing players team taken p = some id) :
    id ∉ taken ∧ (playerByID existing id).isSome := by
  unfold matchPlayer at picked
  obtain byBirth | ⟨-, picked⟩ := Option.or_eq_some_iff.mp picked
  · split at byBirth
    · obtain ⟨listed, untaken⟩ := mem_of_pick byBirth
      exact ⟨untaken, playerByID_of_indexed listed⟩
    · cases byBirth
  obtain byTeam | ⟨-, alone⟩ := Option.or_eq_some_iff.mp picked
  · obtain ⟨listed, untaken⟩ := mem_of_pick byTeam
    exact ⟨untaken, playerByID_of_indexed listed⟩
  · exact byNameAlone_spec alone

/-- What the player step leaves alone of what it reads. -/
theorem frame_playerStep {newString : ℕ → String} (s : PlayerLoop) (p : Player) :
    (playerStep newString existing s p).merge.d = s.merge.d ∧
      (playerStep newString existing s p).merge.clubs = s.merge.clubs := by
  unfold playerStep
  dsimp only
  split <;> exact ⟨Merge.d_remember .., Merge.clubs_remember ..⟩

end Picks

end ScoutPulse.Importer
