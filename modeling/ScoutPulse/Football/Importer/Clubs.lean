import ScoutPulse.Football.Importer.Merge

/-!
# The club step

Which local club each source club is: the one its reference names, the one its name
picks, or a new one.
-/

namespace ScoutPulse.Importer

open Strings

/-- `localTeam`: a row of `teams`. -/
structure LocalTeam where
  id : String
  name : String
  shortName : Option String
  leagueID : Option String
  country : Option String
  deriving DecidableEq

/-- The keys a club is indexed under: its name's, and its short name's when it has one. -/
def LocalTeam.keys [Unicode] (t : LocalTeam) : List String :=
  let name := clubKey t.name
  match t.shortName with
  | none => [name]
  | some short =>
      if short = "" ∨ clubKey short = name then [name] else [name, clubKey short]

/-- `byID`. A map keeps the last row stored under a key. -/
def teamByID (existing : List LocalTeam) (id : String) : Option LocalTeam :=
  existing.reverse.find? (·.id = id)

/-- `byKey`, at one key. -/
def teamsByKey [Unicode] (existing : List LocalTeam) (key : String) : List String :=
  (existing.filter (key ∈ ·.keys)).map (·.id)

/-- The keys of `byKey`. -/
def teamKeys [Unicode] (existing : List LocalTeam) : List String :=
  (existing.flatMap (·.keys)).dedup

/-- `free`: the ids not taken. -/
def free (taken ids : List String) : List String := ids.filter (· ∉ taken)

/-- The element of a list of exactly one. -/
def unique : List String → Option String
  | [id] => some id
  | _ => none

/-- One name starts with the other, word for word. -/
def startsWithWord (key k : String) : Bool :=
  hasPrefix key (k ++ " ") || hasPrefix k (key ++ " ")

/-- The clubs of the same country, or of none, whose name starts with the other's. -/
def prefixHits [Unicode] (existing : List LocalTeam) (taken : List String)
    (key country : String) : List String :=
  (teamKeys existing).flatMap fun k =>
    if k = "" ∨ !startsWithWord key k then []
    else (free taken (teamsByKey existing k)).filter fun id =>
      match (teamByID existing id).bind (·.country) with
      | none => true
      | some c => fold c = fold country

/-- `matchClub`: the existing club a source club is, by name. -/
def matchClub [Unicode] (c : Club) (country : String) (existing : List LocalTeam)
    (taken : List String) : Option String :=
  let key := clubKey c.name
  (unique (free taken (teamsByKey existing key))).or
    (unique (prefixHits existing taken key country))

/-- A row the club step inserts. -/
structure NewTeam where
  id : String
  name : String
  league : Option String
  country : String
  stadium : String
  deriving DecidableEq

/-- What the club step writes into a row it has matched. -/
structure TeamUpdate where
  id : String
  league : Option String
  stadium : String
  country : String
  deriving DecidableEq

/-- The variables of the loop over the source's clubs. -/
structure ClubLoop where
  merge : Merge
  taken : List String
  new : List NewTeam
  upd : List TeamUpdate

/-- The club a reference names, when its row still exists. -/
def ClubLoop.referenced (existing : List LocalTeam) (s : ClubLoop) (cid : String) :
    Option String :=
  (s.merge.ref "team" cid).filter fun id => (teamByID existing id).isSome

/-- `m.d.Clubs[cid]`; only keys of the map are looked up. -/
def Dataset.club (d : Dataset) (cid : String) : Club :=
  (d.clubs.lookup cid).getD ⟨"", "", "", 0⟩

/-- The league a source club is in now, if the source has it in one. -/
def Merge.leagueOf (m : Merge) (c : Club) : Option String :=
  if c.lastSeason = m.d.latestSeason then some ((m.comps.lookup c.league).getD "") else none

/-- The loop's body. -/
def clubStep [Unicode] (newString : ℕ → String) (existing : List LocalTeam) (s : ClubLoop)
    (cid : String) : ClubLoop :=
  let m := s.merge
  let c := m.d.club cid
  let country := countryOf c.league
  let league := m.leagueOf c
  match (s.referenced existing cid).or (matchClub c country existing s.taken) with
  | some id =>
      { merge := Merge.remember
          { m with
            report := { m.report with clubsMatched := m.report.clubsMatched + 1 }
            clubs := m.clubs.insert cid id } "team" cid id
        taken := id :: s.taken
        new := s.new
        upd := s.upd ++ [⟨id, league, c.stadium, country⟩] }
  | none =>
      let id := newString m.drawn
      { merge := Merge.remember
          { m with
            report := { m.report with clubsCreated := m.report.clubsCreated + 1 }
            clubs := m.clubs.insert cid id
            drawn := m.drawn + 1 } "team" cid id
        taken := id :: s.taken
        new := s.new ++ [⟨id, c.name, league, country, c.stadium⟩]
        upd := s.upd }

/-- The loop of `importClubs` over a list of source ids. -/
def clubsOver [Unicode] (newString : ℕ → String) (existing : List LocalTeam) (m : Merge)
    (ids : List String) : ClubLoop :=
  ids.foldl (clubStep newString existing)
    { merge := { m with clubs := ∅ }, taken := [], new := [], upd := [] }

/-- The loop of `importClubs`. -/
def clubLoop [Unicode] (newString : ℕ → String) (existing : List LocalTeam) (m : Merge) :
    ClubLoop :=
  clubsOver newString existing m (sortedKeys m.d.clubs)

/-! ## What a name can pick -/

section Picks

variable {existing : List LocalTeam} {taken ids : List String} {id : String}

theorem mem_free : id ∈ free taken ids ↔ id ∈ ids ∧ id ∉ taken := by
  unfold free
  rw [List.mem_filter, decide_eq_true_iff]

theorem unique_eq_some : unique ids = some id ↔ ids = [id] := by
  unfold unique
  split <;> simp_all

theorem mem_of_unique (picked : unique ids = some id) : id ∈ ids := by
  rw [unique_eq_some.mp picked]
  exact List.mem_singleton_self id

theorem teamByID_isSome : (teamByID existing id).isSome ↔ ∃ t ∈ existing, t.id = id := by
  unfold teamByID
  rw [List.find?_isSome]
  simp

variable [Unicode]

theorem teamByID_of_mem_teamsByKey {key : String} (indexed : id ∈ teamsByKey existing key) :
    (teamByID existing id).isSome := by
  unfold teamsByKey at indexed
  obtain ⟨t, kept, same⟩ := List.mem_map.mp indexed
  exact teamByID_isSome.mpr ⟨t, List.mem_of_mem_filter kept, same⟩

/-- A club that is hit is free and there. -/
theorem mem_prefixHits {key country : String}
    (hit : id ∈ prefixHits existing taken key country) :
    id ∉ taken ∧ (teamByID existing id).isSome := by
  unfold prefixHits at hit
  obtain ⟨k, -, hit⟩ := List.mem_flatMap.mp hit
  split at hit
  · exact absurd hit List.not_mem_nil
  · obtain ⟨indexed, untaken⟩ := mem_free.mp (List.mem_of_mem_filter hit)
    exact ⟨untaken, teamByID_of_mem_teamsByKey indexed⟩

/-- A name picks an existing club that is not taken. -/
theorem matchClub_spec {c : Club} {country : String}
    (picked : matchClub c country existing taken = some id) :
    id ∉ taken ∧ (teamByID existing id).isSome := by
  unfold matchClub at picked
  obtain exact_ | ⟨-, byPrefix⟩ := Option.or_eq_some_iff.mp picked
  · obtain ⟨indexed, untaken⟩ := mem_free.mp (mem_of_unique exact_)
    exact ⟨untaken, teamByID_of_mem_teamsByKey indexed⟩
  · exact mem_prefixHits (mem_of_unique byPrefix)

end Picks

end ScoutPulse.Importer
