import ScoutPulse.Lib.Matching
import ScoutPulse.Football.Importer.Players

/-!
# One row for one source id

The club step and the player step are each a pass of record matching. When a name picks
a row, neither looks at the stored references of the ids it has yet to reach; so no two
source ids share a row exactly when no name picks a row that another id of the dataset is
referenced to.
-/

namespace ScoutPulse.Importer

open Matching

/-- A map whose values are distinct gives no two keys one value. -/
theorem injectiveOn_of_nodup (map : GoMap String)
    (values : (map.entries.map Sigma.snd).Nodup) :
    InjectiveOn (fun key => map.lookup key) := by
  intro k₁ k₂ t first second
  have entry₁ := AList.mem_lookup_iff.mp first
  have entry₂ := AList.mem_lookup_iff.mp second
  have same := List.inj_on_of_nodup_map values entry₁ entry₂ rfl
  exact congrArg Sigma.fst same

variable [Unicode] {newString : ℕ → String} {teams : List LocalTeam}
  {players : List LocalPlayer} {m : Merge}

/-! ## The club step -/

/-- The club step as a pass of record matching. -/
def clubMatcher (newString : ℕ → String) (d : Dataset) (teams : List LocalTeam) :
    Matcher String String String where
  key cid := cid
  known id := (teamByID teams id).isSome
  find taken cid := matchClub (d.club cid) (countryOf (d.club cid).league) teams taken
  fresh := newString
  find_free _ _ _ picked := (matchClub_spec picked).1
  find_known _ _ _ picked := (matchClub_spec picked).2

/-- What matching sees of the loop over clubs. -/
def ClubLoop.view (s : ClubLoop) : State String String where
  refs := s.merge.ref "team"
  assigned k := s.merge.clubs.lookup k
  taken := s.taken
  drawn := s.merge.drawn

/-- The loop's body is one step of matching. -/
theorem view_clubStep (s : ClubLoop) (cid : String) :
    (clubStep newString teams s cid).view =
      (clubMatcher newString s.merge.d teams).step s.view cid := by
  have found : (clubMatcher newString s.merge.d teams).found s.view cid =
      (s.referenced teams cid).or (matchClub (s.merge.d.club cid)
        (countryOf (s.merge.d.club cid).league) teams s.taken) := rfl
  unfold clubStep Matcher.step Matcher.target
  dsimp only
  rw [found]
  split
  next id chosen =>
    rw [chosen]
    simp only [ClubLoop.view, Merge.clubs_remember, Merge.drawn_remember,
      Merge.ref_remember_eq, lookup_insert_eq]
    rfl
  next unmatched =>
    rw [unmatched]
    simp only [ClubLoop.view, Merge.clubs_remember, Merge.drawn_remember,
      Merge.ref_remember_eq, lookup_insert_eq]
    rfl

/-- What the club step leaves alone of what is shared. -/
theorem frame_clubStep (s : ClubLoop) (cid : String) :
    (clubStep newString teams s cid).merge.d = s.merge.d ∧
      (clubStep newString teams s cid).merge.ref "player" = s.merge.ref "player" := by
  unfold clubStep
  dsimp only
  split <;> exact ⟨Merge.d_remember .., Merge.ref_remember_other _ (by decide) ..⟩

/-- The loop over the clubs leaves the source and the players' references alone. -/
theorem frame_clubs_foldl (ids : List String) (s : ClubLoop) :
    (ids.foldl (clubStep newString teams) s).merge.d = s.merge.d ∧
      (ids.foldl (clubStep newString teams) s).merge.ref "player" =
        s.merge.ref "player" := by
  induction ids generalizing s with
  | nil => exact ⟨rfl, rfl⟩
  | cons cid ids ih =>
      rw [List.foldl_cons, (ih _).1, (ih _).2]
      exact frame_clubStep s cid

/-- The loop over the clubs is a run of the matcher. -/
theorem view_clubs_foldl (ids : List String) (s : ClubLoop) :
    (ids.foldl (clubStep newString teams) s).view =
      (clubMatcher newString s.merge.d teams).run s.view ids := by
  induction ids generalizing s with
  | nil => rfl
  | cons cid ids ih =>
      rw [List.foldl_cons, ih, (frame_clubStep s cid).1, view_clubStep, Matcher.run_cons]

/-- The club loop is the pass. -/
theorem view_clubsOver (ids : List String) :
    (clubsOver newString teams m ids).view =
      (clubMatcher newString m.d teams).run (start (m.ref "team") m.drawn) ids :=
  view_clubs_foldl ids _

/-- At each source club without a usable reference, its name picks no row that a club of
the dataset is referenced to. -/
def ClubsSpared (newString : ℕ → String) (teams : List LocalTeam) (m : Merge) : Prop :=
  ∀ before cid after id, sortedKeys m.d.clubs = before ++ cid :: after →
    (clubsOver newString teams m before).referenced teams cid = none →
    matchClub (m.d.club cid) (countryOf (m.d.club cid).league) teams
      (clubsOver newString teams m before).taken = some id →
    ∀ other ∈ m.d.clubs, m.ref "team" other ≠ some id

theorem clubsSpared_iff : ClubsSpared newString teams m ↔
    Spares (clubMatcher newString m.d teams) (m.ref "team") m.drawn
      (sortedKeys m.d.clubs) := by
  unfold ClubsSpared Spares
  simp only [← view_clubsOver, mem_sortedKeys]
  rfl

/-- No two source clubs share a row exactly when the references are spared. -/
theorem clubLoop_injective_iff (stored : InjectiveOn (m.ref "team"))
    (distinct : Function.Injective newString)
    (new : ∀ n, ∀ t ∈ teams, t.id ≠ newString n) :
    InjectiveOn (fun cid => (clubLoop newString teams m).merge.clubs.lookup cid) ↔
      ClubsSpared newString teams m := by
  have unknown : ∀ n, (clubMatcher newString m.d teams).known
      ((clubMatcher newString m.d teams).fresh n) = false := fun n => by
    rw [Bool.eq_false_iff]
    intro known
    obtain ⟨t, member, same⟩ := teamByID_isSome.mp known
    exact new n t member same
  have pass : (fun cid => (clubLoop newString teams m).merge.clubs.lookup cid) =
      ((clubMatcher newString m.d teams).run (start (m.ref "team") m.drawn)
        (sortedKeys m.d.clubs)).assigned := by
    rw [← view_clubsOver]
    rfl
  rw [pass, clubsSpared_iff]
  exact run_injective_iff stored distinct unknown

/-! ## The player step -/

/-- The player step as a pass of record matching. -/
def playerMatcher (newString : ℕ → String) (d : Dataset) (clubs : GoMap String)
    (players : List LocalPlayer) : Matcher Player String String where
  key p := p.id
  known id := (playerByID players id).isSome
  find taken p := matchPlayer players d.players (clubOf clubs p.clubID) taken p
  fresh := newString
  find_free _ _ _ picked := (matchPlayer_spec picked).1
  find_known _ _ _ picked := (matchPlayer_spec picked).2

/-- What matching sees of the loop over players. -/
def PlayerLoop.view (s : PlayerLoop) : State String String where
  refs := s.merge.ref "player"
  assigned k := s.merge.players.lookup k
  taken := s.taken
  drawn := s.merge.drawn

/-- A player is a step of the matcher. -/
theorem view_playerStep (s : PlayerLoop) (p : Player) :
    (playerStep newString players s p).view =
      (playerMatcher newString s.merge.d s.merge.clubs players).step s.view p := by
  have found : (playerMatcher newString s.merge.d s.merge.clubs players).found s.view p =
      (s.referenced players p.id).or (matchPlayer players s.merge.d.players
        (clubOf s.merge.clubs p.clubID) s.taken p) := rfl
  unfold playerStep Matcher.step Matcher.target
  dsimp only
  rw [found]
  split
  next id chosen =>
    rw [chosen]
    simp only [PlayerLoop.view, Merge.players_remember, Merge.drawn_remember,
      Merge.ref_remember_eq, lookup_insert_eq]
    rfl
  next unmatched =>
    rw [unmatched]
    simp only [PlayerLoop.view, Merge.players_remember, Merge.drawn_remember,
      Merge.ref_remember_eq, lookup_insert_eq]
    rfl

/-- The loop over the players is a run of the matcher. -/
theorem view_players_foldl (records : List Player) (s : PlayerLoop) :
    (records.foldl (playerStep newString players) s).view =
      (playerMatcher newString s.merge.d s.merge.clubs players).run s.view records := by
  induction records generalizing s with
  | nil => rfl
  | cons p records ih =>
      rw [List.foldl_cons, ih, (frame_playerStep s p).1, (frame_playerStep s p).2,
        view_playerStep, Matcher.run_cons]

/-- The player loop is the pass. -/
theorem view_playersOver (records : List Player) :
    (playersOver newString players m records).view =
      (playerMatcher newString m.d m.clubs players).run (start (m.ref "player") m.drawn) records :=
  view_players_foldl records _

/-- At each source player without a usable reference, the name picks no row that a player
of the dataset is referenced to. -/
def PlayersSpared (newString : ℕ → String) (players : List LocalPlayer) (m : Merge) : Prop :=
  ∀ before p after id, m.d.players = before ++ p :: after →
    (playersOver newString players m before).referenced players p.id = none →
    matchPlayer players m.d.players (clubOf m.clubs p.clubID)
      (playersOver newString players m before).taken p = some id →
    ∀ other ∈ m.d.players, m.ref "player" other.id ≠ some id

theorem playersSpared_iff : PlayersSpared newString players m ↔
    Spares (playerMatcher newString m.d m.clubs players) (m.ref "player") m.drawn m.d.players := by
  unfold PlayersSpared Spares
  simp only [← view_playersOver]
  rfl

/-- No two source players share a row exactly when the references are spared. -/
theorem playerLoop_injective_iff (stored : InjectiveOn (m.ref "player"))
    (distinct : Function.Injective newString)
    (new : ∀ n, ∀ p ∈ players, p.id ≠ newString n) :
    InjectiveOn (fun id => (playerLoop newString players m).merge.players.lookup id) ↔
      PlayersSpared newString players m := by
  have unknown : ∀ n, (playerMatcher newString m.d m.clubs players).known
      ((playerMatcher newString m.d m.clubs players).fresh n) = false := fun n => by
    rw [Bool.eq_false_iff]
    intro known
    obtain ⟨p, member, same⟩ := playerByID_isSome.mp known
    exact new n p member same
  have pass : (fun id => (playerLoop newString players m).merge.players.lookup id) =
      ((playerMatcher newString m.d m.clubs players).run (start (m.ref "player") m.drawn)
        m.d.players).assigned := by
    rw [← view_playersOver]
    rfl
  rw [pass, playersSpared_iff]
  exact run_injective_iff stored distinct unknown

/-! ## Both steps -/

/-- **One row for one source id.** At the end of the club step no two source clubs share a
local club, and at the end of the player step no two source players share a local player,
exactly when neither step lets a name pick a row that an id of the dataset is referenced
to. The ids `uuid.NewString` makes are assumed distinct and new to both tables. -/
theorem matching_injective_iff (storedClubs : InjectiveOn (m.ref "team"))
    (storedPlayers : InjectiveOn (m.ref "player")) (distinct : Function.Injective newString)
    (newTeams : ∀ n, ∀ t ∈ teams, t.id ≠ newString n)
    (newPlayers : ∀ n, ∀ p ∈ players, p.id ≠ newString n) :
    (InjectiveOn (fun cid => (clubLoop newString teams m).merge.clubs.lookup cid) ∧
      InjectiveOn (fun id =>
        (playerLoop newString players (clubLoop newString teams m).merge).merge.players.lookup
          id)) ↔
    ClubsSpared newString teams m ∧
      PlayersSpared newString players (clubLoop newString teams m).merge := by
  have unchanged : (clubLoop newString teams m).merge.ref "player" = m.ref "player" :=
    (frame_clubs_foldl (sortedKeys m.d.clubs) _).2
  have clubs := clubLoop_injective_iff storedClubs distinct newTeams
  have afterClubs := playerLoop_injective_iff (m := (clubLoop newString teams m).merge)
    (by rwa [unchanged]) distinct newPlayers
  rw [clubs, afterClubs]

/-! ## Two namesakes of one row -/

section Namesakes

/-- Ids that look like nothing in a table. -/
def zeros (n : ℕ) : String := String.ofList (List.replicate (n + 1) '0')

omit [Unicode] in
theorem zeros_injective : Function.Injective zeros := by
  intro a b same
  have lengths := congrArg (·.toList.length) same
  simpa [zeros] using lengths

omit [Unicode] in
theorem zeros_ne {id : String} (other : id.toList.all (· = '0') = false) (n : ℕ) :
    id ≠ zeros n := by
  rintro rfl
  simp [zeros] at other

def gijon : LocalTeam := ⟨"t-gijon", "Sporting Gijon", none, none, some "Spain"⟩

def lisbon : LocalTeam := ⟨"t-lisbon", "Sporting", none, none, some "Portugal"⟩

def perez (id dateOfBirth : String) : LocalPlayer :=
  ⟨id, "Juan Perez", some dateOfBirth, some "t-gijon", none, "2025-07-01"⟩

def sourcePerez (id club dateOfBirth : String) : Player :=
  ⟨id, "Juan Perez", "", "", "", dateOfBirth, "", "", "", 0, "", "", club, 0, none, none⟩

/-- Clubs 100 and 2448 of the source, of which the second is known here as `t-gijon`, and
players 800 and 900, of which the second is known here as `t-perez`. -/
def namesakes (league dateOfBirth : String) : Merge where
  d :=
    { clubs := ((∅ : GoMap Club).insert "100" ⟨"Sporting", league, "", 2025⟩).insert "2448"
        ⟨"Sporting Gijon", "ES1", "", 2025⟩
      players := [sourcePerez "800" "100" dateOfBirth, sourcePerez "900" "2448" "1999-01-01"]
      transfers := ∅
      valuations := []
      latestSeason := 2025 }
  scope := ⟨["ES1", "PO1"], 2020⟩
  report := {}
  refs := ((∅ : AList fun _ : String × String => String).insert ("team", "2448")
    "t-gijon").insert ("player", "900") "t-perez"
  newRefs := []
  comps := ∅
  seasons := []
  clubs := ∅
  players := ∅
  matched := []
  drawn := 0

omit [Unicode] in
theorem namesakes_ref {league dateOfBirth kind : String} :
    InjectiveOn ((namesakes league dateOfBirth).ref kind) := by
  intro k₁ k₂ t first second
  have entry₁ := AList.mem_lookup_iff.mp first
  have entry₂ := AList.mem_lookup_iff.mp second
  have values : ((namesakes league dateOfBirth).refs.entries.map Sigma.snd).Nodup :=
    (by decide +kernel : (((∅ : AList fun _ : String × String => String).insert
      ("team", "2448") "t-gijon").insert ("player", "900") "t-perez").entries.map
      Sigma.snd |>.Nodup)
  have same := List.inj_on_of_nodup_map values entry₁ entry₂ rfl
  simpa using congrArg Sigma.fst same

omit [Unicode] in
/-- A league for "Sporting" in Portugal keeps it off the row of the Spanish club, and
another date of birth keeps player 800 off the row of player 900. -/
theorem matching_injective_iff_namesakes :
    let _ := Unicode.ascii
    ClubsSpared zeros [gijon, lisbon] (namesakes "PO1" "2001-02-03") ∧
      PlayersSpared zeros [perez "t-perez" "1999-01-01"]
        (clubLoop zeros [gijon, lisbon] (namesakes "PO1" "2001-02-03")).merge := by
  let _ := Unicode.ascii
  refine (matching_injective_iff namesakes_ref namesakes_ref zeros_injective ?_ ?_).mp
    ⟨injectiveOn_of_nodup _ (by decide +kernel), injectiveOn_of_nodup _ (by decide +kernel)⟩
  · intro n t member
    have other : t.id.toList.all (· = '0') = false := by
      revert t
      decide +kernel
    exact zeros_ne other n
  · intro n p member
    have other : p.id.toList.all (· = '0') = false := by
      revert p
      decide +kernel
    exact zeros_ne other n

omit [Unicode] in
/-- In one country "Sporting" is given the row that club 2448 is referenced to, and a
namesake born on the same day is given the row of player 900. -/
theorem matching_shared :
    let _ := Unicode.ascii
    let m := namesakes "ES1" "1999-01-01"
    let clubs := (clubLoop zeros [gijon] m).merge
    let players := (playerLoop zeros [perez "t-perez" "1999-01-01"] clubs).merge
    (InjectiveOn (m.ref "team") ∧ InjectiveOn (m.ref "player")) ∧
      ¬ InjectiveOn (fun cid => clubs.clubs.lookup cid) ∧
      ¬ InjectiveOn (fun id => players.players.lookup id) := by
  let _ := Unicode.ascii
  refine ⟨⟨namesakes_ref, namesakes_ref⟩, fun injective => ?_, fun injective => ?_⟩
  · have same := injective "100" "2448" "t-gijon" (by decide +kernel) (by decide +kernel)
    exact absurd same (by decide)
  · have same := injective "800" "900" "t-perez" (by decide +kernel) (by decide +kernel)
    exact absurd same (by decide)

end Namesakes

end ScoutPulse.Importer
