import ScoutPulse.Football.Importer.Upsert

/-!
# What the import writes, the service accepts

After an import every player it has touched passes `validatePlayer` exactly when each
height, date of birth and end of contract the source gave fits the row, and the main
position repeats no secondary position in other letters.
-/

namespace ScoutPulse.Importer

open Players (Instant HeightFits BornBefore EndsAfter Apart Plain Valid validatePlayer
  validatePlayer_ok_iff)
open Strings Upsert

/-! ## All rows of one player -/

section Rows

variable [Postgres] [Takes PlayerRow] {started now : Instant} {found stored : Option Players.Player}
  {rows : List PlayerRow} {p : Players.Player}

theorem plain_run (run : rows.foldlM (storeOver (upsertRow started)) found = some (some p))
    (before : ∀ row, found = some row → Plain row)
    (named : ∀ r ∈ rows, r.name ≠ "" ∧ r.position ≠ "") : Plain p :=
  Upsert.invariant (Q := fun r : PlayerRow => r.name ≠ "" ∧ r.position ≠ "")
    (fun _ _ _ made plain given => plain_upsertRow made plain given.1 given.2) run before named p
    rfl

/-- The positions beside the first are those that no row has as its first. -/
theorem secondary_run (run : rows.foldlM (storeOver (upsertRow started)) found = some stored) :
    stored.elim [] (·.secondaryPositions) =
      (found.elim [] (·.secondaryPositions)).filter (· ∉ rows.map (·.position)) := by
  induction rows generalizing found with
  | nil =>
      cases run
      simp
  | cons r rows ih =>
      obtain ⟨x, made, rest⟩ := foldlM_storeOver_cons.mp run
      rw [ih rest, Option.elim_some, (writes_upsertRow made).secondary, List.filter_filter]
      refine List.filter_congr fun s _ => ?_
      rw [List.map_cons, Bool.eq_iff_iff]
      simp only [Bool.and_eq_true, decide_eq_true_iff, List.mem_cons, not_or]
      exact and_comm

/-- A column that each row sets when it has a value. -/
theorem column_run {β : Type} (column : Players.Player → Option β) (given : PlayerRow → Option β)
    (step : ∀ {found r x}, Writes started found r x → column x = (given r).or (found.bind column))
    (run : rows.foldlM (storeOver (upsertRow started)) found = some (some p)) :
    column p = (lastGiven given rows).or (found.bind column) :=
  bind_eq_or (fun _ _ _ made => step (writes_upsertRow made)) run

/-- A column that is never empty. -/
theorem started_run {β : Type} (column : Players.Player → β) (given : PlayerRow → Option β)
    (start : β)
    (step : ∀ {found r x}, Writes started found r x →
      column x = (given r).getD (found.elim start column))
    (run : rows.foldlM (storeOver (upsertRow started)) found = some (some p)) :
    column p = (lastGiven given rows).getD (found.elim start column) :=
  elim_eq_getD (fun _ _ _ made => step (writes_upsertRow made)) run

/-- What all rows of a player make of the columns that are derived, and of those that the
rules about dates, heights and positions read. -/
structure WritesAll (started : Instant) (found : Option Players.Player) (rows : List PlayerRow)
    (p : Players.Player) : Prop where
  team : some p.teamID = ((rows.map fun r => some r.team).getLast?).or (found.map (·.teamID))
  value : p.marketValue =
    (lastGiven (valueGiven ·.value) rows).getD (found.elim 0 (·.marketValue))
  birth : p.dateOfBirth =
    (lastGiven (dateOf ·.dateOfBirth) rows).or (found.bind (·.dateOfBirth))
  height : p.heightCM = (lastGiven (heightOf ·.height) rows).or (found.bind (·.heightCM))
  until_ : p.contractUntil =
    (lastGiven (dateOf ·.contractUntil) rows).or (found.bind (·.contractUntil))
  position : some p.position = ((rows.map (·.position)).getLast?).or (found.map (·.position))
  start : p.contractStart = found.bind (·.contractStart)
  created : p.createdAt = found.elim started (·.createdAt)
  secondary : p.secondaryPositions =
    (found.elim [] (·.secondaryPositions)).filter (· ∉ rows.map (·.position))

/-- A run of rows writes each column as the last row that gives it has it. -/
theorem writesAll_run (run : rows.foldlM (storeOver (upsertRow started)) found = some (some p)) :
    WritesAll started found rows p where
  team := by
    have last := column_run (fun p => some p.teamID) (fun r => some (some r.team))
      (fun w => by rw [w.team]; rfl) run
    rw [lastGiven, List.filterMap_eq_map'] at last
    cases found <;> exact last
  value := started_run _ _ 0 (fun w => w.value) run
  birth := column_run _ _ (fun w => w.birth) run
  height := column_run _ _ (fun w => w.height) run
  until_ := column_run _ _ (fun w => w.until_) run
  position := by
    have last := column_run (fun p => some p.position) (fun r => some r.position)
      (fun w => by rw [w.position]; rfl) run
    rw [lastGiven, List.filterMap_eq_map'] at last
    cases found <;> exact last
  start := by
    have kept := column_run (fun p => p.contractStart) (fun _ => none) (fun w => w.start) run
    rw [lastGiven, List.filterMap_none] at kept
    exact kept
  created := by
    have kept := started_run (fun p => p.createdAt) (fun _ => none) started (fun w => w.created) run
    rw [lastGiven, List.filterMap_none] at kept
    exact kept
  secondary := secondary_run run

end Rows

/-! ## The source players of one row -/

/-- A row of columns that carries a source player. -/
def Carries [Unicode] (m : Merge) (r : PlayerRow) (p : Player) : Prop :=
  r = playerRow r.id (clubOf m.clubs p.clubID) p (valueMinorOf m.d.valuations p)

/-- The source players that a row of the table is found or made for, in their order. -/
def PlayerLoop.sourcesOf (s : PlayerLoop) (players : List Player) (id : String) : List Player :=
  (((s.cols.map (·.id)).zip players).filter (·.1 = id)).map (·.2)

section Sources

variable [Unicode] (newString : ℕ → String) (existing : List LocalPlayer)

/-- A player adds a row that carries what the source says. -/
theorem cols_playerStep (s : PlayerLoop) (p : Player) :
    ∃ r, (playerStep newString existing s p).cols = s.cols ++ [r] ∧ Carries s.merge r p := by
  unfold playerStep
  dsimp only
  split
  next id _ => exact ⟨_, rfl, rfl⟩
  next => exact ⟨_, rfl, rfl⟩

/-- The rows are those of the players, one by one. -/
theorem cols_foldl (players : List Player) (s : PlayerLoop) :
    ∃ rows, (players.foldl (playerStep newString existing) s).cols = s.cols ++ rows ∧
      List.Forall₂ (Carries s.merge) rows players := by
  induction players generalizing s with
  | nil => exact ⟨[], (List.append_nil _).symm, .nil⟩
  | cons p players ih =>
      obtain ⟨r, first, carries⟩ := cols_playerStep newString existing s p
      obtain ⟨rows, rest, later⟩ := ih (playerStep newString existing s p)
      obtain ⟨sameData, sameClubs⟩ :=
        frame_playerStep s p
      have later' : List.Forall₂ (Carries s.merge) rows players :=
        later.imp fun r' p' carries' => by rwa [Carries, sameData, sameClubs] at carries'
      refine ⟨r :: rows, ?_, .cons carries later'⟩
      rw [List.foldl_cons, rest, first, List.append_assoc, List.singleton_append]

theorem cols_playerLoop (m : Merge) :
    List.Forall₂ (Carries m) (playerLoop newString existing m).cols m.d.players := by
  obtain ⟨rows, same, carries⟩ := cols_foldl newString existing m.d.players
    { merge := { m with players := ∅, matched := [] }, taken := [], cols := [] }
  rw [playerLoop, playersOver, same]
  exact carries

variable {m : Merge}

/-- The rows of an id carry the source players of that id. -/
theorem carries_filter {rows : List PlayerRow} {players : List Player} (id : String)
    (carries : List.Forall₂ (Carries m) rows players) :
    List.Forall₂ (Carries m) (rows.filter (·.id = id))
      ((((rows.map (·.id)).zip players).filter (·.1 = id)).map (·.2)) := by
  induction carries with
  | nil => exact .nil
  | @cons r p rows players first _ ih =>
      rw [List.map_cons, List.zip_cons_cons]
      by_cases same : r.id = id
      · rw [List.filter_cons_of_pos (by simpa using same),
          List.filter_cons_of_pos (by simpa using same), List.map_cons]
        exact .cons first ih
      · rw [List.filter_cons_of_neg (by simpa using same),
          List.filter_cons_of_neg (by simpa using same)]
        exact ih

/-- What is read of rows is what is read of the players they carry. -/
theorem map_of_carries {β : Type} {ofRow : PlayerRow → β} {ofPlayer : Player → β}
    {rows : List PlayerRow} {players : List Player}
    (same : ∀ {r p}, Carries m r p → ofRow r = ofPlayer p)
    (carries : List.Forall₂ (Carries m) rows players) : rows.map ofRow = players.map ofPlayer := by
  induction carries with
  | nil => rfl
  | cons first _ ih => rw [List.map_cons, List.map_cons, same first, ih]

/-- What the rows give last is what the players give last. -/
theorem lastGiven_of_carries {β : Type} {ofRow : PlayerRow → Option β}
    {ofPlayer : Player → Option β} {rows : List PlayerRow} {players : List Player}
    (same : ∀ {r p}, Carries m r p → ofRow r = ofPlayer p)
    (carries : List.Forall₂ (Carries m) rows players) :
    lastGiven ofRow rows = lastGiven ofPlayer players := by
  have values := congrArg (List.filterMap id) (map_of_carries same carries)
  rw [List.filterMap_map, List.filterMap_map] at values
  exact congrArg List.getLast? values

end Sources

/-! ## The condition -/

/-- What the source gives for one row fits the rules: the last height, date of birth and end
of contract given, and the last position beside the secondary positions that are left. -/
structure Compatible [CaseFolding] [Postgres] (now : Instant) (row : Option Players.Player)
    (sources : List Player) : Prop where
  height : HeightFits (lastGiven (heightOf ·.heightCM) sources)
  birth : BornBefore now (lastGiven (dateOf ·.dateOfBirth) sources)
  contract : EndsAfter (row.bind (·.contractStart)) (lastGiven (dateOf ·.contractUntil) sources)
  apart : ∀ position ∈ (sources.map positionOf).getLast?,
    Apart position
      ((row.elim [] (·.secondaryPositions)).filter (· ∉ sources.map positionOf))

/-- A player `validatePlayer` accepts. -/
def Accepted [CaseFolding] (now : Instant) (p : Players.Player) : Prop :=
  ∃ stored, validatePlayer now p = .ok stored

instance [CaseFolding] {now : Instant} {p : Players.Player} : Decidable (Accepted now p) :=
  decidable_of_iff ((validatePlayer now p).toOption.isSome = true) (by
    unfold Accepted
    cases validatePlayer now p <;> simp [Except.toOption])

theorem accepted_iff [CaseFolding] {now : Instant} {p : Players.Player} :
    Accepted now p ↔ Valid now p := by
  unfold Accepted
  simp only [validatePlayer_ok_iff, exists_and_left, exists_eq', and_true]

/-- Of two values of which the second passes, the one that counts passes when the first
does. -/
theorem forall_or_iff {α : Type} {P : α → Prop} {x y : Option α} (kept : ∀ a ∈ y, P a) :
    (∀ a ∈ x.or y, P a) ↔ ∀ a ∈ x, P a := by
  cases x with
  | none => simpa using kept
  | some a => simp

theorem positionOf_ne_empty (source : Player) : positionOf source ≠ "" := by
  simp only [positionOf]
  generalize (if source.subPosition = "" ∨ source.subPosition = "Missing" then source.position
    else source.subPosition) = position
  split
  · decide
  next given => exact fun empty => given (.inl empty)

theorem forall_of_bind {α β : Type} {P : β → Prop} {o : Option α} {column : α → Option β}
    (each : ∀ a, o = some a → ∀ b ∈ column a, P b) : ∀ b ∈ o.bind column, P b := by
  intro b member
  obtain ⟨a, same, given⟩ := Option.bind_eq_some_iff.mp member
  exact each a same b given

section Rows

variable [Unicode] [CaseFolding] [Postgres] [Takes PlayerRow] {started now : Instant}
  {m : Merge} {found : Option Players.Player} {rows : List PlayerRow} {sources : List Player}
  {p : Players.Player}

/-- The row of a player is accepted exactly when what the source gave fits. -/
theorem valid_iff_compatible
    (run : rows.foldlM (storeOver (upsertRow started)) found = some (some p)) (some_ : rows ≠ [])
    (carries : List.Forall₂ (Carries m) rows sources)
    (before : ∀ row, found = some row → Valid now row)
    (named : ∀ source ∈ sources, source.name ≠ "") :
    Valid now p ↔ Compatible now found sources := by
  have writes := writesAll_run run
  have heights : lastGiven (fun r => heightOf r.height) rows =
      lastGiven (fun source => heightOf source.heightCM) sources :=
    lastGiven_of_carries (fun carries => by rw [carries]; rfl) carries
  have births : lastGiven (fun r => dateOf r.dateOfBirth) rows =
      lastGiven (fun source => dateOf source.dateOfBirth) sources :=
    lastGiven_of_carries (fun carries => by rw [carries]; rfl) carries
  have ends : lastGiven (fun r => dateOf r.contractUntil) rows =
      lastGiven (fun source => dateOf source.contractUntil) sources :=
    lastGiven_of_carries (fun carries => by rw [carries]; rfl) carries
  have names : rows.map (·.name) = sources.map (·.name) :=
    map_of_carries (fun carries => by rw [carries]; rfl) carries
  have positions : rows.map (·.position) = sources.map positionOf :=
    map_of_carries (fun carries => by rw [carries]; rfl) carries
  have heightKept : HeightFits (found.bind (·.heightCM)) :=
    forall_of_bind fun row same => (before row same).height
  have birthKept : BornBefore now (found.bind (·.dateOfBirth)) :=
    forall_of_bind fun row same => (before row same).birth
  have contractKept : EndsAfter (found.bind (·.contractStart)) (found.bind (·.contractUntil)) := by
    intro s start
    obtain ⟨row, same, given⟩ := Option.bind_eq_some_iff.mp start
    rw [same]
    exact (before row same).contract s given
  have plain : Plain p := by
    refine plain_run run (fun row same => (before row same).plain) fun r member => ⟨?_, ?_⟩
    · have name : r.name ∈ sources.map (·.name) := by
        rw [← names]
        exact List.mem_map_of_mem member
      obtain ⟨source, given, same⟩ := List.mem_map.mp name
      exact same ▸ named source given
    · have position : r.position ∈ sources.map positionOf := by
        rw [← positions]
        exact List.mem_map_of_mem member
      obtain ⟨source, -, same⟩ := List.mem_map.mp position
      exact same ▸ positionOf_ne_empty source
  have height : HeightFits p.heightCM ↔
      HeightFits (lastGiven (fun source => heightOf source.heightCM) sources) := by
    rw [writes.height, heights]
    exact forall_or_iff heightKept
  have birth : BornBefore now p.dateOfBirth ↔
      BornBefore now (lastGiven (fun source => dateOf source.dateOfBirth) sources) := by
    rw [writes.birth, births]
    exact forall_or_iff birthKept
  have contract : EndsAfter p.contractStart p.contractUntil ↔
      EndsAfter (found.bind (·.contractStart))
        (lastGiven (fun source => dateOf source.contractUntil) sources) := by
    rw [writes.until_, writes.start, ends]
    exact forall₂_congr fun s start => forall_or_iff (contractKept s start)
  have apart : Apart p.position p.secondaryPositions ↔
      ∀ position ∈ (sources.map positionOf).getLast?, Apart position
        ((found.elim [] (·.secondaryPositions)).filter (· ∉ sources.map positionOf)) := by
    rw [writes.secondary, ← positions]
    have last : (rows.map (·.position)).getLast? = some p.position := by
      have position := writes.position
      cases found_ : (rows.map (·.position)).getLast? with
      | none =>
          rw [List.getLast?_eq_none_iff, List.map_eq_nil_iff] at found_
          exact absurd found_ some_
      | some position' =>
          rw [found_, Option.some_or] at position
          exact position.symm
    rw [last]
    simp only [Option.mem_def, Option.some.injEq, forall_eq']
  constructor
  · intro valid
    exact ⟨height.mp valid.height, birth.mp valid.birth, contract.mp valid.contract,
      apart.mp valid.apart⟩
  · intro fits
    exact ⟨plain, height.mpr fits.height, birth.mpr fits.birth, contract.mpr fits.contract,
      apart.mpr fits.apart⟩

end Rows

/-! ## A whole import -/

/-- The ids the step has found or made rows for. -/
def PlayerLoop.touched (s : PlayerLoop) : List String := s.cols.map (·.id)

section Import

variable [Unicode] [Postgres] [Takes PlayerRow] {started now : Instant} {newString : ℕ → String}
  {players after : PlayerTable} {m : Merge}

theorem foldlM_of_importPlayers
    (committed : importPlayers started newString players m = some after) :
    (playerLoop newString (selectPlayers players) m).cols.foldlM
      (put (·.id) (upsertRow started)) players = some after :=
  foldlM_of_inChunks (fun stored => foldlM_of_upsertPlayers stored) committed

/-- What is stored of a player the import has touched comes from their source players. -/
theorem run_of_touched (committed : importPlayers started newString players m = some after)
    {id : String} (touched : id ∈ (playerLoop newString (selectPlayers players) m).touched) :
    ∃ rows p, after.lookup id = some p ∧ rows ≠ [] ∧
      rows.foldlM (storeOver (upsertRow started)) (players.lookup id) = some (some p) ∧
      List.Forall₂ (Carries m) rows
        ((playerLoop newString (selectPlayers players) m).sourcesOf m.d.players id) := by
  have run := lookup_foldlM (fun r : PlayerRow => r.id) id (foldlM_of_importPlayers committed)
  have rows : (playerLoop newString (selectPlayers players) m).cols.filter (·.id = id) ≠ [] := by
    obtain ⟨r, member, same⟩ := List.mem_map.mp touched
    exact List.ne_nil_of_mem (List.mem_filter.mpr ⟨member, by simpa using same⟩)
  obtain ⟨p, stored⟩ := exists_stored run rows
  rw [stored] at run
  exact ⟨_, p, stored, rows, run,
    carries_filter id (cols_playerLoop newString (selectPlayers players) m)⟩

variable [CaseFolding]

/-- **What the importer writes, the service accepts**, for every player the import has
touched, exactly when what the source gave for each of them fits. -/
theorem imported_accepted_iff
    (committed : importPlayers started newString players m = some after)
    (named : ∀ p ∈ m.d.players, p.name ≠ "")
    (before : ∀ id ∈ (playerLoop newString (selectPlayers players) m).touched,
      ∀ p, players.lookup id = some p → Accepted now p) :
    (∀ id ∈ (playerLoop newString (selectPlayers players) m).touched,
      ∀ p, after.lookup id = some p → Accepted now p) ↔
    ∀ id ∈ (playerLoop newString (selectPlayers players) m).touched,
      Compatible now (players.lookup id)
        ((playerLoop newString (selectPlayers players) m).sourcesOf m.d.players id) := by
  refine forall₂_congr fun id touched => ?_
  obtain ⟨rows, p, stored, some_, run, carries⟩ := run_of_touched committed touched
  have step : Valid now p ↔ Compatible now (players.lookup id) _ :=
    valid_iff_compatible run some_ carries
      (fun row same => accepted_iff.mp (before id touched row same)) (by
        intro source member
        obtain ⟨pair, kept, rfl⟩ := List.mem_map.mp member
        exact named _ (List.of_mem_zip (List.mem_of_mem_filter kept)).2)
  rw [stored]
  simp only [Option.some.injEq, forall_eq', accepted_iff]
  exact step

end Import

section Perez

/-- The dates of one squad list. -/
@[reducible]
def calendar : Postgres where
  toDay text :=
    if text = "1999-01-01" then some 729754
    else if text = "2027-06-30" then some 740161
    else none
  dayText day := if day = 729754 then "1999-01-01" else "2025-07-01"

/-- The ids are those of players, and the club is in the table. -/
@[reducible]
def oneClub : Takes PlayerRow where
  takes r := r.id.length = 36 && r.team = "7d4a1e92-08c5-4f6b-9e13-2b5d0c7a6f18"

/-- The third of February of 2026. -/
def february : Instant := 63905673600000000000

def perezRow (secondary : List String) : Players.Player where
  teamID := some "7d4a1e92-08c5-4f6b-9e13-2b5d0c7a6f18"
  name := "Juan Perez"
  firstName := none
  lastName := none
  dateOfBirth := some 63050745600000000000
  nationalities := ["Spain", "Peru"]
  heightCM := none
  preferredFoot := some "left"
  agent := none
  squadNumber := some 4
  position := "Right-Back"
  secondaryPositions := secondary
  contractStart := some 63886924800000000000
  contractUntil := none
  marketValue := 0
  currency := "EUR"
  duelsWonPct := some (63 / 2)
  passCompletionPct := none
  shotsOnTargetPct := none
  aerialDuelsWonPct := none
  internationalCaps := none
  internationalGoals := none
  strengths := ["Reads the game"]
  weaknesses := []
  createdAt := 63886924800000000000

def squad (secondary : List String) : PlayerTable :=
  (∅ : PlayerTable).insert "1f0b6c3e-5a27-4d8e-b1f9-3c6e8a2d7b40" (perezRow secondary)

/-- Player 800 of the source is in the squad, player 900 is not. -/
def squadList : Merge where
  d :=
    { clubs := ∅
      players :=
        [⟨"800", "Juan Perez", "Juan", "Perez", "Spain", "1999-01-01", "Defender", "Centre-Back",
            "right", 188, "2027-06-30", "", "2448", 1000000, none, none⟩,
          ⟨"900", "Luis Gil", "Luis", "Gil", "", "", "Attack", "", "", 0, "", "", "2448", 0, none,
            none⟩]
      transfers := ∅
      valuations := [⟨"900", "2025-12-01", 250000⟩]
      latestSeason := 2025 }
  scope := ⟨["ES1"], 2020⟩
  report := {}
  refs := ∅
  newRefs := []
  comps := ∅
  seasons := []
  clubs := (∅ : GoMap String).insert "2448" "7d4a1e92-08c5-4f6b-9e13-2b5d0c7a6f18"
  players := ∅
  matched := []
  drawn := 0

def drawnID (_ : ℕ) : String := "c28e5d71-9b34-4a06-8f52-6d1e7c0b9a35"

/-- Whether the players of some ids are accepted. -/
def allAccepted [CaseFolding] (now : Instant) (players : PlayerTable) (ids : List String) : Bool :=
  ids.all fun id => (players.lookup id).all fun p => Accepted now p

theorem allAccepted_iff [CaseFolding] {now : Instant} {players : PlayerTable}
    {ids : List String} : allAccepted now players ids = true ↔
      ∀ id ∈ ids, ∀ p, players.lookup id = some p → Accepted now p := by
  rw [allAccepted, List.all_eq_true]
  refine forall₂_congr fun id _ => ?_
  rw [Option.all_eq_true]
  exact forall₂_congr fun p _ => decide_eq_true_iff

/-- Juan Perez of the squad keeps one of his secondary positions, and Luis Gil is new. -/
theorem imported_accepted_iff_squad :
    let _ := Unicode.ascii
    let _ := CaseFolding.ascii
    let _ := calendar
    let _ := oneClub
    let players := squad ["Left-Back", "Centre-Back"]
    let s := playerLoop drawnID (selectPlayers players) squadList
    Compatible february (players.lookup "1f0b6c3e-5a27-4d8e-b1f9-3c6e8a2d7b40")
        (s.sourcesOf squadList.d.players "1f0b6c3e-5a27-4d8e-b1f9-3c6e8a2d7b40") ∧
      Compatible february (players.lookup "c28e5d71-9b34-4a06-8f52-6d1e7c0b9a35")
        (s.sourcesOf squadList.d.players "c28e5d71-9b34-4a06-8f52-6d1e7c0b9a35") := by
  intro _ _ _ _ players s
  have runs : (importPlayers february drawnID players squadList).any
      (fun after => allAccepted february after s.touched &&
        allAccepted february players s.touched &&
        s.touched = ["1f0b6c3e-5a27-4d8e-b1f9-3c6e8a2d7b40",
          "c28e5d71-9b34-4a06-8f52-6d1e7c0b9a35"]) = true := by decide +kernel
  obtain ⟨after, committed, good⟩ := (Option.any_eq_true _ _).mp runs
  simp only [Bool.and_eq_true, decide_eq_true_iff] at good
  obtain ⟨⟨accepted, before⟩, touched⟩ := good
  have fits := (imported_accepted_iff committed (by decide +kernel)
    (allAccepted_iff.mp before)).mp (allAccepted_iff.mp accepted)
  refine ⟨fits _ ?_, fits _ ?_⟩
  · rw [touched]
    exact List.mem_cons_self
  · rw [touched]
    exact List.mem_cons_of_mem _ List.mem_cons_self

/-- A secondary position entered in other letters than the source's main position is not
dropped, and the service refuses the player it accepted before. -/
theorem imported_refused :
    let _ := Unicode.ascii
    let _ := CaseFolding.ascii
    let _ := calendar
    let _ := oneClub
    Accepted february (perezRow ["centre-back"]) ∧ (∀ p ∈ squadList.d.players, p.name ≠ "") ∧
      ∃ after p, importPlayers february drawnID (squad ["centre-back"]) squadList = some after ∧
        after.lookup "1f0b6c3e-5a27-4d8e-b1f9-3c6e8a2d7b40" = some p ∧
        validatePlayer february p =
          .error (.invalid "a secondary position cannot repeat the main position") := by
  intro _ _ _ _
  have runs : (importPlayers february drawnID (squad ["centre-back"]) squadList).any
      (fun after => (after.lookup "1f0b6c3e-5a27-4d8e-b1f9-3c6e8a2d7b40").any fun p =>
        validatePlayer february p =
          .error (.invalid "a secondary position cannot repeat the main position")) = true := by
    decide +kernel
  obtain ⟨after, committed, found⟩ := (Option.any_eq_true _ _).mp runs
  obtain ⟨p, found, refused⟩ := (Option.any_eq_true _ _).mp found
  exact ⟨by decide +kernel, by decide +kernel, after, p, committed, found,
    of_decide_eq_true refused⟩

end Perez

end ScoutPulse.Importer
