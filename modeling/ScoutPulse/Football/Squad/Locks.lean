import ScoutPulse.Football.Squad.Steps

/-!
# What a request has locked

What is true of a request at each of its stages, for as long as it is there: the rows
it has locked with the versions it will leave, and what its locks keep others from
doing. `Record` has the player, so nobody else records a move of the same player;
a `DELETE` of a club has the club's row, so nobody else comes to refer to it.
-/

namespace ScoutPulse.Squad

open ReadCommitted

/-- A request has locked nothing. -/
structure Idle (s : Store) (i : ℕ) : Prop where
  players : s.players.LocksOnly i []
  transfers : s.transfers.LocksOnly i []
  teams : s.teams.LocksOnly i []

/-- A committed move of the player is dated later. -/
def Outdated (s : Store) (t : Transfer) : Prop :=
  ∃ k m, s.transfers.committed k = some m ∧ m.transfer.playerID = t.playerID ∧
    t.transferDate < m.transfer.transferDate

/-- `Record` is about a move that was asked for, and has locked its player alone. -/
structure Recording (s : Store) (i : ℕ) (kind : Kind) (t : Transfer) : Prop where
  asked : ∃ asked, kind = .recordTransfer asked ∧ Fits asked t
  players : s.players.LocksOnly i [t.playerID]
  teams : s.teams.LocksOnly i []

/-- The player whose lock `Record` has is where the move starts, and will be at `team`. -/
def Stands (s : Store) (i : ℕ) (t : Transfer) (team : Option String) : Prop :=
  ∃ row row', s.players.committed t.playerID = some row ∧ row.teamID = t.fromTeam ∧
    s.players.held t.playerID = some (i, some row') ∧ row'.teamID = team

/-- `Record` has inserted the move, as the last one of its player. -/
structure Filed (s : Store) (i : ℕ) (t : Transfer) (id : String) : Prop where
  absent : s.transfers.committed id = none
  transfers : s.transfers.LocksOnly i [id]
  inserted : ∃ n, s.transfers.held id = some (i, some ⟨t, n⟩) ∧
    ∀ k m, s.transfers.committed k = some m → m.transfer.playerID = t.playerID → m.recorded < n

/-- The club a new row refers to is still to be checked or held in place. -/
def Refers (s : Store) (i : ℕ) (clubs : List String) (club : Option String) : Prop :=
  ∀ teamID, club = some teamID → teamID ∈ clubs ∨ (teamID, i) ∈ s.shared

/-- `Create` has inserted a player nothing is known of yet. -/
structure Newcomer (s : Store) (i : ℕ) (id : String) (teamID : Option String) : Prop where
  absent : s.players.committed id = none
  players : s.players.LocksOnly i [id]
  teams : s.teams.LocksOnly i []
  inserted : ∃ row, s.players.held id = some (i, some row) ∧ row.teamID = teamID
  unmoved : ∀ k m, s.transfers.committed k = some m → m.transfer.playerID ≠ id

/-- `Create` has inserted the opening transfer of a player with a club. -/
inductive Opening (s : Store) (i : ℕ) (id : String) : Option String → Prop
  | none (transfers : s.transfers.LocksOnly i []) : Opening s i id none
  | some (teamID k : String) (m : Move) (absent : s.transfers.committed k = .none)
      (transfers : s.transfers.LocksOnly i [k]) (held : s.transfers.held k = some (i, .some m))
      (player : m.transfer.playerID = id) (club : m.transfer.toTeam = .some teamID) :
      Opening s i id (.some teamID)

/-- Two versions of one move, with the same date for the same player. -/
structure SameMove (m m' : Move) : Prop where
  playerID : m'.transfer.playerID = m.transfer.playerID
  rank : m'.rank = m.rank

/-- A plain update keeps the player's club, and the move's player, club and date. -/
structure Rewrites (s : Store) (i : ℕ) : Prop where
  teams : s.teams.LocksOnly i []
  players : ∀ k v, s.players.held k = some (i, v) → ∃ row row', s.players.committed k = some row ∧
    v = some row' ∧ row'.teamID = row.teamID
  transfers : ∀ k v, s.transfers.held k = some (i, v) → ∃ m m', s.transfers.committed k = some m ∧
    v = some m' ∧ SameMove m m' ∧ m'.transfer.toTeam = m.transfer.toTeam

/-- A `DELETE` of a club has the club's row, which nobody else refers to, and leaves
players and moves without it. -/
structure Deleting (s : Store) (i : ℕ) (teamID : String) : Prop where
  row : s.teams.held teamID = some (i, none)
  teams : s.teams.LocksOnly i [teamID]
  alone : ∀ j, (teamID, j) ∈ s.shared → j = i
  players : ∀ k v, s.players.held k = some (i, v) → ∃ row row', s.players.committed k = some row ∧
    v = some row' ∧ row.teamID = some teamID ∧ row'.teamID = none
  transfers : ∀ k v, s.transfers.held k = some (i, v) → ∃ m m', s.transfers.committed k = some m ∧
    v = some m' ∧ SameMove m m' ∧ (m'.transfer.toTeam = m.transfer.toTeam ∨
      m.transfer.toTeam = some teamID ∧ m'.transfer.toTeam = none)

/-- Every player at the club is one the cascade has yet to come to or has released. -/
def PlayersSwept (s : Store) (i : ℕ) (teamID : String) (targets : List String) : Prop :=
  ∀ k row, s.players.committed k = some row → row.teamID = some teamID →
    k ∈ targets ∨ ∃ v, s.players.held k = some (i, v)

/-- Every move to the club is one the cascade has yet to come to or has cleared. -/
def MovesSwept (s : Store) (i : ℕ) (teamID : String) (targets : List String) : Prop :=
  ∀ k m, s.transfers.committed k = some m → m.transfer.toTeam = some teamID →
    k ∈ targets ∨ ∃ m', s.transfers.held k = some (i, some m') ∧ m'.transfer.toTeam = none

/-- How far a `DELETE` of a club has come. -/
def Swept (s : Store) (i : ℕ) (teamID : String) : Cascade → List String → Prop
  | .players, targets => PlayersSwept s i teamID targets
  | .origins, _ => PlayersSwept s i teamID []
  | .destinations, targets => PlayersSwept s i teamID [] ∧ MovesSwept s i teamID targets

/-- What is true of a request at each stage. -/
def StageHolds (s : Store) (i : ℕ) (r : Request) : Prop :=
  match r.stage with
  | .admitted t => Idle s i ∧ ∃ asked, r.kind = .recordTransfer asked ∧ Fits asked t
  | .locked t => Recording s i r.kind t ∧ Stands s i t t.fromTeam ∧ s.transfers.LocksOnly i []
  | .filed t id clubs => Recording s i r.kind t ∧ Stands s i t t.fromTeam ∧ Filed s i t id ∧
      Refers s i clubs t.toTeam
  | .placed t id => Recording s i r.kind t ∧ (Outdated s t → Stands s i t t.fromTeam) ∧
      (¬ Outdated s t → Stands s i t t.toTeam) ∧ Filed s i t id ∧ Refers s i [] t.toTeam
  | .created id _ clubs => ∃ teamID details, r.kind = .createPlayer teamID details ∧
      Newcomer s i id teamID ∧ Opening s i id none ∧ Refers s i clubs teamID
  | .opened id => ∃ teamID, Newcomer s i id teamID ∧ Opening s i id teamID ∧ Refers s i [] teamID
  | .written => Rewrites s i
  | .clearing cascade targets => ∃ teamID, r.kind = .deleteTeam teamID ∧ Deleting s i teamID ∧
      Swept s i teamID cascade targets
  | _ => Idle s i

/-! ## Other requests' steps -/

/-- Two stores with the same moves of a player, dated and recorded alike. -/
def SameHistory (s s' : Store) (playerID : String) : Prop :=
  (∀ k m, s.transfers.committed k = some m → m.transfer.playerID = playerID →
    ∃ m', s'.transfers.committed k = some m' ∧ SameMove m m') ∧
  (∀ k m', s'.transfers.committed k = some m' → m'.transfer.playerID = playerID →
    ∃ m, s.transfers.committed k = some m ∧ SameMove m m')

/-- No row has come to refer to a club. -/
structure Guarded (s s' : Store) (teamID : String) : Prop where
  shared : ∀ j, (teamID, j) ∈ s'.shared → (teamID, j) ∈ s.shared
  players : ∀ k row', s'.players.committed k = some row' → row'.teamID = some teamID →
    ∃ row, s.players.committed k = some row ∧ row.teamID = some teamID
  transfers : ∀ k m', s'.transfers.committed k = some m' → m'.transfer.toTeam = some teamID →
    ∃ m, s.transfers.committed k = some m ∧ m.transfer.toTeam = some teamID

/-- What another request's step leaves a request. -/
structure Undisturbed (s s' : Store) (i : ℕ) : Prop where
  players : s.players.Spares s'.players i
  transfers : s.transfers.Spares s'.transfers i
  teams : s.teams.Spares s'.teams i
  shared : ∀ {teamID}, (teamID, i) ∈ s'.shared ↔ (teamID, i) ∈ s.shared
  history : ∀ {k v}, s.players.held k = some (i, v) → SameHistory s s' k
  guarded : ∀ {teamID}, s.teams.held teamID = some (i, none) →
    (∀ j, (teamID, j) ∈ s.shared → j = i) → Guarded s s' teamID

theorem SameMove.refl (m : Move) : SameMove m m := ⟨rfl, rfl⟩

theorem SameMove.trans {m m' m'' : Move} (first : SameMove m m') (second : SameMove m' m'') :
    SameMove m m'' :=
  ⟨second.playerID.trans first.playerID, second.rank.trans first.rank⟩

theorem SameMove.date {m m' : Move} (same : SameMove m m') :
    m'.transfer.transferDate = m.transfer.transferDate :=
  congrArg (fun rank => (ofLex rank).1) same.rank

theorem SameMove.recorded {m m' : Move} (same : SameMove m m') : m'.recorded = m.recorded :=
  congrArg (fun rank => (ofLex rank).2) same.rank

section Frame

variable {s s' : Store} {i : ℕ} {kind : Kind} {t : Transfer} {team : Option String}
  {id teamID : String} {clubs targets : List String}

theorem Idle.undisturbed (idle : Idle s i) (undisturbed : Undisturbed s s' i) : Idle s' i :=
  ⟨idle.players.spares undisturbed.players, idle.transfers.spares undisturbed.transfers,
    idle.teams.spares undisturbed.teams⟩

/-- What is outdated stays so while the player is locked. -/
theorem Outdated.undisturbed {v : Option Player} (undisturbed : Undisturbed s s' i)
    (held : s.players.held t.playerID = some (i, v)) : Outdated s' t ↔ Outdated s t := by
  obtain ⟨there, back⟩ := undisturbed.history held
  constructor
  · rintro ⟨k, m', found, player, later⟩
    obtain ⟨m, before, same⟩ := back k m' found player
    exact ⟨k, m, before, same.playerID.symm.trans player, same.date ▸ later⟩
  · rintro ⟨k, m, found, player, later⟩
    obtain ⟨m', after, same⟩ := there k m found player
    exact ⟨k, m', after, same.playerID.trans player, same.date.symm ▸ later⟩

theorem Recording.undisturbed (recording : Recording s i kind t)
    (undisturbed : Undisturbed s s' i) : Recording s' i kind t :=
  ⟨recording.asked, recording.players.spares undisturbed.players,
    recording.teams.spares undisturbed.teams⟩

theorem Stands.undisturbed (stands : Stands s i t team) (undisturbed : Undisturbed s s' i) :
    Stands s' i t team := by
  obtain ⟨row, row', found, origin, held, now⟩ := stands
  exact ⟨row, row', (undisturbed.players.rows held).trans found, origin,
    undisturbed.players.locks.mpr held, now⟩

theorem Stands.lock (stands : Stands s i t team) :
    ∃ v, s.players.held t.playerID = some (i, v) := by
  obtain ⟨row, row', -, -, held, -⟩ := stands
  exact ⟨some row', held⟩

/-- A transfer stays filed while the player is locked. -/
theorem Filed.undisturbed {v : Option Player} (filed : Filed s i t id)
    (undisturbed : Undisturbed s s' i) (lock : s.players.held t.playerID = some (i, v)) :
    Filed s' i t id := by
  obtain ⟨absent, transfers, n, held, last⟩ := filed
  refine ⟨(undisturbed.transfers.rows held).trans absent,
    transfers.spares undisturbed.transfers, n, undisturbed.transfers.locks.mpr held, ?_⟩
  intro k m' found player
  obtain ⟨m, before, same⟩ := (undisturbed.history lock).2 k m' found player
  rw [same.recorded]
  exact last k m before (same.playerID.symm.trans player)

theorem Refers.undisturbed {club : Option String} (refers : Refers s i clubs club)
    (undisturbed : Undisturbed s s' i) : Refers s' i clubs club := by
  intro teamID isClub
  rcases refers teamID isClub with pending | shared
  · exact Or.inl pending
  · exact Or.inr (undisturbed.shared.mpr shared)

/-- A newcomer stays one while others take their steps. -/
theorem Newcomer.undisturbed {club : Option String} (newcomer : Newcomer s i id club)
    (undisturbed : Undisturbed s s' i) : Newcomer s' i id club := by
  obtain ⟨absent, players, teams, ⟨row, held, now⟩, unmoved⟩ := newcomer
  refine ⟨(undisturbed.players.rows held).trans absent, players.spares undisturbed.players,
    teams.spares undisturbed.teams, ⟨row, undisturbed.players.locks.mpr held, now⟩, ?_⟩
  intro k m' found player
  obtain ⟨m, before, same⟩ := (undisturbed.history held).2 k m' found player
  exact unmoved k m before (same.playerID.symm.trans player)

/-- An opening stays one while others take their steps. -/
theorem Opening.undisturbed {club : Option String} (opening : Opening s i id club)
    (undisturbed : Undisturbed s s' i) : Opening s' i id club := by
  cases opening with
  | none transfers => exact .none (transfers.spares undisturbed.transfers)
  | some teamID k m absent transfers held player club =>
      exact .some teamID k m ((undisturbed.transfers.rows held).trans absent)
        (transfers.spares undisturbed.transfers) (undisturbed.transfers.locks.mpr held) player club

/-- A rewriting stays one while others take their steps. -/
theorem Rewrites.undisturbed (rewrites : Rewrites s i) (undisturbed : Undisturbed s s' i) :
    Rewrites s' i := by
  refine ⟨rewrites.teams.spares undisturbed.teams, ?_, ?_⟩
  · intro k v held
    have own := undisturbed.players.locks.mp held
    rw [undisturbed.players.rows own]
    exact rewrites.players k v own
  · intro k v held
    have own := undisturbed.transfers.locks.mp held
    rw [undisturbed.transfers.rows own]
    exact rewrites.transfers k v own

/-- A deletion stays one while others take their steps. -/
theorem Deleting.undisturbed (deleting : Deleting s i teamID)
    (undisturbed : Undisturbed s s' i) : Deleting s' i teamID := by
  have guarded := undisturbed.guarded deleting.row deleting.alone
  refine ⟨undisturbed.teams.locks.mpr deleting.row, deleting.teams.spares undisturbed.teams,
    fun j shared => deleting.alone j (guarded.shared j shared), ?_, ?_⟩
  · intro k v held
    have own := undisturbed.players.locks.mp held
    rw [undisturbed.players.rows own]
    exact deleting.players k v own
  · intro k v held
    have own := undisturbed.transfers.locks.mp held
    rw [undisturbed.transfers.rows own]
    exact deleting.transfers k v own

/-- The players swept stay so while nobody joins the club. -/
theorem PlayersSwept.undisturbed (swept : PlayersSwept s i teamID targets)
    (undisturbed : Undisturbed s s' i) (guarded : Guarded s s' teamID) :
    PlayersSwept s' i teamID targets := by
  intro k row' found club
  obtain ⟨row, before, was⟩ := guarded.players k row' found club
  rcases swept k row before was with target | ⟨v, held⟩
  · exact Or.inl target
  · exact Or.inr ⟨v, undisturbed.players.locks.mpr held⟩

/-- The transfers swept stay so while nobody joins the club. -/
theorem MovesSwept.undisturbed (swept : MovesSwept s i teamID targets)
    (undisturbed : Undisturbed s s' i) (guarded : Guarded s s' teamID) :
    MovesSwept s' i teamID targets := by
  intro k m' found club
  obtain ⟨m, before, was⟩ := guarded.transfers k m' found club
  rcases swept k m before was with target | ⟨version, held, cleared⟩
  · exact Or.inl target
  · exact Or.inr ⟨version, undisturbed.transfers.locks.mpr held, cleared⟩

/-- What has been swept stays so while nobody joins the club. -/
theorem Swept.undisturbed {cascade : Cascade} (swept : Swept s i teamID cascade targets)
    (undisturbed : Undisturbed s s' i) (guarded : Guarded s s' teamID) :
    Swept s' i teamID cascade targets := by
  cases cascade with
  | players => exact PlayersSwept.undisturbed swept undisturbed guarded
  | origins => exact PlayersSwept.undisturbed swept undisturbed guarded
  | destinations =>
      exact ⟨swept.1.undisturbed undisturbed guarded, swept.2.undisturbed undisturbed guarded⟩

/-- What is true of a request stays true while others step. -/
theorem StageHolds.undisturbed {r : Request} (holds : StageHolds s i r)
    (undisturbed : Undisturbed s s' i) : StageHolds s' i r := by
  obtain ⟨kind, stage⟩ := r
  cases stage with
  | admitted t => exact ⟨holds.1.undisturbed undisturbed, holds.2⟩
  | locked t =>
      exact ⟨holds.1.undisturbed undisturbed, holds.2.1.undisturbed undisturbed,
        holds.2.2.spares undisturbed.transfers⟩
  | filed t id clubs =>
      obtain ⟨recording, stands, filed, refers⟩ := holds
      obtain ⟨v, lock⟩ := stands.lock
      exact ⟨recording.undisturbed undisturbed, stands.undisturbed undisturbed,
        filed.undisturbed undisturbed lock, refers.undisturbed undisturbed⟩
  | placed t id =>
      obtain ⟨recording, stays, goes, filed, refers⟩ := holds
      have lock : ∃ v, s.players.held t.playerID = some (i, v) := by
        by_cases outdated : Outdated s t
        · exact (stays outdated).lock
        · exact (goes outdated).lock
      obtain ⟨v, lock⟩ := lock
      have still := Outdated.undisturbed undisturbed lock
      refine ⟨recording.undisturbed undisturbed, fun outdated => ?_, fun current => ?_,
        filed.undisturbed undisturbed lock, refers.undisturbed undisturbed⟩
      · exact (stays (still.mp outdated)).undisturbed undisturbed
      · exact (goes fun outdated => current (still.mpr outdated)).undisturbed undisturbed
  | created id createdAt clubs =>
      obtain ⟨teamID, details, isCreate, newcomer, opening, refers⟩ := holds
      exact ⟨teamID, details, isCreate, newcomer.undisturbed undisturbed,
        opening.undisturbed undisturbed, refers.undisturbed undisturbed⟩
  | opened id =>
      obtain ⟨teamID, newcomer, opening, refers⟩ := holds
      exact ⟨teamID, newcomer.undisturbed undisturbed, opening.undisturbed undisturbed,
        refers.undisturbed undisturbed⟩
  | written => exact Rewrites.undisturbed holds undisturbed
  | clearing cascade targets =>
      obtain ⟨teamID, isDelete, deleting, swept⟩ := holds
      exact ⟨teamID, isDelete, deleting.undisturbed undisturbed,
        swept.undisturbed undisturbed (undisturbed.guarded deleting.row deleting.alone)⟩
  | begun => exact Idle.undisturbed holds undisturbed
  | correcting t => exact Idle.undisturbed holds undisturbed
  | editing => exact Idle.undisturbed holds undisturbed
  | ended outcome => exact Idle.undisturbed holds undisturbed

end Frame

end ScoutPulse.Squad
