import ScoutPulse.Football.Squad.Interference

/-!
# A request's own steps

Each step of a request leads from what is true at one stage to what is true at the
next.
-/

namespace ScoutPulse.Squad

open ReadCommitted

section Known

variable {s : Store} {i : ℕ} {k : String}

/-- What is there is known after a player is written. -/
theorem Known.writePlayer (known : Known s) (used : k ∈ s.playerIDs) (row : Player) :
    Known { s with players := s.players.write i k (some row) } := by
  refine ⟨known.players, ?_, known.transfers, known.transferLocks⟩
  intro j owner v held
  obtain ⟨rfl, -, -⟩ | ⟨-, before⟩ := Table.write_held.mp held
  · exact used
  · exact known.playerLocks j owner v before

/-- What is there is known after a transfer is written. -/
theorem Known.writeTransfer (known : Known s) {m : Move} (used : k ∈ s.transferIDs)
    (recorded : m.recorded < s.transferIDs.length) (player : m.transfer.playerID ∈ s.playerIDs) :
    Known { s with transfers := s.transfers.write i k (some m) } := by
  refine ⟨known.players, known.playerLocks, known.transfers, ?_⟩
  intro j owner v held
  obtain ⟨rfl, -, rfl⟩ | ⟨-, before⟩ := Table.write_held.mp held
  · refine ⟨used, fun m' isVersion => ?_⟩
    cases isVersion
    exact ⟨recorded, player⟩
  · exact known.transferLocks j owner v before

theorem Known.visible_player {row : Player} (known : Known s)
    (sees : s.players.visible i k = some row) : k ∈ s.playerIDs := by
  rcases Table.visible_eq_some sees with held | ⟨committed, -⟩
  · exact known.playerLocks k i _ held
  · exact known.players k row committed

/-- A transfer that is seen is known, and its player is. -/
theorem Known.visible_transfer {m : Move} (known : Known s)
    (sees : s.transfers.visible i k = some m) : k ∈ s.transferIDs ∧
      m.recorded < s.transferIDs.length ∧ m.transfer.playerID ∈ s.playerIDs := by
  rcases Table.visible_eq_some sees with held | ⟨committed, -⟩
  · obtain ⟨used, version⟩ := known.transferLocks k i _ held
    exact ⟨used, version m rfl⟩
  · exact known.transfers k m committed

theorem Known.insertPlayer (known : Known s) (id : String) (row : Player) :
    Known (s.insertPlayer i id row) := by
  refine ⟨?_, ?_, ?_, ?_⟩
  · intro j row' found
    exact List.mem_cons_of_mem _ (known.players j row' found)
  · intro j owner v held
    obtain ⟨rfl, -, -⟩ | ⟨-, before⟩ := Table.write_held.mp held
    · exact List.mem_cons_self
    · exact List.mem_cons_of_mem _ (known.playerLocks j owner v before)
  · intro j m found
    obtain ⟨used, recorded, player⟩ := known.transfers j m found
    exact ⟨used, recorded, List.mem_cons_of_mem _ player⟩
  · intro j owner v held
    obtain ⟨used, version⟩ := known.transferLocks j owner v held
    refine ⟨used, fun m isVersion => ?_⟩
    obtain ⟨recorded, player⟩ := version m isVersion
    exact ⟨recorded, List.mem_cons_of_mem _ player⟩

theorem Known.insertTransfer (known : Known s) (id : String) {t : Transfer}
    (player : t.playerID ∈ s.playerIDs) : Known (s.insertTransfer i id t) := by
  refine ⟨known.players, known.playerLocks, ?_, ?_⟩
  · intro j m found
    obtain ⟨used, recorded, player⟩ := known.transfers j m found
    exact ⟨List.mem_cons_of_mem _ used, Nat.lt_succ_of_lt recorded, player⟩
  · intro j owner v held
    obtain ⟨rfl, -, rfl⟩ | ⟨-, before⟩ := Table.write_held.mp held
    · refine ⟨List.mem_cons_self, fun m isVersion => ?_⟩
      cases isVersion
      exact ⟨Nat.lt_succ_self _, player⟩
    · obtain ⟨used, version⟩ := known.transferLocks j owner v before
      refine ⟨List.mem_cons_of_mem _ used, fun m isVersion => ?_⟩
      obtain ⟨recorded, player⟩ := version m isVersion
      exact ⟨Nat.lt_succ_of_lt recorded, player⟩

theorem Known.finish (known : Known s) (r : Request) : Known (s.finish i r) := by
  refine ⟨fun k row found => known.visible_player found, ?_,
    fun k m found => known.visible_transfer found, ?_⟩
  · exact fun k owner v held => known.playerLocks k owner v (Table.commit_held.mp held).1
  · exact fun k owner v held => known.transferLocks k owner v (Table.commit_held.mp held).1

theorem Known.fail (known : Known s) (r : Request) (reason : AppErr) :
    Known (s.fail i r reason) := by
  refine ⟨known.players, ?_, known.transfers, ?_⟩
  · exact fun k owner v held => known.playerLocks k owner v (Table.rollback_held.mp held).1
  · exact fun k owner v held => known.transferLocks k owner v (Table.rollback_held.mp held).1

theorem Known.move (known : Known s) (r : Request) (stage : Stage) : Known (s.move i r stage) :=
  ⟨known.players, known.playerLocks, known.transfers, known.transferLocks⟩

theorem Known.place {t : Transfer} {id : String} (known : Known s) :
    Known (placePlayer s i t id) := by
  rw [placePlayer]
  split_ifs
  · exact known
  · split
    · exact known
    next row sees => exact known.writePlayer (known.visible_player sees) _

/-- Each step leaves everything known. -/
theorem Advance.known {s' : Store} {r : Request} (advance : Advance s i r s') (known : Known s)
    (holds : StageHolds s i r) : Known s' := by
  cases advance with
  | fails reason running => exact known.fail r reason
  | finishes ready => exact known.finish r
  | creates teamID details d kind begun fresh => exact (known.insertPlayer d.id _).move r _
  | locks t row admitted free sees origin =>
      exact (known.writePlayer (known.visible_player sees) row).move r _
  | edits id details row stage free sees =>
      exact (known.writePlayer (known.visible_player sees) _).move r _
  | releases teamID k targets row kind clearing free sees picked =>
      exact (known.writePlayer (known.visible_player sees) _).move r _
  | files t d locked fresh =>
      rw [StageHolds, locked] at holds
      obtain ⟨-, ⟨row, -, found, -⟩, -⟩ := holds
      exact (known.insertTransfer d.id (known.players _ row found)).move r _
  | opens id teamID details createdAt d kind created fresh =>
      rw [StageHolds, created] at holds
      obtain ⟨-, -, -, ⟨-, -, -, ⟨row, held, -⟩, -⟩, -⟩ := holds
      have player : (openingTransfer id teamID details createdAt).playerID ∈ s.playerIDs :=
        known.playerLocks id i _ held
      exact (known.insertTransfer d.id player).move r _
  | corrects id t row stage free sees =>
      obtain ⟨used, recorded, player⟩ := known.visible_transfer sees
      have version : Known { s with transfers := s.transfers.write i id (some (row.correct t)) } :=
        known.writeTransfer used recorded player
      exact version.move r _
  | clearsOrigin teamID k targets row kind clearing free sees =>
      obtain ⟨used, recorded, player⟩ := known.visible_transfer sees
      have version : Known { s with transfers := s.transfers.write i k (some row.dropOrigin) } :=
        known.writeTransfer used recorded player
      exact version.move r _
  | clearsDestination teamID k targets row kind clearing free sees picked =>
      obtain ⟨used, recorded, player⟩ := known.visible_transfer sees
      have version :
          Known { s with transfers := s.transfers.write i k (some row.dropDestination) } :=
        known.writeTransfer used recorded player
      exact version.move r _
  | places t id filed => exact known.place.move r _
  | deletes => exact ⟨known.players, known.playerLocks, known.transfers, known.transferLocks⟩
  | refers => exact ⟨known.players, known.playerLocks, known.transfers, known.transferLocks⟩
  | admits => exact known.move r _
  | prepares => exact known.move r _
  | skips => exact known.move r _
  | passes => exact known.move r _
  | turns => exact known.move r _
  | turnsAgain => exact known.move r _

end Known

/-! ## From stage to stage -/

section Own

variable {s s' : Store} {i : ℕ} {r : Request} {t : Transfer} {id teamID k : String}
  {targets : List String}

theorem visible_of_idle {κ ρ : Type} {t : Table κ ρ ℕ} {k : κ} (locks : t.LocksOnly i []) :
    t.visible i k = t.committed k :=
  Table.visible_of_not_held fun v held => List.not_mem_nil (locks k v held)

theorem locksOnly_singleton {κ ρ : Type} [DecidableEq κ] {t : Table κ ρ ℕ} {k : κ}
    (locks : t.LocksOnly i []) (version : Option ρ) : (t.write i k version).LocksOnly i [k] :=
  locks.write k version

theorem held_write {κ ρ : Type} [DecidableEq κ] (t : Table κ ρ ℕ) (k : κ) (version : Option ρ) :
    (t.write i k version).held k = some (i, version) :=
  Table.write_held.mpr (Or.inl ⟨rfl, rfl, rfl⟩)

/-- The rows a cascade sets out with are those it picks of what the request sees. -/
theorem mem_targets {κ ρ : Type} [DecidableEq κ] {st : Statement κ ρ} {t : Table κ ρ ℕ}
    {keys : List κ} {k : κ} {row : ρ} (used : k ∈ keys) (sees : t.visible i k = some row)
    (picked : st.picks k row = true) : k ∈ st.targets t i keys := by
  refine List.mem_filter.mpr ⟨used, ?_⟩
  rw [sees]
  exact picked

/-- A player just created is one. -/
theorem creates_holds {teamID : Option String} {details : PlayerDetails} {d : Draw}
    (known : Known s) (idle : Idle s i) (fresh : d.id ∉ s.playerIDs)
    (kind : r.kind = .createPlayer teamID details) :
    StageHolds ((s.insertPlayer i d.id ⟨teamID, details⟩).move i r
      (.created d.id d.today teamID.toList)) i
      { r with stage := .created d.id d.today teamID.toList } := by
  refine ⟨teamID, details, kind, ⟨?_, locksOnly_singleton idle.players _, idle.teams,
    ⟨_, held_write _ _ _, rfl⟩, ?_⟩, .none idle.transfers, ?_⟩
  · by_contra found
    obtain ⟨row, found⟩ := Option.ne_none_iff_exists'.mp found
    exact fresh (known.players d.id row found)
  · intro k m found player
    exact fresh (player ▸ (known.transfers k m found).2.2)
  · intro club isClub
    exact Or.inl (by simp [isClub])

/-- A deletion begins with the club gone and nobody at it but itself. -/
theorem deletes_holds (known : Known s) (idle : Idle s i) (kind : r.kind = .deleteTeam teamID)
    (alone : ∀ j, (teamID, j) ∈ s.shared → j = i) :
    StageHolds ({ s with teams := s.teams.write i teamID none }.move i r
      (.clearing .players (s.targets i teamID .players))) i
      { r with stage := .clearing .players (s.targets i teamID .players) } := by
  refine ⟨teamID, kind, ⟨held_write _ _ _, locksOnly_singleton idle.teams _, alone, ?_, ?_⟩, ?_⟩
  · exact fun k v held => absurd (idle.players k v held) List.not_mem_nil
  · exact fun k v held => absurd (idle.transfers k v held) List.not_mem_nil
  · intro k row found club
    have sees : s.players.visible i k = some row := (visible_of_idle idle.players).trans found
    exact Or.inl (mem_targets (known.players k row found) sees (decide_eq_true club))

/-- A transfer stands once its player is locked at the origin. -/
theorem locks_holds {asked : SentTransfer} {row : Player} (idle : Idle s i)
    (kind : r.kind = .recordTransfer asked) (fits : Fits asked t)
    (sees : s.players.visible i t.playerID = some row) (origin : row.teamID = t.fromTeam) :
    StageHolds ({ s with players := s.players.write i t.playerID (some row) }.move i r
      (.locked t)) i { r with stage := .locked t } := by
  rw [visible_of_idle idle.players] at sees
  exact ⟨⟨⟨asked, kind, fits⟩, locksOnly_singleton idle.players _, idle.teams⟩,
    ⟨row, row, sees, origin, held_write _ _ _, origin⟩, idle.transfers⟩

/-- A transfer that stands is filed. -/
theorem files_holds {d : Draw} (known : Known s) (recording : Recording s i r.kind t)
    (stands : Stands s i t t.fromTeam) (transfers : s.transfers.LocksOnly i [])
    (fresh : d.id ∉ s.transferIDs) :
    StageHolds ((s.insertTransfer i d.id t).move i r (.filed t d.id t.clubs)) i
      { r with stage := .filed t d.id t.clubs } := by
  refine ⟨⟨recording.asked, recording.players, recording.teams⟩, stands,
    ⟨?_, locksOnly_singleton transfers _, s.transferIDs.length, held_write _ _ _, ?_⟩, ?_⟩
  · by_contra found
    obtain ⟨m, found⟩ := Option.ne_none_iff_exists'.mp found
    exact fresh (known.transfers d.id m found).1
  · exact fun k m found _ => (known.transfers k m found).2.1
  · intro club isClub
    exact Or.inl (by simp [TransferOf.clubs, isClub])

/-- The club at the head of those to be checked is held in place. -/
theorem Refers.shares {club : String} {clubs : List String} {option : Option String}
    (refers : Refers s i (club :: clubs) option)
    (shared : s'.shared = (club, i) :: s.shared) : Refers s' i clubs option := by
  intro teamID isClub
  rw [shared]
  rcases refers teamID isClub with pending | before
  · rcases List.mem_cons.mp pending with rfl | rest
    · exact Or.inr List.mem_cons_self
    · exact Or.inl rest
  · exact Or.inr (List.mem_cons_of_mem _ before)

/-- A club is referred to, one after the other. -/
theorem refers_holds {club : String} {rest : Stage} (holds : StageHolds s i r)
    (next : (∃ t id clubs, r.stage = .filed t id (club :: clubs) ∧ rest = .filed t id clubs) ∨
      ∃ id createdAt clubs, r.stage = .created id createdAt (club :: clubs) ∧
        rest = .created id createdAt clubs) :
    StageHolds ({ s with shared := (club, i) :: s.shared }.move i r rest) i
      { r with stage := rest } := by
  rcases next with ⟨t, id, clubs, stage, rfl⟩ | ⟨id, createdAt, clubs, stage, rfl⟩
  · rw [StageHolds, stage] at holds
    obtain ⟨recording, stands, filed, refers⟩ := holds
    exact ⟨⟨recording.asked, recording.players, recording.teams⟩, stands,
      ⟨filed.absent, filed.transfers, filed.inserted⟩, refers.shares rfl⟩
  · rw [StageHolds, stage] at holds
    obtain ⟨teamID, details, kind, newcomer, opening, refers⟩ := holds
    refine ⟨teamID, details, kind, ⟨newcomer.absent, newcomer.players, newcomer.teams,
      newcomer.inserted, newcomer.unmoved⟩, ?_, refers.shares rfl⟩
    cases opening with
    | none transfers => exact .none transfers

/-- The guard of `Record` finds a later move exactly when one is committed. -/
theorem later_iff (known : Known s) (filed : Filed s i t id) :
    s.later i t id = true ↔ Outdated s t := by
  obtain ⟨absent, transfers, n, held, -⟩ := filed
  simp only [Store.later, List.any_eq_true, Option.any_eq_true, Bool.and_eq_true,
    decide_eq_true_eq]
  constructor
  · rintro ⟨k, -, m, sees, ⟨player, other⟩, later⟩
    rcases Table.visible_eq_some sees with own | ⟨found, -⟩
    · exact absurd (List.mem_singleton.mp (transfers k _ own)) other
    · exact ⟨k, m, found, player, later⟩
  · rintro ⟨k, m, found, player, later⟩
    have other : k ≠ id := by
      rintro rfl
      rw [absent] at found
      cases found
    have sees : s.transfers.visible i k = some m := by
      rw [Table.visible_of_not_held, found]
      exact fun v own => other (List.mem_singleton.mp (transfers k v own))
    exact ⟨k, (known.transfers k m found).1, m, sees, ⟨player, other⟩, later⟩

/-- A transfer that is filed places its player. -/
theorem places_holds (known : Known s) (recording : Recording s i r.kind t)
    (stands : Stands s i t t.fromTeam) (filed : Filed s i t id) (refers : Refers s i [] t.toTeam) :
    StageHolds ((placePlayer s i t id).move i r (.placed t id)) i
      { r with stage := .placed t id } := by
  by_cases outdated : Outdated s t
  · rw [placePlayer, if_pos ((later_iff known filed).mpr outdated)]
    exact ⟨⟨recording.asked, recording.players, recording.teams⟩, fun _ => stands,
      fun current => absurd outdated current, ⟨filed.absent, filed.transfers, filed.inserted⟩,
      refers⟩
  · have guard : ¬ s.later i t id = true := fun later => outdated ((later_iff known filed).mp later)
    obtain ⟨row, row', found, origin, held, -⟩ := stands
    simp only [placePlayer, if_neg guard, Table.visible_of_held held]
    refine ⟨⟨recording.asked, ?_, recording.teams⟩, fun late => absurd late outdated, fun _ =>
      ⟨row, _, found, origin, held_write _ _ _, rfl⟩,
      ⟨filed.absent, filed.transfers, filed.inserted⟩, refers⟩
    intro j v own
    obtain ⟨rfl, -, -⟩ | ⟨-, before⟩ := Table.write_held.mp own
    · exact List.mem_singleton_self _
    · exact recording.players j v before

/-- A newcomer opens with a transfer to their club. -/
theorem opens_holds {details : PlayerDetails} {createdAt : Date} {d : Draw} (known : Known s)
    (newcomer : Newcomer s i id (some teamID)) (transfers : s.transfers.LocksOnly i [])
    (refers : Refers s i [] (some teamID)) (fresh : d.id ∉ s.transferIDs) :
    StageHolds ((s.insertTransfer i d.id (openingTransfer id teamID details createdAt)).move i r
      (.opened id)) i { r with stage := .opened id } := by
  refine ⟨some teamID, ⟨newcomer.absent, newcomer.players, newcomer.teams, newcomer.inserted,
    newcomer.unmoved⟩, .some teamID d.id _ ?_ (locksOnly_singleton transfers _)
    (held_write _ _ _) rfl rfl, refers⟩
  by_contra found
  obtain ⟨m, found⟩ := Option.ne_none_iff_exists'.mp found
  exact fresh (known.transfers d.id m found).1

/-- A correction rewrites a transfer that is there. -/
theorem corrects_holds {row : Move} (idle : Idle s i)
    (sees : s.transfers.visible i id = some row) :
    StageHolds ({ s with transfers := s.transfers.write i id (some (row.correct t)) }.move i r
      .written) i { r with stage := .written } := by
  rw [visible_of_idle idle.transfers] at sees
  refine ⟨idle.teams, fun k v held => absurd (idle.players k v held) List.not_mem_nil, ?_⟩
  intro k v held
  obtain ⟨rfl, -, rfl⟩ | ⟨-, before⟩ := Table.write_held.mp held
  · exact ⟨row, row.correct t, sees, rfl, ⟨rfl, rfl⟩, rfl⟩
  · exact absurd (idle.transfers k v before) List.not_mem_nil

/-- An edit rewrites a player who is there. -/
theorem edits_holds {row : Player} {details : PlayerDetails} (idle : Idle s i)
    (sees : s.players.visible i id = some row) :
    StageHolds ({ s with
      players := s.players.write i id (some { row with details := details }) }.move i r
      .written) i { r with stage := .written } := by
  rw [visible_of_idle idle.players] at sees
  refine ⟨idle.teams, ?_, fun k v held => absurd (idle.transfers k v held) List.not_mem_nil⟩
  intro k v held
  obtain ⟨rfl, -, rfl⟩ | ⟨-, before⟩ := Table.write_held.mp held
  · exact ⟨row, { row with details := details }, sees, rfl, rfl⟩
  · exact absurd (idle.players k v before) List.not_mem_nil

end Own

/-! ## A cascade's steps -/

section Cascades

variable {s : Store} {i : ℕ} {r : Request} {teamID k : String} {targets : List String}

/-- A player at the club is seen as committed. -/
theorem Deleting.visible_player {row : Player} (deleting : Deleting s i teamID)
    (sees : s.players.visible i k = some row) (club : row.teamID = some teamID) :
    s.players.committed k = some row := by
  rcases Table.visible_eq_some sees with held | ⟨found, -⟩
  · obtain ⟨before, after, -, isVersion, -, released⟩ := deleting.players k _ held
    cases isVersion
    rw [released] at club
    cases club
  · exact found

/-- What a `DELETE` of a club sees of a move is a later version of what is committed. -/
theorem Deleting.visible_transfer {m : Move} (deleting : Deleting s i teamID)
    (sees : s.transfers.visible i k = some m) : ∃ m₀, s.transfers.committed k = some m₀ ∧
      SameMove m₀ m ∧ (m.transfer.toTeam = m₀.transfer.toTeam ∨
        m₀.transfer.toTeam = some teamID ∧ m.transfer.toTeam = none) := by
  rcases Table.visible_eq_some sees with held | ⟨found, -⟩
  · obtain ⟨m₀, m', found, isVersion, same, club⟩ := deleting.transfers k _ held
    cases isVersion
    exact ⟨m₀, found, same, club⟩
  · exact ⟨m, found, .refl m, Or.inl rfl⟩

/-- A player is released from the club that is deleted. -/
theorem Deleting.release {row : Player} (deleting : Deleting s i teamID)
    (sees : s.players.visible i k = some row) (club : row.teamID = some teamID) :
    Deleting { s with players := s.players.write i k (some row.release) } i teamID := by
  refine ⟨deleting.row, deleting.teams, deleting.alone, ?_, deleting.transfers⟩
  intro j v held
  obtain ⟨rfl, -, rfl⟩ | ⟨-, before⟩ := Table.write_held.mp held
  · exact ⟨row, row.release, deleting.visible_player sees club, rfl, club, rfl⟩
  · exact deleting.players j v before

/-- A transfer loses the club that is deleted. -/
theorem Deleting.rewrite {m m' : Move} (deleting : Deleting s i teamID)
    (sees : s.transfers.visible i k = some m) (same : SameMove m m')
    (club : m'.transfer.toTeam = m.transfer.toTeam ∨
      m.transfer.toTeam = some teamID ∧ m'.transfer.toTeam = none) :
    Deleting { s with transfers := s.transfers.write i k (some m') } i teamID := by
  refine ⟨deleting.row, deleting.teams, deleting.alone, deleting.players, ?_⟩
  intro j v held
  obtain ⟨rfl, -, rfl⟩ | ⟨-, before⟩ := Table.write_held.mp held
  · obtain ⟨m₀, found, first, was⟩ := deleting.visible_transfer sees
    refine ⟨m₀, m', found, rfl, first.trans same, ?_⟩
    rcases club with kept | ⟨isClub, cleared⟩
    · rw [kept]
      exact was
    · rcases was with unchanged | ⟨-, gone⟩
      · exact Or.inr ⟨unchanged.symm.trans isClub, cleared⟩
      · rw [gone] at isClub
        cases isClub
  · exact deleting.transfers j v before

theorem Deleting.move (deleting : Deleting s i teamID) (stage : Stage) :
    Deleting (s.move i r stage) i teamID :=
  ⟨deleting.row, deleting.teams, deleting.alone, deleting.players, deleting.transfers⟩

/-- One more player released is one more swept. -/
theorem PlayersSwept.release {row : Player} (swept : PlayersSwept s i teamID targets) :
    PlayersSwept { s with players := s.players.write i k (some row.release) } i teamID
      (targets.erase k) := by
  intro j row' found club
  by_cases same : j = k
  · subst same
    exact Or.inr ⟨_, held_write _ _ _⟩
  · rcases swept j row' found club with target | ⟨v, held⟩
    · exact Or.inl ((List.mem_erase_of_ne same).mpr target)
    · exact Or.inr ⟨v, Table.write_held.mpr (Or.inr ⟨same, held⟩)⟩

/-- A player who is elsewhere is passed by. -/
theorem PlayersSwept.pass (swept : PlayersSwept s i teamID targets)
    (passed : ∀ row, s.players.visible i k = some row → row.teamID ≠ some teamID) :
    PlayersSwept s i teamID (targets.erase k) := by
  intro j row found club
  by_cases own : ∃ v, s.players.held j = some (i, v)
  · exact Or.inr own
  · rcases swept j row found club with target | held
    · refine Or.inl ((List.mem_erase_of_ne ?_).mpr target)
      rintro rfl
      refine passed row ?_ club
      rw [Table.visible_of_not_held fun v held => own ⟨v, held⟩, found]
    · exact absurd held own

/-- One more transfer cleared is one more swept. -/
theorem MovesSwept.clear {m' : Move} (swept : MovesSwept s i teamID targets)
    (cleared : m'.transfer.toTeam = none) :
    MovesSwept { s with transfers := s.transfers.write i k (some m') } i teamID
      (targets.erase k) := by
  intro j m found club
  by_cases same : j = k
  · subst same
    exact Or.inr ⟨m', held_write _ _ _, cleared⟩
  · rcases swept j m found club with target | ⟨version, held, gone⟩
    · exact Or.inl ((List.mem_erase_of_ne same).mpr target)
    · exact Or.inr ⟨version, Table.write_held.mpr (Or.inr ⟨same, held⟩), gone⟩

/-- A move to the club is seen as one, or has been cleared. -/
theorem Deleting.sees (deleting : Deleting s i teamID) {m : Move}
    (found : s.transfers.committed k = some m) (club : m.transfer.toTeam = some teamID) :
    (∃ seen, s.transfers.visible i k = some seen ∧ seen.transfer.toTeam = some teamID) ∨
      ∃ m', s.transfers.held k = some (i, some m') ∧ m'.transfer.toTeam = none := by
  by_cases own : ∃ v, s.transfers.held k = some (i, v)
  · obtain ⟨v, held⟩ := own
    obtain ⟨m₀, m', before, rfl, -, kept | ⟨-, cleared⟩⟩ := deleting.transfers k v held
    · rw [found, Option.some.injEq] at before
      subst before
      exact Or.inl ⟨m', Table.visible_of_held held, kept.trans club⟩
    · exact Or.inr ⟨m', held, cleared⟩
  · exact Or.inl ⟨m, by rw [Table.visible_of_not_held fun v held => own ⟨v, held⟩, found], club⟩

/-- A transfer that goes elsewhere is passed by. -/
theorem MovesSwept.pass (swept : MovesSwept s i teamID targets) (deleting : Deleting s i teamID)
    (passed : ∀ row, s.transfers.visible i k = some row → row.transfer.toTeam ≠ some teamID) :
    MovesSwept s i teamID (targets.erase k) := by
  intro j m found club
  rcases deleting.sees found club with ⟨seen, sees, still⟩ | cleared
  · rcases swept j m found club with target | cleared
    · refine Or.inl ((List.mem_erase_of_ne ?_).mpr target)
      rintro rfl
      exact passed seen sees still
    · exact Or.inr cleared
  · exact Or.inr cleared

theorem movesSwept_targets (known : Known s) (deleting : Deleting s i teamID) :
    MovesSwept s i teamID (s.targets i teamID .destinations) := by
  intro k m found club
  rcases deleting.sees found club with ⟨seen, sees, still⟩ | cleared
  · exact Or.inl (mem_targets (known.transfers k m found).1 sees (decide_eq_true still))
  · exact Or.inr cleared

/-- What need not be swept is passed by. -/
theorem passes_holds {cascade : Cascade} (deleting : Deleting s i teamID)
    (swept : Swept s i teamID cascade targets)
    (player : cascade = .players → ∀ row, s.players.visible i k = some row →
      row.teamID ≠ some teamID)
    (destination : cascade = .destinations → ∀ row, s.transfers.visible i k = some row →
      row.transfer.toTeam ≠ some teamID) : Swept s i teamID cascade (targets.erase k) := by
  cases cascade with
  | players => exact PlayersSwept.pass swept (player rfl)
  | origins => exact swept
  | destinations => exact ⟨swept.1, swept.2.pass deleting (destination rfl)⟩

end Cascades

end ScoutPulse.Squad
