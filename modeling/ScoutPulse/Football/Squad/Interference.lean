import ScoutPulse.Football.Squad.Locks

/-!
# What other requests leave alone

Every committed change is one transaction's commit, of rows it has locked: a new move
of a player whose lock it has, a club it holds in place, or a later version of a row.
So no step disturbs what another request relies on.
-/

namespace ScoutPulse.Squad

open ReadCommitted

/-- Every row, committed or not, was once inserted, and every move is of a player that
was. -/
structure Known (s : Store) : Prop where
  players : ∀ k row, s.players.committed k = some row → k ∈ s.playerIDs
  playerLocks : ∀ k i v, s.players.held k = some (i, v) → k ∈ s.playerIDs
  transfers : ∀ k m, s.transfers.committed k = some m →
    k ∈ s.transferIDs ∧ m.recorded < s.transferIDs.length ∧ m.transfer.playerID ∈ s.playerIDs
  transferLocks : ∀ k i v, s.transfers.held k = some (i, v) → k ∈ s.transferIDs ∧
    ∀ m, v = some m → m.recorded < s.transferIDs.length ∧ m.transfer.playerID ∈ s.playerIDs

/-- What a transaction that is about to commit leaves: players at clubs they were at or
that it holds in place, moves it has filed for a player it has, and old moves with at
most their clubs gone. -/
structure Commits (s : Store) (i : ℕ) : Prop where
  players : ∀ k v, s.players.held k = some (i, v) → ∃ row', v = some row' ∧
    ∀ teamID, row'.teamID = some teamID → (teamID, i) ∈ s.shared ∨
      ∃ row, s.players.committed k = some row ∧ row.teamID = some teamID
  transfers : ∀ k v, s.transfers.held k = some (i, v) → ∃ m', v = some m' ∧
    ((∃ m, s.transfers.committed k = some m ∧ SameMove m m' ∧
        (m'.transfer.toTeam = m.transfer.toTeam ∨ m'.transfer.toTeam = none)) ∨
      s.transfers.committed k = none ∧
        (∃ lock, s.players.held m'.transfer.playerID = some (i, lock)) ∧
        ∀ teamID, m'.transfer.toTeam = some teamID → (teamID, i) ∈ s.shared)

section Commits

variable {s : Store} {i : ℕ} {kind : Kind} {t : Transfer} {id : String}

theorem Refers.all {club : Option String} {teamID : String} (refers : Refers s i [] club)
    (isClub : club = some teamID) : (teamID, i) ∈ s.shared := by
  rcases refers teamID isClub with pending | shared
  · exact absurd pending List.not_mem_nil
  · exact shared

/-- A transfer that is recorded commits what it has written. -/
theorem Recording.commits {team : Option String} (recording : Recording s i kind t)
    (stands : Stands s i t team) (filed : Filed s i t id) (refers : Refers s i [] t.toTeam)
    (placed : team = t.fromTeam ∨ team = t.toTeam) : Commits s i := by
  obtain ⟨row, row', found, origin, held, now⟩ := stands
  obtain ⟨absent, transfers, n, inserted, -⟩ := filed
  constructor
  · intro k v own
    obtain rfl := List.mem_singleton.mp (recording.players k v own)
    rw [held, Option.some.injEq, Prod.mk.injEq] at own
    refine ⟨row', own.2.symm, fun teamID club => ?_⟩
    rcases placed with same | moved
    · exact Or.inr ⟨row, found, by rw [origin, ← same, ← now, club]⟩
    · exact Or.inl (refers.all (by rw [← moved, ← now, club]))
  · intro k v own
    obtain rfl := List.mem_singleton.mp (transfers k v own)
    rw [inserted, Option.some.injEq, Prod.mk.injEq] at own
    exact ⟨_, own.2.symm, Or.inr ⟨absent, ⟨_, held⟩, fun teamID club => refers.all club⟩⟩

/-- A player who is created commits what they have written. -/
theorem Newcomer.commits {club : Option String} (newcomer : Newcomer s i id club)
    (opening : Opening s i id club) (refers : Refers s i [] club) : Commits s i := by
  obtain ⟨-, players, -, ⟨row, held, now⟩, -⟩ := newcomer
  constructor
  · intro k v own
    obtain rfl := List.mem_singleton.mp (players k v own)
    rw [held, Option.some.injEq, Prod.mk.injEq] at own
    exact ⟨row, own.2.symm, fun teamID isClub => Or.inl (refers.all (now.symm.trans isClub))⟩
  · intro k v own
    cases opening with
    | none transfers => exact absurd (transfers k v own) List.not_mem_nil
    | some teamID k' m absent transfers inserted player club =>
        obtain rfl := List.mem_singleton.mp (transfers k v own)
        rw [inserted, Option.some.injEq, Prod.mk.injEq] at own
        refine ⟨m, own.2.symm, Or.inr ⟨absent, ⟨_, player ▸ held⟩, fun teamID' isClub => ?_⟩⟩
        exact refers.all (club.symm.trans isClub)

/-- A rewriting commits what it has written. -/
theorem Rewrites.commits (rewrites : Rewrites s i) : Commits s i := by
  constructor
  · intro k v own
    obtain ⟨row, row', found, rfl, same⟩ := rewrites.players k v own
    exact ⟨row', rfl, fun teamID club => Or.inr ⟨row, found, same.symm.trans club⟩⟩
  · intro k v own
    obtain ⟨m, m', found, rfl, same, club⟩ := rewrites.transfers k v own
    exact ⟨m', rfl, Or.inl ⟨m, found, same, Or.inl club⟩⟩

/-- A club that is deleted commits what it has written. -/
theorem Deleting.commits {teamID : String} (deleting : Deleting s i teamID) : Commits s i := by
  constructor
  · intro k v own
    obtain ⟨row, row', found, rfl, -, released⟩ := deleting.players k v own
    refine ⟨row', rfl, fun club isClub => ?_⟩
    rw [released] at isClub
    cases isClub
  · intro k v own
    obtain ⟨m, m', found, rfl, same, club | ⟨-, cleared⟩⟩ := deleting.transfers k v own
    · exact ⟨m', rfl, Or.inl ⟨m, found, same, Or.inl club⟩⟩
    · exact ⟨m', rfl, Or.inl ⟨m, found, same, Or.inr cleared⟩⟩

/-- The player `Record` is about to leave stays or moves. -/
theorem stands_of_placed (stays : Outdated s t → Stands s i t t.fromTeam)
    (goes : ¬ Outdated s t → Stands s i t t.toTeam) :
    ∃ team, Stands s i t team ∧ (team = t.fromTeam ∨ team = t.toTeam) := by
  by_cases outdated : Outdated s t
  · exact ⟨t.fromTeam, stays outdated, Or.inl rfl⟩
  · exact ⟨t.toTeam, goes outdated, Or.inr rfl⟩

/-- Whatever stage is ready commits what it has written. -/
theorem StageHolds.commits {r : Request} (holds : StageHolds s i r)
    (ready : r.stage.ready = true) : Commits s i := by
  obtain ⟨kind, stage⟩ := r
  cases stage with
  | placed t id =>
      obtain ⟨recording, stays, goes, filed, refers⟩ := holds
      obtain ⟨team, stands, placed⟩ := stands_of_placed stays goes
      exact recording.commits stands filed refers placed
  | opened id =>
      obtain ⟨teamID, newcomer, opening, refers⟩ := holds
      exact newcomer.commits opening refers
  | written => exact Rewrites.commits holds
  | clearing cascade targets =>
      obtain ⟨teamID, -, deleting, -⟩ := holds
      exact deleting.commits
  | begun => cases ready
  | admitted t => cases ready
  | locked t => cases ready
  | filed t id clubs => cases ready
  | created id createdAt clubs => cases ready
  | correcting t => cases ready
  | editing => cases ready
  | ended outcome => cases ready

end Commits

section Frame

variable {s s' : Store} {i j : ℕ} {r : Request}

/-- One history depends on the transfers committed. -/
theorem SameHistory.of_committed (rows : s'.transfers.committed = s.transfers.committed)
    (playerID : String) : SameHistory s s' playerID := by
  constructor
  · intro k m found _
    exact ⟨m, by rw [rows]; exact found, .refl m⟩
  · intro k m found _
    exact ⟨m, by rw [← rows]; exact found, .refl m⟩

/-- A step that commits nothing and lets nobody hold a deleted club's row. -/
theorem undisturbed_of_committed (players : s.players.Spares s'.players i)
    (transfers : s.transfers.Spares s'.transfers i) (teams : s.teams.Spares s'.teams i)
    (rows : s'.players.committed = s.players.committed)
    (moves : s'.transfers.committed = s.transfers.committed)
    (shared : ∀ {teamID}, (teamID, i) ∈ s'.shared ↔ (teamID, i) ∈ s.shared)
    (kept : ∀ {teamID}, s.teams.held teamID = some (i, none) →
      ∀ j, (teamID, j) ∈ s'.shared → (teamID, j) ∈ s.shared) : Undisturbed s s' i := by
  refine ⟨players, transfers, teams, shared, fun _ => .of_committed moves _, ?_⟩
  intro teamID deleted _
  refine ⟨kept deleted, ?_, ?_⟩
  · intro k row found club
    exact ⟨row, by rw [← rows]; exact found, club⟩
  · intro k m found club
    exact ⟨m, by rw [← moves]; exact found, club⟩

/-- A step that only writes players. -/
theorem undisturbed_players (players : s.players.Spares s'.players i)
    (rows : s'.players.committed = s.players.committed) (transfers : s'.transfers = s.transfers)
    (teams : s'.teams = s.teams) (shared : s'.shared = s.shared) : Undisturbed s s' i := by
  refine undisturbed_of_committed players (by rw [transfers]; exact .refl _ _)
    (by rw [teams]; exact .refl _ _) rows (by rw [transfers]) (by rw [shared]) ?_
  intro teamID _ j member
  rwa [shared] at member

/-- A step that only writes moves. -/
theorem undisturbed_transfers (transfers : s.transfers.Spares s'.transfers i)
    (moves : s'.transfers.committed = s.transfers.committed) (players : s'.players = s.players)
    (teams : s'.teams = s.teams) (shared : s'.shared = s.shared) : Undisturbed s s' i := by
  refine undisturbed_of_committed (by rw [players]; exact .refl _ _) transfers
    (by rw [teams]; exact .refl _ _) (by rw [players]) moves (by rw [shared]) ?_
  intro teamID _ j member
  rwa [shared] at member

/-- A step that writes nothing. -/
theorem undisturbed_calm (players : s'.players = s.players) (transfers : s'.transfers = s.transfers)
    (teams : s'.teams = s.teams) (shared : s'.shared = s.shared) : Undisturbed s s' i :=
  undisturbed_players (by rw [players]; exact .refl _ _) (by rw [players]) transfers teams shared

theorem mem_released {lock : String × ℕ} :
    lock ∈ s.shared.filter (fun lock => lock.2 ≠ j) ↔ lock ∈ s.shared ∧ lock.2 ≠ j := by
  rw [List.mem_filter, decide_eq_true_eq]

/-- A request that fails leaves the others undisturbed. -/
theorem undisturbed_fail (other : i ≠ j) (reason : AppErr) :
    Undisturbed s (s.fail j r reason) i := by
  refine undisturbed_of_committed (.rollback other) (.rollback other) (.rollback other) rfl rfl
    ?_ ?_
  · intro teamID
    exact mem_released.trans ⟨fun both => both.1, fun member => ⟨member, other⟩⟩
  · exact fun _ _ member => (mem_released.mp member).1

/-- A request that ends leaves the others undisturbed: it commits rows that they do not hold.
-/
theorem undisturbed_finish (commits : Commits s j) (other : i ≠ j) :
    Undisturbed s (s.finish j r) i := by
  refine ⟨.commit other, .commit other, .commit other, ?_, ?_, ?_⟩
  · intro teamID
    exact mem_released.trans ⟨fun both => both.1, fun member => ⟨member, other⟩⟩
  · intro playerID v lock
    constructor
    · intro k m found player
      by_cases own : ∃ v, s.transfers.held k = some (j, v)
      · obtain ⟨v, held⟩ := own
        obtain ⟨m', rfl, ⟨m₀, before, same, -⟩ | ⟨absent, -⟩⟩ := commits.transfers k v held
        · rw [found, Option.some.injEq] at before
          subst before
          exact ⟨m', Table.commit_of_held held, same⟩
        · rw [found] at absent
          cases absent
      · exact ⟨m, (Table.commit_of_not_held fun v held => own ⟨v, held⟩).trans found, .refl m⟩
    · intro k m' found player
      rcases Table.commit_eq_some found with held | ⟨before, -⟩
      · obtain ⟨m, isVersion, ⟨m₀, before, same, -⟩ | ⟨-, ⟨lock', mine⟩, -⟩⟩ :=
          commits.transfers k _ held
        · cases isVersion
          exact ⟨m₀, before, same⟩
        · -- A new move of the player is filed only under the player's lock.
          cases isVersion
          rw [player, lock, Option.some.injEq, Prod.mk.injEq] at mine
          exact absurd mine.1 other
      · exact ⟨m', before, .refl m'⟩
  · intro teamID deleted alone
    refine ⟨fun k member => (mem_released.mp member).1, ?_, ?_⟩
    · intro k row' found club
      rcases Table.commit_eq_some found with held | ⟨before, -⟩
      · obtain ⟨row, isVersion, stands⟩ := commits.players k _ held
        cases isVersion
        rcases stands teamID club with shared | before
        · exact absurd (alone j shared).symm other
        · exact before
      · exact ⟨row', before, club⟩
    · intro k m' found club
      rcases Table.commit_eq_some found with held | ⟨before, -⟩
      · obtain ⟨m, isVersion, ⟨m₀, before, -, kept | cleared⟩ | ⟨-, -, shared⟩⟩ :=
          commits.transfers k _ held
        · cases isVersion
          exact ⟨m₀, before, kept.symm.trans club⟩
        · cases isVersion
          rw [cleared] at club
          cases club
        · cases isVersion
          exact absurd (alone j (shared teamID club)).symm other
      · exact ⟨m', before, club⟩

/-- A new key's row has nobody's lock. -/
theorem Known.free_player (known : Known s) {k : String} (fresh : k ∉ s.playerIDs) :
    Free s.players j k :=
  fun owner v held => absurd (known.playerLocks k owner v held) fresh

theorem Known.free_transfer (known : Known s) {k : String} (fresh : k ∉ s.transferIDs) :
    Free s.transfers j k :=
  fun owner v held => absurd (known.transferLocks k owner v held).1 fresh

/-- Placing a player leaves the others undisturbed. -/
theorem undisturbed_place {t : Transfer} {id : String} {team : Option String}
    (stands : Stands s j t team) (other : i ≠ j) :
    Undisturbed s ((placePlayer s j t id).move j r (.placed t id)) i := by
  obtain ⟨v, lock⟩ := stands.lock
  have free : Free s.players j t.playerID := by
    intro owner w held
    rw [lock, Option.some.injEq, Prod.mk.injEq] at held
    exact held.1.symm
  rw [placePlayer]
  split_ifs
  · exact undisturbed_calm rfl rfl rfl rfl
  · split
    · exact undisturbed_calm rfl rfl rfl rfl
    · exact undisturbed_players (.write free other) rfl rfl rfl rfl

/-- No step disturbs another request. -/
theorem Advance.undisturbed (advance : Advance s j r s') (known : Known s)
    (holds : StageHolds s j r) (other : i ≠ j) : Undisturbed s s' i := by
  cases advance with
  | fails reason running => exact undisturbed_fail other reason
  | finishes ready => exact undisturbed_finish (holds.commits ready) other
  | creates teamID details d kind begun fresh =>
      exact undisturbed_players (.write (known.free_player fresh) other) rfl rfl rfl rfl
  | locks t row admitted free sees origin =>
      exact undisturbed_players (.write free other) rfl rfl rfl rfl
  | edits id details row stage free sees =>
      exact undisturbed_players (.write free other) rfl rfl rfl rfl
  | releases teamID k targets row kind clearing free sees picked =>
      exact undisturbed_players (.write free other) rfl rfl rfl rfl
  | files t d locked fresh =>
      exact undisturbed_transfers (.write (known.free_transfer fresh) other) rfl rfl rfl rfl
  | opens id teamID details createdAt d kind created fresh =>
      exact undisturbed_transfers (.write (known.free_transfer fresh) other) rfl rfl rfl rfl
  | corrects id t row stage free sees =>
      exact undisturbed_transfers (.write free other) rfl rfl rfl rfl
  | clearsOrigin teamID k targets row kind clearing free sees =>
      exact undisturbed_transfers (.write free other) rfl rfl rfl rfl
  | clearsDestination teamID k targets row kind clearing free sees picked =>
      exact undisturbed_transfers (.write free other) rfl rfl rfl rfl
  | places t id filed =>
      rw [StageHolds, filed] at holds
      exact undisturbed_place holds.2.1 other
  | deletes teamID kind begun free alone =>
      refine undisturbed_of_committed (.refl _ _) (.refl _ _) (.write free other) rfl rfl Iff.rfl ?_
      exact fun _ _ member => member
  | refers club rest free next =>
      refine undisturbed_of_committed (.refl _ _) (.refl _ _) (.refl _ _) rfl rfl ?_ ?_
      · intro teamID
        refine List.mem_cons.trans ⟨?_, Or.inr⟩
        rintro (same | member)
        · exact absurd (congrArg Prod.snd same) other
        · exact member
      · intro teamID deleted k member
        rcases List.mem_cons.mp member with same | before
        · -- The club's row has the deleter's lock, so nobody else comes to refer to it.
          obtain rfl : teamID = club := congrArg Prod.fst same
          exact absurd (free i none deleted) other
        · exact before
  | admits => exact undisturbed_calm rfl rfl rfl rfl
  | prepares => exact undisturbed_calm rfl rfl rfl rfl
  | skips => exact undisturbed_calm rfl rfl rfl rfl
  | passes => exact undisturbed_calm rfl rfl rfl rfl
  | turns => exact undisturbed_calm rfl rfl rfl rfl
  | turnsAgain => exact undisturbed_calm rfl rfl rfl rfl

end Frame

end ScoutPulse.Squad
