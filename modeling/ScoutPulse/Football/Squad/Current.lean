import ScoutPulse.Football.Squad.Progress

/-!
# A player's club follows from their transfers

In every state the store reaches, the club stored with a player is where the latest of
their recorded moves went, and a player without one has no club.
-/

namespace ScoutPulse.Squad

open ReadCommitted

/-! ## All requests together -/

/-- What is true of the store while requests run. -/
structure Orderly (s : Store) : Prop where
  known : Known s
  stages : ∀ i r, s.requests[i]? = some r → StageHolds s i r
  unborn : ∀ i, s.requests[i]? = none → Idle s i

section Orderly

variable {s s' : Store} {i : ℕ} {r : Request}

theorem idle_finish (s : Store) (i : ℕ) (r : Request) : Idle (s.finish i r) i :=
  ⟨Table.locksOnly_commit _ _, Table.locksOnly_commit _ _, Table.locksOnly_commit _ _⟩

theorem idle_fail (s : Store) (i : ℕ) (r : Request) (reason : AppErr) :
    Idle (s.fail i r reason) i :=
  ⟨Table.locksOnly_rollback _ _, Table.locksOnly_rollback _ _, Table.locksOnly_rollback _ _⟩

theorem Idle.move (idle : Idle s i) (r : Request) (stage : Stage) : Idle (s.move i r stage) i :=
  ⟨idle.players, idle.transfers, idle.teams⟩

/-- A request keeps to what its stage says. -/
theorem StageHolds.advance (holds : StageHolds s i r) (known : Known s)
    (advance : Advance s i r s') :
    ∃ r', s'.requests = s.requests.set i r' ∧ r'.kind = r.kind ∧ StageHolds s' i r' := by
  cases advance with
  | fails reason running => exact ⟨_, rfl, rfl, idle_fail s i r reason⟩
  | finishes ready => exact ⟨_, rfl, rfl, idle_finish s i r⟩
  | admits asked t kind begun fits =>
      rw [StageHolds, begun] at holds
      exact ⟨_, rfl, rfl, Idle.move holds r _, asked, kind, fits⟩
  | prepares stage kind begun plain =>
      rw [StageHolds, begun] at holds
      refine ⟨_, rfl, rfl, ?_⟩
      rcases plain with ⟨t, rfl⟩ | rfl
      · exact Idle.move holds r _
      · exact Idle.move holds r _
  | creates teamID details d kind begun fresh =>
      rw [StageHolds, begun] at holds
      exact ⟨_, rfl, rfl, creates_holds known holds fresh kind⟩
  | deletes teamID kind begun free alone =>
      rw [StageHolds, begun] at holds
      exact ⟨_, rfl, rfl, deletes_holds known holds kind alone⟩
  | locks t row admitted free sees origin =>
      rw [StageHolds, admitted] at holds
      obtain ⟨idle, asked, kind, fits⟩ := holds
      exact ⟨_, rfl, rfl, locks_holds idle kind fits sees origin⟩
  | files t d locked fresh =>
      rw [StageHolds, locked] at holds
      obtain ⟨recording, stands, transfers⟩ := holds
      exact ⟨_, rfl, rfl, files_holds known recording stands transfers fresh⟩
  | refers club rest free next => exact ⟨_, rfl, rfl, refers_holds holds next⟩
  | places t id filed =>
      rw [StageHolds, filed] at holds
      obtain ⟨recording, stands, isFiled, refers⟩ := holds
      refine ⟨{ r with stage := .placed t id }, ?_, rfl,
        places_holds known recording stands isFiled refers⟩
      rw [placePlayer]
      split_ifs
      · rfl
      · split <;> rfl
  | opens id teamID details createdAt d kind created fresh =>
      rw [StageHolds, created] at holds
      obtain ⟨club, details', isCreate, newcomer, opening, refers⟩ := holds
      cases isCreate.symm.trans kind
      cases opening with
      | none transfers => exact ⟨_, rfl, rfl, opens_holds known newcomer transfers refers fresh⟩
  | skips id createdAt kind created =>
      rw [StageHolds, created] at holds
      obtain ⟨club, details', isCreate, newcomer, opening, refers⟩ := holds
      have calm : Undisturbed s (s.move i r (.opened id)) i := undisturbed_calm rfl rfl rfl rfl
      cases club with
      | none =>
          exact ⟨_, rfl, rfl, none, newcomer.undisturbed calm, opening.undisturbed calm,
            refers.undisturbed calm⟩
      | some teamID => exact absurd isCreate (kind teamID details')
  | corrects id t row stage free sees =>
      rw [StageHolds, stage] at holds
      exact ⟨_, rfl, rfl, corrects_holds holds sees⟩
  | edits id details row stage free sees =>
      rw [StageHolds, stage] at holds
      exact ⟨_, rfl, rfl, edits_holds holds sees⟩
  | releases teamID k targets row kind clearing free sees picked =>
      rw [StageHolds, clearing] at holds
      obtain ⟨club, isDelete, deleting, swept⟩ := holds
      cases kind.symm.trans isDelete
      exact ⟨_, rfl, rfl, teamID, kind, (deleting.release sees picked).move _,
        PlayersSwept.release swept⟩
  | clearsOrigin teamID k targets row kind clearing free sees =>
      rw [StageHolds, clearing] at holds
      obtain ⟨club, isDelete, deleting, swept⟩ := holds
      cases kind.symm.trans isDelete
      have rewritten : Deleting
          { s with transfers := s.transfers.write i k (some row.dropOrigin) } i teamID :=
        deleting.rewrite sees ⟨rfl, rfl⟩ (Or.inl rfl)
      exact ⟨_, rfl, rfl, teamID, kind, rewritten.move _, swept⟩
  | clearsDestination teamID k targets row kind clearing free sees picked =>
      rw [StageHolds, clearing] at holds
      obtain ⟨club, isDelete, deleting, swept⟩ := holds
      cases kind.symm.trans isDelete
      have rewritten : Deleting
          { s with transfers := s.transfers.write i k (some row.dropDestination) } i teamID :=
        deleting.rewrite sees ⟨rfl, rfl⟩ (Or.inr ⟨picked, rfl⟩)
      exact ⟨_, rfl, rfl, teamID, kind, rewritten.move _, swept.1, swept.2.clear rfl⟩
  | passes teamID k cascade targets kind clearing player destination =>
      rw [StageHolds, clearing] at holds
      obtain ⟨club, isDelete, deleting, swept⟩ := holds
      cases kind.symm.trans isDelete
      have calm : Undisturbed s (s.move i r (.clearing cascade (targets.erase k))) i :=
        undisturbed_calm rfl rfl rfl rfl
      exact ⟨_, rfl, rfl, teamID, kind, deleting.move _,
        (passes_holds deleting swept player destination).undisturbed calm
          (calm.guarded deleting.row deleting.alone)⟩
  | turns teamID kind clearing =>
      rw [StageHolds, clearing] at holds
      obtain ⟨club, isDelete, deleting, swept⟩ := holds
      cases kind.symm.trans isDelete
      exact ⟨_, rfl, rfl, teamID, kind, deleting.move _, swept⟩
  | turnsAgain teamID kind clearing =>
      rw [StageHolds, clearing] at holds
      obtain ⟨club, isDelete, deleting, swept⟩ := holds
      cases kind.symm.trans isDelete
      have calm : Undisturbed s (s.move i r (.clearing .destinations
          (s.targets i teamID .destinations))) i := undisturbed_calm rfl rfl rfl rfl
      have cleared := (movesSwept_targets known deleting).undisturbed calm
        (calm.guarded deleting.row deleting.alone)
      exact ⟨_, rfl, rfl, teamID, kind, deleting.move _, swept, cleared⟩

/-- A step keeps every request in order. -/
theorem Orderly.advance (orderly : Orderly s) (found : s.requests[i]? = some r)
    (advance : Advance s i r s') : Orderly s' := by
  have holds := orderly.stages i r found
  obtain ⟨r', requests, -, holds'⟩ := holds.advance orderly.known advance
  obtain ⟨bound, -⟩ := List.getElem?_eq_some_iff.mp found
  refine ⟨advance.known orderly.known holds, ?_, ?_⟩
  · intro j q present
    rw [requests] at present
    by_cases same : j = i
    · subst same
      rw [List.getElem?_set_self bound, Option.some.injEq] at present
      subst present
      exact holds'
    · rw [List.getElem?_set_ne (Ne.symm same)] at present
      exact (orderly.stages j q present).undisturbed
        (advance.undisturbed orderly.known holds same)
  · intro j absent
    rw [requests] at absent
    have other : j ≠ i := by
      rintro rfl
      rw [List.getElem?_set_self bound] at absent
      cases absent
    rw [List.getElem?_set_ne (Ne.symm other)] at absent
    exact (orderly.unborn j absent).undisturbed (advance.undisturbed orderly.known holds other)

/-- One more request keeps the others in order. -/
theorem Orderly.arrive (orderly : Orderly s) (kind : Kind) :
    Orderly { s with requests := s.requests ++ [⟨kind, .begun⟩] } := by
  have calm : ∀ j, Undisturbed s { s with requests := s.requests ++ [⟨kind, .begun⟩] } j :=
    fun j => undisturbed_calm rfl rfl rfl rfl
  refine ⟨⟨orderly.known.players, orderly.known.playerLocks, orderly.known.transfers,
    orderly.known.transferLocks⟩, ?_, ?_⟩
  · intro j q present
    rcases lt_or_ge j s.requests.length with bound | beyond
    · rw [List.getElem?_append_left bound] at present
      exact (orderly.stages j q present).undisturbed (calm j)
    · rw [List.getElem?_append_right beyond] at present
      obtain rfl := List.mem_singleton.mp (List.mem_of_getElem? present)
      exact (orderly.unborn j (List.getElem?_eq_none_iff.mpr beyond)).undisturbed (calm j)
  · intro j absent
    have beyond := List.getElem?_eq_none_iff.mp absent
    rw [List.length_append] at beyond
    have before : s.requests[j]? = none := List.getElem?_eq_none_iff.mpr (by omega)
    exact (orderly.unborn j before).undisturbed (calm j)

end Orderly

/-! ## The club and the latest move -/

/-- The move is the player's latest: no other is later, by date or, on one date, by when
it was recorded. -/
structure Latest (s : Store) (playerID k : String) (m : Move) : Prop where
  committed : s.transfers.committed k = some m
  player : m.transfer.playerID = playerID
  last : ∀ k' m', s.transfers.committed k' = some m' → m'.transfer.playerID = playerID →
    m'.rank ≤ m.rank

/-- A player's club follows from their moves. -/
structure Follows (s : Store) : Prop where
  latest : ∀ playerID row k m, s.players.committed playerID = some row →
    Latest s playerID k m → row.teamID = m.transfer.toTeam
  unmoved : ∀ playerID row, s.players.committed playerID = some row →
    (∀ k m, s.transfers.committed k = some m → m.transfer.playerID ≠ playerID) →
    row.teamID = none

theorem Move.rank_le {m m' : Move} : m.rank ≤ m'.rank ↔
    m.transfer.transferDate < m'.transfer.transferDate ∨
      m.transfer.transferDate = m'.transfer.transferDate ∧ m.recorded ≤ m'.recorded :=
  Prod.Lex.toLex_le_toLex

section Follows

variable {s s' : Store} {i : ℕ} {r : Request} {t : Transfer} {id k : String} {m m' : Move}

/-- What follows depends on what is committed. -/
theorem Follows.of_committed (follows : Follows s)
    (rows : s'.players.committed = s.players.committed)
    (moves : s'.transfers.committed = s.transfers.committed) : Follows s' := by
  constructor
  · intro playerID row k m found latest
    rw [rows] at found
    obtain ⟨committed, player, last⟩ := latest
    rw [moves] at committed last
    exact follows.latest playerID row k m found ⟨committed, player, last⟩
  · intro playerID row found unmoved
    rw [rows] at found
    rw [moves] at unmoved
    exact follows.unmoved playerID row found unmoved

/-- With the same moves, dated and recorded alike, the latest is a version of what it
was. -/
theorem Latest.before {playerID : String} (latest : Latest s' playerID k m')
    (history : SameHistory s s' playerID) : ∃ m, Latest s playerID k m ∧ SameMove m m' := by
  obtain ⟨committed, player, last⟩ := latest
  obtain ⟨m, found, same⟩ := history.2 k m' committed player
  refine ⟨m, ⟨found, same.playerID.symm.trans player, ?_⟩, same⟩
  intro j u before isPlayer
  obtain ⟨u', after, same'⟩ := history.1 j u before isPlayer
  have bound := last j u' after (same'.playerID.trans isPlayer)
  rwa [same'.rank, same.rank] at bound

/-- A commit that adds one move and leaves the other players alone keeps the rule if it
holds of the move's own player. -/
theorem Follows.adds {new : Move} (follows : Follows s)
    (moves : ∀ j u, s'.transfers.committed j = some u ↔
      s.transfers.committed j = some u ∨ j = id ∧ u = new)
    (others : ∀ playerID, playerID ≠ new.transfer.playerID →
      s'.players.committed playerID = s.players.committed playerID)
    (own : ∀ row j u, s'.players.committed new.transfer.playerID = some row →
      Latest s' new.transfer.playerID j u → row.teamID = u.transfer.toTeam) : Follows s' := by
  constructor
  · intro playerID row j u found latest
    by_cases isOwn : playerID = new.transfer.playerID
    · subst isOwn
      exact own row j u found latest
    · rw [others playerID isOwn] at found
      obtain ⟨committed, player, last⟩ := latest
      rcases (moves j u).mp committed with before | ⟨-, rfl⟩
      · refine follows.latest playerID row j u found ⟨before, player, ?_⟩
        exact fun j' u' before' => last j' u' ((moves j' u').mpr (Or.inl before'))
      · exact absurd player.symm isOwn
  · intro playerID row found unmoved
    have other : playerID ≠ new.transfer.playerID :=
      fun same => unmoved id new ((moves id new).mpr (Or.inr ⟨rfl, rfl⟩)) same.symm
    rw [others playerID other] at found
    exact follows.unmoved playerID row found
      fun j u before => unmoved j u ((moves j u).mpr (Or.inl before))

/-- Committing one inserted row adds it. -/
theorem commit_adds {κ ρ : Type} {t : Table κ ρ ℕ} {k : κ} {new : ρ}
    (absent : t.committed k = none) (locks : t.LocksOnly i [k])
    (held : t.held k = some (i, some new)) (j : κ) (u : ρ) :
    (t.commit i).committed j = some u ↔ t.committed j = some u ∨ j = k ∧ u = new := by
  constructor
  · intro found
    rcases Table.commit_eq_some found with own | ⟨before, -⟩
    · obtain rfl := List.mem_singleton.mp (locks j _ own)
      rw [held, Option.some.injEq, Prod.mk.injEq, Option.some.injEq] at own
      exact Or.inr ⟨rfl, own.2.symm⟩
    · exact Or.inl before
  · rintro (before | ⟨rfl, rfl⟩)
    · rw [Table.commit_of_not_held, before]
      intro v own
      obtain rfl := List.mem_singleton.mp (locks j v own)
      rw [absent] at before
      cases before
    · exact Table.commit_of_held held

/-- Committing locked rows leaves the rows alone that were not locked. -/
theorem commit_others {κ ρ : Type} {t : Table κ ρ ℕ} {k j : κ} (locks : t.LocksOnly i [k])
    (other : j ≠ k) : (t.commit i).committed j = t.committed j :=
  Table.commit_of_not_held fun v own => other (List.mem_singleton.mp (locks j v own))

theorem commit_none {κ ρ : Type} {t : Table κ ρ ℕ} (locks : t.LocksOnly i []) :
    (t.commit i).committed = t.committed :=
  funext fun j => Table.commit_of_not_held fun v own => List.not_mem_nil (locks j v own)

/-- `Record` commits. -/
theorem Follows.record {kind : Kind} {team : Option String} (follows : Follows s)
    (recording : Recording s i kind t) (stands : Stands s i t team) (filed : Filed s i t id)
    (stays : Outdated s t → team = t.fromTeam) (goes : ¬ Outdated s t → team = t.toTeam) :
    Follows (s.finish i r) := by
  obtain ⟨row, row', found, origin, held, now⟩ := stands
  obtain ⟨absent, transfers, n, inserted, last⟩ := filed
  have moves := commit_adds absent transfers inserted
  refine follows.adds moves (fun playerID other => commit_others recording.players other) ?_
  intro row₁ j u found₁ latest
  change (s.players.commit i).committed t.playerID = some row₁ at found₁
  rw [Table.commit_of_held held, Option.some.injEq] at found₁
  subst found₁
  obtain ⟨committed, player, latestOf⟩ := latest
  by_cases outdated : Outdated s t
  · -- A later move is there still, and it is the latest one.
    obtain ⟨k', m', found', player', later⟩ := outdated
    rcases (moves j u).mp committed with before | ⟨-, rfl⟩
    · have isLatest : Latest s t.playerID j u :=
        ⟨before, player, fun j' u' before' => latestOf j' u' ((moves j' u').mpr (Or.inl before'))⟩
      rw [now, stays ⟨k', m', found', player', later⟩, ← origin]
      exact follows.latest t.playerID row j u found isLatest
    · have bound := latestOf k' m' ((moves k' m').mpr (Or.inl found')) player'
      rcases Move.rank_le.mp bound with earlier | ⟨same, -⟩
      · exact absurd earlier (lt_asymm later)
      · exact absurd same.symm (ne_of_lt later)
  · rcases (moves j u).mp committed with before | ⟨-, rfl⟩
    · -- No older move is later than the one recorded last.
      have bound := latestOf id ⟨t, n⟩ ((moves id _).mpr (Or.inr ⟨rfl, rfl⟩)) rfl
      rcases Move.rank_le.mp bound with later | ⟨-, recorded⟩
      · exact absurd ⟨j, u, before, player, later⟩ outdated
      · exact absurd (last j u before player) (Nat.not_lt.mpr recorded)
    · exact now.trans (goes outdated)

/-- `Create` commits. -/
theorem Follows.create {club : Option String} (follows : Follows s)
    (newcomer : Newcomer s i id club) (opening : Opening s i id club) :
    Follows (s.finish i r) := by
  obtain ⟨absent, players, -, ⟨row, held, now⟩, unmoved⟩ := newcomer
  cases opening with
  | none transfers =>
      have moves : (s.finish i r).transfers.committed = s.transfers.committed :=
        commit_none transfers
      have rows : ∀ {playerID row'}, (s.finish i r).players.committed playerID = some row' →
          s.players.committed playerID = some row' ∨ playerID = id ∧ row' = row :=
        fun found' => (commit_adds absent players held _ _).mp found'
      constructor
      · intro playerID row' k m found' latest
        have before : Latest s playerID k m :=
          ⟨moves ▸ latest.committed, latest.player, moves ▸ latest.last⟩
        rcases rows found' with found | ⟨rfl, -⟩
        · exact follows.latest playerID row' k m found before
        · exact absurd before.player (unmoved k m before.committed)
      · intro playerID row' found' unmoved'
        rcases rows found' with found | ⟨-, rfl⟩
        · exact follows.unmoved playerID row' found (moves ▸ unmoved')
        · exact now
  | some teamID k m absent' transfers inserted player club =>
      have moves := commit_adds absent' transfers inserted
      refine follows.adds moves (fun playerID other =>
        commit_others players (player ▸ other)) ?_
      intro row₁ j u found₁ latest
      rw [player] at found₁ latest
      change (s.players.commit i).committed id = some row₁ at found₁
      rw [Table.commit_of_held held, Option.some.injEq] at found₁
      subst found₁
      rcases (moves j u).mp latest.committed with before | ⟨-, rfl⟩
      · exact absurd latest.player (unmoved j u before)
      · exact now.trans club.symm

/-- Committing later versions of moves keeps every player's history. -/
theorem history_of_versions {t : Table String Move ℕ} {playerID : String}
    (tables : s.transfers = t) (committed : s'.transfers = t.commit i)
    (versions : ∀ k v, t.held k = some (i, v) → ∃ m m', t.committed k = some m ∧ v = some m' ∧
      SameMove m m') : SameHistory s s' playerID := by
  rw [SameHistory, tables, committed]
  constructor
  · intro k m found player
    by_cases own : ∃ v, t.held k = some (i, v)
    · obtain ⟨v, held⟩ := own
      obtain ⟨m₀, m', before, rfl, same⟩ := versions k v held
      rw [found, Option.some.injEq] at before
      subst before
      exact ⟨m', Table.commit_of_held held, same⟩
    · exact ⟨m, (Table.commit_of_not_held fun v held => own ⟨v, held⟩).trans found, .refl m⟩
  · intro k m' found player
    rcases Table.commit_eq_some found with held | ⟨before, -⟩
    · obtain ⟨m, m₀, before, isVersion, same⟩ := versions k _ held
      cases isVersion
      exact ⟨m, before, same⟩
    · exact ⟨m', before, .refl m'⟩

/-- With the same moves there is one of a player exactly if there was one. -/
theorem SameHistory.unmoved {playerID : String} (history : SameHistory s s' playerID)
    (unmoved : ∀ k m, s'.transfers.committed k = some m → m.transfer.playerID ≠ playerID) :
    ∀ k m, s.transfers.committed k = some m → m.transfer.playerID ≠ playerID := by
  intro k m found player
  obtain ⟨m', after, same⟩ := history.1 k m found player
  exact unmoved k m' after (same.playerID.trans player)

/-- A plain update commits. -/
theorem Follows.rewrite (follows : Follows s) (rewrites : Rewrites s i) :
    Follows (s.finish i r) := by
  have history : ∀ playerID, SameHistory s (s.finish i r) playerID := by
    intro playerID
    refine history_of_versions rfl rfl fun k v held => ?_
    obtain ⟨m, m', found, isVersion, same, -⟩ := rewrites.transfers k v held
    exact ⟨m, m', found, isVersion, same⟩
  have player : ∀ {playerID row'}, (s.finish i r).players.committed playerID = some row' →
      ∃ row, s.players.committed playerID = some row ∧ row'.teamID = row.teamID := by
    intro playerID row' found
    rcases Table.commit_eq_some found with held | ⟨before, -⟩
    · obtain ⟨row, row₀, before, isVersion, same⟩ := rewrites.players playerID _ held
      cases isVersion
      exact ⟨row, before, same⟩
    · exact ⟨row', before, rfl⟩
  constructor
  · intro playerID row' k m' found latest
    obtain ⟨row, before, same⟩ := player found
    obtain ⟨m, latest', -⟩ := latest.before (history playerID)
    rw [same, follows.latest playerID row k m before latest']
    rcases Table.commit_eq_some latest.committed with held | ⟨found', -⟩
    · obtain ⟨m₀, m₁, found', isVersion, -, club⟩ := rewrites.transfers k _ held
      cases isVersion
      rw [latest'.committed, Option.some.injEq] at found'
      subst found'
      exact club.symm
    · rw [latest'.committed, Option.some.injEq] at found'
      rw [found']
  · intro playerID row' found unmoved
    obtain ⟨row, before, same⟩ := player found
    rw [same]
    exact follows.unmoved playerID row before ((history playerID).unmoved unmoved)

/-- A `DELETE` of a club commits: its players and the moves to it have all lost it. -/
theorem Follows.delete {teamID : String} (follows : Follows s) (deleting : Deleting s i teamID)
    (players : PlayersSwept s i teamID []) (moves : MovesSwept s i teamID []) :
    Follows (s.finish i r) := by
  have history : ∀ playerID, SameHistory s (s.finish i r) playerID := by
    intro playerID
    refine history_of_versions rfl rfl fun k v held => ?_
    obtain ⟨m, m', found, isVersion, same, -⟩ := deleting.transfers k v held
    exact ⟨m, m', found, isVersion, same⟩
  have player : ∀ {playerID row'}, (s.finish i r).players.committed playerID = some row' →
      ∃ row, s.players.committed playerID = some row ∧
        (row.teamID = some teamID ∧ row'.teamID = none ∨
          row.teamID ≠ some teamID ∧ row'.teamID = row.teamID) := by
    intro playerID row' found
    rcases Table.commit_eq_some found with held | ⟨before, unheld⟩
    · obtain ⟨row, row₀, before, isVersion, club, released⟩ := deleting.players playerID _ held
      cases isVersion
      exact ⟨row, before, Or.inl ⟨club, released⟩⟩
    · refine ⟨row', before, Or.inr ⟨fun club => ?_, rfl⟩⟩
      rcases players playerID row' before club with target | ⟨v, held⟩
      · exact absurd target List.not_mem_nil
      · exact unheld v held
  have destination : ∀ {k m m'}, s.transfers.committed k = some m →
      (s.finish i r).transfers.committed k = some m' →
      (m.transfer.toTeam = some teamID → m'.transfer.toTeam = none) ∧
        (m.transfer.toTeam ≠ some teamID → m'.transfer.toTeam = m.transfer.toTeam) := by
    intro k m m' before after
    rcases Table.commit_eq_some after with held | ⟨found, unheld⟩
    · obtain ⟨m₀, m₁, found, isVersion, -, club⟩ := deleting.transfers k _ held
      cases isVersion
      rw [before, Option.some.injEq] at found
      subst found
      refine ⟨fun isClub => ?_, fun other => ?_⟩
      · rcases moves k m before isClub with target | ⟨m₂, held', cleared⟩
        · exact absurd target List.not_mem_nil
        · rw [held, Option.some.injEq, Prod.mk.injEq, Option.some.injEq] at held'
          rw [held'.2]
          exact cleared
      · rcases club with kept | ⟨isClub, -⟩
        · exact kept
        · exact absurd isClub other
    · rw [before, Option.some.injEq] at found
      subst found
      refine ⟨fun isClub => ?_, fun _ => rfl⟩
      rcases moves k m before isClub with target | ⟨m₂, held, -⟩
      · exact absurd target List.not_mem_nil
      · exact absurd held (unheld _)
  constructor
  · intro playerID row' k m' found latest
    obtain ⟨row, before, club⟩ := player found
    obtain ⟨m, latest', -⟩ := latest.before (history playerID)
    have was := follows.latest playerID row k m before latest'
    obtain ⟨cleared, kept⟩ := destination latest'.committed latest.committed
    rcases club with ⟨isClub, released⟩ | ⟨other, same⟩
    · rw [released, cleared (was.symm.trans isClub)]
    · rw [same, kept (fun isClub => other (was.trans isClub)), was]
  · intro playerID row' found unmoved
    obtain ⟨row, before, ⟨-, released⟩ | ⟨-, same⟩⟩ := player found
    · exact released
    · rw [same]
      exact follows.unmoved playerID row before ((history playerID).unmoved unmoved)

/-- A request that ends leaves each club the destination of the latest transfer. -/
theorem StageHolds.finish_follows (holds : StageHolds s i r) (ready : r.stage.ready = true)
    (follows : Follows s) : Follows (s.finish i r) := by
  cases stage : r.stage <;> rw [StageHolds, stage] at holds <;> rw [stage] at ready
  case placed t id =>
    obtain ⟨recording, stays, goes, filed, -⟩ := holds
    by_cases outdated : Outdated s t
    · exact follows.record recording (stays outdated) filed (fun _ => rfl)
        fun current => absurd outdated current
    · exact follows.record recording (goes outdated) filed (fun late => absurd late outdated)
        fun _ => rfl
  case opened id =>
    obtain ⟨club, newcomer, opening, -⟩ := holds
    exact follows.create newcomer opening
  case written => exact follows.rewrite holds
  case clearing cascade targets =>
    obtain ⟨teamID, -, deleting, swept⟩ := holds
    cases cascade with
    | players => cases ready
    | origins => cases ready
    | destinations =>
        cases targets with
        | nil => exact follows.delete deleting swept.1 swept.2
        | cons target targets => cases ready
  all_goals cases ready

/-- A step leaves each club the destination of the latest transfer: only a commit changes what
is committed. -/
theorem Advance.follows (advance : Advance s i r s') (holds : StageHolds s i r)
    (follows : Follows s) : Follows s' := by
  cases advance with
  | finishes ready => exact holds.finish_follows ready follows
  | places t id filed =>
      rw [placePlayer]
      split_ifs
      · exact follows.of_committed rfl rfl
      · split
        · exact follows.of_committed rfl rfl
        · exact follows.of_committed rfl rfl
  | fails => exact follows.of_committed rfl rfl
  | admits => exact follows.of_committed rfl rfl
  | prepares => exact follows.of_committed rfl rfl
  | creates => exact follows.of_committed rfl rfl
  | deletes => exact follows.of_committed rfl rfl
  | locks => exact follows.of_committed rfl rfl
  | files => exact follows.of_committed rfl rfl
  | refers => exact follows.of_committed rfl rfl
  | opens => exact follows.of_committed rfl rfl
  | skips => exact follows.of_committed rfl rfl
  | corrects => exact follows.of_committed rfl rfl
  | edits => exact follows.of_committed rfl rfl
  | releases => exact follows.of_committed rfl rfl
  | clearsOrigin => exact follows.of_committed rfl rfl
  | clearsDestination => exact follows.of_committed rfl rfl
  | passes => exact follows.of_committed rfl rfl
  | turns => exact follows.of_committed rfl rfl
  | turnsAgain => exact follows.of_committed rfl rfl

end Follows

/-! ## Over a run -/

section Runs

variable {ok : Store → Label → Prop} {s s' : Store} {label : Label}

theorem Orderly.next (orderly : Orderly s) (next : squads.next s label = some s') :
    Orderly s' := by
  obtain ⟨kind, -, rfl⟩ | ⟨i, r, -, found, advance⟩ := squads_next next
  · exact orderly.arrive kind
  · exact orderly.advance found advance

/-- Whatever the service does next leaves each club the destination of the latest transfer. -/
theorem Follows.next (follows : Follows s) (orderly : Orderly s)
    (next : squads.next s label = some s') : Follows s' := by
  obtain ⟨kind, -, rfl⟩ | ⟨i, r, -, found, advance⟩ := squads_next next
  · exact follows.of_committed rfl rfl
  · exact advance.follows (orderly.stages i r found) follows

/-- Both hold at first. -/
theorem orderly_of_start (start : squads.start s) : Orderly s ∧ Follows s := by
  obtain ⟨teams, shared, players, transfers, playerIDs, transferIDs, requests⟩ := start
  refine ⟨⟨⟨?_, ?_, ?_, ?_⟩, ?_, ?_⟩, ⟨?_, ?_⟩⟩
  · intro k row found
    rw [players] at found
    cases found
  · intro k i v held
    rw [players] at held
    cases held
  · intro k m found
    rw [transfers] at found
    cases found
  · intro k i v held
    rw [transfers] at held
    cases held
  · intro i r found
    rw [requests] at found
    cases found
  · intro i absent
    refine ⟨?_, ?_, ?_⟩
    · intro k v held
      rw [players] at held
      cases held
    · intro k v held
      rw [transfers] at held
      cases held
    · intro k v held
      rw [teams] at held
      cases held
  · intro playerID row k m found
    rw [players] at found
    cases found
  · intro playerID row found
    rw [players] at found
    cases found

theorem orderly_of_reach (reached : squads.Reach ok s) : Orderly s ∧ Follows s := by
  refine reached.invariant (P := fun s => Orderly s ∧ Follows s)
    (fun start => orderly_of_start start) ?_
  rintro t t' label ⟨orderly, follows⟩ - next
  exact ⟨orderly.next next, follows.next orderly next⟩

/-- The history of a player is their transfers. -/
theorem mem_history (known : Known s) {playerID : String} {m : Move} :
    m ∈ s.history playerID ↔
      ∃ k, s.transfers.committed k = some m ∧ m.transfer.playerID = playerID := by
  simp only [Store.history, List.mem_filter, List.mem_filterMap, decide_eq_true_eq]
  constructor
  · rintro ⟨⟨k, -, found⟩, player⟩
    exact ⟨k, found, player⟩
  · rintro ⟨k, found, player⟩
    exact ⟨⟨k, (known.transfers k m found).1, found⟩, player⟩

/-- A player is at the club of their latest transfer, or at none without one. -/
theorem squad_follows (reached : squads.Reach ok s) {playerID : String} {row : Player}
    (found : s.players.committed playerID = some row) :
    row.teamID = (s.latestTransfer playerID).bind fun m => m.transfer.toTeam := by
  obtain ⟨⟨known, -, -⟩, follows⟩ := orderly_of_reach reached
  cases latest : s.latestTransfer playerID with
  | none =>
      refine follows.unmoved playerID row found fun k m committed player => ?_
      have member := (mem_history known).mpr ⟨k, committed, player⟩
      rw [List.argmax_eq_none.mp latest] at member
      exact List.not_mem_nil member
  | some m =>
      obtain ⟨k, committed, player⟩ := (mem_history known).mp (List.argmax_mem latest)
      refine follows.latest playerID row k m found ⟨committed, player, fun k' m' found' is => ?_⟩
      exact List.le_of_mem_argmax ((mem_history known).mpr ⟨k', found', is⟩) latest

end Runs

end ScoutPulse.Squad
