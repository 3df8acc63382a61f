import ScoutPulse.Football.Squad.Current

/-!
# Two transfers of one player

Two transfers that would each move a player from where they are do not both commit:
whichever commits first moves the player, and the other finds them elsewhere when it
comes to their lock.
-/

namespace ScoutPulse.Squad

open ReadCommitted

/-- The stages of `RecordTransfer`. -/
def Stage.recording : Stage → Bool
  | .begun => true
  | .admitted _ => true
  | .locked _ => true
  | .filed _ _ _ => true
  | .placed _ _ => true
  | .ended _ => true
  | _ => false

/-- The stages in which `Record` has the player's lock. -/
def Stage.holding : Stage → Bool
  | .locked _ => true
  | .filed _ _ _ => true
  | .placed _ _ => true
  | _ => false

/-- A player's club, if there is such a player. -/
def Store.clubOf (s : Store) (playerID : String) : Option (Option String) :=
  (s.players.committed playerID).map Player.teamID

def Committed (s : Store) (i : ℕ) : Prop :=
  ∃ r, s.requests[i]? = some r ∧ r.stage = .ended .committed

/-- The request a step is taken by. -/
def Label.request : Label → Option ℕ
  | .arrive _ => none
  | .advance i _ => some i
  | .abort i => some i

/-- Only one request steps. -/
def Only (i : ℕ) (_ : Store) (label : Label) : Prop := label.request = some i

instance (i : ℕ) (s : Store) (label : Label) : Decidable (Only i s label) :=
  inferInstanceAs (Decidable (label.request = some i))

/-- The request, run alone, commits and moves the player. -/
def MovesAlone (s : Store) (i : ℕ) (playerID : String) : Prop :=
  ∃ s', squads.Leads (Only i) s s' ∧ Committed s' i ∧ s'.clubOf playerID ≠ s.clubOf playerID

/-- A step of two requests, or one that leaves the player where they are. -/
def Settled (playerID : String) (i j : ℕ) (s : Store) (label : Label) : Prop :=
  label.request = some i ∨ label.request = some j ∨
    ∀ s', squads.next s label = some s' → s'.clubOf playerID = s.clubOf playerID

instance (playerID : String) (i j : ℕ) (s : Store) (label : Label) :
    Decidable (Settled playerID i j s label) :=
  inferInstanceAs (Decidable (label.request = some i ∨ label.request = some j ∨
    ∀ s' ∈ squads.next s label, s'.clubOf playerID = s.clubOf playerID))

/-- The player is where the move starts. -/
def AtOrigin {δ : Type} (s : Store) (t : TransferOf δ) : Prop :=
  s.clubOf t.playerID = some t.fromTeam

section Steps

variable {s s' : Store} {i : ℕ} {r : Request} {asked : SentTransfer} {t : Transfer} {id : String}

theorem clubOf_eq_some {playerID : String} {team : Option String} :
    s.clubOf playerID = some team ↔
      ∃ row, s.players.committed playerID = some row ∧ row.teamID = team :=
  Option.map_eq_some_iff

theorem Fits.outdated (fits : Fits asked t) : Outdated s t ↔ Outdated s asked.kept := by
  simp only [Outdated, TransferOf.kept, fits.playerID, fits.transferDate]

theorem Stands.atOrigin {team : Option String} (stands : Stands s i t team) : AtOrigin s t := by
  obtain ⟨row, -, found, origin, -⟩ := stands
  exact clubOf_eq_some.mpr ⟨row, found, origin⟩

theorem Fits.atOrigin (fits : Fits asked t) : AtOrigin s t ↔ AtOrigin s asked := by
  rw [AtOrigin, AtOrigin, fits.playerID, fits.fromTeam]

/-- While `Record` has the player's lock, the player is where the move starts, and
nobody else has it. -/
theorem StageHolds.holding (holds : StageHolds s i r) (kind : r.kind = .recordTransfer asked)
    (holding : r.stage.holding = true) :
    AtOrigin s asked ∧ ∃ v, s.players.held asked.playerID = some (i, v) := by
  have found : ∃ t team, Recording s i r.kind t ∧ Stands s i t team := by
    cases stage : r.stage <;> rw [StageHolds, stage] at holds <;> rw [stage] at holding
    case locked t => exact ⟨t, _, holds.1, holds.2.1⟩
    case filed t id clubs => exact ⟨t, _, holds.1, holds.2.1⟩
    case placed t id =>
      obtain ⟨recording, stays, goes, -⟩ := holds
      obtain ⟨team, stands, -⟩ := stands_of_placed stays goes
      exact ⟨t, team, recording, stands⟩
    all_goals cases holding
  obtain ⟨t, team, ⟨⟨asked', isAsked, fits⟩, -, -⟩, stands⟩ := found
  cases kind.symm.trans isAsked
  exact ⟨fits.atOrigin.mp stands.atOrigin, fits.playerID ▸ stands.lock⟩

/-- A step of a `RecordTransfer` commits nothing and takes the player's lock only where
the move starts, or it is the commit. -/
theorem Advance.record (advance : Advance s i r s') (holds : StageHolds s i r)
    (kind : r.kind = .recordTransfer asked) (recording : r.stage.recording = true) :
    ∃ r', s'.requests = s.requests.set i r' ∧ r'.kind = r.kind ∧ r'.stage.recording = true ∧
      (s'.players.committed = s.players.committed ∧
          s'.transfers.committed = s.transfers.committed ∧ r'.stage ≠ .ended .committed ∧
          (r'.stage.holding = true → AtOrigin s asked) ∨
        s' = s.finish i r ∧ r'.stage = .ended .committed ∧ ∃ t id, r.stage = .placed t id) := by
  have held : r.stage.holding = true → AtOrigin s asked :=
    fun holding => (holds.holding kind holding).1
  cases advance with
  | fails reason running =>
      exact ⟨_, rfl, rfl, rfl, Or.inl ⟨rfl, rfl, by simp, by simp [Stage.holding]⟩⟩
  | finishes ready =>
      refine ⟨_, rfl, rfl, rfl, Or.inr ⟨rfl, rfl, ?_⟩⟩
      cases stage : r.stage <;> rw [stage] at ready recording
      case placed t id => exact ⟨t, id, rfl⟩
      case opened id => cases recording
      case written => cases recording
      case clearing cascade targets => cases recording
      all_goals cases ready
  | admits asked' t isRecord begun fits =>
      exact ⟨_, rfl, rfl, rfl, Or.inl ⟨rfl, rfl, by simp, by simp [Stage.holding]⟩⟩
  | locks t row admitted free sees origin =>
      refine ⟨_, rfl, rfl, rfl, Or.inl ⟨rfl, rfl, by simp, fun _ => ?_⟩⟩
      rw [StageHolds, admitted] at holds
      obtain ⟨idle, asked', isAsked, fits⟩ := holds
      cases kind.symm.trans isAsked
      rw [visible_of_idle idle.players] at sees
      exact fits.atOrigin.mp (clubOf_eq_some.mpr ⟨row, sees, origin⟩)
  | files t d locked fresh =>
      exact ⟨_, rfl, rfl, rfl, Or.inl ⟨rfl, rfl, by simp, fun _ => held (by rw [locked]; rfl)⟩⟩
  | refers club rest free next =>
      rcases next with ⟨t, id, clubs, stage, rfl⟩ | ⟨id, createdAt, clubs, stage, rfl⟩
      · exact ⟨_, rfl, rfl, rfl, Or.inl ⟨rfl, rfl, by simp, fun _ => held (by rw [stage]; rfl)⟩⟩
      · rw [stage] at recording
        cases recording
  | places t id filed =>
      refine ⟨{ r with stage := .placed t id }, ?_, rfl, rfl,
        Or.inl ⟨?_, ?_, by simp, fun _ => held (by rw [filed]; rfl)⟩⟩
      all_goals
        rw [placePlayer]
        split_ifs
        · rfl
        · split <;> rfl
  | prepares stage other begun plain => exact absurd kind (other asked)
  | creates teamID details d isCreate begun fresh => cases kind.symm.trans isCreate
  | deletes teamID isDelete begun free alone => cases kind.symm.trans isDelete
  | opens id teamID details createdAt d isCreate created fresh => cases kind.symm.trans isCreate
  | skips id createdAt other created =>
      rw [created] at recording
      cases recording
  | corrects id t row stage free sees =>
      rw [stage] at recording
      cases recording
  | edits id details row stage free sees =>
      rw [stage] at recording
      cases recording
  | releases teamID k targets row isDelete clearing free sees picked =>
      cases kind.symm.trans isDelete
  | clearsOrigin teamID k targets row isDelete clearing free sees => cases kind.symm.trans isDelete
  | clearsDestination teamID k targets row isDelete clearing free sees picked =>
      cases kind.symm.trans isDelete
  | passes teamID k cascade targets isDelete clearing player destination =>
      cases kind.symm.trans isDelete
  | turns teamID isDelete clearing => cases kind.symm.trans isDelete
  | turnsAgain teamID isDelete clearing => cases kind.symm.trans isDelete

/-- The commit of `Record` leaves the player where they are if another move is dated
later, and moves them if none is. -/
theorem StageHolds.places (holds : StageHolds s i r) (kind : r.kind = .recordTransfer asked)
    (placed : r.stage = .placed t id) : Fits asked t ∧ AtOrigin s asked ∧
      (Outdated s asked.kept → (s.finish i r).clubOf asked.playerID = some asked.fromTeam) ∧
      (¬ Outdated s asked.kept → (s.finish i r).clubOf asked.playerID = some asked.toTeam) := by
  have atOrigin := (holds.holding kind (by rw [placed]; rfl)).1
  rw [StageHolds, placed] at holds
  obtain ⟨⟨⟨asked', isAsked, fits⟩, -, -⟩, stays, goes, -⟩ := holds
  cases kind.symm.trans isAsked
  have leaves : ∀ {team}, Stands s i t team →
      (s.finish i r).clubOf asked.playerID = some team := by
    rintro team ⟨row, row', -, -, held, now⟩
    rw [← fits.playerID]
    exact clubOf_eq_some.mpr ⟨row', Table.commit_of_held held, now⟩
  refine ⟨fits, atOrigin, fun outdated => ?_, fun current => ?_⟩
  · rw [← fits.fromTeam]
    exact leaves (stays (fits.outdated.mpr outdated))
  · rw [← fits.toTeam]
    exact leaves (goes fun outdated => current (fits.outdated.mp outdated))

theorem Advance.running (advance : Advance s i r s') (outcome : Outcome) :
    r.stage ≠ .ended outcome := by
  intro ended
  cases advance <;> simp_all [Stage.ready]

end Steps

/-! ## What a commit dates -/

section Dates

variable {s s' : Store} {i : ℕ} {r : Request} {t : Transfer}

theorem outdated_of_committed (moves : s'.transfers.committed = s.transfers.committed) :
    Outdated s' t ↔ Outdated s t := by
  rw [Outdated, Outdated, moves]

/-- A later move that is there after a commit was there before, or it is one that was
recorded of the player, or the opening one of a new player. -/
theorem StageHolds.finish_outdated (holds : StageHolds s i r) (ready : r.stage.ready = true)
    (outdated : Outdated (s.finish i r) t) : Outdated s t ∨
      (∃ t' id, r.stage = .placed t' id ∧ t'.playerID = t.playerID ∧
        t.transferDate < t'.transferDate) ∨
      s.players.committed t.playerID = none := by
  obtain ⟨k, m, found, player, later⟩ := outdated
  cases stage : r.stage <;> rw [StageHolds, stage] at holds <;> rw [stage] at ready
  case placed t' id =>
    obtain ⟨-, -, -, ⟨absent, transfers, n, inserted, -⟩, -⟩ := holds
    rcases (commit_adds absent transfers inserted k m).mp found with before | ⟨-, rfl⟩
    · exact Or.inl ⟨k, m, before, player, later⟩
    · exact Or.inr (Or.inl ⟨t', id, rfl, player, later⟩)
  case opened id =>
    obtain ⟨club, newcomer, opening, -⟩ := holds
    cases opening with
    | none transfers =>
        change (s.transfers.commit i).committed k = some m at found
        rw [commit_none transfers] at found
        exact Or.inl ⟨k, m, found, player, later⟩
    | some teamID k' new absent transfers inserted isNew _ =>
        rcases (commit_adds absent transfers inserted k m).mp found with before | ⟨-, rfl⟩
        · exact Or.inl ⟨k, m, before, player, later⟩
        · rw [← player, isNew]
          exact Or.inr (Or.inr newcomer.absent)
  case written =>
    rcases Table.commit_eq_some found with held | ⟨before, -⟩
    · obtain ⟨m₀, m', before, isVersion, same, -⟩ := holds.transfers k _ held
      cases isVersion
      exact Or.inl ⟨k, m₀, before, same.playerID.symm.trans player, same.date ▸ later⟩
    · exact Or.inl ⟨k, m, before, player, later⟩
  case clearing cascade targets =>
    obtain ⟨teamID, -, deleting, -⟩ := holds
    rcases Table.commit_eq_some found with held | ⟨before, -⟩
    · obtain ⟨m₀, m', before, isVersion, same, -⟩ := deleting.transfers k _ held
      cases isVersion
      exact Or.inl ⟨k, m₀, before, same.playerID.symm.trans player, same.date ▸ later⟩
    · exact Or.inl ⟨k, m, before, player, later⟩
  all_goals cases ready

/-- Where the player is `asked` to move from, a step of another request that leaves
them there records no later move. -/
theorem Advance.keeps_current (advance : Advance s i r s') (holds : StageHolds s i r)
    (atOrigin : AtOrigin s t) (stays : s'.clubOf t.playerID = s.clubOf t.playerID)
    (current : ¬ Outdated s t) : ¬ Outdated s' t := by
  have calm : s'.transfers.committed = s.transfers.committed → ¬ Outdated s' t :=
    fun moves outdated => current ((outdated_of_committed moves).mp outdated)
  cases advance with
  | finishes ready =>
      intro outdated
      rcases holds.finish_outdated ready outdated with
        before | ⟨t', id, placed, player, later⟩ | gone
      · exact current before
      · -- The move recorded is the latest one, so it has moved the player.
        have kind : ∃ asked, r.kind = .recordTransfer asked ∧ Fits asked t' := by
          rw [StageHolds, placed] at holds
          exact holds.1.asked
        obtain ⟨asked, isAsked, fits⟩ := kind
        obtain ⟨-, there, -, goes⟩ := holds.places isAsked placed
        have latest : ¬ Outdated s asked.kept := by
          rw [← fits.outdated]
          rintro ⟨k, m, found, isPlayer, after⟩
          exact current ⟨k, m, found, isPlayer.trans player, lt_trans later after⟩
        have moved := goes latest
        rw [← fits.playerID, player, stays, ← player, fits.playerID] at moved
        rw [AtOrigin] at there
        rw [there, Option.some.injEq, ← fits.fromTeam, ← fits.toTeam] at moved
        exact fits.moves moved
      · obtain ⟨row, found, -⟩ := clubOf_eq_some.mp atOrigin
        rw [gone] at found
        cases found
  | places t' id filed =>
      refine calm ?_
      rw [placePlayer]
      split_ifs
      · rfl
      · split <;> rfl
  | fails => exact calm rfl
  | admits => exact calm rfl
  | prepares => exact calm rfl
  | creates => exact calm rfl
  | deletes => exact calm rfl
  | locks => exact calm rfl
  | files => exact calm rfl
  | refers => exact calm rfl
  | opens => exact calm rfl
  | skips => exact calm rfl
  | corrects => exact calm rfl
  | edits => exact calm rfl
  | releases => exact calm rfl
  | clearsOrigin => exact calm rfl
  | clearsDestination => exact calm rfl
  | passes => exact calm rfl
  | turns => exact calm rfl
  | turnsAgain => exact calm rfl

end Dates

/-! ## Runs -/

section Runs

variable {s₀ s s' : Store} {label : Label} {i j : ℕ} {r : Request}
  {t t' : SentTransfer}

/-- A request that records the transfer. -/
def Records (s : Store) (i : ℕ) (t : SentTransfer) (r : Request) : Prop :=
  s.requests[i]? = some r ∧ r.kind = .recordTransfer t ∧ r.stage.recording = true

/-- A step of one's own is one of the steps. -/
theorem own_step (next : squads.next s label = some s') (own : label.request = some i)
    (found : s.requests[i]? = some r) : Advance s i r s' := by
  obtain ⟨kind, rfl, -⟩ | ⟨k, q, taken, found', advance⟩ := squads_next next
  · cases own
  · obtain rfl : k = i := by
      rcases taken with ⟨d, rfl⟩ | rfl
      · exact Option.some.inj own
      · exact Option.some.inj own
    rw [found, Option.some.injEq] at found'
    subst found'
    exact advance

/-- A step of another's leaves the request as it is. -/
theorem other_step (orderly : Orderly s) (next : squads.next s label = some s')
    (other : label.request ≠ some i) (found : s.requests[i]? = some r) :
    s'.requests[i]? = some r := by
  obtain ⟨bound, -⟩ := List.getElem?_eq_some_iff.mp found
  obtain ⟨kind, -, rfl⟩ | ⟨k, q, taken, found', advance⟩ := squads_next next
  · exact (List.getElem?_append_left bound).trans found
  · have distinct : k ≠ i := by
      rintro rfl
      rcases taken with ⟨d, rfl⟩ | rfl
      · exact other rfl
      · exact other rfl
    obtain ⟨q', requests, -⟩ := (orderly.stages k q found').advance orderly.known advance
    rw [requests, List.getElem?_set_ne distinct, found]

theorem clubOf_of_committed (rows : s'.players.committed = s.players.committed)
    (playerID : String) : s'.clubOf playerID = s.clubOf playerID := by
  rw [Store.clubOf, Store.clubOf, rows]

/-- How a step leaves a request that records a transfer, if the step is its own. -/
theorem Records.step (records : Records s i t r) (orderly : Orderly s)
    (next : squads.next s label = some s') (own : label.request = some i) :
    ∃ r', Records s' i t r' ∧
      (s'.players.committed = s.players.committed ∧
          s'.transfers.committed = s.transfers.committed ∧ r'.stage ≠ .ended .committed ∧
          (r'.stage.holding = true → AtOrigin s t) ∨
        s' = s.finish i r ∧ r'.stage = .ended .committed ∧ ∃ t' id, r.stage = .placed t' id) := by
  obtain ⟨found, kind, recording⟩ := records
  obtain ⟨bound, -⟩ := List.getElem?_eq_some_iff.mp found
  have advance := own_step next own found
  obtain ⟨r', requests, kind', recording', effect⟩ :=
    advance.record (orderly.stages i r found) kind recording
  refine ⟨r', ⟨?_, kind'.trans kind, recording'⟩, effect⟩
  rw [requests, List.getElem?_set_self bound]

/-- How far a transfer has come that runs alone: nothing is committed yet, or it is
committed and has left the player, or moved them from where it starts. -/
def Alone (s₀ : Store) (i : ℕ) (t : SentTransfer) (s : Store) : Prop :=
  Orderly s ∧ ∃ r, Records s i t r ∧
    (r.stage ≠ .ended .committed ∧ s.players.committed = s₀.players.committed ∧
        s.transfers.committed = s₀.transfers.committed ∨
      r.stage = .ended .committed ∧
        (s.clubOf t.playerID = s₀.clubOf t.playerID ∨ AtOrigin s₀ t ∧ ¬ Outdated s₀ t.kept ∧
          t.fromTeam ≠ t.toTeam))

/-- A request that goes on alone is still alone. -/
theorem Alone.next (alone : Alone s₀ i t s) (own : label.request = some i)
    (next : squads.next s label = some s') : Alone s₀ i t s' := by
  obtain ⟨orderly, r, records, state⟩ := alone
  obtain ⟨r', records', effect⟩ := records.step orderly next own
  refine ⟨orderly.next next, r', records', ?_⟩
  rcases state with ⟨-, rows, moves⟩ | ⟨ended, -⟩
  · rcases effect with ⟨rows', moves', running, -⟩ | ⟨rfl, ended, t', id, placed⟩
    · exact Or.inl ⟨running, rows'.trans rows, moves'.trans moves⟩
    · refine Or.inr ⟨ended, ?_⟩
      obtain ⟨fits, there, stays, -⟩ :=
        (orderly.stages i r records.1).places records.2.1 placed
      have same := clubOf_of_committed rows t.playerID
      by_cases outdated : Outdated s t.kept
      · exact Or.inl ((stays outdated).trans (there.symm.trans same))
      · refine Or.inr ⟨same.symm.trans there, ?_, ?_⟩
        · exact fun before => outdated ((outdated_of_committed moves).mpr before)
        · rw [← fits.fromTeam, ← fits.toTeam]
          exact fits.moves
  · exact absurd ended ((own_step next own records.1).running _)

/-- A transfer that moves the player when it runs alone starts where they are, and no
move is dated later. -/
theorem movesAlone_spec (orderly : Orderly s)
    (found : s.requests[i]? = some ⟨.recordTransfer t, .begun⟩)
    (moves : MovesAlone s i t.playerID) :
    AtOrigin s t ∧ ¬ Outdated s t.kept ∧ t.fromTeam ≠ t.toTeam := by
  obtain ⟨s', leads, ⟨q, present, ended⟩, moved⟩ := moves
  have first : Alone s i t s :=
    ⟨orderly, _, ⟨found, rfl, rfl⟩, Or.inl ⟨nofun, rfl, rfl⟩⟩
  obtain ⟨-, r, ⟨found', -⟩, state⟩ :=
    leads.invariant (P := Alone s i t) first fun alone own next => alone.next own next
  rw [present, Option.some.injEq] at found'
  subst found'
  rcases state with ⟨running, -⟩ | ⟨-, same | facts⟩
  · exact absurd ended running
  · exact absurd same moved
  · exact facts

/-- Neither transfer is committed, the player is where both start, and no move is dated
later than either. -/
structure Undecided (s : Store) (i j : ℕ) (t t' : SentTransfer) : Prop where
  first : ∃ r, Records s i t r ∧ r.stage ≠ .ended .committed
  second : ∃ r, Records s j t' r ∧ r.stage ≠ .ended .committed
  atOrigin : AtOrigin s t
  current : ¬ Outdated s t.kept
  current' : ¬ Outdated s t'.kept

/-- One transfer is committed, and the player is no longer where the other starts,
which does not have their lock. -/
structure Decided (s : Store) (i j : ℕ) (t t' : SentTransfer) : Prop where
  won : ∃ r, Records s i t r ∧ r.stage = .ended .committed
  lost : ∃ r, Records s j t' r ∧ r.stage ≠ .ended .committed ∧ r.stage.holding = false
  moved : ¬ AtOrigin s t'

theorem Records.other (records : Records s i t r) (orderly : Orderly s)
    (next : squads.next s label = some s') (other : label.request ≠ some i) :
    Records s' i t r :=
  ⟨other_step orderly next other records.1, records.2⟩

/-- Once decided, the two stay so. -/
theorem Decided.next (decided : Decided s i j t t') (orderly : Orderly s)
    (settled : Settled t'.playerID i j s label) (next : squads.next s label = some s') :
    Decided s' i j t t' := by
  obtain ⟨⟨r, winner, ended⟩, ⟨q, loser, running, free⟩, moved⟩ := decided
  by_cases first : label.request = some i
  · exact absurd ended ((own_step next first winner.1).running _)
  · have winner' := winner.other orderly next first
    by_cases second : label.request = some j
    · obtain ⟨q', loser', effect⟩ := loser.step orderly next second
      rcases effect with ⟨rows, -, running', holding⟩ | ⟨-, -, t₀, id, placed⟩
      · refine ⟨⟨r, winner', ended⟩, ⟨q', loser', running', ?_⟩, ?_⟩
        · rw [Bool.eq_false_iff]
          exact fun holds => moved (holding holds)
        · rw [AtOrigin, clubOf_of_committed rows]
          exact moved
      · rw [placed] at free
        cases free
    · have stays : s'.clubOf t'.playerID = s.clubOf t'.playerID := by
        rcases settled with own | own | stays
        · exact absurd own first
        · exact absurd own second
        · exact stays s' next
      refine ⟨⟨r, winner', ended⟩, ⟨q, loser.other orderly next second, running, free⟩, ?_⟩
      rw [AtOrigin, stays]
      exact moved

/-- A step of one of two undecided transfers leaves them undecided or commits it. -/
theorem Undecided.own (undecided : Undecided s i j t t') (orderly : Orderly s) (distinct : i ≠ j)
    (player : t'.playerID = t.playerID) (origin : t'.fromTeam = t.fromTeam)
    (moves : t.fromTeam ≠ t.toTeam) (next : squads.next s label = some s')
    (own : label.request = some i) : Undecided s' i j t t' ∨ Decided s' i j t t' := by
  obtain ⟨⟨r, first, -⟩, ⟨q, second, running⟩, atOrigin, current, current'⟩ := undecided
  have other : label.request ≠ some j := by
    rw [own]
    exact fun same => distinct (Option.some.inj same)
  have second' := second.other orderly next other
  obtain ⟨r', first', effect⟩ := first.step orderly next own
  rcases effect with ⟨rows, moved, running', -⟩ | ⟨rfl, ended, t₀, id, placed⟩
  · refine Or.inl ⟨⟨r', first', running'⟩, ⟨q, second', running⟩, ?_, ?_, ?_⟩
    · rw [AtOrigin, clubOf_of_committed rows]
      exact atOrigin
    · rwa [outdated_of_committed moved]
    · rwa [outdated_of_committed moved]
  · have holds := orderly.stages i r first.1
    obtain ⟨-, -, -, goes⟩ := holds.places first.2.1 placed
    refine Or.inr ⟨⟨r', first', ended⟩, ⟨q, second', running, ?_⟩, ?_⟩
    · -- Both cannot have the player's lock.
      rw [Bool.eq_false_iff]
      intro holding
      obtain ⟨-, v, mine⟩ := holds.holding first.2.1 (by rw [placed]; rfl)
      obtain ⟨-, w, theirs⟩ := (orderly.stages j q second.1).holding second.2.1 holding
      rw [player, mine, Option.some.injEq, Prod.mk.injEq] at theirs
      exact distinct theirs.1
    · rw [AtOrigin, player, goes current, origin, Option.some.injEq]
      exact fun same => moves same.symm

theorem Undecided.symm (undecided : Undecided s i j t t') (player : t'.playerID = t.playerID)
    (origin : t'.fromTeam = t.fromTeam) : Undecided s j i t' t := by
  refine ⟨undecided.second, undecided.first, ?_, undecided.current', undecided.current⟩
  rw [AtOrigin, player, origin]
  exact undecided.atOrigin

/-- A step of neither of two undecided transfers, which leaves the player, leaves them
undecided. -/
theorem Undecided.other (undecided : Undecided s i j t t') (orderly : Orderly s)
    (player : t'.playerID = t.playerID) (origin : t'.fromTeam = t.fromTeam)
    (next : squads.next s label = some s') (first : label.request ≠ some i)
    (second : label.request ≠ some j) (stays : s'.clubOf t.playerID = s.clubOf t.playerID) :
    Undecided s' i j t t' := by
  obtain ⟨⟨r, records, running⟩, ⟨q, records', running'⟩, atOrigin, current, current'⟩ := undecided
  have atOrigin' : AtOrigin s t' := by
    rw [AtOrigin, player, origin]
    exact atOrigin
  refine ⟨⟨r, records.other orderly next first, running⟩,
    ⟨q, records'.other orderly next second, running'⟩, ?_, ?_, ?_⟩
  · rw [AtOrigin, stays]
    exact atOrigin
  · obtain ⟨kind, -, rfl⟩ | ⟨k, p, -, found, advance⟩ := squads_next next
    · exact current
    · exact advance.keeps_current (orderly.stages k p found) atOrigin stays current
  · obtain ⟨kind, -, rfl⟩ | ⟨k, p, -, found, advance⟩ := squads_next next
    · exact current'
    · exact advance.keeps_current (orderly.stages k p found) atOrigin' (player ▸ stays) current'

/-- Of two transfers of one player that would each move them from where they are, at
most one commits, if nothing else moves the player. -/
theorem transfers_exclude (orderly : Orderly s₀) (distinct : i ≠ j)
    (first : s₀.requests[i]? = some ⟨.recordTransfer t, .begun⟩)
    (second : s₀.requests[j]? = some ⟨.recordTransfer t', .begun⟩)
    (player : t'.playerID = t.playerID) (moves : MovesAlone s₀ i t.playerID)
    (moves' : MovesAlone s₀ j t.playerID)
    (leads : squads.Leads (Settled t.playerID i j) s₀ s) : ¬ (Committed s i ∧ Committed s j) := by
  obtain ⟨atOrigin, current, goes⟩ := movesAlone_spec orderly first moves
  rw [← player] at moves'
  obtain ⟨atOrigin', current', goes'⟩ := movesAlone_spec orderly second moves'
  have origin : t'.fromTeam = t.fromTeam := by
    rw [AtOrigin, player, atOrigin, Option.some.injEq] at atOrigin'
    exact atOrigin'.symm
  have race : Orderly s ∧
      (Undecided s i j t t' ∨ Decided s i j t t' ∨ Decided s j i t' t) := by
    refine leads.invariant (P := fun s => Orderly s ∧
      (Undecided s i j t t' ∨ Decided s i j t t' ∨ Decided s j i t' t)) ?_ ?_
    · exact ⟨orderly, Or.inl ⟨⟨_, ⟨first, rfl, rfl⟩, nofun⟩, ⟨_, ⟨second, rfl, rfl⟩, nofun⟩,
        atOrigin, current, current'⟩⟩
    · rintro u u' label ⟨orderly, undecided | decided | decided⟩ settled next
      · refine ⟨orderly.next next, ?_⟩
        by_cases own : label.request = some i
        · rcases undecided.own orderly distinct player origin goes next own with still | won
          · exact Or.inl still
          · exact Or.inr (Or.inl won)
        · by_cases own' : label.request = some j
          · have swapped := undecided.symm player origin
            rcases swapped.own orderly distinct.symm player.symm origin.symm goes' next own' with
              still | won
            · exact Or.inl (still.symm player.symm origin.symm)
            · exact Or.inr (Or.inr won)
          · have stays : u'.clubOf t.playerID = u.clubOf t.playerID := by
              rcases settled with mine | mine | stays
              · exact absurd mine own
              · exact absurd mine own'
              · exact stays u' next
            exact Or.inl (undecided.other orderly player origin next own own' stays)
      · exact ⟨orderly.next next,
          Or.inr (Or.inl (decided.next orderly (player ▸ settled) next))⟩
      · refine ⟨orderly.next next,
          Or.inr (Or.inr (decided.next orderly ?_ next))⟩
        rcases settled with mine | mine | stays
        · exact Or.inr (Or.inl mine)
        · exact Or.inl mine
        · exact Or.inr (Or.inr stays)
  rintro ⟨⟨r, found, ended⟩, ⟨q, found', ended'⟩⟩
  rcases race.2 with undecided | decided | decided
  · obtain ⟨r', ⟨present, -⟩, running⟩ := undecided.first
    rw [found, Option.some.injEq] at present
    subst present
    exact running ended
  · obtain ⟨q', ⟨present, -⟩, running, -⟩ := decided.lost
    rw [found', Option.some.injEq] at present
    subst present
    exact running ended'
  · obtain ⟨r', ⟨present, -⟩, running, -⟩ := decided.lost
    rw [found, Option.some.injEq] at present
    subst present
    exact running ended

/-- The squad invariant. -/
theorem squad_follows_transfers (reached : squads.Reach Machine.always s) :
    (∀ playerID row, s.players.committed playerID = some row →
      row.teamID = (s.latestTransfer playerID).bind fun m => m.transfer.toTeam) ∧
    (∀ playerID i j t t' s', i ≠ j →
      s.requests[i]? = some ⟨.recordTransfer t, .begun⟩ →
      s.requests[j]? = some ⟨.recordTransfer t', .begun⟩ →
      t.playerID = playerID → t'.playerID = playerID →
      MovesAlone s i playerID → MovesAlone s j playerID →
      squads.Leads (Settled playerID i j) s s' → ¬ (Committed s' i ∧ Committed s' j)) := by
  refine ⟨fun playerID row found => squad_follows reached found, ?_⟩
  intro playerID i j t t' s' distinct first second player player' moves moves' leads
  subst player
  exact transfers_exclude (orderly_of_reach reached).1 distinct first second player' moves moves'
    leads

end Runs

/-! ## Two clubs sign one player -/

/-- A player as they are created. -/
def striker : PlayerDetails where
  name := "Ana"
  firstName := none
  lastName := none
  dateOfBirth := none
  nationalities := ["AZ"]
  heightCM := none
  preferredFoot := none
  agent := none
  squadNumber := some 9
  position := "ST"
  secondaryPositions := []
  contractStart := some 738000
  contractUntil := none
  duelsWonPct := none
  passCompletionPct := none
  shotsOnTargetPct := none
  aerialDuelsWonPct := none
  strengths := []
  weaknesses := []

/-- A move of that player from their first club. -/
def signing (toTeam : String) : SentTransfer where
  playerID := "p"
  fromTeam := some "a"
  toTeam := some toTeam
  seasonID := none
  transferDate := Dates.ofDay 738400
  transferType := "permanent"
  fee := none
  currency := ""

/-- Three clubs and nothing else. -/
def threeClubs : Store where
  teams := ⟨fun id => if id ∈ ["a", "b", "c"] then some () else none, fun _ => none⟩
  shared := []
  players := .empty
  transfers := .empty
  playerIDs := []
  transferIDs := []
  requests := []

/-- A step of the request `i` that draws the key `id`. -/
def stepOf (i : ℕ) (id : String) : Label := .advance i ⟨id, none, 738100, Dates.midnight 738500⟩

/-- The player is created at the first club, and both other clubs send their move. -/
def bothSend : Store := squads.after Machine.always threeClubs
  [.arrive (.createPlayer (some "a") striker), stepOf 0 "p", stepOf 0 "", stepOf 0 "t0",
    stepOf 0 "", .arrive (.recordTransfer (signing "b")), .arrive (.recordTransfer (signing "c"))]

/-- `RecordTransfer` from its beginning to its commit, as the request `i`. -/
def recordRun (i : ℕ) (id : String) : List Label :=
  [stepOf i "", stepOf i "", stepOf i id, stepOf i "", stepOf i "", stepOf i "", stepOf i ""]

/-- Both check the origin; the first takes the lock and commits; the second then has
the lock. -/
def bothSent : Store := squads.after (Settled "p" 1 2) bothSend
  ([stepOf 1 "", stepOf 2 ""] ++ (recordRun 1 "t1").tail ++ [stepOf 2 ""])

/-- A move that runs alone commits and leaves the player at another club. -/
theorem bothSend_moves {i : ℕ} (id club : String)
    (taken : (squads.run (Only i) bothSend (recordRun i id)).isSome = true)
    (ended : ((squads.after (Only i) bothSend (recordRun i id)).requests[i]?).map Request.stage =
      some (.ended .committed))
    (there : (squads.after (Only i) bothSend (recordRun i id)).clubOf "p" = some (some club))
    (elsewhere : bothSend.clubOf "p" ≠ some (some club)) : MovesAlone bothSend i "p" := by
  obtain ⟨r, found, stage⟩ := Option.map_eq_some_iff.mp ended
  exact ⟨_, Machine.leads_after taken, ⟨r, found, stage⟩, fun same => elsewhere (same ▸ there)⟩

/-- A request that did not commit leaves the player where the transfers say. -/
theorem squad_follows_transfers_signed :
    ¬ Committed bothSent 2 ∧ ∃ row, bothSend.players.committed "p" = some row ∧
      row.teamID = (bothSend.latestTransfer "p").bind fun m => m.transfer.toTeam := by
  have reached : squads.Reach Machine.always bothSend :=
    Machine.reach_after ⟨rfl, rfl, rfl, rfl, rfl, rfl, rfl⟩ (by decide +kernel)
  obtain ⟨follows, exclude⟩ := squad_follows_transfers reached
  constructor
  · have first : MovesAlone bothSend 1 "p" :=
      bothSend_moves "t1" "b" (by decide +kernel) (by decide +kernel) (by decide +kernel)
        (by decide +kernel)
    have second : MovesAlone bothSend 2 "p" :=
      bothSend_moves "t2" "c" (by decide +kernel) (by decide +kernel) (by decide +kernel)
        (by decide +kernel)
    have leads : squads.Leads (Settled "p" 1 2) bothSend bothSent :=
      Machine.leads_after (by decide +kernel)
    have wins : Committed bothSent 1 :=
      ⟨⟨.recordTransfer (signing "b"), .ended .committed⟩, by decide +kernel, rfl⟩
    intro also
    exact exclude "p" 1 2 (signing "b") (signing "c") bothSent (by decide) (by decide +kernel)
      (by decide +kernel) rfl rfl first second leads ⟨wins, also⟩
  · exact ⟨⟨some "a", striker⟩, by decide +kernel, follows "p" _ (by decide +kernel)⟩

end ScoutPulse.Squad
