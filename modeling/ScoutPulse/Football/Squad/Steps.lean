import ScoutPulse.Football.Squad.Store

/-!
# What a step of a request does

Everything a request can do in one step, with the guards under which it does it.
-/

namespace ScoutPulse.Squad

open ReadCommitted

/-- No other transaction has a row's lock. -/
def Free {κ ρ : Type} (t : Table κ ρ ℕ) (i : ℕ) (k : κ) : Prop :=
  ∀ owner v, t.held k = some (owner, v) → owner = i

/-- The stages at whose end a request commits. -/
def Stage.ready : Stage → Bool
  | .placed _ _ => true
  | .opened _ => true
  | .written => true
  | .clearing .destinations [] => true
  | _ => false

/-- One step of a request, by what it does. -/
inductive Advance (s : Store) (i : ℕ) (r : Request) : Store → Prop
  | fails (reason : AppErr) (running : ∀ outcome, r.stage ≠ .ended outcome) :
      Advance s i r (s.fail i r reason)
  | admits (asked : SentTransfer) (t : Transfer) (kind : r.kind = .recordTransfer asked)
      (begun : r.stage = .begun)
      (fits : Fits asked t) : Advance s i r (s.move i r (.admitted t))
  | prepares (stage : Stage) (kind : ∀ t, r.kind ≠ .recordTransfer t) (begun : r.stage = .begun)
      (plain : (∃ t, stage = .correcting t) ∨ stage = .editing) :
      Advance s i r (s.move i r stage)
  | creates (teamID : Option String) (details : PlayerDetails) (d : Draw)
      (kind : r.kind = .createPlayer teamID details) (begun : r.stage = .begun)
      (fresh : d.id ∉ s.playerIDs) :
      Advance s i r ((s.insertPlayer i d.id ⟨teamID, details⟩).move i r
        (.created d.id d.today teamID.toList))
  | deletes (teamID : String) (kind : r.kind = .deleteTeam teamID) (begun : r.stage = .begun)
      (free : Free s.teams i teamID) (alone : ∀ j, (teamID, j) ∈ s.shared → j = i) :
      Advance s i r ({ s with teams := s.teams.write i teamID none }.move i r
        (.clearing .players (s.targets i teamID .players)))
  | locks (t : Transfer) (row : Player) (admitted : r.stage = .admitted t)
      (free : Free s.players i t.playerID) (sees : s.players.visible i t.playerID = some row)
      (origin : row.teamID = t.fromTeam) :
      Advance s i r ({ s with players := s.players.write i t.playerID (some row) }.move i r
        (.locked t))
  | files (t : Transfer) (d : Draw) (locked : r.stage = .locked t) (fresh : d.id ∉ s.transferIDs) :
      Advance s i r ((s.insertTransfer i d.id t).move i r (.filed t d.id t.clubs))
  | refers (club : String) (rest : Stage) (free : Free s.teams i club)
      (next : (∃ t id clubs, r.stage = .filed t id (club :: clubs) ∧ rest = .filed t id clubs) ∨
        ∃ id createdAt clubs, r.stage = .created id createdAt (club :: clubs) ∧
          rest = .created id createdAt clubs) :
      Advance s i r ({ s with shared := (club, i) :: s.shared }.move i r rest)
  | places (t : Transfer) (id : String) (filed : r.stage = .filed t id []) :
      Advance s i r ((placePlayer s i t id).move i r (.placed t id))
  | opens (id teamID : String) (details : PlayerDetails) (createdAt : Date) (d : Draw)
      (kind : r.kind = .createPlayer (some teamID) details)
      (created : r.stage = .created id createdAt []) (fresh : d.id ∉ s.transferIDs) :
      Advance s i r ((s.insertTransfer i d.id
        (openingTransfer id teamID details createdAt)).move i r (.opened id))
  | skips (id : String) (createdAt : Date)
      (kind : ∀ teamID details, r.kind ≠ .createPlayer (some teamID) details)
      (created : r.stage = .created id createdAt []) : Advance s i r (s.move i r (.opened id))
  | corrects (id : String) (t : Transfer) (row : Move) (stage : r.stage = .correcting t)
      (free : Free s.transfers i id) (sees : s.transfers.visible i id = some row) :
      Advance s i r ({ s with transfers := s.transfers.write i id (some (row.correct t)) }.move i r
        .written)
  | edits (id : String) (details : PlayerDetails) (row : Player) (stage : r.stage = .editing)
      (free : Free s.players i id) (sees : s.players.visible i id = some row) :
      Advance s i r ({ s with
        players := s.players.write i id (some { row with details := details }) }.move i r .written)
  | releases (teamID k : String) (targets : List String) (row : Player)
      (kind : r.kind = .deleteTeam teamID) (clearing : r.stage = .clearing .players targets)
      (free : Free s.players i k) (sees : s.players.visible i k = some row)
      (picked : row.teamID = some teamID) :
      Advance s i r ({ s with players := s.players.write i k (some row.release) }.move i r
        (.clearing .players (targets.erase k)))
  | clearsOrigin (teamID k : String) (targets : List String) (row : Move)
      (kind : r.kind = .deleteTeam teamID) (clearing : r.stage = .clearing .origins targets)
      (free : Free s.transfers i k) (sees : s.transfers.visible i k = some row) :
      Advance s i r ({ s with transfers := s.transfers.write i k (some row.dropOrigin) }.move i r
        (.clearing .origins (targets.erase k)))
  | clearsDestination (teamID k : String) (targets : List String) (row : Move)
      (kind : r.kind = .deleteTeam teamID) (clearing : r.stage = .clearing .destinations targets)
      (free : Free s.transfers i k) (sees : s.transfers.visible i k = some row)
      (picked : row.transfer.toTeam = some teamID) :
      Advance s i r ({ s with
        transfers := s.transfers.write i k (some row.dropDestination) }.move i r
          (.clearing .destinations (targets.erase k)))
  | passes (teamID k : String) (cascade : Cascade) (targets : List String)
      (kind : r.kind = .deleteTeam teamID) (clearing : r.stage = .clearing cascade targets)
      (player : cascade = .players → ∀ row, s.players.visible i k = some row →
        row.teamID ≠ some teamID)
      (destination : cascade = .destinations → ∀ row, s.transfers.visible i k = some row →
        row.transfer.toTeam ≠ some teamID) :
      Advance s i r (s.move i r (.clearing cascade (targets.erase k)))
  | turns (teamID : String) (kind : r.kind = .deleteTeam teamID)
      (clearing : r.stage = .clearing .players []) :
      Advance s i r (s.move i r (.clearing .origins (s.targets i teamID .origins)))
  | turnsAgain (teamID : String) (kind : r.kind = .deleteTeam teamID)
      (clearing : r.stage = .clearing .origins []) :
      Advance s i r (s.move i r (.clearing .destinations (s.targets i teamID .destinations)))
  | finishes (ready : r.stage.ready = true) : Advance s i r (s.finish i r)

section Inversion

variable {s s' : Store} {i : ℕ} {r : Request} {d : Draw}

theorem free_of_not_blocked {κ ρ : Type} {t : Table κ ρ ℕ} {k : κ}
    (unblocked : ¬ t.blocked i k = true) : Free t i k :=
  fun _ _ held => Table.free_of_not_blocked unblocked held

/-- What a request begins with is one of the steps. -/
theorem beginRequest_advance (begun : r.stage = .begun)
    (next : beginRequest s i r d r.kind = some s') : Advance s i r s' := by
  have running : ∀ outcome, r.stage ≠ .ended outcome := by
    intro outcome ended
    rw [begun] at ended
    cases ended
  cases kind : r.kind with
  | createPlayer teamID details =>
      simp only [beginRequest, kind] at next
      split_ifs at next with used
      obtain rfl := Option.some.inj next
      exact .creates teamID details d kind begun used
  | recordTransfer asked =>
      simp only [beginRequest, kind] at next
      split at next
      next reason _ =>
        obtain rfl := Option.some.inj next
        exact .fails reason running
      next t admitted =>
        obtain rfl := Option.some.inj next
        exact .admits asked t kind begun (admitTransfer_fits admitted)
  | updateTransfer id t =>
      simp only [beginRequest, kind] at next
      split at next
      next reason _ =>
        obtain rfl := Option.some.inj next
        exact .fails reason running
      next t' _ =>
        obtain rfl := Option.some.inj next
        exact .prepares (.correcting t') (by simp [kind]) begun (Or.inl ⟨t', rfl⟩)
  | updatePlayer id details =>
      simp only [beginRequest, kind] at next
      split at next
      · obtain rfl := Option.some.inj next
        exact .fails _ running
      · obtain rfl := Option.some.inj next
        exact .prepares .editing (by simp [kind]) begun (Or.inr rfl)
  | deleteTeam id =>
      simp only [beginRequest, kind] at next
      split_ifs at next with blocked referred
      split at next
      · obtain rfl := Option.some.inj next
        exact .fails _ running
      · obtain rfl := Option.some.inj next
        refine .deletes id kind begun (free_of_not_blocked blocked) fun j member => ?_
        by_contra other
        exact referred (List.any_eq_true.mpr ⟨(id, j), member, by simp [other]⟩)

/-- Locking the player is a step. -/
theorem lockPlayer_advance {t : Transfer} (admitted : r.stage = .admitted t)
    (next : lockPlayer s i r t = some s') : Advance s i r s' := by
  have running : ∀ outcome, r.stage ≠ .ended outcome := by
    intro outcome ended
    rw [admitted] at ended
    cases ended
  rw [lockPlayer] at next
  split_ifs at next with blocked
  split at next
  next => 
    obtain rfl := Option.some.inj next
    exact .fails _ running
  next row sees =>
    split_ifs at next with same
    · obtain rfl := Option.some.inj next
      exact .locks t row admitted (free_of_not_blocked blocked) sees (sameTeam_iff.mp same)
    · obtain rfl := Option.some.inj next
      exact .fails _ running

/-- Referring to a club is a step. -/
theorem refer_advance {club : String} {rest : Stage}
    (stage : (∃ t id clubs, r.stage = .filed t id (club :: clubs) ∧ rest = .filed t id clubs) ∨
      ∃ id createdAt clubs, r.stage = .created id createdAt (club :: clubs) ∧
        rest = .created id createdAt clubs)
    (next : s.refer i r club rest = some s') : Advance s i r s' := by
  have running : ∀ outcome, r.stage ≠ .ended outcome := by
    intro outcome ended
    rcases stage with ⟨t, id, clubs, now, -⟩ | ⟨id, createdAt, clubs, now, -⟩ <;>
    · rw [now] at ended
      cases ended
  rw [Store.refer] at next
  split_ifs at next with blocked
  split at next
  · obtain rfl := Option.some.inj next
    exact .fails _ running
  · obtain rfl := Option.some.inj next
    exact .refers club rest (free_of_not_blocked blocked) stage

/-- Rewriting a transfer is a step. -/
theorem write_advance {t : Transfer} {id : String} (stage : r.stage = .correcting t)
    (next : writeTransfer s i r id t = some s') : Advance s i r s' := by
  rw [writeTransfer] at next
  split_ifs at next with blocked
  split at next
  next =>
    obtain rfl := Option.some.inj next
    exact .fails _ (by simp [stage])
  next row sees =>
    obtain rfl := Option.some.inj next
    exact .corrects id t row stage (free_of_not_blocked blocked) sees

/-- Rewriting a player is a step. -/
theorem edit_advance {details : PlayerDetails} {id : String} (stage : r.stage = .editing)
    (next : writePlayer s i r id details = some s') : Advance s i r s' := by
  rw [writePlayer] at next
  split_ifs at next with blocked
  split at next
  next =>
    obtain rfl := Option.some.inj next
    exact .fails _ (by simp [stage])
  next row sees =>
    obtain rfl := Option.some.inj next
    exact .edits id details row stage (free_of_not_blocked blocked) sees

/-- A cascade comes to a row that it picks, or to one that it does not. -/
theorem visit_advance {teamID : String} {cascade : Cascade} {targets : List String}
    {visited : Store} {k : String} (kind : r.kind = .deleteTeam teamID)
    (clearing : r.stage = .clearing cascade targets)
    (next : s.visit i teamID k cascade = some visited) :
    Advance s i r (visited.move i r (.clearing cascade (targets.erase k))) := by
  cases cascade with
  | players =>
      obtain ⟨⟨table, hit⟩, visits, rfl⟩ := Option.map_eq_some_iff.mp next
      obtain ⟨free, ⟨row, sees, picked, rfl, -⟩ | ⟨passed, rfl, -⟩⟩ :=
        Statement.visit_cases visits
      · exact .releases teamID k targets row kind clearing free sees (of_decide_eq_true picked)
      · exact .passes teamID k .players targets kind clearing
          (fun _ row sees => of_decide_eq_false (passed row sees)) nofun
  | origins =>
      obtain ⟨⟨table, hit⟩, visits, rfl⟩ := Option.map_eq_some_iff.mp next
      obtain ⟨free, ⟨row, sees, picked, rfl, -⟩ | ⟨passed, rfl, -⟩⟩ :=
        Statement.visit_cases visits
      · exact .clearsOrigin teamID k targets row kind clearing free sees
      · exact .passes teamID k .origins targets kind clearing nofun nofun
  | destinations =>
      obtain ⟨⟨table, hit⟩, visits, rfl⟩ := Option.map_eq_some_iff.mp next
      obtain ⟨free, ⟨row, sees, picked, rfl, -⟩ | ⟨passed, rfl, -⟩⟩ :=
        Statement.visit_cases visits
      · exact .clearsDestination teamID k targets row kind clearing free sees
          (of_decide_eq_true picked)
      · exact .passes teamID k .destinations targets kind clearing nofun
          fun _ row sees => of_decide_eq_false (passed row sees)

/-- What a deletion clears is cleared step by step. -/
theorem clearing_advance {cascade : Cascade} {targets : List String}
    (clearing : r.stage = .clearing cascade targets)
    (advanced : advanceRequest s i r d = some s') : Advance s i r s' := by
  obtain ⟨kind, stage⟩ := r
  cases clearing
  cases kind with
  | deleteTeam teamID =>
      cases targets with
      | nil =>
          simp only [advanceRequest, Option.some.injEq] at advanced
          subst advanced
          cases cascade with
          | players => exact .turns teamID rfl rfl
          | origins => exact .turnsAgain teamID rfl rfl
          | destinations => exact .finishes rfl
      | cons target targets =>
          simp only [advanceRequest] at advanced
          split_ifs at advanced with member
          obtain ⟨visited, visits, rfl⟩ := Option.map_eq_some_iff.mp advanced
          exact visit_advance rfl rfl visits
  | createPlayer teamID details => simp only [advanceRequest, reduceCtorEq] at advanced
  | recordTransfer t => simp only [advanceRequest, reduceCtorEq] at advanced
  | updateTransfer id t => simp only [advanceRequest, reduceCtorEq] at advanced
  | updatePlayer id details => simp only [advanceRequest, reduceCtorEq] at advanced

/-- A player who is created goes on with their opening. -/
theorem created_advance {id : String} {createdAt : Date}
    (created : r.stage = .created id createdAt []) (advanced : advanceRequest s i r d = some s') :
    Advance s i r s' := by
  obtain ⟨kind, stage⟩ := r
  cases created
  cases kind with
  | createPlayer teamID details =>
      cases teamID with
      | none =>
          simp only [advanceRequest, Option.some.injEq] at advanced
          subst advanced
          exact .skips id createdAt (by simp) rfl
      | some teamID =>
          simp only [advanceRequest] at advanced
          split_ifs at advanced with used
          obtain rfl := Option.some.inj advanced
          exact .opens id teamID details createdAt d rfl rfl used
  | recordTransfer t =>
      simp only [advanceRequest, Option.some.injEq] at advanced
      subst advanced
      exact .skips id createdAt (by simp) rfl
  | updateTransfer id' t =>
      simp only [advanceRequest, Option.some.injEq] at advanced
      subst advanced
      exact .skips id createdAt (by simp) rfl
  | updatePlayer id' details =>
      simp only [advanceRequest, Option.some.injEq] at advanced
      subst advanced
      exact .skips id createdAt (by simp) rfl
  | deleteTeam teamID =>
      simp only [advanceRequest, Option.some.injEq] at advanced
      subst advanced
      exact .skips id createdAt (by simp) rfl

/-- Whatever a request does next is one of the steps, stage by stage. -/
theorem advanceRequest_advance (advanced : advanceRequest s i r d = some s') :
    Advance s i r s' := by
  cases stage : r.stage with
  | begun =>
      simp only [advanceRequest, stage] at advanced
      exact beginRequest_advance stage advanced
  | admitted t =>
      simp only [advanceRequest, stage] at advanced
      exact lockPlayer_advance stage advanced
  | locked t =>
      simp only [advanceRequest, stage] at advanced
      split_ifs at advanced with used
      obtain rfl := Option.some.inj advanced
      exact .files t d stage used
  | filed t id clubs =>
      cases clubs with
      | nil =>
          simp only [advanceRequest, stage, Option.some.injEq] at advanced
          subst advanced
          exact .places t id stage
      | cons club clubs =>
          simp only [advanceRequest, stage] at advanced
          exact refer_advance (Or.inl ⟨t, id, clubs, stage, rfl⟩) advanced
  | placed t id =>
      simp only [advanceRequest, stage, Option.some.injEq] at advanced
      subst advanced
      exact .finishes (by rw [stage]; rfl)
  | created id createdAt clubs =>
      cases clubs with
      | nil => exact created_advance stage advanced
      | cons club clubs =>
          simp only [advanceRequest, stage] at advanced
          exact refer_advance (Or.inr ⟨id, createdAt, clubs, stage, rfl⟩) advanced
  | opened id =>
      simp only [advanceRequest, stage, Option.some.injEq] at advanced
      subst advanced
      exact .finishes (by rw [stage]; rfl)
  | correcting t =>
      cases kind : r.kind <;> simp only [advanceRequest, stage, kind, reduceCtorEq] at advanced
      exact write_advance stage advanced
  | editing =>
      cases kind : r.kind <;> simp only [advanceRequest, stage, kind, reduceCtorEq] at advanced
      exact edit_advance stage advanced
  | written =>
      simp only [advanceRequest, stage, Option.some.injEq] at advanced
      subst advanced
      exact .finishes (by rw [stage]; rfl)
  | clearing cascade targets => exact clearing_advance stage advanced
  | ended outcome => simp only [advanceRequest, stage, reduceCtorEq] at advanced

/-- Everything a step of the machine can do. -/
theorem squads_next {label : Label} (next : squads.next s label = some s') :
    (∃ kind, label = .arrive kind ∧ s' = { s with requests := s.requests ++ [⟨kind, .begun⟩] }) ∨
    (∃ i r, ((∃ d, label = .advance i d) ∨ label = .abort i) ∧ s.requests[i]? = some r ∧
      Advance s i r s') := by
  cases label with
  | arrive kind => exact Or.inl ⟨kind, rfl, (Option.some.inj next).symm⟩
  | advance i d =>
      obtain ⟨r, found, advanced⟩ := Option.bind_eq_some_iff.mp next
      exact Or.inr ⟨i, r, Or.inl ⟨d, rfl⟩, found, advanceRequest_advance advanced⟩
  | abort i =>
      obtain ⟨r, found, aborted⟩ := Option.bind_eq_some_iff.mp next
      refine Or.inr ⟨i, r, Or.inr rfl, found, ?_⟩
      split at aborted
      next => cases aborted
      next running =>
        obtain rfl := Option.some.inj aborted
        exact .fails _ fun outcome ended => running outcome ended

end Inversion

end ScoutPulse.Squad
