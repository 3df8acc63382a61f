import ScoutPulse.Identity.SessionTable
import Mathlib.Data.Finset.Card

/-!
# Rotation is linear

A refresh token is exchanged at most once, whatever else happens at the same time:
the request that revokes it has its lock until it commits, and whoever comes later
finds it revoked, takes its own new row back and gives up.
-/

namespace ScoutPulse.Identity

open ReadCommitted

/-- The row an unfinished `Rotate` has inserted. -/
def Stage.next : Stage → Option String
  | .inserted _ next => some next
  | .exchanging _ next => some next
  | .executing (.exchange _ next _) _ _ => some next
  | _ => none

/-- A request has locked no row but these. -/
def Locks (s : Sessions) (i : ℕ) (keys : List String) : Prop :=
  ∀ k v, s.tokens.held k = some (i, v) → k ∈ keys

/-- The row a refresh is about was inserted with the hash of the token it presents. -/
def Presents (s : Sessions) (kind : Kind) (old userID : String) : Prop :=
  ∃ presented, kind = .refresh presented ∧
    ∃ m ∈ s.minted, m.id = old ∧ m.hash = HashToken presented ∧ m.userID = userID

/-- `Rotate` has inserted the next row, for the old one's user, and not committed it. -/
def Inserted (s : Sessions) (i : ℕ) (kind : Kind) (old next : String) : Prop :=
  s.tokens.committed next = none ∧ old ≠ next ∧
    ∃ new, s.tokens.held next = some (i, some new) ∧ Presents s kind old new.token.userID

/-- `Rotate` has the old row's lock and has revoked it, and nobody had before. -/
def Revoked (s : Sessions) (i : ℕ) (old : String) : Prop :=
  ∃ row row', s.tokens.committed old = some row ∧ row.token.revokedAt = none ∧
    s.tokens.held old = some (i, some row') ∧ row'.token.revokedAt ≠ none

/-- The old row is committed as revoked, or was deleted since. -/
def Spent (s : Sessions) (old : String) : Prop :=
  (∃ row, s.tokens.committed old = some row ∧ row.token.revokedAt ≠ none) ∨ Gone s old

/-- What a request has locked and knows at each stage. -/
def StageHolds (s : Sessions) (i : ℕ) (r : Request) : Prop :=
  match r.stage with
  | .loaded old stored => Locks s i [] ∧ Presents s r.kind old stored.token.userID
  | .permitted old stored => Locks s i [] ∧ Presents s r.kind old stored.token.userID
  | .inserted old next => Locks s i [next] ∧ Inserted s i r.kind old next
  | .executing (.exchange old next _) targets affected =>
      Inserted s i r.kind old next ∧ (∀ k ∈ targets, k = old) ∧
        ((affected = [] ∧ Locks s i [next]) ∨ (Revoked s i old ∧ Locks s i [old, next]))
  | .executing _ _ _ => ∀ k v, s.tokens.held k = some (i, v) → s.tokens.committed k ≠ none
  | .exchanging old next =>
      Inserted s i r.kind old next ∧ Revoked s i old ∧ Locks s i [old, next]
  | .signingIn _ => Locks s i [] ∧ ∀ presented, r.kind ≠ .refresh presented
  | .ended (.exchanged old _) =>
      Locks s i [] ∧ (∃ userID, Presents s r.kind old userID) ∧ Spent s old
  | _ => Locks s i []

/-! ## Other requests' steps -/

/-- What another request's step leaves as it was. -/
structure Undisturbed (s s' : Sessions) (i : ℕ) : Prop where
  locks : ∀ {k v}, s'.tokens.held k = some (i, v) ↔ s.tokens.held k = some (i, v)
  rows : ∀ {k v}, s.tokens.held k = some (i, v) → s'.tokens.committed k = s.tokens.committed k
  evolves : Evolves s s'

theorem Effect.undisturbed {s s' : Sessions} {i j : ℕ} (effect : Effect s i s'.tokens s'.minted)
    (versions : Versions s.tokens s.minted) (other : j ≠ i) : Undisturbed s s' j :=
  ⟨effect.locks versions other, effect.locked_rows versions other, effect.evolves versions⟩

section Frame

variable {s s' : Sessions} {i : ℕ} {kind : Kind} {old next userID : String}

theorem Presents.evolves (presents : Presents s kind old userID) (evolves : Evolves s s') :
    Presents s' kind old userID := by
  obtain ⟨presented, isRefresh, m, member, same⟩ := presents
  exact ⟨presented, isRefresh, m, evolves.minted m member, same⟩

/-- A token that is spent stays spent. -/
theorem Spent.evolves (spent : Spent s old) (evolves : Evolves s s') : Spent s' old := by
  rcases spent with ⟨row, found, revoked⟩ | gone
  · rcases evolves.row old row found with ⟨row', found', later⟩ | gone
    · obtain ⟨t, at_⟩ := Option.ne_none_iff_exists'.mp revoked
      refine Or.inl ⟨row', found', ?_⟩
      rw [later.revoked t at_]
      exact Option.some_ne_none t
    · exact Or.inr gone
  · exact Or.inr (evolves.gone old gone)

theorem Locks.undisturbed {keys : List String} (locks : Locks s i keys)
    (undisturbed : Undisturbed s s' i) : Locks s' i keys :=
  fun k v held => locks k v (undisturbed.locks.mp held)

theorem Inserted.undisturbed (inserted : Inserted s i kind old next)
    (undisturbed : Undisturbed s s' i) : Inserted s' i kind old next := by
  obtain ⟨absent, distinct, new, held, presents⟩ := inserted
  exact ⟨(undisturbed.rows held).trans absent, distinct, new, undisturbed.locks.mpr held,
    presents.evolves undisturbed.evolves⟩

theorem Revoked.undisturbed (revoked : Revoked s i old) (undisturbed : Undisturbed s s' i) :
    Revoked s' i old := by
  obtain ⟨row, row', found, live, held, dead⟩ := revoked
  exact ⟨row, row', (undisturbed.rows held).trans found, live, undisturbed.locks.mpr held, dead⟩

/-- What a request knows outlasts the steps of others. -/
theorem StageHolds.undisturbed {r : Request} (holds : StageHolds s i r)
    (undisturbed : Undisturbed s s' i) : StageHolds s' i r := by
  obtain ⟨kind, stage, generation⟩ := r
  have evolves := undisturbed.evolves
  cases stage with
  | loaded old stored => exact ⟨holds.1.undisturbed undisturbed, holds.2.evolves evolves⟩
  | permitted old stored => exact ⟨holds.1.undisturbed undisturbed, holds.2.evolves evolves⟩
  | inserted old next => exact ⟨holds.1.undisturbed undisturbed, holds.2.undisturbed undisturbed⟩
  | executing c targets affected =>
      have plain : (∀ k v, s.tokens.held k = some (i, v) → s.tokens.committed k ≠ none) →
          ∀ k v, s'.tokens.held k = some (i, v) → s'.tokens.committed k ≠ none := by
        intro before k v held
        have own := undisturbed.locks.mp held
        rw [undisturbed.rows own]
        exact before k v own
      cases c with
      | exchange old next now =>
          obtain ⟨inserted, only, state⟩ := holds
          refine ⟨inserted.undisturbed undisturbed, only, ?_⟩
          rcases state with ⟨none_, locks⟩ | ⟨revoked, locks⟩
          · exact Or.inl ⟨none_, locks.undisturbed undisturbed⟩
          · exact Or.inr ⟨revoked.undisturbed undisturbed, locks.undisturbed undisturbed⟩
      | revoke hash now => exact plain holds
      | revokeAll userID now => exact plain holds
      | deleteExpired before => exact plain holds
      | unlink deleted => exact plain holds
  | exchanging old next =>
      exact ⟨holds.1.undisturbed undisturbed, holds.2.1.undisturbed undisturbed,
        holds.2.2.undisturbed undisturbed⟩
  | ended outcome =>
      cases outcome with
      | exchanged old next =>
          obtain ⟨locks, ⟨userID, presents⟩, spent⟩ := holds
          exact ⟨locks.undisturbed undisturbed, ⟨userID, presents.evolves evolves⟩,
            spent.evolves evolves⟩
      | done => exact Locks.undisturbed holds undisturbed
      | refused => exact Locks.undisturbed holds undisturbed
  | begun => exact Locks.undisturbed holds undisturbed
  | signingIn userID => exact ⟨holds.1.undisturbed undisturbed, holds.2⟩
  | checked userID => exact Locks.undisturbed holds undisturbed
  | changed userID => exact Locks.undisturbed holds undisturbed

end Frame

/-! ## A request's own step -/

section Own

variable {s s' : Sessions} {i : ℕ} {r : Request}

/-- A token that is found is there under its hash. -/
theorem getByToken_spec {presented old : String} {stored : Session}
    (found : s.getByToken presented = some (old, stored)) :
    s.tokens.committed old = some stored ∧ stored.token.tokenHash = HashToken presented := by
  have hash := List.find?_some found
  obtain ⟨id, -, row⟩ := List.mem_filterMap.mp (List.mem_of_find?_eq_some found)
  obtain ⟨row', committed, same⟩ := Option.map_eq_some_iff.mp row
  cases same
  exact ⟨committed, of_decide_eq_true hash⟩

/-- An idle request holds no lock. -/
theorem StageHolds.locks_nil (holds : StageHolds s i r) (idle : r.stage.idle = true) :
    Locks s i [] := by
  obtain ⟨kind, stage, generation⟩ := r
  cases stage with
  | loaded old stored => exact holds.1
  | permitted old stored => exact holds.1
  | inserted old next => cases idle
  | executing c targets affected => cases idle
  | exchanging old next => cases idle
  | ended outcome => cases idle
  | begun => exact holds
  | signingIn userID => exact holds.1
  | checked userID => exact holds
  | changed userID => exact holds

/-- A commit gives up the locks. -/
theorem locks_commit {t : Table String Session ℕ} (tokens : s'.tokens = t.commit i) :
    Locks s' i [] := by
  intro k v held
  rw [tokens, Table.commit_held] at held
  exact absurd rfl held.2

theorem locks_rollback {t : Table String Session ℕ} (tokens : s'.tokens = t.rollback i) :
    Locks s' i [] := by
  intro k v held
  rw [tokens, Table.rollback_held] at held
  exact absurd rfl held.2

/-- The statement of `Rotate` comes to the old row: it is revoked under the lock. -/
theorem visit_old (s' : Sessions) {old next k : String} {now : Time} {row : Session} {kind : Kind}
    (inserted : Inserted s i kind old next) (locks : Locks s i [next]) (isOld : k = old)
    (sees : s.tokens.visible i k = some row)
    (picked : (Command.exchange old next now).picks k row = true)
    (tokens : s'.tokens = s.tokens.write i k ((Command.exchange old next now).change row))
    (minted : s'.minted = s.minted) :
    Inserted s' i kind old next ∧ Revoked s' i old ∧ Locks s' i [old, next] := by
  subst isOld
  obtain ⟨absent, distinct, new, held, presented, isRefresh, m, member, same⟩ := inserted
  have committed : s.tokens.committed k = some row := by
    rcases Table.visible_eq_some sees with own | ⟨found, -⟩
    · exact absurd (List.mem_singleton.mp (locks k _ own)) distinct
    · exact found
  simp only [Command.picks, Bool.and_eq_true, decide_eq_true_eq] at picked
  have rows : s'.tokens.committed = s.tokens.committed := by rw [tokens]; rfl
  refine ⟨⟨by rw [rows]; exact absent, distinct, new, ?_, presented, isRefresh, m,
    minted ▸ member, same⟩, ⟨row, row.exchange next now, by rw [rows]; exact committed, picked.2,
    ?_, ?_⟩, ?_⟩
  · rw [tokens, Table.write_held]
    exact Or.inr ⟨Ne.symm distinct, held⟩
  · rw [tokens, Table.write_held]
    exact Or.inl ⟨rfl, rfl, rfl⟩
  · exact Option.some_ne_none now
  · intro j v own
    rw [tokens, Table.write_held] at own
    obtain ⟨rfl, -, -⟩ | ⟨-, before⟩ := own
    · exact List.mem_cons_self
    · exact List.mem_cons_of_mem _ (locks j v before)

/-- A statement other than that of `Rotate` only locks rows that are stored. -/
theorem visit_stored {c : Command} {k : String} {row : Session}
    (stored : ∀ k v, s.tokens.held k = some (i, v) → s.tokens.committed k ≠ none)
    (sees : s.tokens.visible i k = some row)
    (tokens : s'.tokens = s.tokens.write i k (c.change row)) :
    ∀ k v, s'.tokens.held k = some (i, v) → s'.tokens.committed k ≠ none := by
  intro j v held
  rw [tokens] at held ⊢
  obtain ⟨rfl, -, -⟩ | ⟨-, before⟩ := Table.write_held.mp held
  · rcases Table.visible_eq_some sees with own | ⟨found, -⟩
    · exact stored j _ own
    · change s.tokens.committed j ≠ none
      rw [found]
      exact Option.some_ne_none row
  · exact stored j v before

/-- A command that is no exchange writes rows that are there. -/
theorem StageHolds.executing {c : Command} {targets affected : List String}
    (other : c.rotates = false) (kind : Kind) (generation : ℕ)
    (stored : ∀ k v, s.tokens.held k = some (i, v) → s.tokens.committed k ≠ none) :
    StageHolds s i ⟨kind, .executing c targets affected, generation⟩ := by
  cases c with
  | exchange old next now => cases other
  | revoke hash now => exact stored
  | revokeAll userID now => exact stored
  | deleteExpired before => exact stored
  | unlink deleted => exact stored

/-- Such a command writes rows that are there as long as it runs. -/
theorem StageHolds.stored {c : Command} {targets affected : List String} (holds : StageHolds s i r)
    (executing : r.stage = .executing c targets affected) (other : c.rotates = false) :
    ∀ k v, s.tokens.held k = some (i, v) → s.tokens.committed k ≠ none := by
  rw [StageHolds, executing] at holds
  cases c with
  | exchange old next now => cases other
  | revoke hash now => exact holds
  | revokeAll userID now => exact holds
  | deleteExpired before => exact holds
  | unlink deleted => exact holds

/-- A request that has ended without an exchange knows nothing but that it holds no lock. -/
theorem StageHolds.of_ended {outcome : Outcome} (kind : Kind) (generation : ℕ)
    (ends : ∀ old next, outcome ≠ .exchanged old next) (locks : Locks s i []) :
    StageHolds s i ⟨kind, .ended outcome, generation⟩ := by
  cases outcome with
  | exchanged old next => exact absurd rfl (ends old next)
  | done => exact locks
  | refused => exact locks

/-- A request keeps to what its stage says. -/
theorem StageHolds.advance (holds : StageHolds s i r) (versions : Versions s.tokens s.minted)
    (advance : Advance s i r s') :
    ∃ r', s'.requests = s.requests.set i r' ∧ r'.kind = r.kind ∧ StageHolds s' i r' := by
  cases advance with
  | refuses idle => exact ⟨_, rfl, rfl, holds.locks_nil idle⟩
  | loads presented old stored kind begun found live =>
      obtain ⟨committed, hash⟩ := getByToken_spec found
      obtain ⟨⟨m, member, id, mintHash, userID, -⟩, -⟩ := versions.committed old stored committed
      refine ⟨_, rfl, rfl, holds.locks_nil (by rw [begun]; rfl), ?_⟩
      exact ⟨presented, kind, m, member, id, mintHash.trans hash, userID⟩
  | permits old stored loaded =>
      rw [StageHolds, loaded] at holds
      exact ⟨_, rfl, rfl, holds⟩
  | signs userID generation begun kind known =>
      refine ⟨_, rfl, rfl, holds.locks_nil (by rw [begun]; rfl), ?_⟩
      intro presented isRefresh
      change r.kind = .refresh presented at isRefresh
      rw [isRefresh] at kind
      rcases kind with ⟨identifier, password, isLogin⟩ | isProvider
      · cases isLogin
      · cases isProvider
  | checks userID current new kind begun =>
      exact ⟨_, rfl, rfl, holds.locks_nil (by rw [begun]; rfl)⟩
  | changes userID hashed user checked found =>
      exact ⟨_, rfl, rfl, holds.locks_nil (by rw [checked]; rfl)⟩
  | starts c idle other sweep =>
      refine ⟨_, rfl, rfl, StageHolds.executing other _ _ ?_⟩
      intro k v held
      exact absurd (holds.locks_nil idle k v held) List.not_mem_nil
  | exchanges old next now inserted =>
      rw [StageHolds, inserted] at holds
      refine ⟨_, rfl, rfl, holds.2, ?_, Or.inl ⟨rfl, holds.1⟩⟩
      intro k member
      obtain ⟨-, picked⟩ := List.mem_filter.mp member
      obtain ⟨row, -, picks⟩ := (Option.any_eq_true _ _).mp picked
      simp only [Command.statement, Command.picks, Bool.and_eq_true, decide_eq_true_eq] at picks
      exact picks.1
  | unlinks before affected deleted =>
      exact ⟨_, rfl, rfl, StageHolds.executing rfl _ _ (holds.stored deleted rfl)⟩
  | inserts old stored d permitted fresh =>
      rw [StageHolds, permitted] at holds
      obtain ⟨locks, presented, isRefresh, m, member, id, same⟩ := holds
      obtain ⟨unused, -⟩ := fresh_spec fresh
      refine ⟨_, rfl, rfl, ?_, (versions.absent unused).1, ?_,
        .new stored.token.userID (HashToken d.token) (d.now + refreshTokenTTL) stored.generation,
        ?_, presented, isRefresh, m, List.mem_cons_of_mem _ member, id, ?_⟩
      · intro k v held
        obtain ⟨rfl, -, -⟩ | ⟨-, before⟩ := Table.write_held.mp held
        · exact List.mem_singleton_self _
        · exact absurd (locks k v before) List.not_mem_nil
      · rintro rfl
        exact unused (id ▸ List.mem_map_of_mem member)
      · exact Table.write_held.mpr (Or.inl ⟨rfl, rfl, rfl⟩)
      · exact same
  | signsIn userID user d generation signing found fresh strength =>
      exact ⟨_, rfl, rfl, locks_commit rfl⟩
  | visits c targets affected k row executing member free sees picked =>
      cases rotates : c.rotates with
      | false =>
          exact ⟨_, rfl, rfl, StageHolds.executing rotates _ _
            (visit_stored (holds.stored executing rotates) sees rfl)⟩
      | true =>
          obtain ⟨old, next, now, rfl⟩ := Command.eq_exchange rotates
          rw [StageHolds, executing] at holds
          obtain ⟨inserted, only, state⟩ := holds
          have isOld := only k member
          rcases state with ⟨-, locks⟩ | ⟨⟨before, after, -, -, held, dead⟩, -⟩
          · have written := visit_old
              { s with
                tokens := s.tokens.write i k ((Command.exchange old next now).change row) }
              inserted locks isOld sees picked rfl rfl
            obtain ⟨inserted', revoked, locks'⟩ := written
            exact ⟨_, rfl, rfl, inserted',
              fun k' member' => only k' (List.mem_of_mem_erase member'),
              Or.inr ⟨revoked, locks'⟩⟩
          · subst isOld
            rw [Table.visible_of_held held, Option.some.injEq] at sees
            subst sees
            simp only [Command.picks, Bool.and_eq_true, decide_eq_true_eq] at picked
            exact absurd picked.2 dead
  | passes c targets affected k executing member free none_ =>
      cases rotates : c.rotates with
      | false =>
          exact ⟨_, rfl, rfl, StageHolds.executing rotates _ _ (holds.stored executing rotates)⟩
      | true =>
          obtain ⟨old, next, now, rfl⟩ := Command.eq_exchange rotates
          rw [StageHolds, executing] at holds
          obtain ⟨inserted, only, state⟩ := holds
          exact ⟨_, rfl, rfl, inserted,
            fun k' member' => only k' (List.mem_of_mem_erase member'), state⟩
  | loses old next now executing => exact ⟨_, rfl, rfl, locks_rollback rfl⟩
  | wins old next now affected executing hit =>
      rw [StageHolds, executing] at holds
      obtain ⟨inserted, -, state⟩ := holds
      rcases state with ⟨none_, -⟩ | won
      · exact absurd none_ hit
      · exact ⟨_, rfl, rfl, inserted, won⟩
  | commits old next exchanging =>
      rw [StageHolds, exchanging] at holds
      obtain ⟨⟨-, -, new, -, presents⟩, ⟨row, row', -, -, held, dead⟩, -⟩ := holds
      exact ⟨_, rfl, rfl, locks_commit rfl, ⟨_, presents⟩,
        Or.inl ⟨row', Table.commit_of_held held, dead⟩⟩
  | completes c affected outcome executing other kept ends =>
      exact ⟨_, rfl, rfl, StageHolds.of_ended _ _ ends (locks_commit rfl)⟩

end Own

end ScoutPulse.Identity
