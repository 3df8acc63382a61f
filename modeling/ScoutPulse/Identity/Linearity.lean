import ScoutPulse.Identity.Rotation

/-!
# Concurrent refreshes

What every stage of every request says, put together: of the refreshes that present
one token at most one exchanges it, the others leave no row, and none of them makes
one more session of a user.
-/

namespace ScoutPulse.Identity

open ReadCommitted

/-- A row that a refresh inserted is the next one of a rotation that still goes on or
of one that committed, or it was taken back. -/
def Placed (s : Sessions) (m : Mint) (r : Request) : Prop :=
  (∃ presented, r.kind = .refresh presented) →
    r.stage.next = some m.id ∨ (∃ old, r.stage = .ended (.exchanged old m.id)) ∨ Gone s m.id

/-- What holds of all the requests together. -/
structure Rotating (s : Sessions) : Prop where
  versions : Versions s.tokens s.minted
  stages : ∀ i r, s.requests[i]? = some r → StageHolds s i r
  unborn : ∀ i, s.requests[i]? = none → Locks s i []
  placed : ∀ m ∈ s.minted, ∃ r, s.requests[m.request]? = some r ∧ Placed s m r
  once : ∀ (i j : ℕ) (r r' : Request) (old next next' : String), s.requests[i]? = some r →
    s.requests[j]? = some r' → r.stage = .ended (.exchanged old next) →
    r'.stage = .ended (.exchanged old next') → i = j

section Steps

variable {compare : String → String → Bool} {s s' : Sessions} {i : ℕ} {r r' : Request}

/-- A row that was inserted and rolled back is gone. -/
theorem Gone.of_rollback {s₀ : Sessions} {kind : Kind} {old next : String}
    (versions : Versions s.tokens s.minted) (inserted : Inserted s i kind old next)
    (tokens : s₀.tokens = s.tokens.rollback i) (minted : s₀.minted = s.minted) : Gone s₀ next := by
  obtain ⟨absent, -, new, held, -⟩ := inserted
  refine ⟨minted ▸ versions.keys next i _ held, by rw [tokens]; exact absent, ?_⟩
  by_contra locked
  obtain ⟨⟨owner, v⟩, still⟩ := Option.ne_none_iff_exists'.mp locked
  rw [tokens, Table.rollback_held, held, Option.some.injEq, Prod.mk.injEq] at still
  exact still.2 still.1.1.symm

/-- A rotation that has not ended has its next row inserted. -/
theorem StageHolds.inserted_of_next {next : String} (holds : StageHolds s i r)
    (ongoing : r.stage.next = some next) : ∃ old, Inserted s i r.kind old next := by
  obtain ⟨kind, stage, generation⟩ := r
  cases stage with
  | inserted old next' =>
      obtain rfl := Option.some.inj ongoing
      exact ⟨old, holds.2⟩
  | exchanging old next' =>
      obtain rfl := Option.some.inj ongoing
      exact ⟨old, holds.1⟩
  | executing c targets affected =>
      cases c with
      | exchange old next' now =>
          obtain rfl := Option.some.inj ongoing
          exact ⟨old, holds.1⟩
      | revoke hash now => cases ongoing
      | revokeAll userID now => cases ongoing
      | deleteExpired before => cases ongoing
      | unlink deleted => cases ongoing
  | begun => cases ongoing
  | loaded old stored => cases ongoing
  | permitted old stored => cases ongoing
  | signingIn userID => cases ongoing
  | checked userID => cases ongoing
  | changed userID => cases ongoing
  | ended outcome => cases ongoing

/-- A request that is idle is inserting nothing. -/
theorem Stage.next_of_idle {stage : Stage} (idle : stage.idle = true) : stage.next = none := by
  cases stage with
  | inserted old next => cases idle
  | exchanging old next => cases idle
  | executing c targets affected => cases idle
  | begun => rfl
  | loaded old stored => rfl
  | permitted old stored => rfl
  | signingIn userID => rfl
  | checked userID => rfl
  | changed userID => rfl
  | ended outcome => rfl

/-- Only an exchange inserts a row. -/
theorem Stage.next_of_executing {c : Command} (other : c.rotates = false)
    (targets affected : List String) : (Stage.executing c targets affected).next = none := by
  cases c with
  | exchange old next now => cases other
  | revoke hash now => rfl
  | revokeAll userID now => rfl
  | deleteExpired before => rfl
  | unlink deleted => rfl

/-- Which row a command inserts does not depend on how far it has come. -/
theorem Stage.next_targets (c : Command) (targets affected targets' affected' : List String) :
    (Stage.executing c targets affected).next = (Stage.executing c targets' affected').next := by
  cases c with
  | exchange old next now => rfl
  | revoke hash now => rfl
  | revokeAll userID now => rfl
  | deleteExpired before => rfl
  | unlink deleted => rfl

/-- How a request may be found after a step of its own: a rotation only stops being
under way by committing its row or by taking it back. -/
structure Moves (s' : Sessions) (r r' : Request) : Prop where
  kind : r'.kind = r.kind
  running : ∀ outcome, r.stage ≠ .ended outcome
  ends : ∀ old next, r'.stage = .ended (.exchanged old next) → r.stage = .exchanging old next
  onwards : ∀ next, r.stage.next = some next → r'.stage.next = some next ∨
    (∃ old, r'.stage = .ended (.exchanged old next)) ∨ Gone s' next

/-- From an idle stage a request may move anywhere but to the end of an exchange. -/
theorem Moves.of_idle (idle : r.stage.idle = true) (kind : r'.kind = r.kind)
    (ends : ∀ old next, r'.stage ≠ .ended (.exchanged old next)) : Moves s' r r' := by
  refine ⟨kind, ?_, fun old next ended => absurd ended (ends old next), ?_⟩
  · intro outcome ended
    rw [ended] at idle
    cases idle
  · intro next ongoing
    rw [Stage.next_of_idle idle] at ongoing
    cases ongoing

/-- A command moves on with the row it is inserting, or the row is gone. -/
theorem Moves.of_executing {c : Command} {targets affected : List String}
    (executing : r.stage = .executing c targets affected) (kind : r'.kind = r.kind)
    (ends : ∀ old next, r'.stage ≠ .ended (.exchanged old next))
    (onwards : ∀ next, (Stage.executing c targets affected).next = some next →
      r'.stage.next = some next ∨ Gone s' next) : Moves s' r r' := by
  refine ⟨kind, ?_, fun old next ended => absurd ended (ends old next), ?_⟩
  · intro outcome ended
    rw [executing] at ended
    cases ended
  · intro next ongoing
    rw [executing] at ongoing
    rcases onwards next ongoing with still | gone
    · exact Or.inl still
    · exact Or.inr (Or.inr gone)

/-- A step of a request moves it so that what it inserted is kept or gone. -/
theorem Advance.moves (holds : StageHolds s i r) (versions : Versions s.tokens s.minted)
    (advance : Advance s i r s') : ∃ r', s'.requests = s.requests.set i r' ∧ Moves s' r r' := by
  cases advance with
  | refuses idle => exact ⟨_, rfl, .of_idle idle rfl fun _ _ => nofun⟩
  | loads presented old stored kind begun found live =>
      exact ⟨_, rfl, .of_idle (by rw [begun]; rfl) rfl fun _ _ => nofun⟩
  | permits old stored loaded =>
      exact ⟨_, rfl, .of_idle (by rw [loaded]; rfl) rfl fun _ _ => nofun⟩
  | signs userID generation begun kind known =>
      exact ⟨_, rfl, .of_idle (by rw [begun]; rfl) rfl fun _ _ => nofun⟩
  | checks userID current new kind begun =>
      exact ⟨_, rfl, .of_idle (by rw [begun]; rfl) rfl fun _ _ => nofun⟩
  | changes userID hashed user checked found =>
      exact ⟨_, rfl, .of_idle (by rw [checked]; rfl) rfl fun _ _ => nofun⟩
  | starts c idle other sweep => exact ⟨_, rfl, .of_idle idle rfl fun _ _ => nofun⟩
  | inserts old stored d permitted fresh =>
      exact ⟨_, rfl, .of_idle (by rw [permitted]; rfl) rfl fun _ _ => nofun⟩
  | signsIn userID user d generation signing found fresh strength =>
      exact ⟨_, rfl, .of_idle (by rw [signing]; rfl) rfl fun _ _ => nofun⟩
  | exchanges old next now inserted =>
      refine ⟨_, rfl, rfl, ?_, fun _ _ => nofun, fun next' ongoing => Or.inl ?_⟩
      · intro outcome ended
        rw [inserted] at ended
        cases ended
      · rw [inserted] at ongoing
        exact ongoing
  | unlinks before affected deleted =>
      exact ⟨_, rfl, .of_executing deleted rfl (fun _ _ => nofun) fun _ => nofun⟩
  | visits c targets affected k row executing member free sees picked =>
      refine ⟨_, rfl, .of_executing executing rfl (fun _ _ => nofun) fun next ongoing => Or.inl ?_⟩
      rw [← ongoing]
      exact Stage.next_targets c _ _ _ _
  | passes c targets affected k executing member free none_ =>
      refine ⟨_, rfl, .of_executing executing rfl (fun _ _ => nofun) fun next ongoing => Or.inl ?_⟩
      rw [← ongoing]
      exact Stage.next_targets c _ _ _ _
  | loses old next now executing =>
      refine ⟨_, rfl, .of_executing executing rfl (fun _ _ => nofun) fun next' ongoing => Or.inr ?_⟩
      obtain ⟨old', inserted⟩ := holds.inserted_of_next (executing ▸ ongoing)
      exact .of_rollback versions inserted rfl rfl
  | wins old next now affected executing hit =>
      exact ⟨_, rfl, .of_executing executing rfl (fun _ _ => nofun) fun _ ongoing => Or.inl ongoing⟩
  | commits old next exchanging =>
      refine ⟨_, rfl, rfl, ?_, ?_, fun next' ongoing => Or.inr (Or.inl ⟨old, ?_⟩)⟩
      · intro outcome ended
        rw [exchanging] at ended
        cases ended
      · intro old' next' ended
        cases ended
        exact exchanging
      · rw [exchanging] at ongoing
        obtain rfl := Option.some.inj ongoing
        rfl
  | completes c affected outcome executing other kept ends =>
      refine ⟨_, rfl, .of_executing executing rfl ?_ fun next' ongoing => ?_⟩
      · intro old next ended
        exact ends old next (Stage.ended.inj ended)
      · rw [Stage.next_of_executing other] at ongoing
        cases ongoing

/-- What is placed stays placed while the tokens evolve. -/
theorem Placed.evolves {m : Mint} (placed : Placed s m r) (evolves : Evolves s s') :
    Placed s' m r := by
  intro isRefresh
  rcases placed isRefresh with ongoing | ended | gone
  · exact Or.inl ongoing
  · exact Or.inr (Or.inl ended)
  · exact Or.inr (Or.inr (evolves.gone m.id gone))

/-- What is placed stays placed when its request moves. -/
theorem Placed.moves {m : Mint} (placed : Placed s m r) (evolves : Evolves s s')
    (moves : Moves s' r r') : Placed s' m r' := by
  intro isRefresh
  rw [moves.kind] at isRefresh
  rcases placed isRefresh with ongoing | ⟨old, ended⟩ | gone
  · exact moves.onwards m.id ongoing
  · exact absurd ended (moves.running _)
  · exact Or.inr (Or.inr (evolves.gone m.id gone))

/-- A token whose row one request has revoked under its lock is nobody else's spent one. -/
theorem Revoked.not_spent {old : String} (revoked : Revoked s i old) : ¬ Spent s old := by
  obtain ⟨row, row', found, live, held, -⟩ := revoked
  rintro (⟨other, found', dead⟩ | gone)
  · rw [found, Option.some.injEq] at found'
    subst found'
    exact dead live
  · have unlocked := gone.lock
    rw [held] at unlocked
    cases unlocked

/-- Another request has exchanged the token already, so this one cannot be about to. -/
theorem Rotating.not_exchanging {j : ℕ} {q : Request} {old next next' : String}
    (rotating : Rotating s) (found : s.requests[i]? = some r)
    (other : s.requests[j]? = some q) (exchanged : q.stage = .ended (.exchanged old next)) :
    r.stage ≠ .exchanging old next' := by
  intro exchanging
  have mine := rotating.stages i r found
  have theirs := rotating.stages j q other
  rw [StageHolds, exchanging] at mine
  rw [StageHolds, exchanged] at theirs
  exact mine.2.1.not_spent theirs.2.2

/-- A step of one request keeps what holds of all of them. -/
theorem Rotating.moved (rotating : Rotating s) (found : s.requests[i]? = some r)
    (effect : Effect s i s'.tokens s'.minted) (requests : s'.requests = s.requests.set i r')
    (moves : Moves s' r r') (holds : StageHolds s' i r')
    (mints : ∀ m ∈ s'.minted, m ∈ s.minted ∨ m.request = i ∧
      ((∃ presented, r.kind = .refresh presented) → r'.stage.next = some m.id)) :
    Rotating s' := by
  have evolves := effect.evolves rotating.versions
  have mine : s'.requests[i]? = some r' := by
    obtain ⟨bound, -⟩ := List.getElem?_eq_some_iff.mp found
    rw [requests, List.getElem?_set_self bound]
  have theirs : ∀ {j}, j ≠ i → s'.requests[j]? = s.requests[j]? := by
    intro j other
    rw [requests, List.getElem?_set_ne (Ne.symm other)]
  refine ⟨effect.versions rotating.versions, ?_, ?_, ?_, ?_⟩
  · intro j q present
    by_cases same : j = i
    · subst same
      rw [mine, Option.some.injEq] at present
      subst present
      exact holds
    · rw [theirs same] at present
      exact (rotating.stages j q present).undisturbed (effect.undisturbed rotating.versions same)
  · intro j absent
    have other : j ≠ i := by
      rintro rfl
      rw [mine] at absent
      cases absent
    rw [theirs other] at absent
    exact (rotating.unborn j absent).undisturbed (effect.undisturbed rotating.versions other)
  · intro m member
    rcases mints m member with before | ⟨rfl, next⟩
    · obtain ⟨q, present, placed⟩ := rotating.placed m before
      by_cases same : m.request = i
      · rw [same] at present ⊢
        rw [found, Option.some.injEq] at present
        subst present
        exact ⟨r', mine, placed.moves evolves moves⟩
      · exact ⟨q, (theirs same).trans present, placed.evolves evolves⟩
    · refine ⟨r', mine, fun isRefresh => Or.inl (next ?_)⟩
      rw [← moves.kind]
      exact isRefresh
  · intro j k q q' old next next' present present' ended ended'
    by_cases first : j = i <;> by_cases second : k = i
    · exact first.trans second.symm
    · subst first
      rw [mine, Option.some.injEq] at present
      subst present
      rw [theirs second] at present'
      exact absurd (moves.ends old next ended) (rotating.not_exchanging found present' ended')
    · subst second
      rw [mine, Option.some.injEq] at present'
      subst present'
      rw [theirs first] at present
      exact absurd (moves.ends old next' ended') (rotating.not_exchanging found present ended)
    · rw [theirs first] at present
      rw [theirs second] at present'
      exact rotating.once j k q q' old next next' present present' ended ended'

theorem set_inj {requests : List Request} {q q' : Request} (found : requests[i]? = some r)
    (same : requests.set i q = requests.set i q') : q = q' := by
  obtain ⟨bound, -⟩ := List.getElem?_eq_some_iff.mp found
  have at_ := congrArg (·[i]?) same
  simpa only [List.getElem?_set_self bound, Option.some.injEq] using at_

/-- What a step adds to the rows ever inserted, a refresh's own next row or another
request's. -/
theorem Advance.mints (holds : StageHolds s i r) (found : s.requests[i]? = some r)
    (advance : Advance s i r s') (requests : s'.requests = s.requests.set i r') :
    ∀ m ∈ s'.minted, m ∈ s.minted ∨ m.request = i ∧
      ((∃ presented, r.kind = .refresh presented) → r'.stage.next = some m.id) := by
  intro m member
  cases advance with
  | inserts old stored d permitted fresh =>
      rcases List.mem_cons.mp member with rfl | before
      · refine Or.inr ⟨rfl, fun _ => ?_⟩
        rw [← set_inj found requests]
        rfl
      · exact Or.inl before
  | signsIn userID user d generation signing known fresh strength =>
      rcases List.mem_cons.mp member with rfl | before
      · refine Or.inr ⟨rfl, ?_⟩
        rintro ⟨presented, isRefresh⟩
        rw [StageHolds, signing] at holds
        exact absurd isRefresh (holds.2 presented)
      · exact Or.inl before
  | refuses => exact Or.inl member
  | loads => exact Or.inl member
  | permits => exact Or.inl member
  | signs => exact Or.inl member
  | checks => exact Or.inl member
  | changes => exact Or.inl member
  | starts => exact Or.inl member
  | exchanges => exact Or.inl member
  | unlinks => exact Or.inl member
  | visits => exact Or.inl member
  | passes => exact Or.inl member
  | loses => exact Or.inl member
  | wins => exact Or.inl member
  | commits => exact Or.inl member
  | completes => exact Or.inl member

/-- A step of a request keeps every session placed with the request that made it. -/
theorem Rotating.advance (rotating : Rotating s) (found : s.requests[i]? = some r)
    (advance : Advance s i r s') : Rotating s' := by
  have holds := rotating.stages i r found
  obtain ⟨r', requests, -, holds'⟩ := holds.advance rotating.versions advance
  obtain ⟨q, requests', moves⟩ := advance.moves holds rotating.versions
  obtain rfl := set_inj found (requests.symm.trans requests')
  exact rotating.moved found advance.effect requests moves holds'
    (advance.mints holds found requests)

/-- Breaking off: whatever the request has locked is given back. -/
theorem Rotating.abort (rotating : Rotating s) (found : s.requests[i]? = some r)
    (running : ∀ outcome, r.stage ≠ .ended outcome) :
    Rotating ({ s with tokens := s.tokens.rollback i }.move i r (.ended .refused)) := by
  refine rotating.moved found .rolledBack rfl ⟨rfl, running, fun _ _ => nofun, ?_⟩ ?_
    fun m member => Or.inl member
  · intro next ongoing
    obtain ⟨old, inserted⟩ := (rotating.stages i r found).inserted_of_next ongoing
    exact Or.inr (Or.inr (.of_rollback rotating.versions inserted rfl rfl))
  · exact locks_rollback rfl

/-- One more request keeps every session placed. -/
theorem Rotating.arrive (rotating : Rotating s) (kind : Kind) :
    Rotating { s with requests := s.requests ++ [⟨kind, .begun, 0⟩] } := by
  have begun : ∀ {j : ℕ} {q : Request}, (s.requests ++ [⟨kind, .begun, 0⟩])[j]? = some q →
      s.requests[j]? = some q ∨ s.requests[j]? = none ∧ q.stage = .begun := by
    intro j q present
    rcases lt_or_ge j s.requests.length with bound | beyond
    · rw [List.getElem?_append_left bound] at present
      exact Or.inl present
    · rw [List.getElem?_append_right beyond] at present
      obtain rfl := List.mem_singleton.mp (List.mem_of_getElem? present)
      exact Or.inr ⟨List.getElem?_eq_none_iff.mpr beyond, rfl⟩
  have calm : ∀ j, Undisturbed s { s with requests := s.requests ++ [⟨kind, .begun, 0⟩] } j :=
    fun j => Effect.undisturbed .same rotating.versions (Nat.succ_ne_self j).symm
  refine ⟨rotating.versions, ?_, ?_, ?_, ?_⟩
  · intro j q present
    rcases begun present with before | ⟨absent, stage⟩
    · exact (rotating.stages j q before).undisturbed (calm j)
    · rw [StageHolds, stage]
      exact rotating.unborn j absent
  · intro j absent
    have beyond := List.getElem?_eq_none_iff.mp absent
    rw [List.length_append] at beyond
    exact rotating.unborn j (List.getElem?_eq_none_iff.mpr (by omega))
  · intro m member
    obtain ⟨q, present, placed⟩ := rotating.placed m member
    obtain ⟨bound, -⟩ := List.getElem?_eq_some_iff.mp present
    exact ⟨q, (List.getElem?_append_left bound).trans present, placed.evolves (calm 0).evolves⟩
  · intro j k q q' old next next' present present' ended ended'
    have before : ∀ {j : ℕ} {q : Request} {old next : String},
        (s.requests ++ [⟨kind, .begun, 0⟩])[j]? = some q →
        q.stage = .ended (.exchanged old next) → s.requests[j]? = some q := by
      intro j q old next present ended
      rcases begun present with before | ⟨-, stage⟩
      · exact before
      · rw [ended] at stage
        cases stage
    exact rotating.once j k q q' old next next' (before present ended) (before present' ended')
      ended ended'

end Steps

section Runs

variable {compare : String → String → Bool} {ok : Sessions → Label → Prop} {s s' : Sessions}

/-- So does whatever the service does next. -/
theorem rotating_next {label : Label} (rotating : Rotating s)
    (next : (sessions compare).next s label = some s') : Rotating s' := by
  obtain ⟨kind, -, rfl⟩ | ⟨i, d, r, -, found, advance⟩ | ⟨i, r, -, found, running, rfl⟩ :=
    sessions_next next
  · exact rotating.arrive kind
  · exact rotating.advance found advance
  · exact rotating.abort found running

/-- Every session is placed with its request, in every state reached. -/
theorem rotating_of_reach (reached : (sessions compare).Reach ok s) : Rotating s := by
  refine reached.invariant (P := Rotating) ?_ fun rotating _ next => rotating_next rotating next
  rintro t ⟨tokens, minted, requests⟩
  refine ⟨by rw [tokens, minted]; exact .empty, ?_, ?_, ?_, ?_⟩
  · intro i r found
    rw [requests] at found
    cases found
  · intro i absent k v held
    rw [tokens] at held
    cases held
  · intro m member
    rw [minted] at member
    cases member
  · intro i j r r' old next next' found
    rw [requests] at found
    cases found

end Runs

/-! ## How many sessions are left -/

/-- The unrevoked rows of a user. -/
def Sessions.unrevoked (s : Sessions) (userID : String) : Finset String :=
  s.ids.toFinset.filter fun k => (s.tokens.committed k).any fun row =>
    row.token.userID = userID && row.token.revokedAt = none

section Count

variable {s s' : Sessions} {i : ℕ} {r : Request} {userID k : String}

/-- The sessions that a sweep picks are those of the account that stand. -/
theorem mem_unrevoked (versions : Versions s.tokens s.minted) :
    k ∈ s.unrevoked userID ↔ ∃ row, s.tokens.committed k = some row ∧
      row.token.userID = userID ∧ row.token.revokedAt = none := by
  simp only [Sessions.unrevoked, Finset.mem_filter, List.mem_toFinset, Option.any_eq_true,
    Bool.and_eq_true, decide_eq_true_eq]
  constructor
  · exact fun both => both.2
  · rintro ⟨row, found, live⟩
    exact ⟨(versions.committed k row found).1.mem, row, found, live⟩

/-- A step that commits nothing leaves the sessions as they are. -/
theorem unrevoked_subset (versions : Versions s.tokens s.minted)
    (versions' : Versions s'.tokens s'.minted)
    (rows : s'.tokens.committed = s.tokens.committed) :
    s'.unrevoked userID ⊆ s.unrevoked userID := by
  intro k member
  rw [mem_unrevoked versions', rows] at member
  exact (mem_unrevoked versions).mpr member

/-- Nor does a commit make one that was not there, but for rows it first stores. -/
theorem unrevoked_commit (versions : Versions s.tokens s.minted)
    (versions' : Versions s'.tokens s'.minted) (tokens : s'.tokens = s.tokens.commit i)
    (member : k ∈ s'.unrevoked userID) (stored : s.tokens.committed k ≠ none) :
    k ∈ s.unrevoked userID := by
  obtain ⟨row', found', owner, live⟩ := (mem_unrevoked versions').mp member
  rw [mem_unrevoked versions]
  rw [tokens] at found'
  rcases Table.commit_eq_some found' with held | ⟨found, -⟩
  · obtain ⟨row, found⟩ := Option.ne_none_iff_exists'.mp stored
    have later := versions.later k i row row' found held
    refine ⟨row, found, later.userID.symm.trans owner, ?_⟩
    by_contra dead
    obtain ⟨t, at_⟩ := Option.ne_none_iff_exists'.mp dead
    rw [later.revoked t at_] at live
    cases live
  · exact ⟨row', found, owner, live⟩

/-- The commit of a rotation puts the next row in the old one's place. -/
theorem unrevoked_exchange {kind : Kind} {old next : String}
    (versions : Versions s.tokens s.minted) (versions' : Versions s'.tokens s'.minted)
    (tokens : s'.tokens = s.tokens.commit i) (inserted : Inserted s i kind old next)
    (revoked : Revoked s i old) (locks : Locks s i [old, next]) :
    (s'.unrevoked userID).card ≤ (s.unrevoked userID).card := by
  obtain ⟨absent, distinct, new, held, presented, -, m, member, id, -, owner⟩ := inserted
  obtain ⟨row, row', found, live, heldOld, dead⟩ := revoked
  have stored : ∀ k ∈ s'.unrevoked userID, k ≠ next → k ∈ s.unrevoked userID := by
    intro k unrevoked other
    by_cases own : ∃ v, s.tokens.held k = some (i, v)
    · obtain ⟨v, held⟩ := own
      have isOld : k = old := by
        rcases List.mem_cons.mp (locks k v held) with same | isNext
        · exact same
        · exact absurd (List.mem_singleton.mp isNext) other
      subst isOld
      refine unrevoked_commit versions versions' tokens unrevoked ?_
      rw [found]
      exact Option.some_ne_none row
    · obtain ⟨now, found', -⟩ := (mem_unrevoked versions').mp unrevoked
      refine unrevoked_commit versions versions' tokens unrevoked ?_
      rw [tokens, Table.commit_of_not_held fun v held => own ⟨v, held⟩] at found'
      rw [found']
      exact Option.some_ne_none now
  have ended : old ∉ s'.unrevoked userID := by
    intro unrevoked
    obtain ⟨now, found', -, still⟩ := (mem_unrevoked versions').mp unrevoked
    rw [tokens, Table.commit_of_held heldOld, Option.some.injEq] at found'
    subst found'
    exact dead still
  by_cases swapped : next ∈ s'.unrevoked userID
  · -- The next row is the old one's user's, who therefore loses the old one.
    have counted : old ∈ s.unrevoked userID := by
      obtain ⟨now, found', isUser, -⟩ := (mem_unrevoked versions').mp swapped
      rw [tokens, Table.commit_of_held held, Option.some.injEq] at found'
      subst found'
      obtain ⟨⟨m', member', id', -, owner', -⟩, -⟩ := versions.committed old row found
      have same : m' = m :=
        List.inj_on_of_nodup_map versions.ids member' member (id'.trans id.symm)
      subst same
      exact (mem_unrevoked versions).mpr ⟨row, found, owner'.symm.trans (owner.trans isUser), live⟩
    have replaced : s'.unrevoked userID ⊆ insert next ((s.unrevoked userID).erase old) := by
      intro k unrevoked
      by_cases isNext : k = next
      · subst isNext
        exact Finset.mem_insert_self _ _
      · refine Finset.mem_insert_of_mem (Finset.mem_erase.mpr ⟨?_, stored k unrevoked isNext⟩)
        rintro rfl
        exact ended unrevoked
    calc (s'.unrevoked userID).card
        ≤ (insert next ((s.unrevoked userID).erase old)).card := Finset.card_le_card replaced
      _ ≤ ((s.unrevoked userID).erase old).card + 1 := Finset.card_insert_le _ _
      _ = (s.unrevoked userID).card := Finset.card_erase_add_one counted
  · refine Finset.card_le_card fun k unrevoked => stored k unrevoked ?_
    rintro rfl
    exact swapped unrevoked

/-- No step of a refresh makes the sessions of any user more. -/
theorem Rotating.unrevoked_advance (rotating : Rotating s) (found : s.requests[i]? = some r)
    (isRefresh : ∃ presented, r.kind = .refresh presented) (advance : Advance s i r s') :
    (s'.unrevoked userID).card ≤ (s.unrevoked userID).card := by
  have versions := rotating.versions
  have versions' := (rotating.advance found advance).versions
  have holds := rotating.stages i r found
  have calm : s'.tokens.committed = s.tokens.committed →
      (s'.unrevoked userID).card ≤ (s.unrevoked userID).card :=
    fun rows => Finset.card_le_card (unrevoked_subset versions versions' rows)
  cases advance with
  | commits old next exchanging =>
      rw [StageHolds, exchanging] at holds
      obtain ⟨inserted, revoked, locks⟩ := holds
      exact unrevoked_exchange versions versions' rfl inserted revoked locks
  | completes c affected outcome executing other kept ends =>
      have stored := holds.stored executing other
      refine Finset.card_le_card fun k unrevoked => ?_
      refine unrevoked_commit versions versions' rfl unrevoked ?_
      obtain ⟨row, now, -⟩ := (mem_unrevoked versions').mp unrevoked
      rcases Table.commit_eq_some now with held | ⟨before, -⟩
      · exact stored k _ held
      · rw [before]
        exact Option.some_ne_none row
  | signsIn owner user d generation signing =>
      rw [StageHolds, signing] at holds
      obtain ⟨presented, isRefresh⟩ := isRefresh
      exact absurd isRefresh (holds.2 presented)
  | refuses => exact calm rfl
  | loads => exact calm rfl
  | permits => exact calm rfl
  | signs => exact calm rfl
  | checks => exact calm rfl
  | changes => exact calm rfl
  | starts => exact calm rfl
  | exchanges => exact calm rfl
  | unlinks => exact calm rfl
  | inserts => exact calm rfl
  | visits => exact calm rfl
  | passes => exact calm rfl
  | loses => exact calm rfl
  | wins => exact calm rfl

end Count

/-! ## Linearity -/

/-- A refresh that has exchanged the token it presents. -/
def Exchanges (s : Sessions) (i : ℕ) (presented : String) : Prop :=
  ∃ r old next, s.requests[i]? = some r ∧ r.kind = .refresh presented ∧
    r.stage = .ended (.exchanged old next)

/-- A refresh that has ended in any other way. -/
def Misses (s : Sessions) (i : ℕ) : Prop :=
  ∃ r presented outcome, s.requests[i]? = some r ∧ r.kind = .refresh presented ∧
    r.stage = .ended outcome ∧ ∀ old next, outcome ≠ .exchanged old next

section Linear

variable {compare : String → String → Bool} {s s' : Sessions} {i j : ℕ} {presented k : String}

/-- Two requests that exchange one token are one. -/
theorem Rotating.exchanges_once (rotating : Rotating s) (first : Exchanges s i presented)
    (second : Exchanges s j presented) : i = j := by
  obtain ⟨r, old, next, found, kind, ended⟩ := first
  obtain ⟨r', old', next', found', kind', ended'⟩ := second
  have mine := rotating.stages i r found
  have theirs := rotating.stages j r' found'
  rw [StageHolds, ended, kind] at mine
  rw [StageHolds, ended', kind'] at theirs
  obtain ⟨-, ⟨-, p, isP, m, member, id, hash, -⟩, -⟩ := mine
  obtain ⟨-, ⟨-, p', isP', m', member', id', hash', -⟩, -⟩ := theirs
  obtain rfl := Kind.refresh.inj isP
  obtain rfl := Kind.refresh.inj isP'
  -- Both rows were inserted with the hash of one token, so they are one row.
  have same : m = m' :=
    List.inj_on_of_nodup_map rotating.versions.hashes member member' (hash.trans hash'.symm)
  subst same
  subst id
  subst id'
  exact rotating.once i j r r' m.id next next' found found' ended ended'

/-- A request that misses leaves no row behind. -/
theorem Rotating.misses_leaves_nothing (rotating : Rotating s) (misses : Misses s i) {m : Mint}
    (member : m ∈ s.minted) (own : m.request = i) : Gone s m.id := by
  obtain ⟨r, presented, outcome, found, kind, ended, missed⟩ := misses
  obtain ⟨q, found', placed⟩ := rotating.placed m member
  rw [own, found, Option.some.injEq] at found'
  subst found'
  rcases placed ⟨presented, kind⟩ with ongoing | ⟨old, exchanged⟩ | gone
  · rw [ended] at ongoing
    cases ongoing
  · rw [ended] at exchanged
    exact absurd (Stage.ended.inj exchanged) (missed old m.id)
  · exact gone

/-- A row is only ever the later version of itself, whatever was committed before. -/
theorem Evolves.committed {row row' : Session} (evolves : Evolves s s')
    (before : s.tokens.committed k = some row) (after : s'.tokens.committed k = some row') :
    row.Later row' := by
  rcases evolves.row k row before with ⟨row'', found, later⟩ | gone
  · rw [after, Option.some.injEq] at found
    subst found
    exact later
  · have absent := gone.row
    rw [after] at absent
    cases absent

/-- A successor is only there on a revoked row. -/
theorem Session.Marked.revoked {row : Session} (marked : row.Marked)
    (ended : row.token.revokedAt ≠ none ∨ row.token.replacedBy ≠ none ∨
      row.exchangedAt ≠ none) : row.token.revokedAt ≠ none := by
  rcases ended with revoked | replaced | exchanged
  · exact revoked
  · exact fun live => replaced (marked.replaced live)
  · obtain ⟨t, at_⟩ := Option.ne_none_iff_exists'.mp exchanged
    rw [marked.exchanged t at_]
    exact Option.some_ne_none t

/-- Refresh rotation is linear. -/
theorem rotation_linear (reached : (sessions compare).Reach Machine.always s) :
    (∀ i j presented, Exchanges s i presented → Exchanges s j presented → i = j) ∧
    (∀ i, Misses s i → ∀ m ∈ s.minted, m.request = i → s.tokens.committed m.id = none) ∧
    (∀ s' k row row', (sessions compare).Leads Machine.always s s' →
      s.tokens.committed k = some row → s'.tokens.committed k = some row' →
      (∀ next next', row.token.replacedBy = some next → row'.token.replacedBy = some next' →
        next = next') ∧
      (row.token.revokedAt ≠ none ∨ row.token.replacedBy ≠ none ∨ row.exchangedAt ≠ none →
        row'.token.revokedAt ≠ none)) ∧
    (∀ i r presented label s' userID, s.requests[i]? = some r → r.kind = .refresh presented →
      ((∃ d, label = .advance i d) ∨ label = .abort i) →
      (sessions compare).next s label = some s' →
      (s'.unrevoked userID).card ≤ (s.unrevoked userID).card) := by
  have rotating := rotating_of_reach reached
  refine ⟨?_, ?_, ?_, ?_⟩
  · intro i j presented first second
    exact rotating.exchanges_once first second
  · intro i misses m member own
    exact (rotating.misses_leaves_nothing misses member own).row
  · intro s' k row row' leads before after
    have later := (evolves_of_leads rotating.versions leads).committed before after
    have marked := (rotating.versions.committed k row before).2
    constructor
    · intro next next' replaced replaced'
      have revoked := marked.revoked (Or.inr (Or.inl (by rw [replaced]; exact nofun)))
      have same := later.replaced revoked next' replaced'
      rw [replaced] at same
      exact Option.some.inj same
    · intro ended
      obtain ⟨t, at_⟩ := Option.ne_none_iff_exists'.mp (marked.revoked ended)
      rw [later.revoked t at_]
      exact Option.some_ne_none t
  · intro i r presented label s' userID found kind own next
    obtain ⟨kind', rfl, -⟩ | ⟨j, d, q, rfl, found', advance⟩ | ⟨j, q, rfl, -, -, rfl⟩ :=
      sessions_next next
    · rcases own with ⟨d, same⟩ | same <;> cases same
    · obtain rfl : i = j := by
        rcases own with ⟨d', same⟩ | same <;> cases same
        rfl
      rw [found, Option.some.injEq] at found'
      subst found'
      exact rotating.unrevoked_advance found ⟨presented, kind⟩ advance
    · exact Finset.card_le_card (unrevoked_subset rotating.versions
        (rotating_next rotating next).versions rfl)

end Linear

/-! ## Two refreshes of one cookie -/

/-- The bcrypt hash of `allmine`. -/
def allmineHash : String := "$2a$10$XajjQvNhvvRt5GSeFk1xFeyqRrsxkhBkUiQeg0dt.wU1qD4aFDcga"

/-- bcrypt, where that is the only hash. -/
def allmine (hash password : String) : Bool := hash = allmineHash && password = "allmine"

/-- A service with one account and no session. -/
def oneAccount : Sessions where
  users := fun id =>
    if id = "u" then some ⟨"ana", "ana@example.org", allmineHash, true, 0⟩ else none
  tokens := .empty
  minted := []
  requests := []

/-- A sign-in of the account, in two steps, as the request `i`. -/
def signIn (i : ℕ) (now : Time) (id token : String) : List Label :=
  [.arrive (.login "ana" "allmine"), .advance i ⟨now, "u", "", ""⟩,
    .advance i ⟨now, id, token, ""⟩]

/-- After the sign-in two refreshes read the cookie's row and insert a next one each;
both then set out to revoke it. -/
def racingLabels : List Label :=
  signIn 0 0 "a" "first" ++
  [.arrive (.refresh "first"), .arrive (.refresh "first"),
    .advance 1 ⟨5, "", "", ""⟩, .advance 2 ⟨5, "", "", ""⟩,
    .advance 1 ⟨6, "", "", ""⟩, .advance 2 ⟨6, "", "", ""⟩,
    .advance 1 ⟨7, "b", "second", ""⟩, .advance 2 ⟨7, "c", "third", ""⟩,
    .advance 1 ⟨8, "", "", ""⟩, .advance 2 ⟨8, "", "", ""⟩,
    .advance 1 ⟨9, "a", "", ""⟩, .advance 1 ⟨9, "", "", ""⟩, .advance 1 ⟨9, "", "", ""⟩,
    .advance 2 ⟨10, "a", "", ""⟩, .advance 2 ⟨10, "", "", ""⟩]

def racing : Sessions := (sessions allmine).after Machine.always oneAccount racingLabels

/-- Of two refreshes racing with one token, one is exchanged and the other leaves nothing. -/
theorem rotation_linear_racing :
    Exchanges racing 1 "first" ∧ (∀ j, Exchanges racing j "first" → j = 1) ∧
      Misses racing 2 ∧ racing.tokens.committed "c" = none := by
  have reached : (sessions allmine).Reach Machine.always racing :=
    Machine.reach_after ⟨rfl, rfl, rfl⟩ (by decide +kernel)
  obtain ⟨once, loses, -, -⟩ := rotation_linear reached
  have wins : Exchanges racing 1 "first" :=
    ⟨⟨.refresh "first", .ended (.exchanged "a" "b"), 0⟩, "a", "b", by decide +kernel, rfl, rfl⟩
  have misses : Misses racing 2 :=
    ⟨⟨.refresh "first", .ended .refused, 0⟩, "first", .refused, by decide +kernel, rfl, rfl, nofun⟩
  refine ⟨wins, fun j other => once j 1 "first" other wins, misses, ?_⟩
  exact loses 2 misses ⟨"c", HashToken "third", "u", 0, 2⟩ (by decide +kernel) rfl

end ScoutPulse.Identity
