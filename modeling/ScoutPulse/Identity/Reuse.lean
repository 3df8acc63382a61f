import ScoutPulse.Identity.PasswordChange

/-!
# Reuse detection

`Refresh` reads a token that was revoked more than the grace ago as a copy that
leaked, and ends every session of its user. It goes by `revoked_at` alone, which a
logout and a revoke-all set as well as an exchange; and its `RevokeAllForUser` comes
to the sessions that are there when it starts, so that one committed while it runs is
left, as all of them are when the statement is broken off.
-/

namespace ScoutPulse.Identity

open ReadCommitted

/-- A user's token is on record as exchanged before a point in time. -/
def ExchangedBefore (s : Sessions) (presented userID : String) (time : Time) : Prop :=
  ∃ id stored t, s.tokens.committed id = some stored ∧
    stored.token.tokenHash = HashToken presented ∧ stored.token.userID = userID ∧
    stored.exchangedAt = some t ∧ t < time

/-- A user's token is on record as revoked before a point in time and never exchanged. -/
def EndedBefore (s : Sessions) (presented userID : String) (time : Time) : Prop :=
  ∃ id stored t, s.tokens.committed id = some stored ∧
    stored.token.tokenHash = HashToken presented ∧ stored.token.userID = userID ∧
    stored.exchangedAt = none ∧ stored.token.revokedAt = some t ∧ t < time

/-- The user whose sessions a request is ending: its `RevokeAllForUser` has started and not
been committed. -/
def Request.ending (r : Request) : Option String :=
  match r.stage with
  | .executing (.revokeAll userID _) _ _ => some userID
  | _ => none

/-- Whether a request has ended. -/
def Sessions.ended (s : Sessions) (i : ℕ) : Bool :=
  (s.requests[i]?).any fun r => match r.stage with
    | .ended _ => true
    | _ => false

/-- All sessions of a user are ended because of a request: it has sent `RevokeAllForUser` in
its first step, which has come to one state, and the state it ends in has no session of the
user that is not revoked. -/
def EndsAll (s s' : Sessions) (i : ℕ) (userID : String) : Prop :=
  (∃ r, s.requests[i]? = some r ∧ r.ending = some userID) ∧
    ∀ id row, s'.tokens.committed id = some row → row.token.userID = userID →
      row.token.revokedAt ≠ none

/-- The user of the session that a request commits in its next step. -/
def Sessions.admitting (s : Sessions) (i : ℕ) : Option String :=
  (s.requests[i]?).bind fun r =>
    match r.stage with
    | .signingIn userID => some userID
    | .exchanging _ next => (s.tokens.visible i next).map (·.token.userID)
    | _ => none

/-- The condition on a step that, while a request is ending the sessions of a user, no session
of the user is committed and the request is not broken off. -/
def Undivided (i : ℕ) (s : Sessions) : Label → Prop
  | .advance j _ => ∀ r ∈ s.requests[i]?, ∀ userID ∈ r.ending, s.admitting j ≠ some userID
  | .abort j => ∀ r ∈ s.requests[i]?, r.ending.isSome → j ≠ i
  | .arrive _ => True

instance (i : ℕ) (s : Sessions) (label : Label) : Decidable (Undivided i s label) :=
  match label with
  | .advance j _ => inferInstanceAs (Decidable (∀ r ∈ s.requests[i]?, ∀ userID ∈ r.ending,
      s.admitting j ≠ some userID))
  | .abort j => inferInstanceAs (Decidable (∀ r ∈ s.requests[i]?, r.ending.isSome → j ≠ i))
  | .arrive _ => .isTrue trivial

section Refresh

variable {compare : String → String → Bool} {ok : Sessions → Label → Prop} {s : Sessions}
  {i : ℕ} {r : Request} {d : Draw} {presented userID id : String} {stored : Session}

/-- A hash is one row's. -/
theorem getByToken_eq_some (versions : Versions s.tokens s.minted) :
    s.getByToken presented = some (id, stored) ↔
      s.tokens.committed id = some stored ∧ stored.token.tokenHash = HashToken presented := by
  constructor
  · exact getByToken_spec
  · rintro ⟨found, hash⟩
    obtain ⟨m, member, isId, isHash, -⟩ := (versions.committed id stored found).1
    have listed : (id, stored) ∈
        s.ids.filterMap fun id => (s.tokens.committed id).map fun row => (id, row) := by
      refine List.mem_filterMap.mpr ⟨id, isId ▸ List.mem_map_of_mem member, ?_⟩
      rw [found]
      rfl
    have some_ : (s.getByToken presented).isSome = true :=
      List.find?_isSome.mpr ⟨(id, stored), listed, decide_eq_true hash⟩
    obtain ⟨⟨id', stored'⟩, found'⟩ := Option.isSome_iff_exists.mp some_
    obtain ⟨committed', hash'⟩ := getByToken_spec found'
    obtain ⟨m', member', isId', isHash', -⟩ := (versions.committed id' stored' committed').1
    have same : m = m' := List.inj_on_of_nodup_map versions.hashes member member'
      ((isHash.trans hash).trans (isHash'.trans hash').symm)
    subst same
    obtain rfl := isId.symm.trans isId'
    rw [found, Option.some.injEq] at committed'
    subst committed'
    exact found'

/-- `Refresh` decides to end all sessions when the token's row was revoked more than
the grace ago. -/
theorem judge_endAll {found : Option (String × Session)} {now : Time} :
    judge found now = .endAll userID ↔ ∃ id stored t, found = some (id, stored) ∧
      stored.token.revokedAt = some t ∧ rotationGrace < now - t ∧
      stored.token.userID = userID := by
  cases found with
  | none => simp [judge]
  | some pair =>
      obtain ⟨id, stored⟩ := pair
      cases revoked : stored.token.revokedAt with
      | none =>
          simp only [judge, RefreshToken.active, revoked, Option.any_none, Bool.false_eq_true,
            ↓reduceIte]
          split_ifs <;> simp [revoked]
      | some t =>
          have spent : stored.token.active now = false := by
            simp [RefreshToken.active, revoked]
          simp only [judge, spent, revoked, Option.any_some, Bool.false_eq_true, ↓reduceIte]
          split_ifs with late <;> simp_all

/-- A token ends every session exactly when, the grace period ago, it had been exchanged or
ended otherwise. -/
theorem judge_endAll_iff (versions : Versions s.tokens s.minted) {now : Time} :
    judge (s.getByToken presented) now = .endAll userID ↔
      ExchangedBefore s presented userID (now - rotationGrace) ∨
        EndedBefore s presented userID (now - rotationGrace) := by
  constructor
  · intro judged
    obtain ⟨id, stored, t, found, revoked, late, owner⟩ := judge_endAll.mp judged
    obtain ⟨committed, hash⟩ := getByToken_spec found
    have before : t < now - rotationGrace := lt_sub_comm.mp late
    cases exchanged : stored.exchangedAt with
    | none => exact Or.inr ⟨id, stored, t, committed, hash, owner, exchanged, revoked, before⟩
    | some t' =>
        have marked := (versions.committed id stored committed).2
        have same := marked.exchanged t' exchanged
        rw [revoked, Option.some.injEq] at same
        subst same
        exact Or.inl ⟨id, stored, t, committed, hash, owner, exchanged, before⟩
  · rintro (⟨id, stored, t, committed, hash, owner, exchanged, before⟩ |
      ⟨id, stored, t, committed, hash, owner, -, revoked, before⟩)
    · have revoked := (versions.committed id stored committed).2.exchanged t exchanged
      exact judge_endAll.mpr ⟨id, stored, t,
        (getByToken_eq_some versions).mpr ⟨committed, hash⟩, revoked, lt_sub_comm.mp before, owner⟩
    · exact judge_endAll.mpr ⟨id, stored, t,
        (getByToken_eq_some versions).mpr ⟨committed, hash⟩, revoked, lt_sub_comm.mp before, owner⟩

/-- No token is both. -/
theorem EndedBefore.not_exchanged (versions : Versions s.tokens s.minted)
    {userID' : String} {time time' : Time} (ended : EndedBefore s presented userID time) :
    ¬ ExchangedBefore s presented userID' time' := by
  obtain ⟨id, stored, t, committed, hash, -, never, -⟩ := ended
  rintro ⟨id', stored', t', committed', hash', -, exchanged, -⟩
  have first := (getByToken_eq_some versions).mpr ⟨committed, hash⟩
  rw [(getByToken_eq_some versions).mpr ⟨committed', hash'⟩, Option.some.injEq,
    Prod.mk.injEq] at first
  rw [first.2, never] at exchanged
  cases exchanged

/-- The first step of a refresh starts to end a user's sessions when it has so decided. -/
theorem ending_iff {s₁ : Sessions} (found : s.requests[i]? = some r)
    (kind : r.kind = .refresh presented) (begun : r.stage = .begun)
    (first : (sessions compare).next s (.advance i d) = some s₁) :
    (∃ r', s₁.requests[i]? = some r' ∧ r'.ending = some userID) ↔
      judge (s.getByToken presented) d.now = .endAll userID := by
  obtain ⟨bound, -⟩ := List.getElem?_eq_some_iff.mp found
  have next : s₁ = beginRequest compare s i r d (.refresh presented) := by
    simp only [sessions, found, Option.bind_some, advanceRequest, begun, kind,
      Option.some.injEq] at first
    exact first.symm
  have moved : ∀ stage, (s.move i r stage).requests[i]? = some { r with stage := stage } :=
    fun stage => List.getElem?_set_self bound
  rw [next, beginRequest]
  cases judge (s.getByToken presented) d.now with
  | refuse =>
      simp only [moved, Option.some.injEq, exists_eq_left', reduceCtorEq, iff_false]
      intro ending
      cases ending
  | endAll userID' =>
      simp only [Sessions.execute, moved, Option.some.injEq, exists_eq_left', Request.ending,
        Verdict.endAll.injEq]
  | exchange old stored =>
      simp only [moved, Option.some.injEq, exists_eq_left', reduceCtorEq, iff_false]
      intro ending
      cases ending

end Refresh

/-! ## The sessions that are ended -/

/-- The stages of a request that is ending the sessions of a user. -/
def EndingHolds (s : Sessions) (i : ℕ) (userID : String) : Stage → Prop
  | .executing command targets _ => (∃ now, command = .revokeAll userID now) ∧ Revokes s i ∧
      ∀ generation, SweptBut s i userID generation targets
  | .ended _ => ∀ generation, SweptBut s i userID generation []
  | _ => False

/-- What holds while a request ends the sessions of a user. -/
structure Ending (s : Sessions) (i : ℕ) (userID : String) : Prop where
  rotating : Rotating s
  holds : ∃ r, s.requests[i]? = some r ∧ EndingHolds s i userID r.stage

section Ending

variable {compare : String → String → Bool} {s s' : Sessions} {i j : ℕ} {r : Request}
  {userID : String}

/-- What ends the sessions of an account outlasts the steps of others. -/
theorem EndingHolds.undisturbed {stage : Stage} (holds : EndingHolds s i userID stage)
    (undisturbed : Undisturbed s s' i) (admits : ∀ generation, Admits s s' userID generation) :
    EndingHolds s' i userID stage := by
  cases stage with
  | executing command targets affected =>
      obtain ⟨isSweep, revokes, swept⟩ := holds
      exact ⟨isSweep, revokes.undisturbed undisturbed, fun generation =>
        (swept generation).undisturbed undisturbed (admits generation)⟩
  | ended outcome =>
      exact fun generation => (holds generation).undisturbed undisturbed (admits generation)
  | _ => exact holds.elim

/-- A step that commits no session of a user adds none. -/
theorem Advance.admits_none (holds : StageHolds s j r) (versions : Versions s.tokens s.minted)
    (found : s.requests[j]? = some r) (advance : Advance s j r s')
    (none_ : s.admitting j ≠ some userID) (generation : ℕ) :
    Admits s s' userID generation := by
  refine advance.admits_of holds versions ?_ ?_
  · intro user strength signing _ _
    exact absurd (by simp [Sessions.admitting, found, signing]) none_
  · rintro old next new exchanging sees rfl
    exact absurd (by simp [Sessions.admitting, found, exchanging, sees]) none_

/-- `RevokeAllForUser` comes to its rows and is committed. -/
theorem EndingHolds.advance (holds : EndingHolds s i userID r.stage)
    (running : ∀ outcome, r.stage ≠ .ended outcome) (advance : Advance s i r s') :
    ∃ r', s'.requests = s.requests.set i r' ∧ EndingHolds s' i userID r'.stage := by
  cases stage : r.stage with
  | executing command targets affected =>
      rw [stage] at holds
      obtain ⟨⟨now, rfl⟩, revokes, swept⟩ := holds
      cases advance with
      | visits command' targets' affected' k row executing member free sees picked =>
          cases stage.symm.trans executing
          exact ⟨_, rfl, ⟨now, rfl⟩, revokes.visits rfl,
            fun generation => (swept generation).visits rfl⟩
      | passes command' targets' affected' k executing member free passed =>
          cases stage.symm.trans executing
          exact ⟨_, rfl, ⟨now, rfl⟩, revokes, fun generation =>
            (swept generation).passes revokes passed⟩
      | completes command' affected' outcome executing other kept ends =>
          cases stage.symm.trans executing
          exact ⟨_, rfl, fun generation => (swept generation).commit rfl revokes⟩
      | refuses idle =>
          rw [stage] at idle
          cases idle
      | starts command' idle =>
          rw [stage] at idle
          cases idle
      | loads presented old stored kind begun => cases stage.symm.trans begun
      | permits old stored loaded => cases stage.symm.trans loaded
      | signs owner generation begun => cases stage.symm.trans begun
      | checks owner current new kind begun => cases stage.symm.trans begun
      | changes owner hashed user checked => cases stage.symm.trans checked
      | exchanges old next now' inserted => cases stage.symm.trans inserted
      | unlinks before affected' deleted => cases stage.symm.trans deleted
      | inserts old stored d permitted => cases stage.symm.trans permitted
      | signsIn owner user d generation signing => cases stage.symm.trans signing
      | loses old next now' executing => cases stage.symm.trans executing
      | wins old next now' affected' executing => cases stage.symm.trans executing
      | commits old next exchanging => cases stage.symm.trans exchanging
  | ended outcome => exact absurd stage (running outcome)
  | _ =>
      rw [stage] at holds
      exact holds.elim

/-- It is the request that ends them, as long as it runs. -/
theorem EndingHolds.ending {stage : Stage} (holds : EndingHolds s i userID stage)
    (running : ∀ outcome, stage ≠ .ended outcome) (kind : Kind) (generation : ℕ) :
    (⟨kind, stage, generation⟩ : Request).ending = some userID := by
  cases stage with
  | executing command targets affected =>
      obtain ⟨⟨now, rfl⟩, -, -⟩ := holds
      rfl
  | ended outcome => exact absurd rfl (running outcome)
  | _ => exact holds.elim

/-- Whatever the service does next leaves the request ending them, if it is not divided. -/
theorem Ending.next {label : Label} (ending : Ending s i userID)
    (undivided : Undivided i s label) (running : s.ended i = false)
    (next : (sessions compare).next s label = some s') : Ending s' i userID := by
  obtain ⟨rotating, r, found, holds⟩ := ending
  have going : ∀ outcome, r.stage ≠ .ended outcome := by
    intro outcome stage
    rw [Sessions.ended, found, Option.any_some, stage] at running
    cases running
  have mine : r.ending = some userID := holds.ending going r.kind r.generation
  refine ⟨rotating_next rotating next, ?_⟩
  obtain ⟨kind, -, rfl⟩ | ⟨j, d, q, rfl, present, advance⟩ | ⟨j, q, rfl, present, -, rfl⟩ :=
    sessions_next next
  · obtain ⟨bound, -⟩ := List.getElem?_eq_some_iff.mp found
    exact ⟨r, (List.getElem?_append_left bound).trans found,
      holds.undisturbed (Effect.undisturbed .same rotating.versions (Nat.succ_ne_self i).symm)
        fun _ => admits_of_committed rfl⟩
  · by_cases same : j = i
    · subst same
      obtain rfl := Option.some.inj (found.symm.trans present)
      obtain ⟨r', requests, holds'⟩ := holds.advance going advance
      obtain ⟨bound, -⟩ := List.getElem?_eq_some_iff.mp found
      exact ⟨r', by rw [requests, List.getElem?_set_self bound], holds'⟩
    · obtain ⟨q', requests, -⟩ := advance.moves (rotating.stages j q present) rotating.versions
      refine ⟨r, by rw [requests, List.getElem?_set_ne same, found], ?_⟩
      exact holds.undisturbed (advance.effect.undisturbed rotating.versions (Ne.symm same))
        (advance.admits_none (rotating.stages j q present) rotating.versions present
          (undivided r found userID mine))
  · have other : j ≠ i := undivided r found (by rw [mine]; rfl)
    exact ⟨r, (List.getElem?_set_ne other).trans found,
      holds.undisturbed (Effect.undisturbed .rolledBack rotating.versions (Ne.symm other))
        fun _ => admits_of_committed rfl⟩

/-- A statement that has started has taken every session there is. -/
theorem Ending.of_begin {d : Draw} {presented : String} (rotating : Rotating s)
    (found : s.requests[i]? = some r) (kind : r.kind = .refresh presented)
    (begun : r.stage = .begun) (first : (sessions compare).next s (.advance i d) = some s')
    (judged : judge (s.getByToken presented) d.now = .endAll userID) : Ending s' i userID := by
  refine ⟨rotating_next rotating first, ?_⟩
  obtain ⟨bound, -⟩ := List.getElem?_eq_some_iff.mp found
  have next : s' = s.execute i r (.revokeAll userID d.now) := by
    simp only [sessions, found, Option.bind_some, advanceRequest, begun, kind, beginRequest,
      judged, Option.some.injEq] at first
    exact first.symm
  have locks : Locks s i [] := (rotating.stages i r found).locks_nil (by rw [begun]; rfl)
  rw [next]
  refine ⟨_, List.getElem?_set_self bound, ⟨d.now, rfl⟩, ?_, ?_⟩
  · exact fun k version held => absurd (locks k version held) List.not_mem_nil
  · exact fun generation => sweptBut_targets rotating.versions locks d.now

/-- Where a request that was ending a user's sessions ends, none of them is active. -/
theorem Ending.all_revoked (ending : Ending s i userID) (ended : s.ended i = true) {id : String}
    {row : Session} (stored : s.tokens.committed id = some row)
    (owner : row.token.userID = userID) : row.token.revokedAt ≠ none := by
  obtain ⟨rotating, r, found, holds⟩ := ending
  rw [Sessions.ended, found, Option.any_some] at ended
  split at ended
  next outcome stage =>
    rw [stage] at holds
    have locks : Locks s i [] := by
      have stageHolds := rotating.stages i r found
      rw [StageHolds, stage] at stageHolds
      cases outcome with
      | exchanged old next => exact stageHolds.1
      | _ => exact stageHolds
    intro live
    rcases holds (row.generation + 1) id row stored owner (Nat.lt_succ_self _) live with
      target | ⟨row', held, -⟩
    · exact absurd target List.not_mem_nil
    · exact absurd (locks id _ held) List.not_mem_nil
  next => cases ended

end Ending

/-! ## Exactness -/

section Exact

variable {compare : String → String → Bool} {ok : Sessions → Label → Prop} {s s₁ s₂ : Sessions}
  {i : ℕ} {r : Request} {d : Draw} {presented userID : String}

/-- A request that decides to end a user's sessions ends them all, where nothing comes between. -/
theorem endsAll_iff (reached : (sessions compare).Reach ok s) (found : s.requests[i]? = some r)
    (kind : r.kind = .refresh presented) (begun : r.stage = .begun)
    (first : (sessions compare).next s (.advance i d) = some s₁)
    (leads : (sessions compare).Leads
      (fun t label => Undivided i t label ∧ t.ended i = false) s₁ s₂)
    (ended : s₂.ended i = true) :
    EndsAll s₁ s₂ i userID ↔ ExchangedBefore s presented userID (d.now - rotationGrace) ∨
      EndedBefore s presented userID (d.now - rotationGrace) := by
  have rotating := rotating_of_reach reached
  rw [EndsAll, ending_iff found kind begun first, judge_endAll_iff rotating.versions]
  refine and_iff_left_of_imp fun decided id row stored owner => ?_
  have started : Ending s₁ i userID :=
    .of_begin rotating found kind begun first ((judge_endAll_iff rotating.versions).mpr decided)
  have swept : Ending s₂ i userID :=
    leads.invariant (P := fun t => Ending t i userID) started
      fun ending met next => ending.next met.1 met.2 next
  exact swept.all_revoked ended stored owner

/-- **Reuse detection.** For a refresh that is carried to its end, whatever else runs: all
sessions of a user are ended because of it exactly if the token had been exchanged more than
the grace before, but for the tokens that were ended and never exchanged. -/
theorem reuse_exact_iff (reached : (sessions compare).Reach ok s)
    (found : s.requests[i]? = some r) (kind : r.kind = .refresh presented)
    (begun : r.stage = .begun) (first : (sessions compare).next s (.advance i d) = some s₁)
    (leads : (sessions compare).Leads
      (fun t label => Undivided i t label ∧ t.ended i = false) s₁ s₂)
    (ended : s₂.ended i = true) :
    (∀ userID, EndsAll s₁ s₂ i userID ↔
        ExchangedBefore s presented userID (d.now - rotationGrace)) ↔
      ¬ ∃ userID, EndedBefore s presented userID (d.now - rotationGrace) := by
  have versions := versions_of_reach reached
  constructor
  · rintro exact_ ⟨userID, endedBefore⟩
    have ends : EndsAll s₁ s₂ i userID :=
      (endsAll_iff reached found kind begun first leads ended).mpr (Or.inr endedBefore)
    exact endedBefore.not_exchanged versions ((exact_ userID).mp ends)
  · intro spared userID
    rw [endsAll_iff reached found kind begun first leads ended]
    refine ⟨?_, Or.inl⟩
    rintro (exchanged | endedBefore)
    · exact exchanged
    · exact absurd ⟨userID, endedBefore⟩ spared

end Exact

section Runs

/-- What a refresh's first step comes to. -/
def afterFirst (s : Sessions) (i : ℕ) (now : Time) : Sessions :=
  ((sessions allmine).next s (.advance i ⟨now, "", "", ""⟩)).getD s

theorem afterFirst_next {s : Sessions} {i : ℕ} {now : Time}
    (taken : ((sessions allmine).next s (.advance i ⟨now, "", "", ""⟩)).isSome = true) :
    (sessions allmine).next s (.advance i ⟨now, "", "", ""⟩) = some (afterFirst s i now) := by
  obtain ⟨s', next⟩ := Option.isSome_iff_exists.mp taken
  rw [afterFirst, next, Option.getD_some]

/-- The cookie that a rotation has replaced is presented once more, a minute later. -/
def replayed : Sessions :=
  (sessions allmine).after Machine.always oneAccount (racingLabels ++ [.arrive (.refresh "first")])

/-- The request carried to its end: it comes to the session that is there, and commits. -/
def replayEnded : Sessions :=
  (sessions allmine).after (fun t label => Undivided 3 t label ∧ t.ended 3 = false)
    (afterFirst replayed 3 60000000)
    [.advance 3 ⟨60000000, "b", "", ""⟩, .advance 3 ⟨60000000, "", "", ""⟩]

/-- A token that is replayed ends the session made from it. -/
theorem reuse_exact_replayed :
    EndsAll (afterFirst replayed 3 60000000) replayEnded 3 "u" ∧
      (replayEnded.tokens.committed "b").map (·.token.revokedAt) = some (some 60000000) := by
  have reached : (sessions allmine).Reach Machine.always replayed :=
    Machine.reach_after ⟨rfl, rfl, rfl⟩ (by decide +kernel)
  have exchanged : ExchangedBefore replayed "first" "u" (60000000 - rotationGrace) :=
    ⟨"a", ⟨⟨"u", HashToken "first", refreshTokenTTL, some 8, some "b"⟩, 0, some 8⟩, 8,
      by decide +kernel, rfl, rfl, rfl, by decide +kernel⟩
  have found : replayed.requests[3]? = some ⟨.refresh "first", .begun, 0⟩ := by decide +kernel
  refine ⟨((reuse_exact_iff reached found rfl rfl (afterFirst_next (by decide +kernel))
    (Machine.leads_after (by decide +kernel)) (by decide +kernel)).mpr ?_ "u").mpr exchanged,
    by decide +kernel⟩
  rintro ⟨userID, ended⟩
  exact ended.not_exchanged (versions_of_reach reached) exchanged

/-- The account signs in, signs out, and a second later signs in again. -/
def signedInAgain : List Label :=
  signIn 0 0 "a" "first" ++
  [.arrive (.logout "first"), .advance 1 ⟨0, "", "", ""⟩, .advance 1 ⟨0, "a", "", ""⟩,
    .advance 1 ⟨0, "", "", ""⟩] ++
  signIn 2 1000000 "b" "second" ++ [.arrive (.refresh "first")]

def afterLogout : Sessions := (sessions allmine).after Machine.always oneAccount signedInAgain

/-- The refresh carried to its end. -/
def signedOutAgain : Sessions :=
  (sessions allmine).after (fun t label => Undivided 3 t label ∧ t.ended 3 = false)
    (afterFirst afterLogout 3 60000000)
    [.advance 3 ⟨60000000, "b", "", ""⟩, .advance 3 ⟨60000000, "", "", ""⟩]

/-- The old cookie, from another device: it was never exchanged, but it signs the user
out of the session opened since. -/
theorem reuse_after_logout :
    (sessions allmine).Reach Machine.always afterLogout ∧
      afterLogout.requests[3]? = some ⟨.refresh "first", .begun, 0⟩ ∧
      (sessions allmine).next afterLogout (.advance 3 ⟨60000000, "", "", ""⟩) =
        some (afterFirst afterLogout 3 60000000) ∧
      signedOutAgain.ended 3 = true ∧
      (∀ userID time, ¬ ExchangedBefore afterLogout "first" userID time) ∧
      EndsAll (afterFirst afterLogout 3 60000000) signedOutAgain 3 "u" ∧
      (afterLogout.tokens.committed "b").map (·.token.revokedAt) = some none ∧
      (signedOutAgain.tokens.committed "b").map (·.token.revokedAt) = some (some 60000000) := by
  have reached : (sessions allmine).Reach Machine.always afterLogout :=
    Machine.reach_after ⟨rfl, rfl, rfl⟩ (by decide +kernel)
  have ended : EndedBefore afterLogout "first" "u" (60000000 - rotationGrace) :=
    ⟨"a", ⟨⟨"u", HashToken "first", refreshTokenTTL, some 0, none⟩, 0, none⟩, 0,
      by decide +kernel, rfl, rfl, rfl, rfl, by decide +kernel⟩
  have found : afterLogout.requests[3]? = some ⟨.refresh "first", .begun, 0⟩ := by decide +kernel
  have first : (sessions allmine).next afterLogout (.advance 3 ⟨60000000, "", "", ""⟩) =
      some (afterFirst afterLogout 3 60000000) := afterFirst_next (by decide +kernel)
  have finished : signedOutAgain.ended 3 = true := by decide +kernel
  refine ⟨reached, found, first, finished, ?_, ?_, by decide +kernel, by decide +kernel⟩
  · exact fun userID time => ended.not_exchanged (versions_of_reach reached)
  · exact (endsAll_iff reached found rfl rfl first (Machine.leads_after (by decide +kernel))
      finished).mpr (Or.inr ended)

/-- The cookie that a rotation has replaced is presented while the session that came of it is
being exchanged once more. -/
def replayedBeside : Sessions :=
  (sessions allmine).after Machine.always oneAccount
    (racingLabels ++ [.arrive (.refresh "second"), .advance 3 ⟨60000000, "", "", ""⟩,
      .advance 3 ⟨60000000, "", "", ""⟩, .advance 3 ⟨60000000, "d", "fourth", ""⟩,
      .advance 3 ⟨60000000, "", "", ""⟩, .advance 3 ⟨60000000, "b", "", ""⟩,
      .advance 3 ⟨60000000, "", "", ""⟩, .arrive (.refresh "first")])

/-- The exchange is committed after the other request has taken its rows. -/
def besideEnded : Sessions :=
  (sessions allmine).after Machine.always (afterFirst replayedBeside 4 60000000)
    [.advance 3 ⟨60000000, "", "", ""⟩, .advance 4 ⟨60000000, "b", "", ""⟩,
      .advance 4 ⟨60000000, "", "", ""⟩]

/-- A session that is committed while the others are being ended survives. -/
example : ((afterFirst replayedBeside 4 60000000).requests[4]?.bind Request.ending = some "u") ∧
    besideEnded.ended 4 = true ∧
    (besideEnded.tokens.committed "d").map (·.token.revokedAt) = some none := by
  decide +kernel

end Runs

end ScoutPulse.Identity
