import ScoutPulse.Identity.Linearity

/-!
# A password change and the sessions before it

`ChangePassword` stores the new hash and then revokes every session of the user in a
statement of its own. A session that is committed after that statement has taken its
rows is not among them, though its password was checked, or its old token read,
before the change.
-/

namespace ScoutPulse.Identity

open ReadCommitted

/-! ## What is committed behind the revocation -/

/-- The generation a `ChangePassword` of the user came to, from when its
`RevokeAllForUser` has taken its rows. -/
def Request.swept (r : Request) (userID : String) : Option ℕ :=
  match r.kind, r.stage with
  | .changePassword owner _ _, .executing _ _ _ =>
      if owner = userID then some r.generation else none
  | .changePassword owner _ _, .ended .done => if owner = userID then some r.generation else none
  | _, _ => none

/-- The session a request commits in its next step: its user and generation. -/
def Sessions.committing (s : Sessions) (i : ℕ) : Option (String × ℕ) :=
  (s.requests[i]?).bind fun r =>
    match r.stage with
    | .signingIn userID =>
        match r.kind with
        | .login _ _ => some (userID, r.generation)
        | _ => none
    | .exchanging _ next =>
        ((s.tokens.visible i next).map fun row => (row.token.userID, row.generation))
    | _ => none

/-- No session that goes back to an older password is committed behind a revocation. -/
def Timely (s : Sessions) (label : Label) : Prop :=
  match label with
  | .advance i _ => ∀ made ∈ s.committing i, ∀ r ∈ s.requests, ∀ generation ∈ r.swept made.1,
      generation ≤ made.2
  | _ => True

instance (s : Sessions) (label : Label) : Decidable (Timely s label) :=
  match label with
  | .advance i _ => inferInstanceAs (Decidable (∀ made ∈ s.committing i, ∀ r ∈ s.requests,
      ∀ generation ∈ r.swept made.1, generation ≤ made.2))
  | .arrive _ => .isTrue trivial
  | .abort _ => .isTrue trivial

/-! ## What a password change has achieved at each stage -/

/-- The user's sessions from before `generation` are revoked, or the request has yet
to come to them, or it has revoked them under its lock. -/
def SweptBut (s : Sessions) (c : ℕ) (userID : String) (generation : ℕ) (targets : List String) :
    Prop :=
  ∀ k row, s.tokens.committed k = some row → row.token.userID = userID →
    row.generation < generation → row.token.revokedAt = none →
      k ∈ targets ∨ ∃ row', s.tokens.held k = some (c, some row') ∧ row'.token.revokedAt ≠ none

/-- The user is still there, with no older password than this. -/
def Reached (s : Sessions) (userID : String) (generation : ℕ) : Prop :=
  ∃ user, s.users userID = some user ∧ generation ≤ user.generation

/-- Every row a request has locked is one it leaves revoked. -/
def Revokes (s : Sessions) (c : ℕ) : Prop :=
  ∀ k version, s.tokens.held k = some (c, version) →
    ∃ row, version = some row ∧ row.token.revokedAt ≠ none

/-- The stages of a `ChangePassword` of the user. -/
def ChangeHolds (s : Sessions) (c : ℕ) (userID : String) (generation : ℕ) : Stage → Prop
  | .begun => True
  | .checked owner => owner = userID
  | .changed owner => owner = userID ∧ Reached s userID generation
  | .executing command targets _ => (∃ now, command = .revokeAll userID now) ∧
      Reached s userID generation ∧ Revokes s c ∧ SweptBut s c userID generation targets
  | .ended .done => Reached s userID generation ∧ SweptBut s c userID generation []
  | .ended .refused => True
  | _ => False

/-- What holds of a request that is a password change. -/
def PasswordHolds (s : Sessions) (c : ℕ) (r : Request) : Prop :=
  ∀ userID current new, r.kind = .changePassword userID current new →
    ChangeHolds s c userID r.generation r.stage

/-! ## Other requests' steps -/

/-- Passwords only get newer. -/
def Ages (s s' : Sessions) : Prop :=
  ∀ userID user, s.users userID = some user →
    ∃ user', s'.users userID = some user' ∧ user.generation ≤ user'.generation

/-- Every session of the user from before `generation` was there before the step. -/
def Admits (s s' : Sessions) (userID : String) (generation : ℕ) : Prop :=
  ∀ k row', s'.tokens.committed k = some row' → row'.token.userID = userID →
    row'.generation < generation → ∃ row, s.tokens.committed k = some row ∧ row.Later row'

section Frame

variable {s s' : Sessions} {c i : ℕ} {r : Request} {userID : String} {generation : ℕ}

theorem Ages.refl (s : Sessions) : Ages s s := fun _ user found => ⟨user, found, le_rfl⟩

theorem Reached.ages (reached : Reached s userID generation) (ages : Ages s s') :
    Reached s' userID generation := by
  obtain ⟨user, found, newer⟩ := reached
  obtain ⟨user', found', older⟩ := ages userID user found
  exact ⟨user', found', newer.trans older⟩

/-- A session of an older generation that stands now stood before. -/
theorem Admits.live {k : String} {row' : Session} (admits : Admits s s' userID generation)
    (found : s'.tokens.committed k = some row') (owner : row'.token.userID = userID)
    (older : row'.generation < generation) (live : row'.token.revokedAt = none) :
    ∃ row, s.tokens.committed k = some row ∧ row.token.userID = userID ∧
      row.generation < generation ∧ row.token.revokedAt = none := by
  obtain ⟨row, before, later⟩ := admits k row' found owner older
  refine ⟨row, before, later.userID.symm.trans owner, later.generation ▸ older, ?_⟩
  by_contra revoked
  obtain ⟨t, at_⟩ := Option.ne_none_iff_exists'.mp revoked
  rw [later.revoked t at_] at live
  cases live

/-- What was swept stays swept while nobody touches the rows of the request. -/
theorem SweptBut.undisturbed {targets : List String}
    (swept : SweptBut s c userID generation targets) (undisturbed : Undisturbed s s' c)
    (admits : Admits s s' userID generation) : SweptBut s' c userID generation targets := by
  intro k row' found owner older live
  obtain ⟨row, before, owner', older', live'⟩ := admits.live found owner older live
  rcases swept k row before owner' older' live' with target | ⟨version, held, revoked⟩
  · exact Or.inl target
  · exact Or.inr ⟨version, undisturbed.locks.mpr held, revoked⟩

theorem Revokes.undisturbed (revokes : Revokes s c) (undisturbed : Undisturbed s s' c) :
    Revokes s' c :=
  fun k version held => revokes k version (undisturbed.locks.mp held)

/-- What a change of a password rests on outlasts the steps of others. -/
theorem PasswordHolds.undisturbed (holds : PasswordHolds s c r) (undisturbed : Undisturbed s s' c)
    (ages : Ages s s')
    (admits : ∀ userID, ∀ generation ∈ r.swept userID, Admits s s' userID generation) :
    PasswordHolds s' c r := by
  intro userID current new kind
  have before := holds userID current new kind
  have admits' : r.swept userID = some r.generation → Admits s s' userID r.generation :=
    fun sweeps => admits userID r.generation sweeps
  cases stage : r.stage <;> rw [stage] at before
  case executing command targets affected =>
    obtain ⟨isSweep, reached, revokes, swept⟩ := before
    exact ⟨isSweep, reached.ages ages, revokes.undisturbed undisturbed,
      swept.undisturbed undisturbed (admits' (by simp [Request.swept, kind, stage]))⟩
  case ended outcome =>
    cases outcome with
    | done =>
        exact ⟨before.1.ages ages,
          before.2.undisturbed undisturbed (admits' (by simp [Request.swept, kind, stage]))⟩
    | refused => trivial
    | exchanged old next => exact before
  case changed owner => exact ⟨before.1, before.2.ages ages⟩
  all_goals exact before

end Frame

/-! ## What a step commits -/

section Commits

variable {s s' : Sessions} {i : ℕ} {r : Request} {userID : String} {generation : ℕ}

/-- A step makes nothing younger. -/
theorem Advance.ages (advance : Advance s i r s') : Ages s s' := by
  cases advance with
  | changes owner hashed user checked found =>
      intro userID user' found'
      by_cases same : userID = owner
      · subst same
        rw [found, Option.some.injEq] at found'
        subst found'
        exact ⟨_, Function.update_self _ _ _, Nat.le_succ _⟩
      · exact ⟨user', (Function.update_of_ne same _ _).trans found', le_rfl⟩
  | refuses => exact .refl s
  | loads => exact .refl s
  | permits => exact .refl s
  | signs => exact .refl s
  | checks => exact .refl s
  | starts => exact .refl s
  | exchanges => exact .refl s
  | unlinks => exact .refl s
  | inserts => exact .refl s
  | signsIn => exact .refl s
  | visits => exact .refl s
  | passes => exact .refl s
  | loses => exact .refl s
  | wins => exact .refl s
  | commits => exact .refl s
  | completes => exact .refl s

theorem admits_of_committed (rows : s'.tokens.committed = s.tokens.committed) :
    Admits s s' userID generation := by
  intro k row found _ _
  rw [rows] at found
  exact ⟨row, found, .refl row⟩

/-- A commit of rows that were stored before leaves later versions of them. -/
theorem later_of_commit {k : String} {row' : Session} (versions : Versions s.tokens s.minted)
    (found : (s.tokens.commit i).committed k = some row') (stored : s.tokens.committed k ≠ none) :
    ∃ row, s.tokens.committed k = some row ∧ row.Later row' := by
  rcases Table.commit_eq_some found with held | ⟨same, -⟩
  · obtain ⟨row, before⟩ := Option.ne_none_iff_exists'.mp stored
    exact ⟨row, before, versions.later k i row row' before held⟩
  · exact ⟨row', same, .refl row'⟩

/-- A sign-in commits one session, of the user whose password it has checked. -/
theorem admits_signIn {d : Draw} {owner : String} {strength : ℕ} (locks : Locks s i [])
    (tokens : s'.tokens = (insertRow s i d owner strength).tokens.commit i)
    (young : owner = userID → generation ≤ strength) : Admits s s' userID generation := by
  intro k row' found isUser older
  rw [tokens] at found
  rcases Table.commit_eq_some found with held | ⟨same, -⟩
  · obtain ⟨-, -, new⟩ | ⟨-, before⟩ := Table.write_held.mp held
    · cases new
      exact absurd (young isUser) (Nat.not_le.mpr older)
    · exact absurd (locks k _ before) List.not_mem_nil
  · exact ⟨row', same, .refl row'⟩

/-- A rotation commits the next session. -/
theorem admits_exchange {kind : Kind} {old next : String} (versions : Versions s.tokens s.minted)
    (tokens : s'.tokens = s.tokens.commit i) (inserted : Inserted s i kind old next)
    (revoked : Revoked s i old) (locks : Locks s i [old, next])
    (young : ∀ new, s.tokens.visible i next = some new → new.token.userID = userID →
      generation ≤ new.generation) : Admits s s' userID generation := by
  intro k row' found isUser older
  rw [tokens] at found
  by_cases isNext : k = next
  · subst isNext
    exact absurd (young row' found isUser) (Nat.not_le.mpr older)
  · refine later_of_commit versions found ?_
    rcases Table.commit_eq_some found with held | ⟨same, -⟩
    · have isOld : k = old := by
        rcases List.mem_cons.mp (locks k _ held) with same | other
        · exact same
        · exact absurd (List.mem_singleton.mp other) isNext
      obtain ⟨row, -, before, -⟩ := revoked
      rw [isOld, before]
      exact Option.some_ne_none row
    · rw [same]
      exact Option.some_ne_none row'

/-- What one step adds to the sessions of a user is what it signs in or exchanges. -/
theorem Advance.admits_of (holds : StageHolds s i r) (versions : Versions s.tokens s.minted)
    (advance : Advance s i r s')
    (signs : ∀ user strength, r.stage = .signingIn userID → s.users userID = some user →
      ((∃ identifier password, r.kind = .login identifier password) ∧ strength = r.generation ∨
        strength = user.generation) → generation ≤ strength)
    (exchanges : ∀ old next new, r.stage = .exchanging old next →
      s.tokens.visible i next = some new → new.token.userID = userID →
        generation ≤ new.generation) : Admits s s' userID generation := by
  cases advance with
  | signsIn owner user d strength signing known fresh strong =>
      refine admits_signIn (holds.locks_nil (by rw [signing]; rfl)) rfl ?_
      rintro rfl
      exact signs user strength signing known strong
  | commits old next exchanging =>
      rw [StageHolds, exchanging] at holds
      obtain ⟨inserted, revoked, locks⟩ := holds
      exact admits_exchange versions rfl inserted revoked locks fun new =>
        exchanges old next new exchanging
  | completes c affected outcome executing other kept ends =>
      intro k row' now isUser older
      refine later_of_commit versions now ?_
      rcases Table.commit_eq_some now with held | ⟨same, -⟩
      · exact holds.stored executing other k _ held
      · rw [same]
        exact Option.some_ne_none row'
  | refuses => exact admits_of_committed rfl
  | loads => exact admits_of_committed rfl
  | permits => exact admits_of_committed rfl
  | signs => exact admits_of_committed rfl
  | checks => exact admits_of_committed rfl
  | changes => exact admits_of_committed rfl
  | starts => exact admits_of_committed rfl
  | exchanges => exact admits_of_committed rfl
  | unlinks => exact admits_of_committed rfl
  | inserts => exact admits_of_committed rfl
  | visits => exact admits_of_committed rfl
  | passes => exact admits_of_committed rfl
  | loses => exact admits_of_committed rfl
  | wins => exact admits_of_committed rfl

/-- What one step adds to the sessions of a user is young enough, if the step is
timely and the user has come to the generation. -/
theorem Advance.admits (holds : StageHolds s i r) (versions : Versions s.tokens s.minted)
    (found : s.requests[i]? = some r) (advance : Advance s i r s')
    (timely : ∀ made ∈ s.committing i, made.1 = userID → generation ≤ made.2)
    (reached : Reached s userID generation) : Admits s s' userID generation := by
  refine advance.admits_of holds versions ?_ ?_
  · rintro user strength signing known (⟨⟨identifier, password, isLogin⟩, rfl⟩ | rfl)
    · refine timely (userID, r.generation) ?_ rfl
      simp [Sessions.committing, found, signing, isLogin]
    · obtain ⟨user', found', newer⟩ := reached
      rw [known, Option.some.injEq] at found'
      subst found'
      exact newer
  · intro old next new exchanging sees isUser
    refine timely (new.token.userID, new.generation) ?_ isUser
    simp [Sessions.committing, found, exchanging, sees]

end Commits

/-! ## The password change's own steps -/

section Own

variable {s s' : Sessions} {c : ℕ} {r : Request} {userID : String} {generation : ℕ}

/-- `RevokeAllForUser` sets out with every session that is not revoked. -/
theorem sweptBut_targets (versions : Versions s.tokens s.minted) (locks : Locks s c [])
    (now : Time) : SweptBut s c userID generation
      ((Command.revokeAll userID now).statement.targets s.tokens c s.ids) := by
  intro k row found owner _ live
  refine Or.inl (List.mem_filter.mpr ⟨(versions.committed k row found).1.mem, ?_⟩)
  have sees : s.tokens.visible c k = some row := by
    rw [Table.visible_of_not_held, found]
    exact fun v held => List.not_mem_nil (locks k v held)
  rw [sees, Option.any_some]
  simp [Command.statement, Command.picks, owner, live]

/-- It comes to a row that it revokes. -/
theorem SweptBut.visits {targets : List String} {k : String} {row : Session} {now : Time}
    (swept : SweptBut s c userID generation targets)
    (tokens : s'.tokens = s.tokens.write c k ((Command.revokeAll userID now).change row)) :
    SweptBut s' c userID generation (targets.erase k) := by
  intro j row' found owner older live
  by_cases same : j = k
  · subst same
    refine Or.inr ⟨row.revoke now, ?_, Option.some_ne_none now⟩
    rw [tokens, Table.write_held]
    exact Or.inl ⟨rfl, rfl, rfl⟩
  · rw [tokens] at found ⊢
    rcases swept j row' found owner older live with target | ⟨version, held, revoked⟩
    · exact Or.inl ((List.mem_erase_of_ne same).mpr target)
    · exact Or.inr ⟨version, Table.write_held.mpr (Or.inr ⟨same, held⟩), revoked⟩

/-- It comes to a row that is revoked already. -/
theorem SweptBut.passes {targets : List String} {k : String} {now : Time}
    (swept : SweptBut s c userID generation targets) (revokes : Revokes s c)
    (passed : ∀ row, s.tokens.visible c k = some row →
      (Command.revokeAll userID now).picks k row = false) :
    SweptBut s c userID generation (targets.erase k) := by
  intro j row found owner older live
  by_cases own : ∃ version, s.tokens.held j = some (c, version)
  · obtain ⟨version, held⟩ := own
    obtain ⟨row', rfl, revoked⟩ := revokes j version held
    exact Or.inr ⟨row', held, revoked⟩
  · have unheld : ∀ v, s.tokens.held j ≠ some (c, v) := fun v held => own ⟨v, held⟩
    rcases swept j row found owner older live with target | ⟨version, held, -⟩
    · refine Or.inl ((List.mem_erase_of_ne ?_).mpr target)
      rintro rfl
      have unpicked := passed row (by rw [Table.visible_of_not_held unheld, found])
      simp [Command.picks, owner, live] at unpicked
    · exact absurd held (unheld _)

/-- It commits when it has come to every row. -/
theorem SweptBut.commit (swept : SweptBut s c userID generation [])
    (tokens : s'.tokens = s.tokens.commit c) (revokes : Revokes s c) :
    SweptBut s' c userID generation [] := by
  intro k row found owner older live
  rw [tokens] at found
  rcases Table.commit_eq_some found with held | ⟨before, unheld⟩
  · obtain ⟨row', same, revoked⟩ := revokes k _ held
    rw [Option.some.injEq] at same
    subst same
    exact absurd live revoked
  · rcases swept k row before owner older live with target | ⟨version, held, -⟩
    · exact absurd target List.not_mem_nil
    · exact absurd held (unheld _)

/-- Visiting a row revokes it. -/
theorem Revokes.visits {k : String} {row : Session} {now : Time} (revokes : Revokes s c)
    (tokens : s'.tokens = s.tokens.write c k ((Command.revokeAll userID now).change row)) :
    Revokes s' c := by
  intro j version held
  rw [tokens] at held
  obtain ⟨-, -, rfl⟩ | ⟨-, before⟩ := Table.write_held.mp held
  · exact ⟨row.revoke now, rfl, Option.some_ne_none now⟩
  · exact revokes j version before

/-- A password change keeps to what its stage says. -/
theorem PasswordHolds.advance (holds : PasswordHolds s c r) (stageHolds : StageHolds s c r)
    (versions : Versions s.tokens s.minted) (advance : Advance s c r s') :
    ∃ r', s'.requests = s.requests.set c r' ∧ PasswordHolds s' c r' := by
  cases advance with
  | refuses idle => exact ⟨_, rfl, fun _ _ _ _ => trivial⟩
  | loads presented old stored isRefresh begun found live =>
      refine ⟨_, rfl, fun userID current new kind => ?_⟩
      cases isRefresh.symm.trans kind
  | permits old stored loaded =>
      refine ⟨_, rfl, fun userID current new kind => ?_⟩
      have before := holds userID current new kind
      rw [loaded] at before
      exact before.elim
  | signs owner strength begun isSignIn known =>
      refine ⟨_, rfl, fun userID current new kind => ?_⟩
      rcases isSignIn with ⟨identifier, password, isLogin⟩ | isProvider
      · cases isLogin.symm.trans kind
      · cases isProvider.symm.trans kind
  | checks owner current new isChange begun =>
      refine ⟨_, rfl, fun userID current' new' kind => ?_⟩
      cases isChange.symm.trans kind
      rfl
  | changes owner hashed user checked found =>
      refine ⟨_, rfl, fun userID current new kind => ?_⟩
      have before := holds userID current new kind
      rw [checked] at before
      obtain rfl : owner = userID := before
      exact ⟨rfl, _, Function.update_self _ _ _, le_rfl⟩
  | starts command idle other sweep =>
      refine ⟨_, rfl, fun userID current new kind => ?_⟩
      obtain ⟨owner, now, changed, rfl⟩ := sweep userID current new kind
      have before := holds userID current new kind
      rw [changed] at before
      obtain ⟨rfl, reached⟩ := before
      have locks := stageHolds.locks_nil idle
      refine ⟨⟨now, rfl⟩, reached, ?_, sweptBut_targets versions locks now⟩
      exact fun k version held => absurd (locks k version held) List.not_mem_nil
  | exchanges old next now inserted =>
      refine ⟨_, rfl, fun userID current new kind => ?_⟩
      have before := holds userID current new kind
      rw [inserted] at before
      exact before.elim
  | unlinks expired affected deleted =>
      refine ⟨_, rfl, fun userID current new kind => ?_⟩
      have before := holds userID current new kind
      rw [deleted] at before
      obtain ⟨⟨now, impossible⟩, -⟩ := before
      cases impossible
  | inserts old stored d permitted fresh =>
      refine ⟨_, rfl, fun userID current new kind => ?_⟩
      have before := holds userID current new kind
      rw [permitted] at before
      exact before.elim
  | signsIn owner user d strength signing found fresh strong =>
      refine ⟨_, rfl, fun userID current new kind => ?_⟩
      have before := holds userID current new kind
      rw [signing] at before
      exact before.elim
  | visits command targets affected k row executing member free sees picked =>
      refine ⟨_, rfl, fun userID current new kind => ?_⟩
      have before := holds userID current new kind
      rw [executing] at before
      obtain ⟨⟨now, rfl⟩, reached, revokes, swept⟩ := before
      exact ⟨⟨now, rfl⟩, reached, revokes.visits rfl, swept.visits rfl⟩
  | passes command targets affected k executing member free passed =>
      refine ⟨_, rfl, fun userID current new kind => ?_⟩
      have before := holds userID current new kind
      rw [executing] at before
      obtain ⟨⟨now, rfl⟩, reached, revokes, swept⟩ := before
      exact ⟨⟨now, rfl⟩, reached, revokes, swept.passes revokes passed⟩
  | loses old next now executing =>
      refine ⟨_, rfl, fun userID current new kind => ?_⟩
      trivial
  | wins old next now affected executing hit =>
      refine ⟨_, rfl, fun userID current new kind => ?_⟩
      have before := holds userID current new kind
      rw [executing] at before
      obtain ⟨⟨now', impossible⟩, -⟩ := before
      cases impossible
  | commits old next exchanging =>
      refine ⟨_, rfl, fun userID current new kind => ?_⟩
      have before := holds userID current new kind
      rw [exchanging] at before
      exact before.elim
  | completes command affected outcome executing other kept ends =>
      refine ⟨_, rfl, fun userID current new kind => ?_⟩
      have before := holds userID current new kind
      rw [executing] at before
      obtain ⟨-, reached, revokes, swept⟩ := before
      cases outcome with
      | done => exact ⟨reached, swept.commit rfl revokes⟩
      | refused => trivial
      | exchanged old next => exact absurd rfl (ends old next)

end Own

/-! ## Over a run -/

/-- What holds of all requests while passwords change. -/
structure Changing (s : Sessions) : Prop where
  rotating : Rotating s
  password : ∀ i r, s.requests[i]? = some r → PasswordHolds s i r

section Runs

variable {compare : String → String → Bool} {s s' : Sessions} {i : ℕ} {r : Request} {d : Draw}

/-- A password change that has taken its rows has come to its generation. -/
theorem PasswordHolds.reached {generation : ℕ} {userID : String} (holds : PasswordHolds s i r)
    (sweeps : generation ∈ r.swept userID) : Reached s userID generation := by
  rw [Option.mem_def, Request.swept] at sweeps
  split at sweeps
  next owner current new command targets affected kind stage =>
    split_ifs at sweeps with same
    subst same
    obtain rfl := Option.some.inj sweeps
    have before := holds owner current new kind
    rw [stage] at before
    exact before.2.1
  next owner current new kind stage =>
    split_ifs at sweeps with same
    subst same
    obtain rfl := Option.some.inj sweeps
    have before := holds owner current new kind
    rw [stage] at before
    exact before.1
  next => cases sweeps

/-- A timely step keeps what each change of a password rests on. -/
theorem Changing.advance (changing : Changing s) (found : s.requests[i]? = some r)
    (advance : Advance s i r s') (timely : Timely s (.advance i d)) : Changing s' := by
  obtain ⟨rotating, password⟩ := changing
  have stageHolds := rotating.stages i r found
  refine ⟨rotating.advance found advance, fun j q present => ?_⟩
  obtain ⟨r', requests, holds⟩ :=
    (password i r found).advance stageHolds rotating.versions advance
  by_cases same : j = i
  · subst same
    obtain ⟨bound, -⟩ := List.getElem?_eq_some_iff.mp found
    rw [requests, List.getElem?_set_self bound, Option.some.injEq] at present
    subst present
    exact holds
  · rw [requests, List.getElem?_set_ne (Ne.symm same)] at present
    have before := password j q present
    refine before.undisturbed (advance.effect.undisturbed rotating.versions same) advance.ages ?_
    intro userID generation sweeps
    refine advance.admits stageHolds rotating.versions found ?_ (before.reached sweeps)
    rintro made isMade rfl
    exact timely made isMade q (List.mem_of_getElem? present) generation sweeps

/-- So does a request that is given up. -/
theorem Changing.abort (changing : Changing s) (found : s.requests[i]? = some r)
    (running : ∀ outcome, r.stage ≠ .ended outcome) :
    Changing ({ s with tokens := s.tokens.rollback i }.move i r (.ended .refused)) := by
  obtain ⟨rotating, password⟩ := changing
  refine ⟨rotating.abort found running, fun j q present => ?_⟩
  by_cases same : j = i
  · subst same
    obtain ⟨bound, -⟩ := List.getElem?_eq_some_iff.mp found
    simp only [Sessions.move, List.getElem?_set_self bound, Option.some.injEq] at present
    subst present
    exact fun _ _ _ _ => trivial
  · simp only [Sessions.move, List.getElem?_set_ne (Ne.symm same)] at present
    exact (password j q present).undisturbed
      (Effect.undisturbed .rolledBack rotating.versions same) (Ages.refl s)
      fun _ _ _ => admits_of_committed rfl

/-- So does one more request. -/
theorem Changing.arrive (changing : Changing s) (kind : Kind) :
    Changing { s with requests := s.requests ++ [⟨kind, .begun, 0⟩] } := by
  obtain ⟨rotating, password⟩ := changing
  refine ⟨rotating.arrive kind, fun j q present => ?_⟩
  rcases lt_or_ge j s.requests.length with bound | beyond
  · rw [List.getElem?_append_left bound] at present
    exact (password j q present).undisturbed
      (Effect.undisturbed .same rotating.versions (Nat.succ_ne_self j).symm) (Ages.refl s)
      fun _ _ _ => admits_of_committed rfl
  · rw [List.getElem?_append_right beyond] at present
    obtain rfl := List.mem_singleton.mp (List.mem_of_getElem? present)
    exact fun _ _ _ _ => trivial

/-- It holds in every state that timely steps reach. -/
theorem changing_of_reach (reached : (sessions compare).Reach Timely s) : Changing s := by
  refine reached.invariant (P := Changing) ?_ ?_
  · intro t start
    have first : (sessions compare).Reach Timely t := ⟨t, start, .refl t⟩
    refine ⟨rotating_of_reach first, fun i r found => ?_⟩
    rw [start.2.2] at found
    cases found
  · intro t t' label changing timely next
    obtain ⟨kind, -, rfl⟩ | ⟨i, d, r, rfl, found, advance⟩ | ⟨i, r, -, found, running, rfl⟩ :=
      sessions_next next
    · exact changing.arrive kind
    · exact changing.advance found advance timely
    · exact changing.abort found running

/-- A password change that has ended well has left no active session from before it,
if none was committed behind its back. -/
theorem password_change_ends_sessions {c generation : ℕ} {userID current new k : String}
    {row : Session} (reached : (sessions compare).Reach Timely s)
    (changed : s.requests[c]? =
      some ⟨.changePassword userID current new, .ended .done, generation⟩)
    (stored : s.tokens.committed k = some row) (owner : row.token.userID = userID)
    (older : row.generation < generation) (now : Time) : row.token.active now = false := by
  obtain ⟨rotating, password⟩ := changing_of_reach reached
  obtain ⟨-, swept⟩ := password c _ changed userID current new rfl
  have locks : Locks s c [] := rotating.stages c _ changed
  have revoked : row.token.revokedAt ≠ none := by
    intro live
    rcases swept k row stored owner older live with target | ⟨row', held, -⟩
    · exact absurd target List.not_mem_nil
    · exact absurd (locks k _ held) List.not_mem_nil
  simp [RefreshToken.active, revoked]

end Runs

/-- A change of the password, as the request `i`, up to its `RevokeAllForUser`. -/
def changePassword (i : ℕ) (now : Time) : List Label :=
  [.arrive (.changePassword "u" "allmine" "abc123xyz"), .advance i ⟨now, "", "", ""⟩,
    .advance i ⟨now, "", "", "$2a$12$R9h/cIPz0gi.URNNX3kh2OPST9/PgBkqquzi.Ss7KIUgO2t0jWMUW"⟩,
    .advance i ⟨now, "", "", ""⟩]

/-- The session's refresh has read its token before the change, and rotates after. -/
def rotatedLate : Sessions :=
  (sessions allmine).after Timely oneAccount
    (signIn 0 0 "a" "first" ++
      [.arrive (.refresh "first"), .advance 1 ⟨5, "", "", ""⟩, .advance 1 ⟨6, "", "", ""⟩] ++
      changePassword 2 7 ++
      [.advance 2 ⟨7, "a", "", ""⟩, .advance 2 ⟨7, "", "", ""⟩,
        .advance 1 ⟨8, "b", "second", ""⟩, .advance 1 ⟨8, "", "", ""⟩, .advance 1 ⟨8, "", "", ""⟩])

/-- A refresh that was late leaves no session that is good at any time. -/
theorem password_change_ends_sessions_late :
    ∃ row, rotatedLate.tokens.committed "a" = some row ∧ ∀ now, row.token.active now = false := by
  have reached : (sessions allmine).Reach Timely rotatedLate :=
    Machine.reach_after ⟨rfl, rfl, rfl⟩ (by decide +kernel)
  have changed : rotatedLate.requests[2]? =
      some ⟨.changePassword "u" "allmine" "abc123xyz", .ended .done, 1⟩ := by decide +kernel
  have stored : rotatedLate.tokens.committed "a" =
      some ⟨⟨"u", HashToken "first", refreshTokenTTL, some 7, none⟩, 0, none⟩ := by decide +kernel
  refine ⟨_, stored, fun now => ?_⟩
  exact password_change_ends_sessions reached changed stored rfl Nat.zero_lt_one now

/-- The password is compared before the change and the session inserted after it. -/
def signedInLate : Sessions :=
  (sessions allmine).after Machine.always oneAccount
    ([.arrive (.login "ana" "allmine"), .advance 0 ⟨0, "u", "", ""⟩] ++ changePassword 1 5 ++
      [.advance 1 ⟨5, "", "", ""⟩, .advance 0 ⟨6, "a", "first", ""⟩])

/-- The old password's session outlives the change, every request having ended. -/
theorem password_change_survived :
    (sessions allmine).Reach Machine.always signedInLate ∧
      signedInLate.requests = [⟨.login "ana" "allmine", .ended .done, 0⟩,
        ⟨.changePassword "u" "allmine" "abc123xyz", .ended .done, 1⟩] ∧
      ∃ row, signedInLate.tokens.committed "a" = some row ∧ row.token.userID = "u" ∧
        row.generation < 1 ∧ row.token.active 7 = true :=
  ⟨Machine.reach_after ⟨rfl, rfl, rfl⟩ (by decide +kernel), by decide +kernel,
    ⟨⟨"u", HashToken "first", 6 + refreshTokenTTL, none, none⟩, 0, none⟩, by decide +kernel, rfl,
    Nat.zero_lt_one, by decide +kernel⟩

/-! ## The age of a session -/

/-- What a request is about to make a session of is no newer than the user's password. -/
def StageDated (s : Sessions) (r : Request) : Prop :=
  match r.stage with
  | .loaded _ stored => Reached s stored.token.userID stored.generation
  | .permitted _ stored => Reached s stored.token.userID stored.generation
  | .signingIn userID => (∃ identifier password, r.kind = .login identifier password) →
      Reached s userID r.generation
  | _ => True

/-- No session is newer than its user's password. -/
structure Dated (s : Sessions) : Prop where
  minted : ∀ m ∈ s.minted, Reached s m.userID m.generation
  stages : ∀ (i : ℕ) (r : Request), s.requests[i]? = some r → StageDated s r

section Age

variable {compare : String → String → Bool} {ok : Sessions → Label → Prop} {s s' : Sessions}
  {i : ℕ} {r : Request} {d : Draw}

/-- A generation a stage has read stays reached. -/
theorem StageDated.ages (dated : StageDated s r) (ages : Ages s s') : StageDated s' r := by
  obtain ⟨kind, stage, generation⟩ := r
  cases stage
  case loaded old stored => exact Reached.ages dated ages
  case permitted old stored => exact Reached.ages dated ages
  case signingIn userID => exact fun isLogin => (dated isLogin).ages ages
  all_goals trivial

/-- The rows a step inserts are dated. -/
theorem Advance.minted_dated (minted : ∀ m ∈ s.minted, Reached s m.userID m.generation)
    (dated : StageDated s r) (advance : Advance s i r s') :
    ∀ m ∈ s'.minted, Reached s' m.userID m.generation := by
  have ages := advance.ages
  have kept : ∀ m ∈ s.minted, Reached s' m.userID m.generation :=
    fun m member => (minted m member).ages ages
  cases advance with
  | inserts old stored d permitted fresh =>
      intro m member
      rw [StageDated, permitted] at dated
      rcases List.mem_cons.mp member with rfl | before
      · exact dated
      · exact kept m before
  | signsIn userID user d generation signing found fresh strong =>
      intro m member
      rw [StageDated, signing] at dated
      rcases List.mem_cons.mp member with rfl | before
      · rcases strong with ⟨isLogin, rfl⟩ | rfl
        · exact dated isLogin
        · exact ⟨user, found, le_rfl⟩
      · exact kept m before
  | refuses => exact kept
  | loads => exact kept
  | permits => exact kept
  | signs => exact kept
  | checks => exact kept
  | changes => exact kept
  | starts => exact kept
  | exchanges => exact kept
  | unlinks => exact kept
  | visits => exact kept
  | passes => exact kept
  | loses => exact kept
  | wins => exact kept
  | commits => exact kept
  | completes => exact kept

/-- A step moves its request to a stage whose generation has been reached. -/
theorem Advance.stage_dated (minted : ∀ m ∈ s.minted, Reached s m.userID m.generation)
    (versions : Versions s.tokens s.minted) (dated : StageDated s r)
    (advance : Advance s i r s') :
    ∃ r', s'.requests = s.requests.set i r' ∧ StageDated s' r' := by
  cases advance with
  | loads presented old stored isRefresh begun found live =>
      refine ⟨_, rfl, ?_⟩
      obtain ⟨committed, -⟩ := getByToken_spec found
      obtain ⟨⟨m, member, -, -, owner, generation⟩, -⟩ := versions.committed old stored committed
      have isDated := minted m member
      rw [owner, generation] at isDated
      exact isDated
  | permits old stored loaded =>
      rw [StageDated, loaded] at dated
      exact ⟨_, rfl, dated⟩
  | signs userID generation begun isSignIn known =>
      obtain ⟨user, found, strength⟩ := known
      exact ⟨_, rfl, fun isLogin => ⟨user, found, (strength isLogin).le⟩⟩
  | refuses => exact ⟨_, rfl, trivial⟩
  | checks => exact ⟨_, rfl, trivial⟩
  | changes => exact ⟨_, rfl, trivial⟩
  | starts => exact ⟨_, rfl, trivial⟩
  | exchanges => exact ⟨_, rfl, trivial⟩
  | unlinks => exact ⟨_, rfl, trivial⟩
  | inserts => exact ⟨_, rfl, trivial⟩
  | signsIn => exact ⟨_, rfl, trivial⟩
  | visits => exact ⟨_, rfl, trivial⟩
  | passes => exact ⟨_, rfl, trivial⟩
  | loses => exact ⟨_, rfl, trivial⟩
  | wins => exact ⟨_, rfl, trivial⟩
  | commits => exact ⟨_, rfl, trivial⟩
  | completes => exact ⟨_, rfl, trivial⟩

/-- Whatever the service does next keeps the generations read among those reached. -/
theorem Dated.next {label : Label} (dated : Dated s) (versions : Versions s.tokens s.minted)
    (next : (sessions compare).next s label = some s') : Dated s' := by
  obtain ⟨kind, -, rfl⟩ | ⟨i, d, r, -, found, advance⟩ | ⟨i, r, -, found, -, rfl⟩ :=
    sessions_next next
  · refine ⟨dated.minted, fun j q present => ?_⟩
    rcases List.mem_append.mp (List.mem_of_getElem? present) with before | begun
    · obtain ⟨j', present'⟩ := List.getElem?_of_mem before
      exact (dated.stages j' q present').ages (Ages.refl s)
    · obtain rfl := List.mem_singleton.mp begun
      trivial
  · obtain ⟨r', requests, now⟩ :=
      advance.stage_dated dated.minted versions (dated.stages i r found)
    refine ⟨advance.minted_dated dated.minted (dated.stages i r found), fun j q present => ?_⟩
    rw [requests] at present
    rcases List.mem_or_eq_of_mem_set (List.mem_of_getElem? present) with before | rfl
    · obtain ⟨j', present'⟩ := List.getElem?_of_mem before
      exact (dated.stages j' q present').ages advance.ages
    · exact now
  · refine ⟨dated.minted, fun j q present => ?_⟩
    rcases List.mem_or_eq_of_mem_set (List.mem_of_getElem? present) with before | rfl
    · obtain ⟨j', present'⟩ := List.getElem?_of_mem before
      exact (dated.stages j' q present').ages (Ages.refl s)
    · trivial

/-- They are, in every state reached. -/
theorem dated_of_reach (reached : (sessions compare).Reach ok s) : Dated s := by
  have both : Versions s.tokens s.minted ∧ Dated s := by
    refine reached.invariant (P := fun s => Versions s.tokens s.minted ∧ Dated s) ?_ ?_
    · intro t start
      have first : (sessions compare).Reach ok t := ⟨t, start, .refl t⟩
      refine ⟨versions_of_reach first, ?_, ?_⟩
      · intro m member
        rw [start.2.1] at member
        cases member
      · intro i r found
        rw [start.2.2] at found
        cases found
    · rintro t t' label ⟨versions, dated⟩ - next
      exact ⟨versions_next versions next, dated.next versions next⟩
  exact both.2

/-- Every session there is when the new hash is stored is older than the new password. -/
theorem existing_sessions_older {userID k : String} {user : User} {row : Session}
    (reached : (sessions compare).Reach ok s) (found : s.users userID = some user)
    (stored : s.tokens.committed k = some row) (owner : row.token.userID = userID) :
    row.generation < user.generation + 1 := by
  obtain ⟨⟨m, member, -, -, isUser, generation⟩, -⟩ :=
    (versions_of_reach reached).committed k row stored
  obtain ⟨user', found', newer⟩ := (dated_of_reach reached).minted m member
  rw [isUser, owner, found, Option.some.injEq] at found'
  subst found'
  rw [← generation]
  exact Nat.lt_succ_of_le newer

end Age

end ScoutPulse.Identity
