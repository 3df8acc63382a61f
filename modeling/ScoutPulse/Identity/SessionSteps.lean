import ScoutPulse.Identity.Sessions
import Mathlib.Data.List.Nodup

/-!
# What a step of a session request does

Every step is one of a few: a request moves on, starts a statement, comes to a row,
inserts one, commits or gives back what it has locked. From this follows what holds
of the table itself, whatever the requests are up to: a row is never again another
session's, a revoked row stays revoked, and a row that is gone stays gone.
-/

namespace ScoutPulse.Identity

open ReadCommitted

/-- The stages in which a request has locked nothing and has not ended. -/
def Stage.idle : Stage → Bool
  | .inserted _ _ => false
  | .exchanging _ _ => false
  | .executing _ _ _ => false
  | .ended _ => false
  | _ => true

/-- The statement of `Rotate`. -/
def Command.rotates : Command → Bool
  | .exchange _ _ _ => true
  | _ => false

/-- Only an exchange rotates. -/
theorem Command.eq_exchange {c : Command} (rotates : c.rotates = true) :
    ∃ old next now, c = .exchange old next now := by
  cases c with
  | exchange old next now => exact ⟨old, next, now, rfl⟩
  | revoke hash now => cases rotates
  | revokeAll userID now => cases rotates
  | deleteExpired before => cases rotates
  | unlink deleted => cases rotates

/-- One step of a request, by what it does. -/
inductive Advance (s : Sessions) (i : ℕ) (r : Request) : Sessions → Prop
  | refuses (idle : r.stage.idle = true) : Advance s i r (s.move i r (.ended .refused))
  | loads (presented old : String) (stored : Session) (kind : r.kind = .refresh presented)
      (begun : r.stage = .begun) (found : s.getByToken presented = some (old, stored))
      (live : stored.token.revokedAt = none) : Advance s i r (s.move i r (.loaded old stored))
  | permits (old : String) (stored : Session) (loaded : r.stage = .loaded old stored) :
      Advance s i r (s.move i r (.permitted old stored))
  | signs (userID : String) (generation : ℕ) (begun : r.stage = .begun)
      (kind : (∃ identifier password, r.kind = .login identifier password) ∨
        r.kind = .provider userID)
      (known : ∃ user, s.users userID = some user ∧
        ((∃ identifier password, r.kind = .login identifier password) →
          generation = user.generation)) :
      Advance s i r (s.move i { r with generation := generation } (.signingIn userID))
  | checks (userID current new : String) (kind : r.kind = .changePassword userID current new)
      (begun : r.stage = .begun) : Advance s i r (s.move i r (.checked userID))
  | changes (userID hashed : String) (user : User) (checked : r.stage = .checked userID)
      (found : s.users userID = some user) :
      Advance s i r ({ s with
        users := Function.update s.users userID
          (some { user with passwordHash := hashed, generation := user.generation + 1 }) }.move
            i { r with generation := user.generation + 1 } (.changed userID))
  | starts (c : Command) (idle : r.stage.idle = true) (other : c.rotates = false)
      (sweep : ∀ userID current new, r.kind = .changePassword userID current new →
        ∃ owner now, r.stage = .changed owner ∧ c = .revokeAll owner now) :
      Advance s i r (s.execute i r c)
  | exchanges (old next : String) (now : Time) (inserted : r.stage = .inserted old next) :
      Advance s i r (s.execute i r (.exchange old next now))
  | unlinks (before : Time) (affected : List String)
      (deleted : r.stage = .executing (.deleteExpired before) [] affected) :
      Advance s i r (s.execute i r (.unlink affected))
  | inserts (old : String) (stored : Session) (d : Draw)
      (permitted : r.stage = .permitted old stored)
      (fresh : s.fresh d.id (HashToken d.token) = true) :
      Advance s i r ((insertRow s i d stored.token.userID stored.generation).move i r
        (.inserted old d.id))
  | signsIn (userID : String) (user : User) (d : Draw) (generation : ℕ)
      (signing : r.stage = .signingIn userID) (found : s.users userID = some user)
      (fresh : s.fresh d.id (HashToken d.token) = true)
      (strength : (∃ identifier password, r.kind = .login identifier password) ∧
          generation = r.generation ∨ generation = user.generation) :
      Advance s i r ({ insertRow s i d userID generation with
        tokens := (insertRow s i d userID generation).tokens.commit i }.move i r (.ended .done))
  | visits (c : Command) (targets affected : List String) (k : String) (row : Session)
      (executing : r.stage = .executing c targets affected) (member : k ∈ targets)
      (free : ∀ owner v, s.tokens.held k = some (owner, v) → owner = i)
      (sees : s.tokens.visible i k = some row) (picked : c.picks k row = true) :
      Advance s i r ({ s with tokens := s.tokens.write i k (c.change row) }.move i r
        (.executing c (targets.erase k) (k :: affected)))
  | passes (c : Command) (targets affected : List String) (k : String)
      (executing : r.stage = .executing c targets affected) (member : k ∈ targets)
      (free : ∀ owner v, s.tokens.held k = some (owner, v) → owner = i)
      (none_ : ∀ row, s.tokens.visible i k = some row → c.picks k row = false) :
      Advance s i r (s.move i r (.executing c (targets.erase k) affected))
  | loses (old next : String) (now : Time)
      (executing : r.stage = .executing (.exchange old next now) [] []) :
      Advance s i r ({ s with tokens := s.tokens.rollback i }.move i r (.ended .refused))
  | wins (old next : String) (now : Time) (affected : List String)
      (executing : r.stage = .executing (.exchange old next now) [] affected)
      (hit : affected ≠ []) : Advance s i r (s.move i r (.exchanging old next))
  | commits (old next : String) (exchanging : r.stage = .exchanging old next) :
      Advance s i r ({ s with tokens := s.tokens.commit i }.move i r
        (.ended (.exchanged old next)))
  | completes (c : Command) (affected : List String) (outcome : Outcome)
      (executing : r.stage = .executing c [] affected) (other : c.rotates = false)
      (kept : ∀ before, c ≠ .deleteExpired before)
      (ends : ∀ old next, outcome ≠ .exchanged old next) :
      Advance s i r ({ s with tokens := s.tokens.commit i }.move i r (.ended outcome))

section Inversion

variable {compare : String → String → Bool} {s s' : Sessions} {i : ℕ} {r : Request} {d : Draw}

/-- A token that is exchanged was found and stands. -/
theorem judge_exchange {found : Option (String × Session)} {now : Time} {old : String}
    {stored : Session} (judged : judge found now = .exchange old stored) :
    found = some (old, stored) ∧ stored.token.revokedAt = none := by
  cases found with
  | none => cases judged
  | some pair =>
      obtain ⟨id, session⟩ := pair
      simp only [judge] at judged
      split_ifs at judged with active
      cases judged
      simp only [RefreshToken.active, Bool.and_eq_true, decide_eq_true_eq] at active
      exact ⟨rfl, active.1⟩

/-- What a request begins with is one of the steps. -/
theorem beginRequest_advance (begun : r.stage = .begun) :
    Advance s i r (beginRequest compare s i r d r.kind) := by
  have idle : r.stage.idle = true := by rw [begun]; rfl
  cases kind : r.kind with
  | refresh presented =>
      simp only [beginRequest]
      cases judged : judge (s.getByToken presented) d.now with
      | refuse => exact .refuses idle
      | endAll userID => exact .starts _ idle rfl (by simp [kind])
      | exchange old stored =>
          obtain ⟨found, live⟩ := judge_exchange judged
          exact .loads presented old stored kind begun found live
  | login identifier password =>
      simp only [beginRequest]
      cases found : s.users d.id with
      | none => exact .refuses idle
      | some user =>
          simp only
          split_ifs with matched
          · exact .signs d.id user.generation begun (Or.inl ⟨identifier, password, kind⟩)
              ⟨user, found, fun _ => rfl⟩
          · exact .refuses idle
  | provider userID =>
      simp only [beginRequest]
      cases found : s.users userID with
      | none => exact .refuses idle
      | some user =>
          refine .signs userID r.generation begun (Or.inr kind) ⟨user, found, ?_⟩
          simp [kind]
  | logout token => exact .starts _ idle rfl (by simp [kind])
  | changePassword userID current new =>
      simp only [beginRequest]
      cases s.users userID with
      | none => exact .refuses idle
      | some user =>
          simp only
          split_ifs
          · exact .refuses idle
          · exact .checks userID current new kind begun
  | updateRole userID =>
      simp only [beginRequest]
      cases s.users userID with
      | none => exact .refuses idle
      | some user => exact .starts _ idle rfl (by simp [kind])
  | prune before => exact .starts _ idle rfl (by simp [kind])

/-- A command that is through is one of the steps. -/
theorem completeCommand_advance {c : Command} {affected : List String}
    (executing : r.stage = .executing c [] affected) :
    Advance s i r (completeCommand s i r affected c) := by
  cases c with
  | exchange old next now =>
      simp only [completeCommand]
      split_ifs with missed
      · subst missed
        exact .loses old next now executing
      · exact .wins old next now affected executing missed
  | revoke hash now =>
      refine .completes _ affected _ executing rfl (by simp) ?_
      intro old next
      cases r.kind <;> simp
  | revokeAll userID now =>
      refine .completes _ affected _ executing rfl (by simp) ?_
      intro old next
      cases r.kind <;> simp
  | deleteExpired before => exact .unlinks before affected executing
  | unlink deleted =>
      refine .completes _ affected _ executing rfl (by simp) ?_
      intro old next
      cases r.kind <;> simp

/-- Whatever a request does next is one of the steps. -/
theorem advanceRequest_advance (advanced : advanceRequest compare s i r d = some s') :
    Advance s i r s' := by
  cases stage : r.stage with
  | begun =>
      simp only [advanceRequest, stage, Option.some.injEq] at advanced
      subst advanced
      exact beginRequest_advance stage
  | loaded old stored =>
      simp only [advanceRequest, stage] at advanced
      cases found : s.users stored.token.userID with
      | none =>
          simp only [found, Option.some.injEq] at advanced
          subst advanced
          exact .refuses (by rw [stage]; rfl)
      | some user =>
          simp only [found, Option.some.injEq] at advanced
          subst advanced
          exact .permits old stored stage
  | permitted old stored =>
      simp only [advanceRequest, stage] at advanced
      split_ifs at advanced with fresh
      obtain rfl := Option.some.inj advanced
      exact .inserts old stored d stage fresh
  | inserted old next =>
      simp only [advanceRequest, stage, Option.some.injEq] at advanced
      subst advanced
      exact .exchanges old next d.now stage
  | exchanging old next =>
      simp only [advanceRequest, stage, Option.some.injEq] at advanced
      subst advanced
      exact .commits old next stage
  | signingIn userID =>
      simp only [advanceRequest, stage] at advanced
      cases found : s.users userID with
      | none =>
          simp only [found, Option.some.injEq] at advanced
          subst advanced
          exact .refuses (by rw [stage]; rfl)
      | some user =>
          simp only [found] at advanced
          split_ifs at advanced with fresh
          obtain rfl := Option.some.inj advanced
          refine .signsIn userID user d _ stage found fresh ?_
          cases kind : r.kind with
          | login identifier password => exact Or.inl ⟨⟨identifier, password, rfl⟩, rfl⟩
          | _ => exact Or.inr rfl
  | checked userID =>
      simp only [advanceRequest, stage] at advanced
      cases found : s.users userID with
      | none =>
          simp only [found, Option.some.injEq] at advanced
          subst advanced
          exact .refuses (by rw [stage]; rfl)
      | some user =>
          simp only [found, Option.some.injEq] at advanced
          subst advanced
          exact .changes userID d.hashed user stage found
  | changed userID =>
      simp only [advanceRequest, stage, Option.some.injEq] at advanced
      subst advanced
      exact .starts _ (by rw [stage]; rfl) rfl fun _ _ _ _ => ⟨userID, d.now, stage, rfl⟩
  | executing c targets affected =>
      simp only [advanceRequest, stage] at advanced
      split_ifs at advanced with finished member
      · subst finished
        obtain rfl := Option.some.inj advanced
        exact completeCommand_advance stage
      · obtain ⟨⟨table, hit⟩, visited, rfl⟩ := Option.map_eq_some_iff.mp advanced
        obtain ⟨free, ⟨row, sees, picked, rfl, rfl⟩ | ⟨none_, rfl, rfl⟩⟩ :=
          Statement.visit_cases visited
        · exact .visits c targets affected d.id row stage member free sees picked
        · exact .passes c targets affected d.id stage member free none_
  | ended outcome =>
      simp only [advanceRequest, stage, reduceCtorEq] at advanced

/-- Everything a step of the machine can do. -/
theorem sessions_next {label : Label} (next : (sessions compare).next s label = some s') :
    (∃ kind, label = .arrive kind ∧
      s' = { s with requests := s.requests ++ [⟨kind, .begun, 0⟩] }) ∨
    (∃ i d r, label = .advance i d ∧ s.requests[i]? = some r ∧ Advance s i r s') ∨
    (∃ i r, label = .abort i ∧ s.requests[i]? = some r ∧ (∀ outcome, r.stage ≠ .ended outcome) ∧
      s' = { s with tokens := s.tokens.rollback i }.move i r (.ended .refused)) := by
  cases label with
  | arrive kind => exact Or.inl ⟨kind, rfl, (Option.some.inj next).symm⟩
  | advance i d =>
      obtain ⟨r, found, advanced⟩ := Option.bind_eq_some_iff.mp next
      exact Or.inr (Or.inl ⟨i, d, r, rfl, found, advanceRequest_advance advanced⟩)
  | abort i =>
      obtain ⟨r, found, aborted⟩ := Option.bind_eq_some_iff.mp next
      refine Or.inr (Or.inr ⟨i, r, rfl, found, ?_⟩)
      cases stage : r.stage <;> simp_all

end Inversion

end ScoutPulse.Identity
