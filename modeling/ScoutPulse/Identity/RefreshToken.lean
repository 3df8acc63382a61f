import ScoutPulse.Lib.ReadCommitted
import Mathlib.Algebra.Order.Ring.Int

/-!
# Refresh tokens

A row of `refresh_tokens` is a session. The statements on the table are the ones the
repository sends; beside what a row stores, the properties speak of the password the
session goes back to and of when it was exchanged, which nothing reads.
-/

namespace ScoutPulse.Identity

open ReadCommitted

/-- A point in time, in microseconds. -/
abbrev Time := ℤ

/-- The stored form of a token: its SHA-256, which two tokens do not share. -/
structure TokenHash where
  ofToken : String
  deriving DecidableEq, Repr

/-- `HashToken`. -/
def HashToken (token : String) : TokenHash := ⟨token⟩

/-- `model.RefreshToken`, by its `id`. -/
structure RefreshToken where
  userID : String
  tokenHash : TokenHash
  expiresAt : Time
  revokedAt : Option Time
  replacedBy : Option String
  deriving DecidableEq, Repr

/-- `RefreshToken.Active`: whether the token may still be exchanged. -/
def RefreshToken.active (t : RefreshToken) (now : Time) : Bool :=
  t.revokedAt = none && now < t.expiresAt

/-- A row with its history: how often its user's password had been changed when the
password behind the session was checked, and when the token was exchanged. -/
structure Session where
  token : RefreshToken
  generation : ℕ
  exchangedAt : Option Time
  deriving DecidableEq, Repr

/-- A row as it is inserted. -/
def Session.new (userID : String) (hash : TokenHash) (expiresAt : Time) (generation : ℕ) :
    Session :=
  ⟨⟨userID, hash, expiresAt, none, none⟩, generation, none⟩

/-- `SET revoked_at = NOW()`. -/
def Session.revoke (s : Session) (now : Time) : Session :=
  { s with token := { s.token with revokedAt := some now } }

/-- `SET revoked_at = NOW(), replaced_by = next`. -/
def Session.exchange (s : Session) (next : String) (now : Time) : Session :=
  { s with
    token := { s.token with revokedAt := some now, replacedBy := some next }
    exchangedAt := some now }

/-- `SET replaced_by = NULL`. -/
def Session.unlink (s : Session) : Session :=
  { s with token := { s.token with replacedBy := none } }

/-! ## Statements -/

/-- The conditional statements on the table. -/
inductive Command
  /-- The `UPDATE` of `Rotate`. -/
  | exchange (old next : String) (now : Time)
  /-- `Revoke`. -/
  | revoke (hash : TokenHash) (now : Time)
  /-- `RevokeAllForUser`. -/
  | revokeAll (userID : String) (now : Time)
  /-- `DeleteExpired`. -/
  | deleteExpired (before : Time)
  /-- `ON DELETE SET NULL` of `replaced_by`, for the rows a `DELETE` took. -/
  | unlink (deleted : List String)
  deriving DecidableEq, Repr

/-- The `WHERE` of a statement. -/
def Command.picks : Command → String → Session → Bool
  | .exchange old _ _, id, s => id = old && s.token.revokedAt = none
  | .revoke hash _, _, s => s.token.tokenHash = hash && s.token.revokedAt = none
  | .revokeAll userID _, _, s => s.token.userID = userID && s.token.revokedAt = none
  | .deleteExpired before, _, s => s.token.expiresAt < before
  | .unlink deleted, _, s => s.token.replacedBy.any deleted.contains

/-- What a statement leaves of a row. -/
def Command.change : Command → Session → Option Session
  | .exchange _ next now, s => some (s.exchange next now)
  | .revoke _ now, s => some (s.revoke now)
  | .revokeAll _ now, s => some (s.revoke now)
  | .deleteExpired _, _ => none
  | .unlink _, s => some s.unlink

def Command.statement (c : Command) : Statement String Session := ⟨c.picks, c.change⟩

/-! ## What becomes of a row -/

/-- What every version of a row is: exchanged only if revoked, and with a successor
only then. -/
structure Session.Marked (s : Session) : Prop where
  exchanged : ∀ t, s.exchangedAt = some t → s.token.revokedAt = some t
  replaced : s.token.revokedAt = none → s.token.replacedBy = none

/-- A later version of a row: the same session, revoked if it was, with no successor
that it had not when it was revoked. -/
structure Session.Later (s s' : Session) : Prop where
  userID : s'.token.userID = s.token.userID
  tokenHash : s'.token.tokenHash = s.token.tokenHash
  generation : s'.generation = s.generation
  revoked : ∀ t, s.token.revokedAt = some t → s'.token.revokedAt = some t
  replaced : s.token.revokedAt ≠ none → ∀ next, s'.token.replacedBy = some next →
    s.token.replacedBy = some next

namespace Session

theorem Later.refl (s : Session) : s.Later s :=
  ⟨rfl, rfl, rfl, fun _ revoked => revoked, fun _ _ replaced => replaced⟩

/-- A session later than a later one is later. -/
theorem Later.trans {s s' s'' : Session} (first : s.Later s') (second : s'.Later s'') :
    s.Later s'' := by
  refine ⟨second.userID.trans first.userID, second.tokenHash.trans first.tokenHash,
    second.generation.trans first.generation,
    fun t revoked => second.revoked t (first.revoked t revoked), ?_⟩
  intro revoked next replaced
  obtain ⟨t, at_⟩ := Option.ne_none_iff_exists'.mp revoked
  have still : s'.token.revokedAt ≠ none := by
    rw [first.revoked t at_]
    exact Option.some_ne_none t
  exact first.replaced revoked next (second.replaced still next replaced)

theorem new_marked (userID : String) (hash : TokenHash) (expiresAt : Time) (generation : ℕ) :
    (Session.new userID hash expiresAt generation).Marked :=
  ⟨fun _ exchanged => (nomatch exchanged), fun _ => rfl⟩

/-- Revoking a row that stands makes a later version of it. -/
theorem revoke_later {s : Session} (live : s.token.revokedAt = none) (now : Time) :
    s.Later (s.revoke now) ∧ (s.Marked → (s.revoke now).Marked) := by
  refine ⟨⟨rfl, rfl, rfl, ?_, fun revoked => absurd live revoked⟩, fun marked => ⟨?_, ?_⟩⟩
  · intro t revoked
    rw [live] at revoked
    cases revoked
  · intro t exchanged
    have revoked := marked.exchanged t exchanged
    rw [live] at revoked
    cases revoked
  · exact fun revoked => nomatch revoked

end Session

/-- A statement turns a row it picks into a later version, well marked if it was. -/
theorem Command.change_later {c : Command} {id : String} {s s' : Session}
    (picked : c.picks id s = true) (changed : c.change s = some s') :
    s.Later s' ∧ (s.Marked → s'.Marked) := by
  cases c with
  | exchange old next now =>
      simp only [Command.picks, Bool.and_eq_true, decide_eq_true_eq] at picked
      obtain ⟨-, live⟩ := picked
      obtain rfl := Option.some.inj changed
      refine ⟨⟨rfl, rfl, rfl, ?_, fun revoked => absurd live revoked⟩, fun _ => ⟨?_, ?_⟩⟩
      · intro t revoked
        rw [live] at revoked
        cases revoked
      · exact fun t exchanged => exchanged
      · exact fun revoked => nomatch revoked
  | revoke hash now =>
      simp only [Command.picks, Bool.and_eq_true, decide_eq_true_eq] at picked
      obtain rfl := Option.some.inj changed
      exact Session.revoke_later picked.2 now
  | revokeAll userID now =>
      simp only [Command.picks, Bool.and_eq_true, decide_eq_true_eq] at picked
      obtain rfl := Option.some.inj changed
      exact Session.revoke_later picked.2 now
  | deleteExpired before => cases changed
  | unlink deleted =>
      obtain rfl := Option.some.inj changed
      refine ⟨⟨rfl, rfl, rfl, fun _ revoked => revoked, fun _ _ replaced => nomatch replaced⟩, ?_⟩
      intro marked
      exact ⟨marked.exchanged, fun _ => rfl⟩

end ScoutPulse.Identity
