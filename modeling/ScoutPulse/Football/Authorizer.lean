import ScoutPulse.Platform.AppErr
import ScoutPulse.Platform.Auth

/-!
# Who may write

The write rules of the football domain: administrators may write everything, editors
what belongs to a club they hold a grant for.
-/

namespace ScoutPulse

/-- `ErrForbidden`. -/
def errForbidden : AppErr := .forbidden "insufficient permissions"

/-- `ErrUnauthorized`. -/
def errUnauthorized : AppErr := .unauthorized "authentication required"

/-- The claims on a request's context, if any, and what `managesTeam` answers of a user
and a club. -/
structure Caller where
  claims : Option Claims
  managesTeam : String → String → Except AppErr Bool

namespace Caller

variable (c : Caller)

/-- `RequireAdmin`. -/
def requireAdmin : Except AppErr Unit :=
  match c.claims with
  | none => throw errUnauthorized
  | some claims => if claims.role ≠ .admin then throw errForbidden else return ()

/-- The clubs one of which an editor has to manage, tried in turn. -/
def managesOneOf (userID : String) : List (Option String) → Except AppErr Unit
  | [] => throw errForbidden
  | none :: rest => managesOneOf userID rest
  | some teamID :: rest => do
      if ← c.managesTeam userID teamID then return () else managesOneOf userID rest

/-- `RequireEitherTeam`. -/
def requireEitherTeam (current target : Option String) : Except AppErr Unit :=
  match c.claims with
  | none => throw errUnauthorized
  | some claims =>
      match claims.role with
      | .admin => return ()
      | .editor => c.managesOneOf claims.userID [current, target]
      | .member => throw errForbidden

/-- `RequireTeam`. -/
def requireTeam (teamID : String) : Except AppErr Unit :=
  match c.claims with
  | none => throw errUnauthorized
  | some claims =>
      match claims.role with
      | .admin => return ()
      | .editor => do
          if ← c.managesTeam claims.userID teamID then return () else throw errForbidden
      | .member => throw errForbidden

/-- `RequireTargetTeam`: what belongs to no club is the administrators'. -/
def requireTargetTeam (teamID : Option String) : Except AppErr Unit :=
  match teamID with
  | none => c.requireAdmin
  | some teamID => c.requireTeam teamID

/-- Administrators. -/
def IsAdmin : Prop := ∃ claims, c.claims = some claims ∧ claims.role = .admin

variable {c}

theorem requireEitherTeam_of_isAdmin (admin : c.IsAdmin) (current target : Option String) :
    c.requireEitherTeam current target = .ok () := by
  obtain ⟨claims, given, role⟩ := admin
  rw [requireEitherTeam, given]
  dsimp only
  rw [role]
  rfl

end Caller

end ScoutPulse
