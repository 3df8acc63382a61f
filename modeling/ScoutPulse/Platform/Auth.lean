/-!
# The caller of a request

What the services read of an access token: who is calling, and with which role.
-/

namespace ScoutPulse

/-- The roles a decision is made on. Every other role is a plain member's. -/
inductive Role
  | admin
  | editor
  | member
  deriving DecidableEq, Repr

/-- `auth.Claims`. -/
structure Claims where
  userID : String
  role : Role
  username : String
  deriving DecidableEq, Repr

end ScoutPulse
