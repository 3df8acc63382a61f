import Mathlib.Tactic.TypeStar

/-!
# The shared error taxonomy

An error is its kind, which the transport maps to a status, and the message a
client may read. The internal cause is only logged.
-/

namespace ScoutPulse

/-- `apperr.Kind`. -/
inductive ErrKind
  | internal
  | invalid
  | unauthorized
  | forbidden
  | notFound
  | conflict
  | rateLimited
  deriving DecidableEq, Repr

/-- `apperr.Error`. -/
structure AppErr where
  kind : ErrKind
  message : String
  deriving DecidableEq, Repr

namespace AppErr

def invalid (message : String) : AppErr := ⟨.invalid, message⟩
def unauthorized (message : String) : AppErr := ⟨.unauthorized, message⟩
def forbidden (message : String) : AppErr := ⟨.forbidden, message⟩
def notFound (message : String) : AppErr := ⟨.notFound, message⟩
def conflict (message : String) : AppErr := ⟨.conflict, message⟩
def internal : AppErr := ⟨.internal, "internal server error"⟩

end AppErr

end ScoutPulse
