import ScoutPulse.Football.Authorizer
import ScoutPulse.Lib.Machine
import ScoutPulse.Lib.Outcome
import ScoutPulse.Lib.Parties
import ScoutPulse.Lib.Strings
import ScoutPulse.Lib.Uuid
import Mathlib.Algebra.Order.Ring.Int

/-!
# Editors' grants

The answers of `managesTeam`, from a cache in front of `team_editors`, and the requests
that change the grants and drop the cached answers afterwards, for any number of them at
once in one process. A step is a look into the cache, a statement, or a change of the
cache under its lock. The table goes by the UUIDs of users and clubs, the cache by their
texts.
-/

open Outcome

namespace ScoutPulse.Grants

open Strings

/-- A point in time, in nanoseconds. -/
abbrev Time := ℤ

/-- `grantCacheTTL`. -/
def grantCacheTTL : Time := 5 * 1000000000

/-- `cachedGrant`, and what nothing reads: whom and which club it was queried for, and how often
the grants had been changed then. -/
structure CachedGrant where
  manages : Bool
  expiresAt : Time
  userID : String
  teamID : String
  version : ℕ
  deriving DecidableEq, Repr

/-- A `Grant` or `Revoke`, and how often the grants had been changed after its statement. -/
structure Change where
  userID : String
  teamID : String
  version : ℕ
  deriving DecidableEq, Repr

/-- A change is of the user and the club that two texts name. -/
def Change.Names (c : Change) (userID teamID : String) : Prop :=
  Uuid.parse c.userID = Uuid.parse userID ∧ Uuid.parse c.teamID = Uuid.parse teamID

instance (c : Change) (userID teamID : String) : Decidable (c.Names userID teamID) :=
  inferInstanceAs (Decidable (_ ∧ _))

/-- What a request was sent for. -/
inductive Kind
  | managesTeam (userID teamID : String)
  | grant (caller : Caller) (userID teamID : String)
  | revoke (caller : Caller) (userID teamID : String)
  | deleteTeam (caller : Caller) (teamID : String)
  /-- The events of the identity service. -/
  | userDeleted (userID : String)
  | roleChanged (userID : String)

/-- How far a request has come. -/
inductive Stage
  | begun
  /-- `managesTeam` has found no answer in the cache. -/
  | querying (now : Time)
  /-- `Manages` has answered, on the grants of a version. -/
  | filling (now : Time) (manages : Bool) (version : ℕ)
  | decided (manages : Bool) (version : Option ℕ)
  /-- `Grant` has found the club. -/
  | admitted
  /-- The grants are changed, and the cached answers are to be dropped. -/
  | changed (version : ℕ)
  | ended (reason : Option AppErr)
  deriving DecidableEq, Repr

/-- A request, and the changes that had returned when it arrived. -/
structure Request where
  kind : Kind
  stage : Stage
  before : List Change

/-- The clubs, the grants and how often they were changed, the cache, the requests in order
of arrival, and every `Grant` and `Revoke` that has returned, the latest first. -/
structure State where
  teams : Uuid → Bool
  grants : Uuid → Uuid → Bool
  version : ℕ
  cache : List (String × CachedGrant)
  requests : List Request
  returned : List Change

inductive Label
  | arrive (kind : Kind)
  | advance (i : ℕ) (now : Time)
  | fail (i : ℕ)

def key (userID teamID : String) : String := userID ++ "\x00" ++ teamID

namespace State

variable (s : State)

/-- A request comes to another stage. -/
def move (i : ℕ) (r : Request) (stage : Stage) : State :=
  { s with requests := s.requests.set i { r with stage := stage } }

def cached (k : String) : Option CachedGrant := (s.cache.find? (·.1 = k)).map Prod.snd

/-- An answer is cached; the expired ones are swept when there are many. -/
def fill (k : String) (entry : CachedGrant) (now : Time) : State :=
  let cache := (k, entry) :: s.cache.filter (·.1 ≠ k)
  { s with
    cache := if 1024 < cache.length then cache.filter fun x => ¬ x.2.expiresAt < now else cache }

/-- `InvalidateUser`. -/
def invalidateUser (userID : String) : State :=
  { s with cache := s.cache.filter fun x => ¬ hasPrefix x.1 (userID ++ "\x00") }

/-- `InvalidateTeam`. -/
def invalidateTeam (teamID : String) : State :=
  { s with cache := s.cache.filter fun x =>
      ¬ (1 + byteLen teamID < byteLen x.1 ∧ ("\x00" ++ teamID).toList.isSuffixOf x.1.toList) }

/-- The grants are changed, if they are. -/
def store (grants : Uuid → Uuid → Bool) (same : Bool) : State :=
  { s with grants := grants, version := if same then s.version else s.version + 1 }

/-- A `Grant` or `Revoke` returns. -/
def finish (i : ℕ) (r : Request) (change : Change) : State :=
  { s with returned := change :: s.returned }.move i r (.ended none)

end State

/-- What `translate` makes of a text that is no UUID. -/
def errMalformed : AppErr := .invalid "malformed identifier"

section Step

-- Whether `uuid.Parse` succeeds.
variable (validUUID : String → Bool)

/-- The steps of `managesTeam`. -/
def lookUp (s : State) (i : ℕ) (r : Request) (now : Time) (userID teamID : String) :
    Stage → Option State
  | .begun =>
      if userID = "" ∨ teamID = "" then some (s.move i r (.decided false none))
      else match s.cached (key userID teamID) with
        | none => some (s.move i r (.querying now))
        | some entry =>
            if now < entry.expiresAt then
              some (s.move i r (.decided entry.manages (some entry.version)))
            else some (s.move i r (.querying now))
  | .querying started =>
      match Uuid.parse userID, Uuid.parse teamID with
      | some user, some team => some (s.move i r (.filling started (s.grants user team) s.version))
      | _, _ => some (s.move i r (.ended (some errMalformed)))
  | .filling started manages version =>
      let entry := ⟨manages, started + grantCacheTTL, userID, teamID, version⟩
      some ((s.fill (key userID teamID) entry started).move i r (.decided manages (some version)))
  | _ => none

/-- `Grant`, up to its look-up of the club. -/
def admitGrant (s : State) (caller : Caller) (userID teamID : String) : Except AppErr Unit := do
  caller.requireAdmin
  if userID = "" ∨ teamID = "" then throw (.invalid "user_id and team_id are required")
  if validUUID userID = false then throw (.invalid "user_id must be a UUID")
  match Uuid.parse teamID with
  | none => throw errMalformed
  | some team => if s.teams team = false then throw (.notFound "team not found")

/-- The steps of `Grant`. Granting what is granted changes nothing. -/
def grant (s : State) (i : ℕ) (r : Request) (caller : Caller) (userID teamID : String) :
    Stage → Option State
  | .begun =>
      match admitGrant validUUID s caller userID teamID with
      | .error reason => some (s.move i r (.ended (some reason)))
      | .ok _ => some (s.move i r .admitted)
  | .admitted =>
      match Uuid.parse userID, Uuid.parse teamID with
      | some user, some team =>
          if s.teams team = false then
            some (s.move i r (.ended (some (.invalid "referenced record does not exist"))))
          else
            let stored := s.store (fun u t => (u = user ∧ t = team) ∨ s.grants u t)
              (s.grants user team)
            some (stored.move i r (.changed stored.version))
      | _, _ => some (s.move i r (.ended (some errMalformed)))
  | .changed version => some ((s.invalidateUser userID).finish i r ⟨userID, teamID, version⟩)
  | _ => none

/-- The steps of `Revoke`. -/
def revoke (s : State) (i : ℕ) (r : Request) (caller : Caller) (userID teamID : String) :
    Stage → Option State
  | .begun =>
      match caller.requireAdmin with
      | .error reason => some (s.move i r (.ended (some reason)))
      | .ok _ =>
          match Uuid.parse userID, Uuid.parse teamID with
          | some user, some team =>
              if s.grants user team = false then
                some (s.move i r (.ended (some (.notFound "team editor not found"))))
              else
                let stored := s.store (fun u t => ¬ (u = user ∧ t = team) ∧ s.grants u t) false
                some (stored.move i r (.changed stored.version))
          | _, _ => some (s.move i r (.ended (some errMalformed)))
  | .changed version => some ((s.invalidateUser userID).finish i r ⟨userID, teamID, version⟩)
  | _ => none

/-- The steps of `DeleteTeam`: a club's grants go with it. -/
def deleteTeam (s : State) (i : ℕ) (r : Request) (caller : Caller) (teamID : String) :
    Stage → Option State
  | .begun =>
      match caller.requireAdmin with
      | .error reason => some (s.move i r (.ended (some reason)))
      | .ok _ =>
          match Uuid.parse teamID with
          | none => some (s.move i r (.ended (some errMalformed)))
          | some team =>
              if s.teams team = false then
                some (s.move i r (.ended (some (.notFound "team not found"))))
              else
                let stored := s.store (fun u t => t ≠ team ∧ s.grants u t) false
                some ({ stored with teams := fun t => t ≠ team ∧ s.teams t }.move i r
                  (.changed stored.version))
  | .changed _ => some ((s.invalidateTeam teamID).move i r (.ended none))
  | _ => none

/-- The steps of `handleUserDeleted` that concern the grants. -/
def userDeleted (s : State) (i : ℕ) (r : Request) (userID : String) : Stage → Option State
  | .begun =>
      if userID = "" then some (s.move i r (.ended none))
      else match Uuid.parse userID with
        | none => some (s.move i r (.ended (some errMalformed)))
        | some user =>
            let stored := s.store (fun u t => u ≠ user ∧ s.grants u t) false
            some (stored.move i r (.changed stored.version))
  | .changed _ => some ((s.invalidateUser userID).move i r (.ended none))
  | _ => none

/-- `handleRoleChanged`. -/
def roleChanged (s : State) (i : ℕ) (r : Request) (userID : String) : Stage → Option State
  | .begun =>
      if userID = "" then some (s.move i r (.ended none))
      else some ((s.invalidateUser userID).move i r (.ended none))
  | _ => none

/-- One step of a request. -/
def advanceRequest (s : State) (i : ℕ) (r : Request) (now : Time) : Option State :=
  match r.kind with
  | .managesTeam userID teamID => lookUp s i r now userID teamID r.stage
  | .grant caller userID teamID => grant validUUID s i r caller userID teamID r.stage
  | .revoke caller userID teamID => revoke s i r caller userID teamID r.stage
  | .deleteTeam caller teamID => deleteTeam s i r caller teamID r.stage
  | .userDeleted userID => userDeleted s i r userID r.stage
  | .roleChanged userID => roleChanged s i r userID r.stage

/-- A process that starts with an empty cache. -/
def authorizer : Machine State Label where
  start s := s.cache = [] ∧ s.requests = [] ∧ s.returned = []
  next s
    | .arrive kind => some { s with requests := s.requests ++ [⟨kind, .begun, s.returned⟩] }
    | .advance i now => (s.requests[i]?).bind fun r => advanceRequest validUUID s i r now
    | .fail i => (s.requests[i]?).bind fun r =>
        match r.stage with
        | .decided _ _ | .ended _ => none
        | _ => some (s.move i r (.ended (some .internal)))

end Step

/-- An answer on the grants of a version is after every change of the same user's and
club's that had returned when the request arrived. -/
def Request.After (r : Request) (version : ℕ) : Prop :=
  ∀ userID teamID, r.kind = .managesTeam userID teamID → ∀ c ∈ r.before,
    c.Names userID teamID → c.version ≤ version

/-- No decision is answered from the grants before a change that had returned when it
began. -/
def Immediate (s : State) : Prop :=
  ∀ r ∈ s.requests, ∀ manages version, r.stage = .decided manages (some version) →
    r.After version

/-- The answer a request is about to cache: for whom and which club, and the version of its
grants. -/
def Request.filling (r : Request) : Option (String × String × ℕ) :=
  match r.kind, r.stage with
  | .managesTeam userID teamID, .filling _ _ version => some (userID, teamID, version)
  | _, _ => none

/-- The change a `Grant` or `Revoke` is about to return. -/
def Request.returning (r : Request) : Option Change :=
  match r.kind, r.stage with
  | .grant _ userID teamID, .changed version => some ⟨userID, teamID, version⟩
  | .revoke _ userID teamID, .changed version => some ⟨userID, teamID, version⟩
  | _, _ => none

/-- The condition on a step: an answer is cached only if no change of the same user's and
club's has returned since it was read, and a change returns only if the answers cached for the
same user and club from before it are cached under the text it was given for the user. -/
def Unraced (s : State) : Label → Prop
  | .advance i _ => ∀ r ∈ s.requests[i]?,
      (∀ x ∈ r.filling, ∀ c ∈ s.returned, c.Names x.1 x.2.1 → c.version ≤ x.2.2) ∧
      ∀ c ∈ r.returning, ∀ x ∈ s.cache, c.Names x.2.userID x.2.teamID →
        hasPrefix x.1 (c.userID ++ "\x00") = true ∨ c.version ≤ x.2.version
  | _ => True

instance (s : State) (label : Label) : Decidable (Unraced s label) :=
  match label with
  | .advance i _ => inferInstanceAs (Decidable (∀ r ∈ s.requests[i]?,
      (∀ x ∈ r.filling, ∀ c ∈ s.returned, c.Names x.1 x.2.1 → c.version ≤ x.2.2) ∧
      ∀ c ∈ r.returning, ∀ x ∈ s.cache, c.Names x.2.userID x.2.teamID →
        hasPrefix x.1 (c.userID ++ "\x00") = true ∨ c.version ≤ x.2.version))
  | .arrive _ => .isTrue trivial
  | .fail _ => .isTrue trivial

end ScoutPulse.Grants
